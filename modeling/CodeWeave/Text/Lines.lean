import CodeWeave.Text.Basic

/-!
# Lines

A text falls into lines that keep their endings, so that nothing is lost: `flatten_lines`
puts the text together again. A carriage return and the line feed after it are one ending.
-/

namespace CodeWeave.Text

/-- The characters that end a line: line feed to carriage return, the file, group and
record separators, next line, and the Unicode line and paragraph separators. -/
def isLineEnd (c : Char) : Bool :=
  (10 ≤ c.toNat && c.toNat ≤ 13) || (28 ≤ c.toNat && c.toNat ≤ 30) || c.toNat == 0x85 ||
    c.toNat == 0x2028 || c.toNat == 0x2029

/-- The lines of a text, each with its ending; the last one may have none. -/
def lines : Text → List Text
  | [] => []
  | '\r' :: '\n' :: cs => ['\r', '\n'] :: lines cs
  | c :: cs =>
    if isLineEnd c then [c] :: lines cs
    else match lines cs with
      | [] => [[c]]
      | l :: ls => (c :: l) :: ls

def lineBody (line : Text) : Text := line.takeWhile fun c => !isLineEnd c

/-- The lines of a text without their endings. -/
def bareLines (t : Text) : List Text := (lines t).map lineBody

/-- The text in which every carriage return, with the line feed after it if there is one,
is a line feed. -/
def unifyNewlines : Text → Text
  | [] => []
  | '\r' :: '\n' :: cs => '\n' :: unifyNewlines cs
  | c :: cs => (if c = '\r' then '\n' else c) :: unifyNewlines cs

/-- The lines are the text, cut. -/
theorem flatten_lines (t : Text) : (lines t).flatten = t := by
  fun_induction lines t with
  | case1 => rfl
  | case2 cs ih => simp [ih]
  | case3 c cs _ _ ih => simp [ih]
  | case4 c cs _ _ h ih => simp [h] at ih; simp [← ih]
  | case5 c cs _ _ l ls h ih => simp [h] at ih; simp [← ih]

end CodeWeave.Text
