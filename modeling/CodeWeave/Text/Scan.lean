import CodeWeave.Text.Basic

/-!
# Scanning for a pattern

A pattern looks at the head of a text and tells how long its occurrence there is.
Everything else is derived from that: whether it occurs, its occurrences from left to
right without overlap, and the text with every occurrence replaced.
-/

namespace CodeWeave.Text

/-! ## Reading at the head of a text -/

/-- What follows `part` at the head of the text. -/
def skip (part t : Text) : Option Text := part.isPrefixOf? t

/-- What follows the white space at the head of the text, of which there must be some. -/
def skipBlanks (t : Text) : Option Text :=
  match t with
  | c :: cs => if isBlank c then some (trimStart cs) else none
  | [] => none

/-- Passes over as many characters as `next` allows, up to the first one that is a `stop`:
the longest way is tried first. -/
def longest {α : Type} (stop : Char → Bool) (next : Text → Option α) : Text → Option α
  | [] => next []
  | c :: cs =>
    if stop c then next (c :: cs)
    else match longest stop next cs with
      | some a => some a
      | none => next (c :: cs)

/-- Passes over as few characters as `next` allows, and gives them with its answer. -/
def shortest {α : Type} (next : Text → Option α) : Text → Option (Text × α)
  | [] => (next []).map ([], ·)
  | c :: cs =>
    match next (c :: cs) with
    | some a => some ([], a)
    | none => (shortest next cs).map fun (t, a) => (c :: t, a)

/-- The text before the last `c`. -/
def beforeLast (c : Char) : Text → Option Text
  | [] => none
  | d :: ds =>
    match beforeLast c ds with
    | some t => some (d :: t)
    | none => if d = c then some [] else none

/-! ## Patterns -/

/-- A pattern tells the length of its occurrence at the head of a text. -/
abbrev Pattern := Text → Option Nat

/-- The pattern of a reader that gives what follows its occurrence. -/
def Pattern.ofReader (read : Text → Option Text) : Pattern := fun t =>
  (read t).map fun rest => t.length - rest.length

/-- Whether the pattern occurs anywhere in the text. -/
def Pattern.occurs (p : Pattern) : Text → Bool
  | [] => (p []).isSome
  | c :: cs => (p (c :: cs)).isSome || Pattern.occurs p cs

/-- A text cut at the occurrences of a pattern: a character outside them,
or a whole one. -/
inductive Piece where
  | plain (c : Char)
  | hit (t : Text)
  deriving Repr, DecidableEq

namespace Pattern

/-- Cuts a text at the occurrences of the pattern, the leftmost first, the next one looked
for after the end of the one before. -/
def pieces (p : Pattern) (t : Text) : List Piece :=
  match t with
  | [] => []
  | c :: cs =>
    match p (c :: cs) with
    | some (n + 1) => .hit (c :: cs.take n) :: pieces p (cs.drop n)
    | _ => .plain c :: pieces p cs
termination_by t.length
decreasing_by
  · simp only [List.length_drop, List.length_cons]; omega
  · simp only [List.length_cons]; omega

/-- The text with every occurrence replaced. -/
def replace (p : Pattern) (new : Text → Text) (t : Text) : Text :=
  (p.pieces t).flatMap fun
    | .plain c => [c]
    | .hit h => new h

/-- The occurrences, from left to right. -/
def hits (p : Pattern) (t : Text) : List Text :=
  (p.pieces t).filterMap fun
    | .plain _ => none
    | .hit h => some h

/-- Start and end of each occurrence in a cut text whose first piece starts at `start`. -/
def spansFrom (start : Nat) : List Piece → List (Nat × Nat)
  | [] => []
  | .plain _ :: ps => spansFrom (start + 1) ps
  | .hit h :: ps => (start, start + h.length) :: spansFrom (start + h.length) ps

/-- Start and end of each occurrence. -/
def spans (p : Pattern) (t : Text) : List (Nat × Nat) := spansFrom 0 (p.pieces t)

end Pattern

/-- The first place of the text where the reader succeeds, with what stands before it. -/
def findFirst {α : Type} (read : Text → Option α) (t : Text) : Option (Text × α) :=
  shortest read t

end CodeWeave.Text
