import CodeWeave.Text.Basic

/-!
# Paths

A path is written with slashes. Empty components and single dots say nothing and
are dropped; two dots are a component of their own here, and are only resolved
against a directory.
-/

namespace CodeWeave.Path

open Text

/-- The components of a written path. -/
def components (path : Text) : List Text :=
  (path.splitOn '/').filter fun c => !c.isEmpty && c != ['.']

/-- The path starts at the root. -/
def isAbsolute (path : Text) : Bool := path.head? == some '/'

/-- The path as it is shown: its components, with one slash between two of them. A
single full stop stands for no component at all, and exactly two slashes at the
start are kept. -/
def normal (path : Text) : Text :=
  let slashes := (path.takeWhile (· == '/')).length
  let stem := List.replicate (if slashes = 2 then 2 else min slashes 1) '/'
  let t := stem ++ ['/'].intercalate (components path)
  if t.isEmpty then ['.'] else t

/-- The last component, empty if there is none. -/
def fileName (path : Text) : Text := ((components path).getLast?).getD []

/-- What a component has from its last full stop on, unless the full stop is its first or
last character. -/
def suffixOf (name : Text) : Text :=
  let tail := (name.reverse.takeWhile (· != '.')).reverse
  if tail.isEmpty ∨ name.length ≤ tail.length + 1 then [] else '.' :: tail

/-- The languages of file suffixes. -/
def languages : List (String × String) :=
  [(".ts", "typescript"), (".tsx", "typescript"), (".js", "javascript"),
   (".jsx", "javascript"), (".css", "css"), (".json", "json"), (".html", "html"),
   (".md", "markdown"), (".yml", "yaml"), (".yaml", "yaml")]

/-- The language of a file, by its suffix in any case. No letter beyond ASCII has a lower
case that occurs in a suffix of the table. -/
def language (path : String) : String :=
  let suffix := String.ofList (lowerAscii (suffixOf (fileName path.toList)))
  ((languages.find? (·.1 == suffix)).map (·.2)).getD "plaintext"

end CodeWeave.Path
