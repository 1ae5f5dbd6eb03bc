/-!
# The environment

The variables that a program is started with. For most of them an empty value
counts as none at all.
-/

namespace CodeWeave

/-- Variables of the environment by name. -/
abbrev Environment := String → Option String

/-- A text that is there and not empty. -/
def nonEmpty? : Option String → Option String
  | some s => if s.isEmpty then none else some s
  | none => none

end CodeWeave
