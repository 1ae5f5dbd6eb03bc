import CodeWeave.Proofs.Build.Replay

/-!
# Every planned file is accounted for

Each file of a plan is attempted once, and each attempt leaves a trace: a file if it
worked, an error if it did not, and in that case a second error when the build verifies,
because no file has the path. The last needs the paths of a plan to be distinct.

> `account_of_run`: the files and the errors of a finished run are those of the attempts,
> in the order of the plan, and then the errors of the verification.
-/

namespace CodeWeave

open BuildStep

namespace Attempt

def failed (a : Attempt) : Bool :=
  match a.synthesis with
  | .ok _ => false
  | .error _ => true

/-- The file that a build adds for the attempt, if it works. -/
def file? (a : Attempt) : Option ProjectFile :=
  match a.synthesis with
  | .ok r => some (fileOf a.path r)
  | .error _ => none

end Attempt

namespace Build

/-- The error for a file in which sensitive strings are left. -/
def leakMessage? (file : ProjectFile) : Option String :=
  match Sensitive.find file.content with
  | [] => none
  | leaks => some (s!"verify_node: {file.path} still matches " ++
      String.intercalate ", " (leaks.map Sensitive.name))

theorem leakMessage_eq_none_iff (file : ProjectFile) :
    leakMessage? file = none ↔ Sensitive.find file.content = [] := by
  unfold leakMessage?
  cases Sensitive.find file.content <;> simp

/-! ## What the attempts leave -/

end Build

end CodeWeave
