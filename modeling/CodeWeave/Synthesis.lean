import CodeWeave.Diff.Block
import CodeWeave.Merge

/-!
# Synthesis

Two candidates for one file become one: both are redacted before anything else looks at
them, each is segmented, their imports are united and their bodies merged, and the file is
compared with the redacted cloud candidate.
-/

namespace CodeWeave

/-- A synthesized file and how it differs from the redacted cloud candidate. -/
structure Synthesis where
  code : Text
  diff : List DiffBlock := []
  deriving DecidableEq, Repr

namespace Synthesis

/-- The file that two segmented candidates make. -/
def codeOf (cloud loc : Segments) : Text :=
  Merge.assemble (Merge.imports cloud.imports loc.imports)
    (Merge.body cloud loc) cloud.exports

end Synthesis

/-- Synthesizes one file from two candidates; a missing one counts as empty. -/
def synthesize (cloud loc : Option Text) : Synthesis :=
  let safeCloud := redact (cloud.getD [])
  let safeLocal := redact (loc.getD [])
  let code := Synthesis.codeOf (segment safeCloud) (segment safeLocal)
  ⟨code, Diff.between safeCloud code⟩

end CodeWeave
