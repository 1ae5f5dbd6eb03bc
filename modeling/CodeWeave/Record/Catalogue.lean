import CodeWeave.Project.Record
import CodeWeave.Settings.Basic

/-!
# All records

The records by name, each with its shape and with whether it can be
changed once it is made.
-/

namespace CodeWeave.Shape

/-- The shapes of all records, with whether a record can be changed. -/
def records : List (String × Shape × Bool) :=
  [("DiffLine", diffBlock, false), ("SegmentSet", segments, false),
   ("MergePolicyState", mergePolicy, false), ("SynthesisResult", synthesis, false),
   ("FileNode", projectFile, true), ("GitHubState", repository, true),
   ("ProjectState", project, true), ("ProviderSettings", settings, true)]

end CodeWeave.Shape
