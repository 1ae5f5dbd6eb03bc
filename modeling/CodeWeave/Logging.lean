/-!
# Logging

The log has one sink at one level. Setting the level that is configured
already changes nothing.
-/

namespace CodeWeave

namespace Logging

/-- A change of the log's sinks. -/
inductive SinkChange where
  | removed
  | added (level format : String)
  deriving DecidableEq, Repr

def entryFormat : String :=
  "<green>\x7btime:YYYY-MM-DD HH:mm:ss\x7d</green> | <level>\x7blevel: <8\x7d</level> | " ++
    "<cyan>\x7bname\x7d</cyan>:<cyan>\x7bfunction\x7d</cyan> - <level>\x7bmessage\x7d</level>"

/-- The level without one that is asked for. -/
def standardLevel : String := "WARNING"

/-- Sets the level of the log: the sinks are replaced, unless the level is the
configured one. -/
def setLevel (configured : Option String) (level : String) : String × List SinkChange :=
  (level, if configured = some level then [] else [.removed, .added level entryFormat])

end Logging

end CodeWeave
