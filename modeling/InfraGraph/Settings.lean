import InfraGraph.Table
import InfraGraph.Text.Case
import InfraGraph.Text.Integer

/-!
# Settings

Settings are read from a table of named texts, the environment. A text that does not write a
setting leaves the default in force.
-/

namespace InfraGraph

/-- Named texts. -/
abbrev Environment := Table String String

/-- The words that turn a setting on. -/
def affirmatives : List String := ["1","true","yes","on"]

/-- The policies for dependencies that cross partitions. -/
def ignorePolicy : String := "ignore"

/-- The policy that logs the dependencies that a partitioning drops. -/
def warnPolicy : String := "warn"

/-- Settings of graphs. They change what is logged and displayed, and a result only where a key
function looks at what is displayed. -/
structure GraphSettings where
  droppedEdgePolicy : String := ignorePolicy
  displayParamLimit : Int := 3
  deriving DecidableEq, Repr, Inhabited

namespace GraphSettings

/-- Whether a partitioning logs the dependencies that it drops. -/
def warnsOnDroppedEdges (s : GraphSettings) : Bool := s.droppedEdgePolicy == warnPolicy

/-- The policy that a text names: white space around it and the case do not count, and two names
stand for others. -/
def readPolicy (text : String) : String :=
  let word := Text.lower (Text.strip text)
  if word == "warn" || word == "warning" then warnPolicy else ignorePolicy

/-- A positive integer, or else the default. -/
def readPositive (text : Option String) (default : Int) : Int :=
  match text with
  | none => default
  | some s =>
    match Text.readInteger? (Text.strip s).toList with
    | some n => if 0 < n then n else default
    | none => default

/-- The settings of graphs that an environment holds. -/
def load (env : Environment) : GraphSettings where
  droppedEdgePolicy := readPolicy ((env.get? "HAR_PARTITION_DROPPED_EDGES").getD ignorePolicy)
  displayParamLimit := readPositive (env.get? "HAR_DISPLAY_PARAM_LIMIT") 3

end GraphSettings

/-- Settings of the log. -/
structure LogSettings where
  level : String := "INFO"
  json : Bool := false
  file : Option String := none
  deriving DecidableEq, Repr, Inhabited

namespace LogSettings

def levelNames : List String := ["DEBUG","INFO","WARNING","ERROR","CRITICAL"]

/-- The level that a text names, in any case and with white space around it. -/
def readLevel (text : String) : String :=
  let word := Text.upper (Text.strip text)
  if levelNames.contains word then word else "INFO"

/-- A file name without the white space around it; a blank one names no file. -/
def readFile (text : Option String) : Option String :=
  match text with
  | none => none
  | some s => if (Text.strip s).isEmpty then none else some (Text.strip s)

/-- The settings of the log that an environment holds. -/
def load (env : Environment) : LogSettings where
  level := readLevel ((env.get? "HAR_LOG_LEVEL").getD "INFO")
  json := affirmatives.contains (Text.lower (Text.strip ((env.get? "HAR_LOG_JSON").getD "")))
  file := readFile (env.get? "HAR_LOG_FILE")

end LogSettings

/-- Whether an environment asks for verbose failures. White space is not ignored here. -/
def isVerbose (env : Environment) : Bool :=
  affirmatives.contains (Text.lower ((env.get? "HAR_DEBUG").getD ""))

end InfraGraph
