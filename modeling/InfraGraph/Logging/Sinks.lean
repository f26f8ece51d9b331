import InfraGraph.Logging.Layout
import InfraGraph.Settings

/-!
# Sinks

Where log records go. Configuring the log replaces all sinks: one writes to the console and, if a
file is named, another to the file. Files exist from the moment they are named, and stay when
their sink is replaced. Loggers of the library have a level of their own, all others take the
level of the root.
-/

namespace InfraGraph.Logging

/-- A place that log records are written to. -/
structure Sink where
  /-- The name of the file, or none for the console. -/
  file : Option String
  level : Level
  layout : Layout
  deriving DecidableEq, Repr, Inhabited

/-- The state of the log: the level of the root and that of the library, the sinks, and what has
been written. -/
structure Outlet where
  rootLevel : Level
  ownLevel : Level
  sinks : List Sink
  console : String
  files : Table String String
  deriving Inhabited

/-- The levels by name. Two of them have a second name. -/
def levelTable : List (String × Level) :=
  [("CRITICAL",.critical),("FATAL",.critical),("ERROR",.error),("WARNING",.warning),
   ("WARN",.warning),("INFO",.info),("DEBUG",.debug),("NOTSET",0)]

/-- The one name of a format that a level could be confused with. -/
def formatName : String := "BASIC_FORMAT"

/-- The level with a name in any case; unknown names give the level of normal progress. -/
def readLevel (name : String) : Except Fault Level :=
  let word := Text.upper name
  if word == formatName then
    .error (.badValue "Unknown level: '%(levelname)s:%(name)s:%(message)s'")
  else .ok ((levelTable.lookup word).getD .info)

/-- The layout that a configured log uses. -/
def configuredLayout (json : Bool) : Except Fault Layout :=
  if json then Layout.make none none "%" true
  else
    Layout.make (some "%(asctime)s - %(name)s - %(levelname)s - %(message)s")
      (some "%Y-%m-%d %H:%M:%S") "%" false

namespace Outlet

/-- The name of the file that settings ask for, unless it is empty. -/
def namedFile (s : LogSettings) : Option String := s.file.filter (!·.isEmpty)

/-- Configure the log. -/
def configure (o : Outlet) (s : LogSettings) : Except Fault Outlet := do
  let level ← readLevel s.level
  let layout ← configuredLayout s.json
  let files := (namedFile s).toList
  return { o with
    rootLevel := level
    ownLevel := level
    sinks := ⟨none,level,layout⟩ :: files.map fun name => ⟨some name,level,layout⟩
    files := files.foldl (fun t name => t.insertNew name "") o.files }

def ownLogger : String := "har"

/-- The name under which a logger writes: the one without a name is the root. -/
def shownName (logger : String) : String := if logger.isEmpty then "root" else logger

def isOwn (logger : String) : Bool := logger == ownLogger || logger.startsWith (ownLogger ++ ".")

/-- The level in force for a logger. The level zero of the library's logger stands for that of
the root. -/
def effectiveLevel (o : Outlet) (logger : String) : Level :=
  if isOwn logger && o.ownLevel != 0 then o.ownLevel else o.rootLevel

/-- Whether a logger lets records of a level pass. Levels below one never pass. -/
def admits (o : Outlet) (logger : String) (level : Level) : Bool :=
  0 < level && o.effectiveLevel logger ≤ level

/-- Write a line to a sink. -/
def write (o : Outlet) (sink : Sink) (line : String) : Outlet :=
  match sink.file with
  | none => { o with console := o.console ++ line ++ "\n" }
  | some name => { o with files := o.files.update name "" (· ++ line ++ "\n") }

/-- Write an event to those of some sinks whose level it reaches. -/
def writeAll (c : LogContext) (level : Level) (e : Event) :
    List Sink → Outlet → Except Fault Outlet
  | [], o => .ok o
  | sink :: rest, o =>
    if sink.level ≤ level then do
      let line ← sink.layout.format c e
      writeAll c level e rest (o.write sink line)
    else writeAll c level e rest o

/-- Log an event. -/
def emit (o : Outlet) (c : LogContext) (source : EventSource) (logger : String) :
    Except Fault Outlet :=
  if o.admits logger source.level then do
    writeAll c source.level (← source.event) o.sinks o
  else .ok o

end Outlet

end InfraGraph.Logging
