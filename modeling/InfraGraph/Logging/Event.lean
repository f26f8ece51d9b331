import InfraGraph.Fault
import InfraGraph.Run

/-!
# Events

What a log record looks like to a layout: named attributes in a fixed order, with extra ones
behind them, and the failure that the record is about, if any.
-/

namespace InfraGraph

namespace LogContext

def fields (c : LogContext) : List (String × Option String) :=
  [("request_id",c.requestId),("operation",c.operation),("source_format",c.sourceFormat)]

/-- A part of a context as a value. -/
def fieldValue : Option String → Value
  | some s => .text s
  | none => .null

def attributes (c : LogContext) : Mapping :=
  ⟨c.fields.map fun f => (.text f.1,fieldValue f.2)⟩

/-- The parts of a context that are known and not empty, by name. -/
def present (c : LogContext) : List (String × String) :=
  c.fields.filterMap fun f =>
    match f.2 with
    | some s => if s.isEmpty then none else some (f.1,s)
    | none => none

end LogContext

namespace Logging

/-- The part of a path behind the last slash. -/
def baseName (path : List Char) : List Char :=
  (path.reverse.takeWhile (· != '/')).reverse

/-- A file name without its last extension. Points at the beginning make no extension. -/
def withoutExtension (name : List Char) : List Char :=
  let before := ((name.reverse.dropWhile (· != '.')).drop 1).reverse
  if before.any (· != '.') then before else name

/-- The file that a path ends in and the module that the file holds. A path is a text or a byte
string; any other value is its own file and holds an unknown module. -/
def fileAndModule (path : Value) : Value × Value :=
  match path with
  | .bytes content =>
    let name := baseName (Text.byteChars content)
    let toBytes := fun (cs : List Char) => Value.bytes (cs.map fun c => UInt8.ofNat c.toNat)
    (toBytes name,toBytes (withoutExtension name))
  | path =>
    match path.text? with
    | some s =>
      let name := baseName s.toList
      (.text (String.ofList name),.text (String.ofList (withoutExtension name)))
    | none => (path,.text "Unknown module")

/-- A log record as its layout sees it. Its failure is not among its attributes, where another
value may stand for one. -/
structure Event where
  attributes : Mapping
  failure : Option Failure
  deriving Inhabited

/-- What is given to make an event. -/
structure EventSource where
  logger : Value
  level : Level
  path : Value
  line : Value
  message : Value
  arguments : List Value
  function : Value
  seconds : Int
  milliseconds : Int
  failure : Option Failure
  stack : Value
  extra : Mapping
  deriving Inhabited

namespace EventSource

/-- The arguments of the message: a mapping that is the only one stands for itself. -/
def argumentValue (s : EventSource) : Value :=
  match s.arguments with
  | [.mapping entries] => if entries.isEmpty then .tuple [.mapping entries] else .mapping entries
  | args => .tuple args

/-- The attributes that every event has. -/
def basic (s : EventSource) : Mapping :=
  let (file,module) := fileAndModule s.path
  ⟨[(.text "name",s.logger),
    (.text "msg",s.message),
    (.text "args",s.argumentValue),
    (.text "levelname",.text s.level.name),
    (.text "levelno",.int s.level),
    (.text "pathname",s.path),
    (.text "filename",file),
    (.text "module",module),
    (.text "exc_info",.null),
    (.text "exc_text",.null),
    (.text "stack_info",s.stack),
    (.text "lineno",s.line),
    (.text "funcName",s.function),
    (.text "created",.int s.seconds),
    (.text "msecs",.int s.milliseconds),
    (.text "threadName",.text "MainThread"),
    (.text "processName",.text "MainProcess")]⟩

/-- The event, whose extra attributes may take the place of others and of the failure. Attributes
have texts for names. -/
def event (s : EventSource) : Except Fault Event := do
  s.extra.requireTextKeys fun key =>
    .badType ("attribute name must be string, not '" ++ key.kindName ++ "'")
  return ⟨s.basic.union s.extra,if s.extra.contains (.text "exc_info") then none else s.failure⟩

end EventSource

end Logging

end InfraGraph
