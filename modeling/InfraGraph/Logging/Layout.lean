import InfraGraph.Calendar.Pattern
import InfraGraph.Calendar.Timestamp
import InfraGraph.Logging.Event
import InfraGraph.Logging.Template
import InfraGraph.Value.Json

/-!
# Layouts

A layout turns an event into text: into one line of JSON, or into a filled template with the
failure, the stack and the context behind it. The context is the one in force when the event is
laid out.
-/

namespace InfraGraph.Logging

/-- How events are laid out. The template is checked even where JSON is written. -/
structure Layout where
  template : Template
  dateFormat : Option String
  json : Bool
  deriving DecidableEq, Repr, Inhabited

/-- The attributes that an event need not show in JSON, since every event has them. -/
def reserved : List String :=
  ["name","msg","args","created","msecs","levelname","levelno","pathname","filename",
   "module","exc_info","exc_text","stack_info","lineno","funcName","processName","process",
   "threadName","thread","taskName","message","asctime","relativeCreated","request_id",
   "operation","source_format"]

namespace Event

/-- An attribute, null if it is absent. -/
def get (e : Event) (name : String) : Value := (e.attributes.get? (.text name)).getD .null

def withAttribute (e : Event) (name : String) (v : Value) : Event :=
  { e with attributes := e.attributes.insert (.text name) v }

/-- The message, filled in from the arguments if there are any. An attribute in the place of what
makes the message makes none. -/
def message (e : Event) : Except Fault String :=
  match e.attributes.get? (.text "getMessage") with
  | some v => .error (.badType ("'" ++ v.kindName ++ "' object is not callable"))
  | none =>
    let text := (e.get "msg").plain
    let arguments := e.get "args"
    if arguments.isTruthy then fill text arguments else .ok text

/-- The attributes that are neither reserved nor private. -/
def extras (e : Event) : List (Value × Value) :=
  e.attributes.entries.filter fun a =>
    match a.1.text? with
    | some name => !reserved.contains name && !name.startsWith "_"
    | none => true

end Event

def failureText (e : Failure) : String :=
  if e.message.isEmpty then e.qualifiedName else e.qualifiedName ++ ": " ++ e.message

/-- The text of a value in the place of a failure: three items, of which the second is the failure
and the third the place where it arose. Only the absence of both has a text. -/
def absentFailureText (v : Value) : Except Fault String := do
  let place ← v.itemAt 2
  let _ ← v.itemAt 0
  let failure ← v.itemAt 1
  let without := fun (v : Value) (member : String) =>
    (⟨.missingAttribute,
      [.text ("'" ++ v.kindName ++ "' object has no attribute '" ++ member ++ "'")]⟩ : Fault)
  match place, failure with
  | .null, .null => .ok "NoneType: None"
  | .null, failure => .error (without failure "__suppress_context__")
  | place, _ => .error (without place "tb_frame")

/-- The text of the failure of an event, if it has one. -/
def Event.failureText? (e : Event) : Except Fault (Option String) :=
  match e.failure with
  | some f => .ok (some (failureText f))
  | none =>
    let v := e.get "exc_info"
    if v.isTruthy then (absentFailureText v).map some else .ok none

/-- A text on a line of its own behind another text. -/
def appendLine (text line : String) : String :=
  if text.endsWith "\n" then text ++ line else text ++ "\n" ++ line

/-- A value on a line of its own behind a text, if the value counts as true. It has to be text. -/
def appendValue (text : String) (v : Value) : Except Fault String :=
  if v.isTruthy then
    match v.text? with
    | some line => .ok (appendLine text line)
    | none => .error (.badType ("can only concatenate str (not \"" ++ v.kindName ++ "\") to str"))
  else .ok text

namespace Layout

/-- Make a layout from a template, a pattern for the time, and the mark of a style. -/
def make (template : Option String) (dateFormat : Option String) (mark : String) (json : Bool) :
    Except Fault Layout :=
  match Style.ofMark? mark with
  | none => .error (.badValue "Style must be one of: %,\x7b,$")
  | some style => do
    return { template := ← Template.make style (template.getD ""), dateFormat, json }

/-- The time of an event by a pattern, in which no character is null. -/
def timeBy (pattern : String) (e : Event) : Except Fault String := do
  let seconds ← Calendar.secondsOf (e.get "created")
  let moment ← Calendar.momentOf seconds
  if pattern.toList.contains '\x00' then .error (.badValue "embedded null character")
  else .ok (Calendar.format pattern seconds moment)

/-- The time of an event: by the pattern for it, or to the millisecond. -/
def time (l : Layout) (e : Event) : Except Fault String :=
  let pattern := l.dateFormat.getD ""
  if pattern.isEmpty then do
    let toSecond ← timeBy "%Y-%m-%d %H:%M:%S" e
    fill "%s,%03d" (.tuple [.text toSecond,e.get "msecs"])
  else timeBy pattern e

/-- The failure of an event as JSON shows it. -/
def failureEntries (e : Event) : Except Fault (List (Value × Value)) := do
  return (← e.failureText?).toList.map fun s => (.text "exception",.text s)

/-- An event as one line of JSON: what every event has, the context, the failure and the extra
attributes, which may take the place of others. -/
def jsonLine (l : Layout) (c : LogContext) (e : Event) : Except Fault String := do
  let time ← l.time e
  let message ← e.message
  let basic : Mapping := ⟨[
    (.text "timestamp",.text time),
    (.text "level",e.get "levelname"),
    (.text "logger",e.get "name"),
    (.text "message",.text message),
    (.text "module",e.get "module"),
    (.text "function",e.get "funcName"),
    (.text "line",e.get "lineno")]⟩
  let context := c.present.map fun f => (Value.text f.1,Value.text f.2)
  let failure ← failureEntries e
  (Mapping.toValue (basic.union ⟨context ++ failure ++ e.extras⟩)).json

/-- A text with the failure of an event behind it, whose text may be among the attributes
already. -/
def withFailure (e : Event) (text : String) : Except Fault String :=
  let written := e.get "exc_text"
  if written.isTruthy then appendValue text written
  else e.failureText?.map fun
    | some s => appendLine text s
    | none => text

/-- A text with the context behind it. -/
def withContext (c : LogContext) (text : String) : String :=
  if c.present.isEmpty then text
  else text ++ " [" ++ Value.commaSeparated (c.present.map fun f => f.1 ++ "=" ++ f.2) ++ "]"

/-- An event with its time among its attributes if the template shows it. -/
def withTime (l : Layout) (e : Event) : Except Fault Event :=
  if l.template.showsTime then (l.time e).map fun s => e.withAttribute "asctime" (.text s)
  else .ok e

/-- An event by the template, with the failure, the stack and the context behind it. -/
def plainText (l : Layout) (c : LogContext) (e : Event) : Except Fault String := do
  let message ← e.message
  let timed ← l.withTime (e.withAttribute "message" (.text message))
  let filled ← l.template.fill timed.attributes
  let withFailure ← withFailure timed filled
  let withStack ← appendValue withFailure (timed.get "stack_info")
  return withContext c withStack

/-- Lay an event out in a context. -/
def format (l : Layout) (c : LogContext) (e : Event) : Except Fault String :=
  let e := { e with attributes := e.attributes.union c.attributes }
  if l.json then l.jsonLine c e else l.plainText c e

end Layout

end InfraGraph.Logging
