import InfraGraph.Value.Key

/-!
# Faults

A fault is a general error: a kind and the values that describe it. What the library reports
about its own domain is a `Failure`; faults are what it reports about misuse of values, and what
adapters and callers may raise.
-/

namespace InfraGraph

/-- The kinds of general errors. -/
inductive FaultKind where
  | general | badValue | badType | missingKey | badIndex | runtime | lookup | permission
  | arithmetic | notImplemented | missingAttribute | overflow | system | memory
  deriving DecidableEq, Repr, Inhabited

namespace FaultKind

/-- Every kind. -/
def all : List FaultKind :=
  [general,badValue,badType,missingKey,badIndex,runtime,lookup,permission,arithmetic,
   notImplemented,missingAttribute,overflow,system,memory]

/-- The name under which a kind is reported. -/
def name : FaultKind → String
  | general => "Exception"
  | badValue => "ValueError"
  | badType => "TypeError"
  | missingKey => "KeyError"
  | badIndex => "IndexError"
  | runtime => "RuntimeError"
  | lookup => "LookupError"
  | permission => "PermissionError"
  | arithmetic => "ArithmeticError"
  | notImplemented => "NotImplementedError"
  | missingAttribute => "AttributeError"
  | overflow => "OverflowError"
  | system => "OSError"
  | memory => "MemoryError"

def ofName? (s : String) : Option FaultKind := all.find? fun kind => kind.name == s

end FaultKind

/-- A general error. -/
structure Fault where
  kind : FaultKind
  args : List Value
  deriving Inhabited

namespace Fault

/-- A value that does not fit, described by a text. -/
def badValue (message : String) : Fault := ⟨.badValue,[.text message]⟩

/-- A value of the wrong kind, described by a text. -/
def badType (message : String) : Fault := ⟨.badType,[.text message]⟩

def unhashable (kindName : String) : Fault := badType ("unhashable type: '" ++ kindName ++ "'")

/-- A value of a kind that has no items. -/
def notIterable (kindName : String) : Fault :=
  badType ("'" ++ kindName ++ "' object is not iterable")

/-- Whether a kind has a number and a reason, and names of files. -/
def isSystem (f : Fault) : Bool := f.kind == .permission || f.kind == .system

/-- What a fault of the system is about: a number, a reason, and up to two files. The first file
may follow the reason, the second one is the fifth value. -/
def systemParts? : List Value → Option (Value × Value × List Value)
  | [number,reason] => some (number,reason,[])
  | [number,reason,.null] | [number,reason,.null,_] | [number,reason,.null,_,_] =>
    some (number,reason,[])
  | [number,reason,file] | [number,reason,file,_] => some (number,reason,[file])
  | [number,reason,file,_,second] =>
    some (number,reason,match second with
      | .null => [file]
      | second => [file,second])
  | _ => none

/-- The text of a fault of the system. -/
def systemMessage (number reason : Value) (files : List Value) : String :=
  let named := " -> ".intercalate (files.map Value.literal)
  "[Errno " ++ number.plain ++ "] " ++ reason.plain ++ (if files.isEmpty then "" else ": " ++ named)

/-- The text of the values of a fault: nothing, the only value, or all values as a tuple. -/
def argumentText : List Value → String
  | [] => ""
  | [v] => v.plain
  | vs => (Value.tuple vs).literal

/-- The text of a fault. A missing key shows its literal. -/
def message (f : Fault) : String :=
  match f.kind, f.args with
  | .missingKey, [v] => v.literal
  | _, args =>
    match if f.isSystem then systemParts? args else none with
    | some (number,reason,files) => systemMessage number reason files
    | none => argumentText args

/-- The values that a literal shows: a fault of the system that names files shows its number and
its reason alone. -/
def shownArguments (f : Fault) : List Value :=
  match if f.isSystem then systemParts? f.args else none with
  | some (number,reason,_ :: _) => [number,reason]
  | _ => f.args

def literal (f : Fault) : String :=
  f.kind.name ++ "(" ++ Value.commaSeparated (f.shownArguments.map Value.literal) ++ ")"

end Fault

namespace Value

/-- Require that a value can be a key. -/
def requireHashable (v : Value) : Except Fault Unit :=
  match v.unhashable? with
  | some kind => .error (.unhashable kind)
  | none => .ok ()

/-- The items of a value that has any: a text has its characters, a byte string its numbers, a
mapping its keys. -/
def items? : Value → Option (List Value)
  | text s => some (s.toList.map fun c => text (String.singleton c))
  | tag t => some (t.text.toList.map fun c => text (String.singleton c))
  | bytes content => some (content.map fun b => int b.toNat)
  | buffer content => some (content.map fun b => int b.toNat)
  | list items => some items
  | tuple items => some items
  | mapping entries => some (entries.map (·.1))
  | set members => some members
  | frozenset members => some members
  | _ => none

/-- The items of a value, which must have items. -/
def items (v : Value) : Except Fault (List Value) :=
  match v.items? with
  | some vs => .ok vs
  | none => .error (.notIterable v.kindName)

end Value

namespace Mapping

/-- Enter an entry whose key must be hashable. -/
def insertChecked (m : Mapping) (key held : Value) : Except Fault Mapping := do
  key.requireHashable
  return m.insert key held

/-- Require that every key is a text. The fault tells about the first that is none. -/
def requireTextKeys (m : Mapping) (fault : Value → Fault) : Except Fault Unit :=
  match m.keys.find? (!·.isText) with
  | some key => .error (fault key)
  | none => .ok ()

def ofPairs (pairs : List (Value × Value)) : Except Fault Mapping :=
  pairs.foldlM (fun m e => m.insertChecked e.1 e.2) Table.empty

/-- The item at a position of a list of pairs, as a pair. -/
def pairAt (position : Nat) (v : Value) : Except Fault (Value × Value) :=
  match v.items? with
  | none =>
    .error (.badType ("cannot convert dictionary update sequence element #" ++ toString position ++
      " to a sequence"))
  | some [key,held] => .ok (key,held)
  | some vs =>
    .error (.badValue ("dictionary update sequence element #" ++ toString position ++
      " has length " ++ toString vs.length ++ "; 2 is required"))

/-- Enter the items of a list of pairs, counted from `position`. -/
def enterItems : (position : Nat) → Mapping → List Value → Except Fault Mapping
  | _, m, [] => .ok m
  | position, m, v :: rest => do
    let (key,held) ← pairAt position v
    enterItems (position + 1) (← m.insertChecked key held) rest

/-- The mapping that a value gives: a mapping itself, the entries of a list of pairs, and the
empty mapping for every value that does not count as true. -/
def ofValue (v : Value) : Except Fault Mapping :=
  if v.isTruthy then
    match v.mapping? with
    | some m => .ok m
    | none => do enterItems 0 .empty (← v.items)
  else .ok .empty

end Mapping

end InfraGraph
