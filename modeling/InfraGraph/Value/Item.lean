import InfraGraph.Fault

/-!
# Items of values

The item that a value holds at a position or under a name. Sequences have items at positions,
mappings have them under keys, and a text has its characters.
-/

namespace InfraGraph.Value

/-- The item of a list at a position; `noun` names the sequence where there is none. -/
def itemOf (noun : String) (items : List Value) (position : Nat) : Except Fault Value :=
  match items[position]? with
  | some v => .ok v
  | none => .error ⟨.badIndex,[.text (noun ++ " out of range")]⟩

/-- What is said of a value that has no items. -/
def notSubscriptable (v : Value) : Fault :=
  .badType ("'" ++ v.kindName ++ "' object is not subscriptable")

/-- What a mapping holds under a key. -/
def entryOf (entries : List (Value × Value)) (key : Value) : Except Fault Value :=
  match (⟨entries⟩ : Mapping).get? key with
  | some v => .ok v
  | none => .error ⟨.missingKey,[key]⟩

/-- The item of a value at a position. -/
def itemAt (v : Value) (position : Nat) : Except Fault Value :=
  match v with
  | list items => itemOf "list index" items position
  | tuple items => itemOf "tuple index" items position
  | bytes content => itemOf "index" (content.map fun b => int b.toNat) position
  | buffer content => itemOf "bytearray index" (content.map fun b => int b.toNat) position
  | mapping entries => entryOf entries (int position)
  | v =>
    match v.text? with
    | some s => itemOf "string index" (s.toList.map fun c => text (String.singleton c)) position
    | none => .error v.notSubscriptable

/-- The item of a value under a name. -/
def itemNamed (v : Value) (name : String) : Except Fault Value :=
  match v with
  | list _ | tuple _ | buffer _ =>
    .error (.badType (v.kindName ++ " indices must be integers or slices, not str"))
  | bytes _ => .error (.badType "byte indices must be integers or slices, not str")
  | mapping entries => entryOf entries (text name)
  | v =>
    if v.isText then .error (.badType "string indices must be integers, not 'str'")
    else .error v.notSubscriptable

end InfraGraph.Value
