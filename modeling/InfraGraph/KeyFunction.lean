import InfraGraph.Failure
import InfraGraph.Settings

/-!
# Key functions

A key function gives every operation the key of the group to which it belongs. A key need not be
hashable: its hashable form stands in for it, and a key without one is reported. A key function
may look at the environment; it is then one for each environment.
-/

namespace InfraGraph

/-- What gives an operation the key of its group. In one environment this is a function of the
operation alone. -/
abbrev KeyFunction := Operation → Except Failure Value

/-- A key function that may look at the environment. -/
abbrev EnvironmentKey := Environment → KeyFunction

namespace KeyFunction

/-- The key of an operation's group, fit to be a key. -/
def groupKey (key : KeyFunction) (op : Operation) : Except Failure Value := do
  let value ← key op
  match value.partitionKey? with
  | some k => return k
  | none => throw (.partitionKey op.id value)

/-- What a mapping holds under a name, or null. The name must be hashable. -/
def lookUp (m : Mapping) (field : Value) : Except Failure Value :=
  match field.unhashable? with
  | some kind => .error (.fault (.unhashable kind))
  | none => .ok ((m.get? field).getD .null)

/-- The key is what the target says in one field, or null if it says nothing. -/
def target (field : Value) : KeyFunction := fun op => lookUp op.target field

/-- The name of a key function that reads one field of the target. -/
def targetName (field : Value) : String := "by_target_" ++ field.plain

/-- The key is a parameter, or null if it is absent. -/
def param (field : Value) : KeyFunction := fun op => lookUp op.params field

def const (v : Value) : KeyFunction := fun _ => .ok v

def type : KeyFunction := fun op => .ok op.typeValue

def typeName : KeyFunction := fun op => .ok (.text op.typeName)

def id : KeyFunction := fun op => .ok op.id

/-- The key is the summary of an operation, which shows as many parameters as the environment
allows. -/
def displayed : EnvironmentKey := fun env op =>
  .ok (.text (op.display (GraphSettings.load env).displayParamLimit))

end KeyFunction

end InfraGraph
