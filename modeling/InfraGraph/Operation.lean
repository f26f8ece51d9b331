import InfraGraph.Label

/-!
# Operations

An operation is one action on the infrastructure, such as installing a package, whatever tool it
was read from or will be written for. Its type may be any label; three of the well-known actions
require parameters.
-/

namespace InfraGraph

/-- A required parameter that an operation lacks. -/
structure MissingParameter where
  operationType : String
  field : Value
  deriving Inhabited

/-- One action: `params` are its parameters, `target` says where it applies, `metadata` where it
comes from. -/
structure Operation where
  id : Value
  type : Label Action
  params : Mapping
  target : Mapping
  metadata : Mapping
  deriving Inhabited

namespace Operation

def typeValue (op : Operation) : Value := op.type.toValue .action

def typeName (op : Operation) : String := op.type.name

/-- Operations are equal when they are so field by field. -/
instance : BEq Operation where
  beq a b :=
    a.id == b.id && a.typeValue == b.typeValue && a.params == b.params && a.target == b.target &&
      a.metadata == b.metadata

/-- Build an operation. Parameters, target and metadata are read as mappings. -/
def create (id type params target metadata : Value) : Except Fault Operation := do
  return {
    id, type := Label.ofValue type
    params := ← Mapping.ofValue params
    target := ← Mapping.ofValue target
    metadata := ← Mapping.ofValue metadata }

/-- The name of a parameter that is missing, where one of `alternatives` would do. -/
def requireAny (params : Mapping) (alternatives : List String) (field : String) : Option String :=
  if alternatives.any fun key => params.contains (.text key) then none else some field

/-- The parameter that an action requires and does not find. A package has to be named to be
installed, a service to be started; a file is written to a path, from a content or a source. -/
def lackedBy (params : Mapping) : Action → Option String
  | .packageInstall => requireAny params ["package","name"] "package"
  | .serviceStart => requireAny params ["service","name"] "service"
  | .fileWrite =>
    match requireAny params ["path"] "path" with
    | some field => some field
    | none => requireAny params ["content","source"] "content_or_source"
  | _ => none

/-- The parameter that an operation lacks, if any. The type is looked up among the actions with
rules, so it must be hashable. -/
def validate (op : Operation) : Except Fault (Option MissingParameter) :=
  match op.type with
  | .known action =>
    .ok ((lackedBy op.params action).map fun field => ⟨op.typeName,.text field⟩)
  | .other v => do
    v.requireHashable
    return none

/-- A summary with the first `limit` parameters, and dots in place of the others. -/
def display (op : Operation) (limit : Int) : String :=
  let entries := op.params.entries
  let parts := Value.entryLiterals (entries.take limit.toNat)
  let parts := if parts.length < entries.length then parts ++ ["..."] else parts
  op.typeName ++ "(\x7b" ++ Value.commaSeparated parts ++ "\x7d)"

/-- The record of an operation. -/
def toValue (op : Operation) : Value :=
  .mapping [
    (.text "id",op.id),
    (.text "type",.text op.typeName),
    (.text "params",op.params.toValue),
    (.text "target",op.target.toValue),
    (.text "metadata",op.metadata.toValue)]

end Operation

end InfraGraph
