import InfraGraph.Graph.Validation

/-!
# Records

Graphs are written as values, together with the version of the schema, and read back from them.
Reading accepts exactly the records of its format and reports a fault of the first record that is
not one. An operation without an identifier gets a new one.
-/

namespace InfraGraph

def Mapping.field? (m : Mapping) (name : String) : Option Value := m.get? (.text name)

/-- A field of a record that is a mapping or absent. -/
def Mapping.mappingField (m : Mapping) (name : String) (fault : RecordFault) :
    Except RecordFault Mapping :=
  match m.field? name with
  | none => .ok .empty
  | some v =>
    match v.mapping? with
    | some held => .ok held
    | none => .error fault

/-- The items of a list. -/
def Value.listItems? : Value → Option (List Value)
  | list items => some items
  | _ => none

/-- A field of a record that is a list or absent. -/
def Mapping.listField? (m : Mapping) (name : String) : Option (List Value) :=
  match m.field? name with
  | none => some []
  | some v => v.listItems?

def Value.requireText (v : Value) (fault : RecordFault) : Except RecordFault Value :=
  if v.isText then .ok v else .error fault

/-- The result of reading a record as a run. -/
def Run.ofRecord {α : Type} (result : Except RecordFault α) : Run α :=
  match result with
  | .ok a => pure a
  | .error f => throw (.invalidRecord f)

/-- An operation as a record holds it; it may lack an identifier. -/
structure OperationRecord where
  id : Option Value
  type : Value
  params : Mapping
  target : Mapping
  metadata : Mapping
  deriving Inhabited

namespace OperationRecord

/-- A type is text that is not empty. -/
def readType (v : Value) : Except RecordFault Value :=
  if v.isText && v.isTruthy then .ok v else .error .operationTypeNotText

/-- An identifier is text or absent. -/
def readId : Option Value → Except RecordFault (Option Value)
  | none => .ok none
  | some v => do return some (← v.requireText .operationIdNotText)

/-- Read the record of an operation. -/
def read (data : Value) : Except RecordFault OperationRecord :=
  match data.mapping? with
  | none => .error .operationWithoutType
  | some m =>
    match m.field? "type" with
    | none => .error .operationWithoutType
    | some type => do
      let type ← readType type
      let id ← readId (m.field? "id")
      let params ← m.mappingField "params" (.operationFieldNotMapping "params")
      let target ← m.mappingField "target" (.operationFieldNotMapping "target")
      let metadata ← m.mappingField "metadata" (.operationFieldNotMapping "metadata")
      return { id, type, params, target, metadata }

/-- The operation of a record, under a given identifier. -/
def toOperation (r : OperationRecord) (id : Value) : Operation where
  id := id
  type := Label.ofValue r.type
  params := r.params
  target := r.target
  metadata := r.metadata

end OperationRecord

namespace Operation

/-- An identifier, new in place of null. -/
def identify : Value → Run Value
  | .null => do return .text (← Run.newIdentifier)
  | id => return id

/-- Build an operation. Null as identifier asks for a new one. -/
def issue (type params id target metadata : Value) : Run Operation := do
  Run.ofFault (create (← identify id) type params target metadata)

def load (data : Value) : Run Operation := do
  let r ← Run.ofRecord (OperationRecord.read data)
  match r.id with
  | some id => return r.toOperation id
  | none => return r.toOperation (.text (← Run.newIdentifier))

end Operation

namespace Dependency

/-- Read a dependency from its record. -/
def read (data : Value) : Except RecordFault Dependency :=
  match data.mapping? with
  | none => .error .dependencyWithoutEnds
  | some m =>
    match m.field? "from", m.field? "to" with
    | some first, some second => do
      let prerequisite ← first.requireText .dependencyEndsNotTexts
      let dependent ← second.requireText .dependencyEndsNotTexts
      let named := (m.field? "type").getD defaultRelation
      let relation ← named.requireText .dependencyTypeNotText
      let metadata ← m.mappingField "metadata" .dependencyMetadataNotMapping
      return { prerequisite, dependent, relation := Label.ofValue relation, metadata }
    | _, _ => .error .dependencyWithoutEnds

def load (data : Value) : Run Dependency := Run.ofRecord (read data)

end Dependency

namespace Graph

/-- The record of a graph. -/
def toValue (g : Graph) : Value :=
  .mapping [
    (.text "version",.text Version.current.text),
    (.text "operations",.list (g.operations.map Operation.toValue)),
    (.text "dependencies",.list (g.dependencies.map Dependency.toValue)),
    (.text "metadata",g.metadata.toValue)]

/-- Require that a record was written in a version that can be read. Without a version it is
taken to be the current one. -/
def checkVersion (m : Mapping) : Except RecordFault Unit :=
  let written := (m.field? "version").getD (.text Version.current.text)
  match Version.read? written.plain.toList with
  | none => .error (.versionUnreadable written.plain)
  | some version =>
    if Version.current.reads version then .ok () else .error (.versionIncompatible version)

/-- The record of a graph with its parts told apart, before they are read. -/
structure Parts where
  operations : List Value
  dependencies : List Value
  metadata : Mapping
  deriving Inhabited

/-- Tell the parts of a record apart. -/
def readParts (data : Value) : Except RecordFault Parts :=
  match data.mapping? with
  | none => .error .graphNotMapping
  | some m => do
    checkVersion m
    match m.listField? "operations", m.listField? "dependencies" with
    | some operations, some dependencies =>
      let metadata ← m.mappingField "metadata" .graphMetadataNotMapping
      return { operations, dependencies, metadata }
    | _, _ => .error .recordsNotLists

def load (data : Value) : Run Graph := do
  let parts ← Run.ofRecord (readParts data)
  let operations ← parts.operations.mapM Operation.load
  let dependencies ← parts.dependencies.mapM Dependency.load
  Run.ofFault (create operations dependencies parts.metadata)

end Graph

end InfraGraph
