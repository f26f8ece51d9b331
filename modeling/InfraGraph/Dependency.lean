import InfraGraph.Label

/-!
# Dependencies

A dependency is an edge between two operations, named by their identifiers: the prerequisite has
to complete before the dependent. A dependency is known by its identity key, a hashable value
built from all of its parts.
-/

namespace InfraGraph

/-- An ordering edge between two operations. -/
structure Dependency where
  prerequisite : Value
  dependent : Value
  relation : Label Relation
  metadata : Mapping
  deriving Inhabited

namespace Dependency

def relationValue (d : Dependency) : Value := d.relation.toValue .relation

def relationName (d : Dependency) : String := d.relation.name

/-- Dependencies are equal when they are so field by field. -/
instance : BEq Dependency where
  beq a b :=
    a.prerequisite == b.prerequisite && a.dependent == b.dependent &&
      a.relationValue == b.relationValue && a.metadata == b.metadata

/-- The relation of a dependency that names none. -/
def defaultRelation : Value := .tag (.relation .sequential)

/-- Build a dependency. Its metadata is read as a mapping. -/
def create (prerequisite dependent relation metadata : Value) : Except Fault Dependency := do
  return {
    prerequisite, dependent, relation := Label.ofValue relation
    metadata := ← Mapping.ofValue metadata }

/-- Whether a dependency can order anything: both ends are texts, not empty and not equal. -/
def isValid (d : Dependency) : Bool :=
  match d.prerequisite.text?, d.dependent.text? with
  | some a, some b => a != "" && b != "" && a != b
  | _, _ => false

/-- The identity key: both ends, the relation's name and the frozen metadata. -/
def identityKey (d : Dependency) : Value :=
  .tuple [d.prerequisite,d.dependent,.text d.relationName,d.metadata.toValue.frozen]

/-- Whether one dependency repeats another: the identity keys are the same and the dependencies
are equal. -/
def repeats (a b : Dependency) : Bool := a.identityKey == b.identityKey && a == b

/-- A dependency as plain text, its relation on the arrow. -/
def text (d : Dependency) : String :=
  d.prerequisite.plain ++ " -[" ++ d.relationName ++ "]-> " ++ d.dependent.plain

/-- The two ends of a dependency, an arrow between them. -/
def arrow (d : Dependency) : String := d.prerequisite.plain ++ " -> " ++ d.dependent.plain

/-- A dependency as a literal, field by field. -/
def literal (d : Dependency) : String :=
  "Dependency(from_id=" ++ d.prerequisite.literal ++ ", to_id=" ++ d.dependent.literal ++
    ", type=" ++ d.relationValue.literal ++ ", metadata=" ++ d.metadata.toValue.literal ++ ")"

/-- The record of a dependency. -/
def toValue (d : Dependency) : Value :=
  .mapping [
    (.text "from",d.prerequisite),
    (.text "to",d.dependent),
    (.text "type",.text d.relationName),
    (.text "metadata",d.metadata.toValue)]

end Dependency

end InfraGraph
