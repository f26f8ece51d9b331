import InfraGraph.Proofs.Dependency
import InfraGraph.Proofs.Form
import InfraGraph.Proofs.Operation

/-!
Records of operations and dependencies. What is written is read back with its words as words and every other text plain,
unless an operation has the empty type. What has been read can be written.
-/
namespace InfraGraph
open Run (Yields)
variable {env : Environment}

theorem Run.yields_ofRecord {α : Type} (result : Except RecordFault α) :
    Yields (ofRecord result) env (result.mapError .invalidRecord) := by
  cases result with
  | error fault => exact yields_throw _
  | ok a => exact yields_pure a

theorem Run.ofRecord_returned {α : Type} {result : Except RecordFault α} {s t : Session} {a : α}
    (returned : (ofRecord result).start env s = (.ok a,t)) : result = .ok a := by
  cases result with
  | error fault => cases returned
  | ok b =>
    cases returned
    rfl

/-! ### Operations -/

namespace OperationRecord

/-- A record that is read has a type that is text and not empty, and no identifier that is anything but text. -/
theorem texts_of_read {data : Value} {r : OperationRecord} (accepted : read data = .ok r) :
    r.type.isText = true ∧ r.type.isTruthy = true ∧ ∀ id, r.id = some id → id.isText = true := by
  obtain ⟨m,_,form,of⟩ := read_eq_ok.mp accepted
  obtain ⟨v,s,named,text,some⟩ := form.type
  obtain rfl := Option.some.inj (of.type.symm.trans named)
  refine ⟨Option.isSome_iff_exists.mpr ⟨s,text⟩,(Value.truthy_of_text text).mpr some,?_⟩
  intro id is
  exact form.id id (of.id.symm.trans is)

end OperationRecord

/-- The identifier and the type can be written so that they are read back. -/
structure Operation.Legible (op : Operation) : Prop extends op.Labelled where
  id : op.id.isText = true

namespace Operation

/-- An operation with its type as it is read back. -/
def spelled (op : Operation) : Operation := { op with type := op.type.spelled }

theorem spelled_same {op : Operation} (labelled : op.Labelled) : (op.spelled == op) = true :=
  beq_iff.mpr ⟨BEq.rfl,Label.spelled_same (fun _ => rfl) labelled.text,BEq.rfl,BEq.rfl,BEq.rfl⟩

/-- The record of an operation holds all of it, unless the type is empty. -/
theorem read_toValue {op : Operation} (text : op.id.isText = true) : OperationRecord.read op.toValue =
    if op.typeName = "" then .error .operationTypeNotText
    else .ok ⟨some op.id,.text op.typeName,op.params,op.target,op.metadata⟩ := by
  have opened : OperationRecord.read op.toValue = do
      let type ← OperationRecord.readType (.text op.typeName)
      let id ← OperationRecord.readId (some op.id)
      return ⟨id,type,op.params,op.target,op.metadata⟩ := rfl
  -- The fields are found by evaluation, and mappings are not checked again. What is left is the type and the identifier.
  have truthy := Value.truthy_of_text (v := .text op.typeName) rfl
  rw [opened,OperationRecord.readType,OperationRecord.readId,Value.requireText_eq_ok.mpr ⟨rfl,text⟩]
  by_cases empty : op.typeName = ""
  · have falsy : (Value.text op.typeName).isTruthy = false := by simpa [empty] using truthy
    rw [if_pos empty,falsy,Bool.and_false]
    rfl
  · rw [if_neg empty,truthy.mpr empty,Bool.and_true]
    rfl

theorem load_toValue {op : Operation} (legible : op.Legible) (env : Environment) : Yields (load op.toValue) env
    (if op.typeName = "" then .error (.invalidRecord .operationTypeNotText) else .ok op.spelled) := by
  unfold load
  rw [read_toValue legible.id]
  by_cases empty : op.typeName = ""
  · rw [if_pos empty,if_pos empty]
    exact (Run.yields_ofRecord _).fails
  · rw [if_neg empty,if_neg empty]
    refine (Run.yields_ofRecord _).bind ?_
    have type : Label.ofValue (.text op.typeName) = op.type.spelled :=
      Label.ofValue_name (fun _ => rfl) legible.text legible.settled
    have same : OperationRecord.toOperation ⟨some op.id,.text op.typeName,op.params,op.target,op.metadata⟩ op.id =
        op.spelled := by
      rw [OperationRecord.toOperation,type,spelled]
    rw [← same]
    exact Run.yields_pure _

/-- An operation that has been read can be read again, whether its identifier was there or is new. -/
theorem legible_of_load {data : Value} {s t : Session} {op : Operation}
    (returned : (load data).start env s = (.ok op,t)) : op.Legible ∧ op.typeName ≠ "" := by
  obtain ⟨r,u,accepted,issued⟩ := Run.bind_returned returned
  obtain ⟨text,truthy,texts⟩ := OperationRecord.texts_of_read (Run.ofRecord_returned accepted)
  obtain ⟨type,is⟩ := Option.isSome_iff_exists.mp text
  have written (id : Value) (known : id.isText = true) :
      (r.toOperation id).Legible ∧ (r.toOperation id).typeName ≠ "" := by
    have labelled : (r.toOperation id).Labelled :=
      ⟨Label.isText_ofValue (fun _ => rfl) text,Label.ofValue_toValue (fun _ => rfl) _⟩
    refine ⟨{ labelled with id := known },?_⟩
    have faithful (word : Action) : (Tag.action word).text = Vocabulary.text word := rfl
    rw [typeName,OperationRecord.toOperation,Label.name_ofValue faithful is]
    exact (Value.truthy_of_text is).mp truthy
  split at issued
  · next id given =>
    cases issued
    exact written id (texts id given)
  · obtain ⟨n,v,_,issued⟩ := Run.bind_returned issued
    cases issued
    exact written _ rfl

end Operation

/-! ### Dependencies -/

/-- The ends and the relation can be written so that they are read back. -/
structure Dependency.Legible (d : Dependency) : Prop where
  ends : d.prerequisite.isText = true ∧ d.dependent.isText = true
  relation : d.relationValue.isText = true
  settled : Label.ofValue d.relationValue = d.relation

namespace Dependency

/-- A dependency with its relation as it is read back. -/
def spelled (d : Dependency) : Dependency := { d with relation := d.relation.spelled }

theorem spelled_same {d : Dependency} (legible : d.Legible) : (d.spelled == d) = true :=
  beq_iff.mpr ⟨BEq.rfl,BEq.rfl,Label.spelled_same (fun _ => rfl) legible.relation,BEq.rfl⟩

theorem read_toValue {d : Dependency} (legible : d.Legible) : read d.toValue = .ok d.spelled := by
  have opened : read d.toValue = do
      let prerequisite ← d.prerequisite.requireText .dependencyEndsNotTexts
      let dependent ← d.dependent.requireText .dependencyEndsNotTexts
      return ⟨prerequisite,dependent,Label.ofValue (.text d.relationName),d.metadata⟩ := rfl
  have relation : Label.ofValue (.text d.relationName) = d.relation.spelled :=
    Label.ofValue_name (fun _ => rfl) legible.relation legible.settled
  rw [opened,Value.requireText_eq_ok.mpr ⟨rfl,legible.ends.1⟩,Value.requireText_eq_ok.mpr ⟨rfl,legible.ends.2⟩,relation]
  rfl

theorem load_toValue {d : Dependency} (legible : d.Legible) (env : Environment) :
    Yields (load d.toValue) env (.ok d.spelled) := by
  rw [load,read_toValue legible]
  exact Run.yields_ofRecord _

theorem legible_of_read {data : Value} {d : Dependency} (accepted : read data = .ok d) : d.Legible := by
  obtain ⟨m,_,form,of⟩ := read_eq_ok.mp accepted
  obtain ⟨_,first,left⟩ := form.ends "from" (by simp)
  obtain ⟨_,second,right⟩ := form.ends "to" (by simp)
  obtain rfl := Option.some.inj (of.prerequisite.symm.trans first)
  obtain rfl := Option.some.inj (of.dependent.symm.trans second)
  refine ⟨⟨left,right⟩,?_,?_⟩
  · rw [relationValue,of.relation]
    exact Label.isText_ofValue (fun _ => rfl) (named_isText.mpr form.type)
  · rw [relationValue,of.relation]
    exact Label.ofValue_toValue (fun _ => rfl) _

end Dependency
end InfraGraph
