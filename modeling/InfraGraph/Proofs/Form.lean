import InfraGraph.Graph.Record
import InfraGraph.Proofs.Run

/-!
The form of records. A record is a mapping; some of its fields may be absent, and those that are there are of a kind.
Reading accepts the records of operations and dependencies that have their form, and nothing else, and what it finds is
what they say.
-/
namespace InfraGraph

def Value.IsMapping (v : Value) : Prop := ∃ m : Mapping, v = m.toValue

/-- A value is a mapping of some form. -/
def Value.IsRecord (form : Mapping → Prop) (v : Value) : Prop := ∃ m : Mapping, v = m.toValue ∧ form m

theorem Value.truthy_of_text {v : Value} {s : String} (text : v.text? = some s) : v.isTruthy = true ↔ s ≠ "" := by
  cases v with
  | text s' =>
    cases text
    simp [isTruthy]
  | tag t =>
    cases text
    simp [isTruthy]
  | _ => cases text

theorem Value.requireText_eq_ok {v w : Value} {fault : RecordFault} :
    v.requireText fault = .ok w ↔ w = v ∧ v.isText = true := by
  unfold requireText
  split
  · next text => simp [text,eq_comm]
  · next other => simp [other]

theorem Value.mapping?_eq_some {v : Value} {m : Mapping} : v.mapping? = some m ↔ v = m.toValue := by
  cases v with
  | mapping entries =>
    constructor
    · rintro ⟨⟩
      rfl
    · intro is
      cases is
      rfl
  | _ => simp [mapping?,Mapping.toValue]

theorem Value.listItems?_eq_some {v : Value} {items : List Value} : v.listItems? = some items ↔ v = .list items := by
  cases v with
  | list others => simp [listItems?]
  | _ => simp [listItems?]

/-! ### Fields -/

namespace Mapping

/-- A field is as described where it is present. -/
def IfPresent (m : Mapping) (name : String) (p : Value → Prop) : Prop := ∀ v, m.field? name = some v → p v

/-- The mapping in a field, where an absent field holds the empty one. -/
def nested (m : Mapping) (name : String) : Mapping := ((m.field? name).bind Value.mapping?).getD .empty

/-- The items of the list in a field, where an absent field has none. -/
def listed (m : Mapping) (name : String) : List Value := ((m.field? name).bind Value.listItems?).getD []

theorem eq_of_toValue {m n : Mapping} (same : m.toValue = n.toValue) : m = n := by
  cases m
  cases n
  cases same
  rfl

variable {m : Mapping} {name : String}

theorem mappingField_eq_ok {fault : RecordFault} {held : Mapping} : m.mappingField name fault = .ok held ↔
    m.IfPresent name Value.IsMapping ∧ held = m.nested name := by
  simp only [mappingField,IfPresent,nested,Value.IsMapping]
  cases m.field? name with
  | none => simp [eq_comm]
  | some v =>
    simp only [Option.some.injEq,forall_eq',Option.bind_some,← Value.mapping?_eq_some]
    cases v.mapping? with
    | none => simp
    | some inner => simp [eq_comm]

theorem listField?_eq_some {items : List Value} : m.listField? name = some items ↔
    (m.IfPresent name fun v => ∃ items, v = .list items) ∧ items = m.listed name := by
  simp only [listField?,IfPresent,listed]
  cases m.field? name with
  | none => simp [eq_comm]
  | some v =>
    simp only [Option.some.injEq,forall_eq',Option.bind_some,← Value.listItems?_eq_some]
    cases v.listItems? with
    | none => simp
    | some found => simp [eq_comm]

end Mapping

/-! ### Operations -/

/-- A record of an operation has a type, text that is not empty; its identifier is text, and its other fields are
    mappings, unless they are absent. -/
structure Operation.Form (m : Mapping) : Prop where
  type : ∃ v s, m.field? "type" = some v ∧ v.text? = some s ∧ s ≠ ""
  id : m.IfPresent "id" fun v => v.isText = true
  mappings : ∀ name ∈ ["params","target","metadata"], m.IfPresent name Value.IsMapping

namespace OperationRecord

theorem readType_eq_ok {v w : Value} : readType v = .ok w ↔ w = v ∧ ∃ s, v.text? = some s ∧ s ≠ "" := by
  have spelled : (v.isText && v.isTruthy) = true ↔ ∃ s, v.text? = some s ∧ s ≠ "" := by
    rw [Bool.and_eq_true,Value.isText,Option.isSome_iff_exists]
    constructor
    · rintro ⟨⟨s,text⟩,truthy⟩
      exact ⟨s,text,(Value.truthy_of_text text).mp truthy⟩
    · rintro ⟨s,text,some⟩
      exact ⟨⟨s,text⟩,(Value.truthy_of_text text).mpr some⟩
  rw [← spelled,readType]
  split
  · next readable => simp [readable,eq_comm]
  · next other => simp [other]

theorem readId_eq_ok {given id : Option Value} :
    readId given = .ok id ↔ id = given ∧ ∀ v, given = some v → v.isText = true := by
  cases given with
  | none =>
    rw [readId,Except.ok.injEq]
    constructor
    · rintro rfl
      exact ⟨rfl,fun _ absurdly => by cases absurdly⟩
    · rintro ⟨rfl,_⟩
      rfl
  | some v =>
    rw [readId,bind_eq_ok]
    simp only [Value.requireText_eq_ok,pure,Except.pure,Except.ok.injEq,Option.some.injEq,forall_eq']
    constructor
    · rintro ⟨_,⟨rfl,text⟩,rfl⟩
      exact ⟨rfl,text⟩
    · rintro ⟨rfl,text⟩
      exact ⟨v,⟨rfl,text⟩,rfl⟩

/-- What is read holds the fields of a record, where mappings that are absent are empty. -/
structure Of (r : OperationRecord) (m : Mapping) : Prop where
  id : r.id = m.field? "id"
  type : m.field? "type" = some r.type
  params : r.params = m.nested "params"
  target : r.target = m.nested "target"
  metadata : r.metadata = m.nested "metadata"

theorem read_eq_ok {data : Value} {r : OperationRecord} :
    read data = .ok r ↔ data.IsRecord fun m => Operation.Form m ∧ r.Of m := by
  constructor
  · intro accepted
    unfold read at accepted
    split at accepted
    · cases accepted
    · next m is =>
      split at accepted
      · cases accepted
      · next named =>
        obtain ⟨type,typed,accepted⟩ := bind_eq_ok.mp accepted
        obtain ⟨id,identified,accepted⟩ := bind_eq_ok.mp accepted
        obtain ⟨params,first,accepted⟩ := bind_eq_ok.mp accepted
        obtain ⟨target,second,accepted⟩ := bind_eq_ok.mp accepted
        obtain ⟨metadata,third,accepted⟩ := bind_eq_ok.mp accepted
        obtain ⟨rfl,s,text,some⟩ := readType_eq_ok.mp typed
        obtain ⟨rfl,texts⟩ := readId_eq_ok.mp identified
        obtain ⟨one,rfl⟩ := Mapping.mappingField_eq_ok.mp first
        obtain ⟨two,rfl⟩ := Mapping.mappingField_eq_ok.mp second
        obtain ⟨three,rfl⟩ := Mapping.mappingField_eq_ok.mp third
        cases accepted
        refine ⟨m,Value.mapping?_eq_some.mp is,⟨⟨_,s,named,text,some⟩,texts,?_⟩,⟨rfl,named,rfl,rfl,rfl⟩⟩
        simp only [List.forall_mem_cons]
        exact ⟨one,two,three,fun _ none => by cases none⟩
  · rintro ⟨m,rfl,form,of⟩
    obtain ⟨v,s,named,text,some⟩ := form.type
    obtain rfl := Option.some.inj (of.type.symm.trans named)
    have mappings := form.mappings
    simp only [List.forall_mem_cons] at mappings
    rw [read,Value.mapping?_eq_some.mpr rfl]
    simp only [of.type]
    refine bind_eq_ok.mpr ⟨_,readType_eq_ok.mpr ⟨rfl,s,text,some⟩,?_⟩
    refine bind_eq_ok.mpr ⟨_,readId_eq_ok.mpr ⟨of.id,form.id⟩,?_⟩
    refine bind_eq_ok.mpr ⟨_,Mapping.mappingField_eq_ok.mpr ⟨mappings.1,of.params⟩,?_⟩
    refine bind_eq_ok.mpr ⟨_,Mapping.mappingField_eq_ok.mpr ⟨mappings.2.1,of.target⟩,?_⟩
    exact bind_eq_ok.mpr ⟨_,Mapping.mappingField_eq_ok.mpr ⟨mappings.2.2.1,of.metadata⟩,rfl⟩

end OperationRecord

/-! ### Dependencies -/

namespace Dependency

/-- A record of a dependency has two ends, which are texts; its type is text and its metadata a mapping, unless they are
    absent. -/
structure Form (m : Mapping) : Prop where
  ends : ∀ name ∈ ["from","to"], ∃ v, m.field? name = some v ∧ v.isText = true
  type : m.IfPresent "type" fun v => v.isText = true
  metadata : m.IfPresent "metadata" Value.IsMapping

/-- A dependency holds the fields of a record, and the usual relation where none is given. -/
structure Of (d : Dependency) (m : Mapping) : Prop where
  prerequisite : m.field? "from" = some d.prerequisite
  dependent : m.field? "to" = some d.dependent
  relation : d.relation = Label.ofValue ((m.field? "type").getD defaultRelation)
  metadata : d.metadata = m.nested "metadata"

theorem named_isText {m : Mapping} : ((m.field? "type").getD defaultRelation).isText = true ↔
    m.IfPresent "type" fun v => v.isText = true := by
  unfold Mapping.IfPresent
  cases m.field? "type" with
  | none =>
    have usual : defaultRelation.isText = true := rfl
    simp [usual]
  | some v => simp

theorem read_eq_ok {data : Value} {d : Dependency} :
    read data = .ok d ↔ data.IsRecord fun m => Form m ∧ d.Of m := by
  constructor
  · intro accepted
    unfold read at accepted
    split at accepted
    · cases accepted
    · next m is =>
      split at accepted
      · next a b from_a to_b =>
        obtain ⟨_,left,accepted⟩ := bind_eq_ok.mp accepted
        obtain ⟨_,right,accepted⟩ := bind_eq_ok.mp accepted
        obtain ⟨_,named,accepted⟩ := bind_eq_ok.mp accepted
        obtain ⟨_,held,accepted⟩ := bind_eq_ok.mp accepted
        obtain ⟨rfl,first⟩ := Value.requireText_eq_ok.mp left
        obtain ⟨rfl,second⟩ := Value.requireText_eq_ok.mp right
        obtain ⟨rfl,text⟩ := Value.requireText_eq_ok.mp named
        obtain ⟨inner,rfl⟩ := Mapping.mappingField_eq_ok.mp held
        cases accepted
        refine ⟨m,Value.mapping?_eq_some.mp is,⟨?_,named_isText.mp text,inner⟩,⟨from_a,to_b,rfl,rfl⟩⟩
        simp only [List.forall_mem_cons]
        exact ⟨⟨_,from_a,first⟩,⟨_,to_b,second⟩,fun _ none => by cases none⟩
      · cases accepted
  · rintro ⟨m,rfl,form,of⟩
    have ends := form.ends
    simp only [List.forall_mem_cons,of.prerequisite,of.dependent,Option.some.injEq,exists_eq_left'] at ends
    rw [read,Value.mapping?_eq_some.mpr rfl]
    simp only [of.prerequisite,of.dependent]
    refine bind_eq_ok.mpr ⟨_,Value.requireText_eq_ok.mpr ⟨rfl,ends.1⟩,?_⟩
    refine bind_eq_ok.mpr ⟨_,Value.requireText_eq_ok.mpr ⟨rfl,ends.2.1⟩,?_⟩
    refine bind_eq_ok.mpr ⟨_,Value.requireText_eq_ok.mpr ⟨rfl,named_isText.mpr form.type⟩,?_⟩
    refine bind_eq_ok.mpr ⟨_,Mapping.mappingField_eq_ok.mpr ⟨form.metadata,of.metadata⟩,?_⟩
    rw [← of.relation]
    rfl

end Dependency
end InfraGraph
