import InfraGraph.Dependency
import InfraGraph.Proofs.Label
import InfraGraph.Proofs.Value.Frozen

/-!
When dependencies are equal and when they repeat one another. Dependencies between texts with the same identity key
are equal. One of them repeats another one exactly if the two are equal and no bytes stand against a buffer in their
metadata, as only then the identity keys differ.
-/
namespace InfraGraph
open Value (Clash Sense sense_eq_iff hashable_of_text hashable_tuple tuple_same_iff frozen_same_iff frozen_hashable
  same_of_frozen)

namespace Dependency

/-- A dependency between texts, with a text for its relation and metadata that can be built. -/
structure Textual (d : Dependency) : Prop where
  ends : d.prerequisite.isText = true ∧ d.dependent.isText = true
  relation : d.relationValue.isText = true
  metadata : d.metadata.toValue.Proper

instance (d : Dependency) : Decidable d.Textual :=
  decidable_of_iff ((d.prerequisite.isText = true ∧ d.dependent.isText = true) ∧ d.relationValue.isText = true ∧
      d.metadata.toValue.Proper)
    ⟨fun ⟨ends,relation,metadata⟩ => ⟨ends,relation,metadata⟩,fun ⟨ends,relation,metadata⟩ => ⟨ends,relation,metadata⟩⟩

/-- A dependency whose ends can be looked up, with metadata that can be built. -/
structure Keyed (d : Dependency) : Prop where
  ends : d.prerequisite.isHashable = true ∧ d.dependent.isHashable = true
  metadata : d.metadata.toValue.Proper

instance (d : Dependency) : Decidable d.Keyed :=
  decidable_of_iff ((d.prerequisite.isHashable = true ∧ d.dependent.isHashable = true) ∧ d.metadata.toValue.Proper)
    ⟨fun ⟨ends,metadata⟩ => ⟨ends,metadata⟩,fun ⟨ends,metadata⟩ => ⟨ends,metadata⟩⟩

theorem Textual.keyed {d : Dependency} (textual : d.Textual) : d.Keyed :=
  ⟨⟨hashable_of_text textual.ends.1,hashable_of_text textual.ends.2⟩,textual.metadata⟩

/-- Bytes stand against a buffer somewhere in the metadata of two dependencies. -/
def Clashes (a b : Dependency) : Prop := Clash a.metadata.toValue b.metadata.toValue

theorem beq_iff {a b : Dependency} : (a == b) = true ↔
    (a.prerequisite == b.prerequisite) = true ∧ (a.dependent == b.dependent) = true ∧
      (a.relationValue == b.relationValue) = true ∧ (a.metadata.toValue == b.metadata.toValue) = true := by
  change (_ && _ && _ && _) = true ↔ _
  simp only [Bool.and_eq_true,and_assoc]
  exact Iff.rfl

instance : EquivBEq Dependency where
  rfl := beq_iff.mpr ⟨BEq.rfl,BEq.rfl,BEq.rfl,BEq.rfl⟩
  symm equal := by
    obtain ⟨first,second,relation,metadata⟩ := beq_iff.mp equal
    exact beq_iff.mpr ⟨BEq.symm first,BEq.symm second,BEq.symm relation,BEq.symm metadata⟩
  trans left right := by
    obtain ⟨first,second,relation,metadata⟩ := beq_iff.mp left
    obtain ⟨first',second',relation',metadata'⟩ := beq_iff.mp right
    exact beq_iff.mpr ⟨BEq.trans first first',BEq.trans second second',BEq.trans relation relation',
      BEq.trans metadata metadata'⟩

theorem repeats_iff {a b : Dependency} :
    a.repeats b = true ↔ (a.identityKey == b.identityKey) = true ∧ (a == b) = true := by
  rw [repeats,Bool.and_eq_true]

theorem repeats_equivalence : Equivalence fun a b : Dependency => a.repeats b = true where
  refl a := repeats_iff.mpr ⟨BEq.rfl,BEq.rfl⟩
  symm again := by
    obtain ⟨keys,equal⟩ := repeats_iff.mp again
    exact repeats_iff.mpr ⟨BEq.symm keys,BEq.symm equal⟩
  trans first second := by
    obtain ⟨keys,equal⟩ := repeats_iff.mp first
    obtain ⟨keys',equal'⟩ := repeats_iff.mp second
    exact repeats_iff.mpr ⟨BEq.trans keys keys',BEq.trans equal equal'⟩

theorem relationName_of_text {d : Dependency} (text : d.relationValue.isText = true) :
    d.relationValue.text? = some d.relationName :=
  Label.text_of_isText (fun _ => rfl) text

theorem Keyed.identityKey_hashable {d : Dependency} (keyed : d.Keyed) : d.identityKey.isHashable = true := by
  rw [identityKey,hashable_tuple]
  have named : (Value.text d.relationName).isHashable = true := rfl
  simp [keyed.ends,named,frozen_hashable keyed.metadata]

/-- Equal dependencies have the same identity key exactly if they do not clash. -/
theorem identityKey_same_iff {a b : Dependency} (first : a.Textual) (second : b.Textual) (equal : (a == b) = true) :
    (a.identityKey == b.identityKey) = true ↔ ¬ a.Clashes b := by
  obtain ⟨left,right,relation,metadata⟩ := beq_iff.mp equal
  have name : a.relationName = b.relationName := by
    have text := Value.text_of_same (relationName_of_text first.relation) relation
    rw [relationName_of_text second.relation] at text
    exact (Option.some.inj text).symm
  rw [Clashes,← frozen_same_iff first.metadata second.metadata metadata,identityKey,identityKey,tuple_same_iff,name]
  constructor
  · rintro (_ | ⟨_,_ | ⟨_,_ | ⟨_,_ | ⟨frozen,_⟩⟩⟩⟩)
    exact frozen
  · exact fun frozen => .cons left (.cons right (.cons BEq.rfl (.cons frozen .nil)))

theorem eq_of_identityKey {a b : Dependency} (first : a.relationValue.isText = true)
    (second : b.relationValue.isText = true) (keys : (a.identityKey == b.identityKey) = true) : (a == b) = true := by
  rw [identityKey,identityKey,tuple_same_iff] at keys
  rcases keys with _ | ⟨left,_ | ⟨right,_ | ⟨name,_ | ⟨frozen,_⟩⟩⟩⟩
  have named : some a.relationName = some b.relationName := (Value.text_of_same rfl name).symm
  have relation := Value.same_of_text (relationName_of_text first) (named ▸ relationName_of_text second)
  exact beq_iff.mpr ⟨left,right,relation,same_of_frozen frozen⟩

theorem repeats_textual {a b : Dependency} (first : a.Textual) (second : b.Textual) :
    a.repeats b = true ↔ (a == b) = true ∧ ¬ a.Clashes b := by
  rw [repeats_iff,and_comm]
  exact and_congr_right (identityKey_same_iff first second)

/-! ### Hashes -/

/-- The hash of a dependency is that of its identity key, which has to be hashable. A hash of values depends on what
    they stand for. -/
def hash (digest : Sense → Int) (d : Dependency) : Except Fault Int := do
  d.identityKey.requireHashable
  return digest d.identityKey.sense

theorem Textual.hash_eq {d : Dependency} (textual : d.Textual) (digest : Sense → Int) :
    d.hash digest = .ok (digest d.identityKey.sense) := by
  rw [hash,Value.requireHashable_eq_ok.mpr textual.keyed.identityKey_hashable]
  rfl

/-- Identity keys tell dependencies apart. Dependencies with the same key are equal, whatever their metadata holds.
    Equal dependencies whose metadata holds no buffer have the same key, and with it the same hash. -/
theorem identityKey_total_correct (a b : Dependency) (first : a.Textual) (second : b.Textual) :
    ((a.identityKey == b.identityKey) = true → (a == b) = true) ∧
    ((a == b) = true → ¬ a.metadata.toValue.HoldsBuffer → ¬ b.metadata.toValue.HoldsBuffer →
      (a.identityKey == b.identityKey) = true ∧
        ∀ digest : Sense → Int, ∃ n, a.hash digest = .ok n ∧ b.hash digest = .ok n) := by
  refine ⟨eq_of_identityKey first.relation second.relation,?_⟩
  intro equal left right
  have clear : ¬ a.Clashes b := fun clash => (Value.Clash.holdsBuffer clash).elim left right
  have keys := (identityKey_same_iff first second equal).mpr clear
  refine ⟨keys,fun digest => ⟨_,first.hash_eq digest,?_⟩⟩
  rw [second.hash_eq,sense_eq_iff.mpr keys]

/-- One dependency written in two ways: with other kinds of number, text and set, and in another order. -/
def plainlyWritten : Dependency where
  prerequisite := .text "a"
  dependent := .text "b"
  relation := .other (.text "ansible")
  metadata := ⟨[(.text "tags",.set [.int 1,.text "requires"]),(.text "score",.list [.nan 0,.null])]⟩
def richlyWritten : Dependency where
  prerequisite := .text "a"
  dependent := .text "b"
  relation := .other (.tag (.source .ansible))
  metadata := ⟨[(.text "score",.list [.nan 0,.null]),(.text "tags",.frozenset [.tag (.relation .requires),.bool true])]⟩

theorem identityKey_written : plainlyWritten.Textual ∧ richlyWritten.Textual ∧
    (plainlyWritten.identityKey == richlyWritten.identityKey) = true ∧ (plainlyWritten == richlyWritten) = true := by
  have first : plainlyWritten.Textual := by decide
  have second : richlyWritten.Textual := by decide
  obtain ⟨equal,same⟩ := identityKey_total_correct _ _ first second
  obtain ⟨keys,_⟩ := same (by decide) (by decide) (by decide)
  exact ⟨first,second,keys,equal keys⟩

end Dependency

end InfraGraph
