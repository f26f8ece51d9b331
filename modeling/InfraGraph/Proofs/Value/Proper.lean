import InfraGraph.Value.Key
import InfraGraph.Proofs.Value.Sameness

/-!
What a value holds at any depth. Values that can be built have keys and members fit for tables, with no two the same.
Values that can be looked up hold no buffer. Both conditions are tested by one walk through the parts.
-/
namespace InfraGraph.Value

/-! ### Values that can be built -/

/-- The keys of a mapping and the members of a set can be looked up, and no two are the same. -/
def Form.Keyed : Form → Prop
  | mapping entries => (∀ e ∈ entries, e.1.isHashable = true) ∧ entries.Pairwise fun e f => (e.1 == f.1) = false
  | members items => (∀ x ∈ items, x.isHashable = true) ∧ items.Pairwise fun x y => (x == y) = false
  | _ => True

/-- A value all of whose mappings and sets are keyed, at any depth. -/
inductive Proper : Value → Prop
  | whole {v : Value} (keyed : v.form.Keyed) (parts : ∀ part ∈ v.form.parts, Proper part) : Proper v

theorem Proper.of_atom {v : Value} {a : Atom} (atom : v.form = .atom a) : Proper v := by
  refine .whole ?_ ?_
  · rw [atom]
    trivial
  · rw [atom]
    exact fun _ none => nomatch none

theorem Proper.part {v part : Value} (proper : Proper v) (member : part ∈ v.form.parts) : Proper part := by
  obtain ⟨_,parts⟩ := proper
  exact parts part member

/-- A buffer stands in a value, at some depth. -/
inductive HoldsBuffer : Value → Prop
  | here (content : List UInt8) : HoldsBuffer (buffer content)
  | inside {v part : Value} (member : part ∈ v.form.parts) (inner : HoldsBuffer part) : HoldsBuffer v

/-! ### Values that can be looked up -/

private theorem firstUnhashable_eq_none {items : List Value} :
    firstUnhashable? items = none ↔ ∀ x ∈ items, x.isHashable = true := by
  induction items with
  | nil => simp [firstUnhashable?]
  | cons x rest ih =>
    rw [firstUnhashable?,List.forall_mem_cons,← ih]
    cases found : x.unhashable? <;> simp [isHashable,found]

theorem hashable_tuple {items : List Value} : (tuple items).isHashable = true ↔ ∀ x ∈ items, x.isHashable = true := by
  rw [isHashable,Option.isNone_iff_eq_none,unhashable?,firstUnhashable_eq_none]

theorem hashable_frozenset {items : List Value} :
    (frozenset items).isHashable = true ↔ ∀ x ∈ items, x.isHashable = true := by
  rw [isHashable,Option.isNone_iff_eq_none,unhashable?,firstUnhashable_eq_none]

/-- What can be looked up has only parts that can be, and none of them is a buffer. -/
theorem not_holdsBuffer_of_hashable {v : Value} (hashable : v.isHashable = true) : ¬ v.HoldsBuffer := by
  intro holds
  induction holds with
  | here content => cases hashable
  | @inside v part member _ ih =>
    cases v with
    | tuple items => exact ih (hashable_tuple.mp hashable part member)
    | frozenset items => exact ih (hashable_frozenset.mp hashable part member)
    | list items => cases hashable
    | mapping entries => cases hashable
    | set items => cases hashable
    | _ => simp [form,Form.parts] at member

/-! ### Tests at any depth -/

mutual

/-- Whether a test passes at a value and at everything inside it. -/
def throughout (test : Value → Bool) : Value → Bool
  | list items => test (list items) && throughoutItems test items
  | tuple items => test (tuple items) && throughoutItems test items
  | mapping entries => test (mapping entries) && throughoutEntries test entries
  | set members => test (set members) && throughoutItems test members
  | frozenset members => test (frozenset members) && throughoutItems test members
  | v => test v
termination_by structural v => v

/-- Whether a test passes at every one of a list of values and inside it. -/
def throughoutItems (test : Value → Bool) : List Value → Bool
  | [] => true
  | v :: rest => throughout test v && throughoutItems test rest
termination_by structural vs => vs

/-- Whether a test passes at both sides of every entry and inside them. -/
def throughoutEntries (test : Value → Bool) : List (Value × Value) → Bool
  | [] => true
  | e :: rest => throughoutEntry test e && throughoutEntries test rest
termination_by structural es => es

/-- Whether a test passes at both sides of an entry and inside them. -/
def throughoutEntry (test : Value → Bool) : Value × Value → Bool
  | (key, held) => throughout test key && throughout test held
termination_by structural e => e

end

private theorem throughoutItems_iff {test : Value → Bool} {items : List Value} :
    throughoutItems test items = true ↔ ∀ v ∈ items, throughout test v = true := by
  induction items with
  | nil => simp [throughoutItems]
  | cons v rest ih => simp [throughoutItems,ih]

private theorem throughoutEntries_iff {test : Value → Bool} {entries : List (Value × Value)} :
    throughoutEntries test entries = true ↔ ∀ v ∈ (Form.mapping entries).parts, throughout test v = true := by
  induction entries with
  | nil => simp [throughoutEntries,Form.parts]
  | cons e rest ih =>
    rw [throughoutEntries,Bool.and_eq_true,ih,throughoutEntry,Bool.and_eq_true]
    simp only [Form.parts,List.map_cons,List.forall_mem_append,List.forall_mem_cons]
    tauto

theorem throughout_iff {test : Value → Bool} {v : Value} :
    throughout test v = true ↔ test v = true ∧ ∀ part ∈ v.form.parts, throughout test part = true := by
  cases v with
  | mapping entries => rw [throughout,Bool.and_eq_true,throughoutEntries_iff,form]
  | list items => rw [throughout,Bool.and_eq_true,throughoutItems_iff,form,Form.parts]
  | tuple items => rw [throughout,Bool.and_eq_true,throughoutItems_iff,form,Form.parts]
  | set items => rw [throughout,Bool.and_eq_true,throughoutItems_iff,form,Form.parts]
  | frozenset items => rw [throughout,Bool.and_eq_true,throughoutItems_iff,form,Form.parts]
  | _ => simp [throughout,form,Form.parts]

instance (f : Form) : Decidable f.Keyed :=
  match f with
  | .mapping entries => inferInstanceAs (Decidable ((∀ e ∈ entries, _) ∧ entries.Pairwise _))
  | .members items => inferInstanceAs (Decidable ((∀ x ∈ items, _) ∧ items.Pairwise _))
  | .atom _ | .list _ | .tuple _ => .isTrue trivial

private theorem proper_iff {v : Value} : throughout (fun v => decide v.form.Keyed) v = true ↔ v.Proper := by
  constructor
  · intro passed
    induction v using parts_induction with
    | whole v ih =>
      obtain ⟨keyed,parts⟩ := throughout_iff.mp passed
      exact .whole (of_decide_eq_true keyed) fun part member => ih part member (parts part member)
  · intro proper
    induction proper with
    | whole keyed _ ih => exact throughout_iff.mpr ⟨decide_eq_true keyed,ih⟩

instance (v : Value) : Decidable v.Proper := decidable_of_iff _ proper_iff

private def isBuffer : Value → Bool
  | buffer _ => true
  | _ => false

private theorem holdsBuffer_iff {v : Value} : throughout (fun v => !v.isBuffer) v = false ↔ v.HoldsBuffer := by
  rw [← Bool.not_eq_true]
  constructor
  · contrapose
    intro clear
    induction v using parts_induction with
    | whole v ih =>
      refine throughout_iff.mpr ⟨?_,fun part member => ih part member fun inner => clear (.inside member inner)⟩
      cases v with
      | buffer content => exact absurd (.here content) clear
      | _ => rfl
  · intro holds passed
    induction holds with
    | here content => exact absurd passed Bool.false_ne_true
    | inside member _ ih => exact ih ((throughout_iff.mp passed).2 _ member)

instance (v : Value) : Decidable v.HoldsBuffer := decidable_of_iff _ holdsBuffer_iff

end InfraGraph.Value
