import InfraGraph.Fault
import Mathlib.Data.List.Forall2

/-!
When values are the same. The test is opened once, by the form of a value, which forgets the kind
of a set and the kind of what has no parts. It is an equivalence on all values, so values up to
sameness are a type of their own: the senses.
-/
namespace InfraGraph.Value

/-- What a value is made of, as far as sameness looks at it. -/
inductive Form where
  | atom (a : Atom)
  | list (items : List Value)
  | tuple (items : List Value)
  | mapping (entries : List (Value × Value))
  | members (items : List Value)

/-- A value without the kind of its set or number. -/
def form : Value → Form
  | null => .atom .null
  | bool b => .atom (.number (if b then 1 else 0))
  | int n => .atom (.number n)
  | float x => .atom x.atom
  | nan label => .atom (.nan label)
  | text s => .atom (.text s)
  | bytes content => .atom (.bytes content)
  | buffer content => .atom (.bytes content)
  | tag t => .atom (.text t.text)
  | list items => .list items
  | tuple items => .tuple items
  | mapping entries => .mapping entries
  | set items => .members items
  | frozenset items => .members items

/-- The values directly inside a form. -/
def Form.parts : Form → List Value
  | atom _ => []
  | list items => items
  | tuple items => items
  | mapping entries => entries.map (·.1) ++ entries.map (·.2)
  | members items => items

/-- Each item of either list has a counterpart in the other one. -/
def BothWays {α : Type} (R : α → α → Prop) (xs ys : List α) : Prop :=
  (∀ x ∈ xs, ∃ y ∈ ys, R x y) ∧ ∀ y ∈ ys, ∃ x ∈ xs, R x y

/-- Entries with the same key that hold the same. -/
def EntriesSame (e f : Value × Value) : Prop := same e.1 f.1 = true ∧ same e.2 f.2 = true

/-- Sameness by forms: the same atom, the same items in turn, or the same entries or members in
    any order and number. -/
def Form.Same : Form → Form → Prop
  | atom x, atom y => x = y
  | list xs, list ys => List.Forall₂ (fun x y => same x y = true) xs ys
  | tuple xs, tuple ys => List.Forall₂ (fun x y => same x y = true) xs ys
  | mapping es, mapping fs => BothWays EntriesSame es fs
  | members xs, members ys => BothWays (fun x y => same x y = true) xs ys
  | _, _ => False

private theorem sizeOf_part (v part : Value) (member : part ∈ v.form.parts) : sizeOf part < sizeOf v := by
  have inside (items : List Value) (member : part ∈ items) : sizeOf part < 1 + sizeOf items := by
    have := List.sizeOf_lt_of_mem member
    omega
  cases v with
  | list items => simpa using inside items member
  | tuple items => simpa using inside items member
  | set items => simpa using inside items member
  | frozenset items => simpa using inside items member
  | mapping entries =>
    have held : ∃ e ∈ entries, part = e.1 ∨ part = e.2 := by
      simp only [form,Form.parts,List.mem_append,List.mem_map] at member
      rcases member with ⟨e,entry,rfl⟩ | ⟨e,entry,rfl⟩
      · exact ⟨e,entry,.inl rfl⟩
      · exact ⟨e,entry,.inr rfl⟩
    obtain ⟨⟨key,value⟩,entry,side⟩ := held
    have smaller := List.sizeOf_lt_of_mem entry
    simp only [Prod.mk.sizeOf_spec,mapping.sizeOf_spec] at smaller ⊢
    rcases side with rfl | rfl
    · omega
    · omega
  | _ => simp [form,Form.parts] at member

/-- What holds of a value once it holds of its parts holds of every value. -/
theorem parts_induction {motive : Value → Prop}
    (whole : ∀ v, (∀ part ∈ v.form.parts, motive part) → motive v) (v : Value) : motive v :=
  whole v fun part _ => parts_induction whole part
termination_by sizeOf v
decreasing_by exact sizeOf_part v part ‹_›

private theorem totals_eq {α β : Type} (f : α → β → Bool) (xs : List α) (ys : List β) :
    (xs.map fun x => ys.map (f x)).foldr addRow (List.replicate ys.length false) =
      ys.map fun y => xs.any fun x => f x y := by
  induction xs with
  | nil => simp [List.map_const']
  | cons x rest ih => simp [ih,addRow,List.zipWith_map,List.zipWith_self]

theorem matchesBothWays_iff {α : Type} (f : α → α → Bool) (xs ys : List α) :
    matchesBothWays ys.length (xs.map fun x => ys.map (f x)) = true ↔
      BothWays (fun x y => f x y = true) xs ys := by
  rw [matchesBothWays,totals_eq]
  simp [BothWays]

private theorem memberTable_eq (xs ys : List Value) : memberTable xs ys = xs.map fun x => ys.map (same x) := by
  induction xs with
  | nil => rfl
  | cons x rest ih => simp [memberTable,ih]

private theorem entryTable_eq (es fs : List (Value × Value)) :
    entryTable es fs = es.map fun e => fs.map (sameEntry e) := by
  induction es with
  | nil => rfl
  | cons e rest ih => simp [entryTable,ih]

private theorem sameItems_iff (xs ys : List Value) :
    sameItems xs ys = true ↔ List.Forall₂ (fun x y => same x y = true) xs ys := by
  induction xs generalizing ys with
  | nil => cases ys <;> simp [sameItems]
  | cons x rest ih => cases ys <;> simp [sameItems,ih]

private theorem sameEntries_iff (es fs : List (Value × Value)) :
    matchesBothWays fs.length (entryTable es fs) = true ↔ BothWays EntriesSame es fs := by
  rw [entryTable_eq,matchesBothWays_iff]
  simp [BothWays,EntriesSame,sameEntry]

private theorem sameMembers_iff (xs ys : List Value) :
    matchesBothWays ys.length (memberTable xs ys) = true ↔ BothWays (fun x y => same x y = true) xs ys := by
  rw [memberTable_eq,matchesBothWays_iff]

theorem same_iff (a b : Value) : same a b = true ↔ a.form.Same b.form := by
  cases a with
  | list xs => cases b <;> simp [same,form,Form.Same,sameItems_iff]
  | tuple xs => cases b <;> simp [same,form,Form.Same,sameItems_iff]
  | mapping es => cases b <;> simp [same,form,Form.Same,sameEntries_iff]
  | set xs => cases b <;> simp [same,form,Form.Same,members?,sameMembers_iff]
  | frozenset xs => cases b <;> simp [same,form,Form.Same,members?,sameMembers_iff]
  | _ => cases b <;> simp [same,form,Form.Same,atom?]

theorem entry_parts {entries : List (Value × Value)} {e : Value × Value} (entry : e ∈ entries) :
    e.1 ∈ (Form.mapping entries).parts ∧ e.2 ∈ (Form.mapping entries).parts := by
  simp only [Form.parts,List.mem_append,List.mem_map]
  exact ⟨.inl ⟨e,entry,rfl⟩,.inr ⟨e,entry,rfl⟩⟩

theorem same_refl (v : Value) : same v v = true := by
  induction v using parts_induction with
  | whole v ih =>
    rw [same_iff]
    cases shape : v.form with
    | atom a => rfl
    | list items =>
      rw [shape] at ih
      exact List.forall₂_same.mpr ih
    | tuple items =>
      rw [shape] at ih
      exact List.forall₂_same.mpr ih
    | mapping entries =>
      rw [shape] at ih
      have each (e : Value × Value) (entry : e ∈ entries) : EntriesSame e e :=
        ⟨ih _ (entry_parts entry).1,ih _ (entry_parts entry).2⟩
      exact ⟨fun e entry => ⟨e,entry,each e entry⟩,fun e entry => ⟨e,entry,each e entry⟩⟩
    | members items =>
      rw [shape] at ih
      exact ⟨fun x member => ⟨x,member,ih x member⟩,fun x member => ⟨x,member,ih x member⟩⟩

private theorem items_symm {xs ys : List Value} (swap : ∀ x ∈ xs, ∀ y, same x y = true → same y x = true)
    (items : List.Forall₂ (fun x y => same x y = true) xs ys) :
    List.Forall₂ (fun x y => same x y = true) ys xs := by
  induction items with
  | nil => exact .nil
  | cons first _ ih =>
    exact .cons (swap _ (by simp) _ first) (ih fun x member => swap x (List.mem_cons_of_mem _ member))

theorem bothWays_symm {α : Type} {R : α → α → Prop} {xs ys : List α}
    (swap : ∀ x ∈ xs, ∀ y, R x y → R y x) (both : BothWays R xs ys) : BothWays R ys xs := by
  constructor
  · intro y member
    obtain ⟨x,inside,related⟩ := both.2 y member
    exact ⟨x,inside,swap x inside y related⟩
  · intro x member
    obtain ⟨y,inside,related⟩ := both.1 x member
    exact ⟨y,inside,swap x member y related⟩

theorem same_symm (a b : Value) (equal : same a b = true) : same b a = true := by
  induction a using parts_induction generalizing b with
  | whole a ih =>
    rw [same_iff] at equal ⊢
    cases left : a.form with
    | atom x => cases right : b.form <;> simp_all [Form.Same]
    | list xs =>
      cases right : b.form <;> simp only [left,right,Form.Same] at equal ih ⊢
      exact items_symm ih equal
    | tuple xs =>
      cases right : b.form <;> simp only [left,right,Form.Same] at equal ih ⊢
      exact items_symm ih equal
    | mapping es =>
      cases right : b.form <;> simp only [left,right,Form.Same] at equal ih ⊢
      refine bothWays_symm ?_ equal
      intro e entry f related
      exact ⟨ih _ (entry_parts entry).1 _ related.1,ih _ (entry_parts entry).2 _ related.2⟩
    | members xs =>
      cases right : b.form <;> simp only [left,right,Form.Same] at equal ih ⊢
      exact bothWays_symm ih equal

private theorem items_trans {xs ys zs : List Value}
    (chain : ∀ x ∈ xs, ∀ y z, same x y = true → same y z = true → same x z = true)
    (first : List.Forall₂ (fun x y => same x y = true) xs ys)
    (second : List.Forall₂ (fun x y => same x y = true) ys zs) :
    List.Forall₂ (fun x y => same x y = true) xs zs := by
  induction first generalizing zs with
  | nil => exact second
  | cons head _ ih =>
    cases second with
    | cons next rest =>
      exact .cons (chain _ (by simp) _ _ head next) (ih (fun x member => chain x (List.mem_cons_of_mem _ member)) rest)

theorem bothWays_trans {α : Type} {R : α → α → Prop} {xs ys zs : List α}
    (chain : ∀ x ∈ xs, ∀ y z, R x y → R y z → R x z) (first : BothWays R xs ys) (second : BothWays R ys zs) :
    BothWays R xs zs := by
  constructor
  · intro x member
    obtain ⟨y,middle,left⟩ := first.1 x member
    obtain ⟨z,inside,right⟩ := second.1 y middle
    exact ⟨z,inside,chain x member y z left right⟩
  · intro z member
    obtain ⟨y,middle,right⟩ := second.2 z member
    obtain ⟨x,inside,left⟩ := first.2 y middle
    exact ⟨x,inside,chain x inside y z left right⟩

theorem same_trans (a b c : Value) (first : same a b = true) (second : same b c = true) : same a c = true := by
  induction a using parts_induction generalizing b c with
  | whole a ih =>
    rw [same_iff] at first second ⊢
    cases left : a.form with
    | atom x => cases middle : b.form <;> cases right : c.form <;> simp_all [Form.Same]
    | list xs =>
      cases middle : b.form <;> simp only [left,middle,Form.Same] at first ih
      cases right : c.form <;> simp only [middle,right,Form.Same] at second ⊢
      exact items_trans ih first second
    | tuple xs =>
      cases middle : b.form <;> simp only [left,middle,Form.Same] at first ih
      cases right : c.form <;> simp only [middle,right,Form.Same] at second ⊢
      exact items_trans ih first second
    | mapping es =>
      cases middle : b.form <;> simp only [left,middle,Form.Same] at first ih
      cases right : c.form <;> simp only [middle,right,Form.Same] at second ⊢
      refine bothWays_trans ?_ first second
      intro e entry f g start next
      exact ⟨ih _ (entry_parts entry).1 _ _ start.1 next.1,ih _ (entry_parts entry).2 _ _ start.2 next.2⟩
    | members xs =>
      cases middle : b.form <;> simp only [left,middle,Form.Same] at first ih
      cases right : c.form <;> simp only [middle,right,Form.Same] at second ⊢
      exact bothWays_trans ih first second

/-- Sameness is an equivalence on all values, whatever they hold. -/
instance : EquivBEq Value where
  rfl := same_refl _
  symm := same_symm _ _
  trans := same_trans _ _ _

example : (Value.nan 0 == .nan 0) = true ∧ (Value.nan 0 == .nan 1) = false := by decide
example : (Value.set [.int 1] == .frozenset [.bool true]) = true ∧ (Value.list [.int 1] == .tuple [.int 1]) = false := by
  decide

/-! ### Values up to sameness -/

instance sameSetoid : Setoid Value where
  r a b := (a == b) = true
  iseqv := ⟨fun _ => BEq.rfl,BEq.symm,BEq.trans⟩

/-- A value up to sameness. -/
def Sense : Type := Quotient sameSetoid

/-- What a value stands for. -/
def sense (v : Value) : Sense := Quotient.mk _ v

theorem sense_eq_iff {a b : Value} : a.sense = b.sense ↔ (a == b) = true :=
  ⟨Quotient.exact,fun equal => Quotient.sound equal⟩

instance (a b : Value) : Decidable (a ≈ b) := inferInstanceAs (Decidable ((a == b) = true))

instance : DecidableEq Sense := inferInstanceAs (DecidableEq (Quotient sameSetoid))

/-- Equality of senses is sameness of values, as Boolean tests. -/
theorem sense_beq (a b : Value) : (a.sense == b.sense) = (a == b) := by
  rw [Bool.eq_iff_iff,beq_iff_eq,sense_eq_iff]

/-! ### Texts -/

theorem form_of_text {v : Value} {s : String} : v.form = .atom (.text s) ↔ v.text? = some s := by
  cases v with
  | float x => cases x <;> simp [form,text?,Number.Binary64.atom]
  | _ => simp [form,text?]

theorem same_of_text {a b : Value} {s : String} (first : a.text? = some s) (second : b.text? = some s) :
    (a == b) = true := by
  refine (same_iff a b).mpr ?_
  rw [form_of_text.mpr first,form_of_text.mpr second]
  rfl

theorem requireHashable_eq_ok {v : Value} : v.requireHashable = .ok () ↔ v.isHashable = true := by
  unfold requireHashable isHashable
  cases v.unhashable? with
  | none => simp
  | some kind => simp

theorem hashable_of_text {v : Value} (text : v.isText = true) : v.isHashable = true := by
  cases v with
  | text s => rfl
  | tag t => rfl
  | _ => cases text

theorem text_of_same {a b : Value} {s : String} (text : a.text? = some s) (equal : (a == b) = true) :
    b.text? = some s := by
  have forms := (same_iff a b).mp equal
  rw [form_of_text.mpr text] at forms
  cases right : b.form with
  | atom y =>
    rw [right] at forms
    cases forms
    exact form_of_text.mp right
  | _ => simp [right,Form.Same] at forms

end InfraGraph.Value
