import InfraGraph.Proofs.Value.Frozen

/-!
Hashable forms. A value has one unless a buffer stands in it, and the form can always be looked up. What can be looked up
already is the same as its form, and values that are the same have forms that are. So it does not matter for a partition key
whether a value that can be one is converted.
-/
namespace InfraGraph.Value

/-! ### Conversion by the form -/

private theorem forms_eq_some {items forms : List Value} : hashableForms? items = some forms ↔
    List.Forall₂ (fun v form => v.hashableForm? = some form) items forms := by
  induction items generalizing forms with
  | nil => simp [hashableForms?,eq_comm]
  | cons v rest ih =>
    rw [hashableForms?,List.forall₂_cons_left_iff]
    cases first : v.hashableForm? with
    | none => simp
    | some form =>
      simp only [← ih,Option.some.injEq]
      cases hashableForms? rest with
      | none => simp
      | some later => simp [eq_comm]

private theorem forms_eq_none {items : List Value} :
    hashableForms? items = none ↔ ∃ v ∈ items, v.hashableForm? = none := by
  induction items with
  | nil => simp [hashableForms?]
  | cons v rest ih =>
    rw [hashableForms?,List.exists_mem_cons_iff,← ih]
    cases first : v.hashableForm? with
    | none => simp
    | some form => cases hashableForms? rest <;> simp

/-- An entry of a mapping as a pair. -/
def pair (e : Value × Value) : Value := tuple [e.1,e.2]

theorem form_pair {e : Value × Value} {form : Value} : (pair e).hashableForm? = some form ↔
    ∃ first second, e.1.hashableForm? = some first ∧ e.2.hashableForm? = some second ∧ form = tuple [first,second] := by
  rw [pair,hashableForm?,Option.map_eq_some_iff]
  simp only [forms_eq_some,List.forall₂_cons_left_iff,List.forall₂_nil_left_iff]
  constructor
  · rintro ⟨_,⟨first,_,left,⟨second,_,right,rfl,rfl⟩,rfl⟩,rfl⟩
    exact ⟨first,second,left,right,rfl⟩
  · rintro ⟨first,second,left,right,rfl⟩
    exact ⟨_,⟨first,_,left,⟨second,_,right,rfl,rfl⟩,rfl⟩,rfl⟩

private theorem entries_eq (entries : List (Value × Value)) :
    hashableEntries? entries = hashableForms? (entries.map pair) := by
  induction entries with
  | nil => rfl
  | cons e rest ih =>
    have same : hashableEntry? e = (pair e).hashableForm? := by
      rw [pair,hashableForm?,hashableForms?,hashableForms?,hashableForms?, hashableEntry?]
      cases e.1.hashableForm? with
      | none => rfl
      | some first => cases e.2.hashableForm? <;> rfl
    rw [hashableEntries?,ih,same,List.map_cons,hashableForms?]

private theorem form_items {v : Value} {items : List Value} (shape : v.form = .list items ∨ v.form = .tuple items) :
    v.hashableForm? = (hashableForms? items).map tuple := by
  rcases shape with shape | shape
  · rw [eq_list shape,hashableForm?]
  · rw [eq_tuple shape,hashableForm?]

private theorem form_mapping {v : Value} {entries : List (Value × Value)} (shape : v.form = .mapping entries) :
    v.hashableForm? = (hashableForms? (entries.map pair)).map fun forms => frozenset (distinct forms) := by
  rw [eq_mapping shape,hashableForm?,entries_eq]

private theorem form_members {v : Value} {items : List Value} (shape : v.form = .members items) :
    v.hashableForm? = (hashableForms? items).map fun forms => frozenset (distinct forms) := by
  cases v with
  | set items => cases shape; rw [hashableForm?]
  | frozenset items => cases shape; rw [hashableForm?]
  | _ => cases shape

/-- What has no parts is its own form, but for buffers. -/
private theorem form_atom {v : Value} {a : Atom} (shape : v.form = .atom a) :
    v.hashableForm? = some v ∧ v.isHashable = true ∨ ∃ content, v = buffer content := by
  cases v with
  | buffer content => exact .inr ⟨content,rfl⟩
  | list items => cases shape
  | tuple items => cases shape
  | mapping entries => cases shape
  | set items => cases shape
  | frozenset items => cases shape
  | _ => exact .inl ⟨rfl,rfl⟩

/-- What the hashable form of a value is: the value itself, or made of the forms of its items, entries or members. -/
private inductive HasForm (v : Value) : Value → Prop
  | itself {a : Atom} (shape : v.form = .atom a) (hashable : v.isHashable = true) : HasForm v v
  | items {items forms : List Value} (shape : v.form = .list items ∨ v.form = .tuple items)
      (each : List.Forall₂ (fun x form => x.hashableForm? = some form) items forms) : HasForm v (tuple forms)
  | mapping {entries : List (Value × Value)} {forms : List Value} (shape : v.form = .mapping entries)
      (each : List.Forall₂ (fun x form => x.hashableForm? = some form) (entries.map pair) forms) :
      HasForm v (frozenset (distinct forms))
  | members {items forms : List Value} (shape : v.form = .members items)
      (each : List.Forall₂ (fun x form => x.hashableForm? = some form) items forms) :
      HasForm v (frozenset (distinct forms))

private theorem hasForm {v w : Value} (found : v.hashableForm? = some w) : HasForm v w := by
  cases shape : v.form with
  | atom a =>
    rcases form_atom shape with ⟨is,hashable⟩ | ⟨content,rfl⟩
    · obtain rfl := Option.some.inj (is.symm.trans found)
      exact .itself shape hashable
    · cases found
  | list items =>
    rw [form_items (.inl shape),Option.map_eq_some_iff] at found
    obtain ⟨forms,each,rfl⟩ := found
    exact .items (.inl shape) (forms_eq_some.mp each)
  | tuple items =>
    rw [form_items (.inr shape),Option.map_eq_some_iff] at found
    obtain ⟨forms,each,rfl⟩ := found
    exact .items (.inr shape) (forms_eq_some.mp each)
  | mapping entries =>
    rw [form_mapping shape,Option.map_eq_some_iff] at found
    obtain ⟨forms,each,rfl⟩ := found
    exact .mapping shape (forms_eq_some.mp each)
  | members items =>
    rw [form_members shape,Option.map_eq_some_iff] at found
    obtain ⟨forms,each,rfl⟩ := found
    exact .members shape (forms_eq_some.mp each)

/-! ### Which values have a form -/

theorem holdsBuffer_iff_part {v : Value} :
    v.HoldsBuffer ↔ (∃ content, v = buffer content) ∨ ∃ part ∈ v.form.parts, part.HoldsBuffer := by
  constructor
  · rintro (⟨content⟩ | ⟨member,inner⟩)
    · exact .inl ⟨content,rfl⟩
    · exact .inr ⟨_,member,inner⟩
  · rintro (⟨content,rfl⟩ | ⟨part,member,inner⟩)
    · exact .here content
    · exact .inside member inner

private theorem pair_eq_none {e : Value × Value} :
    (pair e).hashableForm? = none ↔ e.1.hashableForm? = none ∨ e.2.hashableForm? = none := by
  rw [pair,form_items (.inr rfl),Option.map_eq_none_iff,forms_eq_none]
  simp

/-- A value has no hashable form exactly if a buffer stands in it, at some depth. -/
theorem hashableForm_eq_none_iff {v : Value} : v.hashableForm? = none ↔ v.HoldsBuffer := by
  induction v using parts_induction with
  | whole v ih =>
    have inside {items : List Value} (parts : v.form.parts = items) (other : ∀ content, v ≠ buffer content) :
        (∃ x ∈ items, x.hashableForm? = none) ↔ v.HoldsBuffer := by
      rw [holdsBuffer_iff_part,or_iff_right fun ⟨content,is⟩ => other content is,parts]
      exact exists_congr fun x => and_congr_right fun member => ih x (parts ▸ member)
    cases shape : v.form with
    | atom a =>
      rcases form_atom shape with ⟨is,hashable⟩ | ⟨content,rfl⟩
      · simp [is,not_holdsBuffer_of_hashable hashable]
      · exact iff_of_true rfl (.here content)
    | list items =>
      rw [form_items (.inl shape),Option.map_eq_none_iff,forms_eq_none]
      exact inside (by rw [shape,Form.parts]) (by rintro content rfl; cases shape)
    | tuple items =>
      rw [form_items (.inr shape),Option.map_eq_none_iff,forms_eq_none]
      exact inside (by rw [shape,Form.parts]) (by rintro content rfl; cases shape)
    | mapping entries =>
      rw [form_mapping shape,Option.map_eq_none_iff,forms_eq_none,← inside (by rw [shape]) (by rintro content rfl; cases shape)]
      simp only [List.mem_map,exists_exists_and_eq_and,pair_eq_none,Form.parts,List.mem_append,or_and_right,exists_or,
        and_or_left]
    | members items =>
      rw [form_members shape,Option.map_eq_none_iff,forms_eq_none]
      exact inside (by rw [shape,Form.parts]) (by rintro content rfl; cases shape)

/-! ### Forms of forms -/

private theorem counterparts {R : Value → Value → Prop} {xs ys : List Value} (each : List.Forall₂ R xs ys) :
    BothWays R xs ys := by
  induction each with
  | nil => exact ⟨by simp,by simp⟩
  | @cons x y _ _ first _ ih =>
    constructor
    · refine List.forall_mem_cons.mpr ⟨⟨y,by simp,first⟩,fun u later => ?_⟩
      obtain ⟨w,inside,related⟩ := ih.1 u later
      exact ⟨w,List.mem_cons_of_mem _ inside,related⟩
    · refine List.forall_mem_cons.mpr ⟨⟨x,by simp,first⟩,fun w later => ?_⟩
      obtain ⟨u,inside,related⟩ := ih.2 w later
      exact ⟨u,List.mem_cons_of_mem _ inside,related⟩

private theorem items_parts {v : Value} {items : List Value} (shape : v.form = .list items ∨ v.form = .tuple items) :
    v.form.parts = items := by
  rcases shape with shape | shape <;> rw [shape,Form.parts]

/-- What holds of the values that are their own forms, and of tuples and frozen sets of what it holds of, holds of forms. -/
theorem form_induction {P : Value → Prop}
    (itself : ∀ v : Value, v.isHashable = true → v.hashableForm? = some v → P v)
    (sequence : ∀ forms : List Value, (∀ form ∈ forms, P form) → P (tuple forms))
    (collection : ∀ forms : List Value, (∀ form ∈ forms, P form) → P (frozenset (distinct forms)))
    {v w : Value} (found : v.hashableForm? = some w) : P w := by
  have all {items forms : List Value} (made : List.Forall₂ (fun x form => x.hashableForm? = some form) items forms)
      (each : ∀ x ∈ items, ∀ form, x.hashableForm? = some form → P form) : ∀ form ∈ forms, P form := by
    intro form member
    obtain ⟨x,inside,is⟩ := (counterparts made).2 form member
    exact each x inside form is
  induction v using parts_induction generalizing w with
  | whole v ih =>
    cases hasForm found with
    | itself _ hashable => exact itself v hashable found
    | items shape made => exact sequence _ (all made fun x inside form is => ih x (items_parts shape ▸ inside) is)
    | mapping shape made =>
      rw [shape] at ih
      refine collection _ (all made ?_)
      rintro _ inside form is
      obtain ⟨e,entry,rfl⟩ := List.mem_map.mp inside
      obtain ⟨first,second,left,right,rfl⟩ := form_pair.mp is
      exact sequence _ (by simp [ih _ (entry_parts entry).1 left,ih _ (entry_parts entry).2 right])
    | members shape made =>
      rw [shape] at ih
      exact collection _ (all made fun x inside form is => ih x inside is)

/-- Hashable forms can be looked up. -/
theorem hashable_of_form {v w : Value} (found : v.hashableForm? = some w) : w.isHashable = true := by
  refine form_induction (fun v hashable _ => hashable) ?_ ?_ found
  · exact fun forms each => hashable_tuple.mpr each
  · exact fun forms each => hashable_frozenset.mpr fun form member => each form ((distinct_sublist _).subset member)

/-- A form is its own form. -/
theorem form_fixed {v w : Value} (found : v.hashableForm? = some w) : w.hashableForm? = some w := by
  refine form_induction (fun v _ is => is) ?_ ?_ found
  · intro forms each
    rw [form_items (.inr rfl),forms_eq_some.mpr (List.forall₂_same.mpr each),Option.map_some]
  · intro forms each
    have own : hashableForms? (distinct forms) = some (distinct forms) :=
      forms_eq_some.mpr (List.forall₂_same.mpr fun form member => each form ((distinct_sublist _).subset member))
    rw [form_members rfl,own,Option.map_some,distinct_distinct]

/-! ### What a form is the same as -/

/-- Forms of values that are the same as one that is given have to be the same as its form. -/
private def Congruent (x : Value) : Prop :=
  ∀ y k l, same x y = true → x.hashableForm? = some k → y.hashableForm? = some l → same k l = true

private theorem items_congr {xs ys ks ls : List Value} (each : ∀ x ∈ xs, Congruent x)
    (equal : List.Forall₂ (fun x y => same x y = true) xs ys)
    (first : List.Forall₂ (fun x form => x.hashableForm? = some form) xs ks)
    (second : List.Forall₂ (fun y form => y.hashableForm? = some form) ys ls) :
    List.Forall₂ (fun k l => same k l = true) ks ls := by
  induction equal generalizing ks ls with
  | nil =>
    cases first
    cases second
    exact .nil
  | cons head _ ih =>
    cases first with
    | cons left lefts =>
      cases second with
      | cons right rights =>
        exact .cons (each _ (by simp) _ _ _ head left right) (ih (fun x later => each x (by simp [later])) lefts rights)

private theorem members_congr {xs ys ks ls : List Value} (each : ∀ x ∈ xs, Congruent x)
    (equal : BothWays (fun x y => same x y = true) xs ys)
    (first : List.Forall₂ (fun x form => x.hashableForm? = some form) xs ks)
    (second : List.Forall₂ (fun y form => y.hashableForm? = some form) ys ls) :
    (frozenset (distinct ks) == frozenset (distinct ls)) = true := by
  rw [frozenset_same_iff,bothWays_distinct]
  constructor
  · intro k member
    obtain ⟨x,inside,left⟩ := (counterparts first).2 k member
    obtain ⟨y,among,head⟩ := equal.1 x inside
    obtain ⟨l,listed,right⟩ := (counterparts second).1 y among
    exact ⟨l,listed,each x inside y k l head left right⟩
  · intro l member
    obtain ⟨y,among,right⟩ := (counterparts second).2 l member
    obtain ⟨x,inside,head⟩ := equal.2 y among
    obtain ⟨k,listed,left⟩ := (counterparts first).1 x inside
    exact ⟨k,listed,each x inside y k l head left right⟩

private theorem pair_same_iff {e f : Value × Value} : same (pair e) (pair f) = true ↔ EntriesSame e f := by
  rw [pair,pair,EntriesSame]
  exact tuple_same_iff.trans (by simp)

private theorem sequence_congr {v : Value} {items : List Value} (shape : v.form = .list items ∨ v.form = .tuple items)
    (each : ∀ x ∈ items, Congruent x) : Congruent v := by
  intro b k l equal first second
  have forms := (same_iff v b).mp equal
  obtain ⟨others,also,equal⟩ : ∃ ys, (b.form = .list ys ∨ b.form = .tuple ys) ∧
      List.Forall₂ (fun x y => same x y = true) items ys := by
    rcases shape with shape | shape
    · cases right : b.form <;> simp only [shape,right,Form.Same] at forms
      exact ⟨_,.inl rfl,forms⟩
    · cases right : b.form <;> simp only [shape,right,Form.Same] at forms
      exact ⟨_,.inr rfl,forms⟩
  rw [form_items shape,Option.map_eq_some_iff] at first
  rw [form_items also,Option.map_eq_some_iff] at second
  obtain ⟨ks,left,rfl⟩ := first
  obtain ⟨ls,right,rfl⟩ := second
  exact tuple_same_iff.mpr (items_congr each equal (forms_eq_some.mp left) (forms_eq_some.mp right))

private theorem mapping_congr {v : Value} {entries : List (Value × Value)} (shape : v.form = .mapping entries)
    (each : ∀ e ∈ entries, Congruent e.1 ∧ Congruent e.2) : Congruent v := by
  intro b k l equal first second
  have forms := (same_iff v b).mp equal
  cases also : b.form <;> simp only [shape,also,Form.Same] at forms
  next others =>
    have pairs : BothWays (fun x y => same x y = true) (entries.map pair) (others.map pair) := by
      simp only [bothWays_map,pair_same_iff]
      exact forms
    rw [form_mapping shape,Option.map_eq_some_iff] at first
    rw [form_mapping also,Option.map_eq_some_iff] at second
    obtain ⟨ks,left,rfl⟩ := first
    obtain ⟨ls,right,rfl⟩ := second
    refine members_congr (List.forall_mem_map.mpr fun e entry => ?_) pairs (forms_eq_some.mp left) (forms_eq_some.mp right)
    exact sequence_congr (.inr rfl) (by simpa using each e entry)

private theorem set_congr {v : Value} {items : List Value} (shape : v.form = .members items)
    (each : ∀ x ∈ items, Congruent x) : Congruent v := by
  intro b k l equal first second
  have forms := (same_iff v b).mp equal
  cases also : b.form <;> simp only [shape,also,Form.Same] at forms
  rw [form_members shape,Option.map_eq_some_iff] at first
  rw [form_members also,Option.map_eq_some_iff] at second
  obtain ⟨ks,left,rfl⟩ := first
  obtain ⟨ls,right,rfl⟩ := second
  exact members_congr each forms (forms_eq_some.mp left) (forms_eq_some.mp right)

private theorem atom_congr {v : Value} {x : Atom} (shape : v.form = .atom x) : Congruent v := by
  intro b k l equal first second
  have forms := (same_iff v b).mp equal
  cases also : b.form <;> simp only [shape,also,Form.Same] at forms
  rcases form_atom shape with ⟨is,_⟩ | ⟨content,rfl⟩
  · rcases form_atom also with ⟨is',_⟩ | ⟨content,rfl⟩
    · obtain rfl := Option.some.inj (is.symm.trans first)
      obtain rfl := Option.some.inj (is'.symm.trans second)
      exact equal
    · cases second
  · cases first

/-- Values that are the same have forms that are the same, if they have any. -/
theorem form_congr {a b k l : Value} (equal : (a == b) = true) (first : a.hashableForm? = some k)
    (second : b.hashableForm? = some l) : (k == l) = true := by
  suffices congruent : Congruent a from congruent b k l equal first second
  clear equal first second
  induction a using parts_induction with
  | whole a ih =>
    cases shape : a.form with
    | atom x => exact atom_congr shape
    | list items =>
      rw [shape] at ih
      exact sequence_congr (.inl shape) ih
    | tuple items =>
      rw [shape] at ih
      exact sequence_congr (.inr shape) ih
    | mapping entries =>
      rw [shape] at ih
      exact mapping_congr shape fun e entry => ⟨ih _ (entry_parts entry).1,ih _ (entry_parts entry).2⟩
    | members items =>
      rw [shape] at ih
      exact set_congr shape ih

/-- What can be looked up is the same as its form. -/
theorem form_same {v w : Value} (hashable : v.isHashable = true) (found : v.hashableForm? = some w) : (w == v) = true := by
  induction v using parts_induction generalizing w with
  | whole v ih =>
    cases hasForm found with
    | itself => exact BEq.rfl
    | @items items forms shape made =>
      rcases shape with shape | shape
      · obtain rfl := eq_list shape
        cases hashable
      · obtain rfl := eq_tuple shape
        rw [hashable_tuple] at hashable
        refine tuple_same_iff.mpr (List.Forall₂.flip ?_)
        exact items_imp made fun x form place is =>
          ih x (List.of_mem_zip place).1 (hashable x (List.of_mem_zip place).1) is
    | mapping shape made =>
      obtain rfl := eq_mapping shape
      cases hashable
    | @members items forms shape made =>
      cases v with
      | set items => cases hashable
      | frozenset items =>
        cases shape
        rw [hashable_frozenset] at hashable
        have near : BothWays (fun x form => same x form = true) items forms :=
          (counterparts made).imp fun x member form _ is => same_symm _ _ (ih x member (hashable x member) is)
        rw [frozenset_same_iff]
        exact bothWays_symm (fun x _ y => same_symm x y)
          (bothWays_trans (fun x _ y z => same_trans x y z) near (bothWays_kept forms))
      | _ => cases shape

/-! ### Partition keys -/

theorem partitionKey_of_hashable {v : Value} (hashable : v.isHashable = true) : v.partitionKey? = some v := by
  rw [partitionKey?,if_pos hashable]

/-- What can be looked up has a form. -/
theorem exists_form {v : Value} (hashable : v.isHashable = true) : ∃ w, v.hashableForm? = some w := by
  refine Option.ne_none_iff_exists'.mp fun none => ?_
  exact not_holdsBuffer_of_hashable hashable (hashableForm_eq_none_iff.mp none)

/-- A value is no partition key exactly if a buffer stands in it, at some depth. -/
theorem partitionKey_eq_none_iff {v : Value} : v.partitionKey? = none ↔ v.HoldsBuffer := by
  by_cases hashable : v.isHashable = true
  · simp [partitionKey_of_hashable hashable,not_holdsBuffer_of_hashable hashable]
  · rw [partitionKey?,if_neg hashable,hashableForm_eq_none_iff]

/-- Whether a value is converted or is a key already, its key is the same as its form. -/
theorem form_same_partitionKey {v k : Value} (found : v.partitionKey? = some k) :
    ∃ w, v.hashableForm? = some w ∧ (w == k) = true := by
  by_cases hashable : v.isHashable = true
  · obtain rfl := Option.some.inj ((partitionKey_of_hashable hashable).symm.trans found)
    obtain ⟨w,is⟩ := exists_form hashable
    exact ⟨w,is,form_same hashable is⟩
  · rw [partitionKey?,if_neg hashable] at found
    exact ⟨k,found,BEq.rfl⟩

/-- Values that are the same have the same key, if they have any. -/
theorem partitionKey_congr {a b k l : Value} (equal : (a == b) = true) (first : a.partitionKey? = some k)
    (second : b.partitionKey? = some l) : (k == l) = true := by
  obtain ⟨v,left,near⟩ := form_same_partitionKey first
  obtain ⟨w,right,near'⟩ := form_same_partitionKey second
  exact BEq.trans (BEq.trans (BEq.symm near) (form_congr equal left right)) near'

end InfraGraph.Value
