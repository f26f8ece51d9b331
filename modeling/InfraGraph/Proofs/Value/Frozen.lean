import InfraGraph.Proofs.Text.Quoted
import InfraGraph.Proofs.Value.Distinct
import InfraGraph.Proofs.Value.Proper

/-!
Frozen forms. A frozen form of a value that could be built can be looked up. Values with the same frozen form are the
same. Of two values that are the same the frozen forms are the same too, unless bytes stand somewhere in one of them
where the other one has a buffer.
-/
namespace InfraGraph.Value

/-! ### Values that clash -/

/-- Bytes stand in one value where the other one has a buffer with the same content. -/
inductive Clash : Value → Value → Prop
  | bytes (content : List UInt8) : Clash (bytes content) (buffer content)
  | buffer (content : List UInt8) : Clash (buffer content) (bytes content)
  | list {xs ys : List Value} {x y : Value} (place : (x,y) ∈ xs.zip ys) (inner : Clash x y) : Clash (list xs) (list ys)
  | tuple {xs ys : List Value} {x y : Value} (place : (x,y) ∈ xs.zip ys) (inner : Clash x y) : Clash (tuple xs) (tuple ys)
  | mapping {es fs : List (Value × Value)} {e f : Value × Value} (first : e ∈ es) (second : f ∈ fs)
      (key : (e.1 == f.1) = true) (inner : Clash e.2 f.2) : Clash (mapping es) (mapping fs)

/-- Values do not clash where neither holds a buffer. -/
theorem Clash.holdsBuffer {a b : Value} (clash : Clash a b) : a.HoldsBuffer ∨ b.HoldsBuffer := by
  induction clash with
  | bytes content => exact .inr (.here content)
  | buffer content => exact .inl (.here content)
  | list place _ ih =>
    obtain ⟨left,right⟩ := List.of_mem_zip place
    exact ih.imp (.inside left) (.inside right)
  | tuple place _ ih =>
    obtain ⟨left,right⟩ := List.of_mem_zip place
    exact ih.imp (.inside left) (.inside right)
  | mapping entry entry' _ _ ih => exact ih.imp (.inside (entry_parts entry).2) (.inside (entry_parts entry').2)

/-- Nothing clashes among values that can be looked up. -/
theorem not_clash_of_hashable {a b : Value} (first : a.isHashable = true) (second : b.isHashable = true) :
    ¬ Clash a b :=
  fun clash => clash.holdsBuffer.elim (not_holdsBuffer_of_hashable first) (not_holdsBuffer_of_hashable second)

/-! ### Frozen forms by the form -/

private theorem frozenItems_eq (items : List Value) : frozenItems items = items.map frozen := by
  induction items with
  | nil => rfl
  | cons x rest ih => simp [frozenItems,ih]

/-- An entry of a mapping, frozen. -/
def frozenPair (e : Value × Value) : Value := tuple [e.1,e.2.frozen]

private theorem frozenEntries_eq (entries : List (Value × Value)) : frozenEntries entries = entries.map frozenPair := by
  induction entries with
  | nil => rfl
  | cons e rest ih =>
    obtain ⟨key,held⟩ := e
    rw [frozenEntries,ih,List.map_cons]
    rfl

theorem frozen_list (items : List Value) : (list items).frozen = tuple [text "list",tuple (items.map frozen)] := by
  rw [frozen,frozenItems_eq]

theorem frozen_tuple (items : List Value) : (tuple items).frozen = tuple [text "tuple",tuple (items.map frozen)] := by
  rw [frozen,frozenItems_eq]

theorem frozen_mapping (entries : List (Value × Value)) :
    (mapping entries).frozen = tuple [text "map",frozenset (distinct (entries.map frozenPair))] := by
  rw [frozen,frozenEntries_eq]

theorem frozen_members {v : Value} {items : List Value} (members : v.form = .members items) :
    v.frozen = tuple [text "set",frozenset (distinct (items.map frozen))] := by
  cases v with
  | set items => cases members; rw [frozen,frozenItems_eq]
  | frozenset items => cases members; rw [frozen,frozenItems_eq]
  | _ => cases members

/-- What has no parts is frozen as it is, but for buffers. -/
theorem frozen_atom {v : Value} {a : Atom} (atom : v.form = .atom a) :
    v.frozen = tuple [text "value",v] ∧ v.isHashable = true ∨ ∃ content, v = buffer content := by
  cases v with
  | buffer content => exact .inr ⟨content,rfl⟩
  | list items => cases atom
  | tuple items => cases atom
  | mapping entries => cases atom
  | set items => cases atom
  | frozenset items => cases atom
  | _ => exact .inl ⟨rfl,rfl⟩

theorem eq_list {v : Value} {items : List Value} (shape : v.form = .list items) : v = list items := by
  cases v <;> cases shape
  rfl

theorem eq_tuple {v : Value} {items : List Value} (shape : v.form = .tuple items) : v = tuple items := by
  cases v <;> cases shape
  rfl

theorem eq_mapping {v : Value} {entries : List (Value × Value)} (shape : v.form = .mapping entries) :
    v = mapping entries := by
  cases v <;> cases shape
  rfl

private theorem form_bytes {v : Value} {content : List UInt8} (shape : v.form = .atom (.bytes content)) :
    v = bytes content ∨ v = buffer content := by
  cases v with
  | bytes _ => cases shape; exact .inl rfl
  | buffer _ => cases shape; exact .inr rfl
  | float x => cases x <;> cases shape
  | _ => cases shape

private theorem tagged_hashable {kind : String} {v : Value} :
    (tuple [text kind,v]).isHashable = true ↔ v.isHashable = true := by
  have named : (text kind).isHashable = true := rfl
  rw [hashable_tuple]
  simp [named]

theorem frozen_hashable {v : Value} (proper : Proper v) : v.frozen.isHashable = true := by
  induction proper with
  | @whole v keyed _ ih =>
    have frozen (items : List Value) (inside : items ⊆ v.form.parts) : ∀ y ∈ items.map frozen, y.isHashable = true :=
      List.forall_mem_map.mpr fun x member => ih x (inside member)
    cases shape : v.form with
    | atom a =>
      rcases frozen_atom shape with ⟨is,hashable⟩ | ⟨content,rfl⟩
      · rw [is,tagged_hashable]
        exact hashable
      · rfl
    | list items =>
      rw [eq_list shape,frozen_list,tagged_hashable,hashable_tuple]
      exact frozen items (by rw [shape]; exact List.Subset.refl _)
    | tuple items =>
      rw [eq_tuple shape,frozen_tuple,tagged_hashable,hashable_tuple]
      exact frozen items (by rw [shape]; exact List.Subset.refl _)
    | mapping entries =>
      rw [shape] at keyed ih
      rw [eq_mapping shape,frozen_mapping,tagged_hashable,hashable_frozenset]
      intro y member
      obtain ⟨e,entry,rfl⟩ := List.mem_map.mp ((distinct_sublist _).subset member)
      rw [frozenPair,hashable_tuple]
      simpa using ⟨keyed.1 e entry,ih e.2 (by simp [Form.parts]; exact .inr ⟨_,entry⟩)⟩
    | members items =>
      rw [frozen_members shape,tagged_hashable,hashable_frozenset]
      intro y member
      exact frozen items (by rw [shape]; exact List.Subset.refl _) y ((distinct_sublist _).subset member)

/-! ### Sameness of frozen forms -/

theorem tuple_same_iff {xs ys : List Value} :
    (tuple xs == tuple ys) = true ↔ List.Forall₂ (fun x y => same x y = true) xs ys := same_iff _ _

theorem frozenset_same_iff {xs ys : List Value} :
    (frozenset xs == frozenset ys) = true ↔ BothWays (fun x y => same x y = true) xs ys := same_iff _ _

private theorem tagged_same_iff {kind other : String} {v w : Value} :
    (tuple [text kind,v] == tuple [text other,w]) = true ↔ kind = other ∧ (v == w) = true := by
  rw [tuple_same_iff]
  simp only [List.forall₂_cons,List.forall₂_nil_right_iff,and_true,same_iff (text kind),form,Form.Same,Atom.text.injEq]
  exact Iff.rfl

theorem BothWays.imp {α : Type} {R S : α → α → Prop} {xs ys : List α} (both : BothWays R xs ys)
    (weaker : ∀ x ∈ xs, ∀ y ∈ ys, R x y → S x y) : BothWays S xs ys := by
  constructor
  · intro x member
    obtain ⟨y,inside,related⟩ := both.1 x member
    exact ⟨y,inside,weaker x member y inside related⟩
  · intro y member
    obtain ⟨x,inside,related⟩ := both.2 y member
    exact ⟨x,inside,weaker x inside y member related⟩

theorem bothWays_kept (xs : List Value) : BothWays (fun x y => same x y = true) xs (distinct xs) := by
  constructor
  · intro x member
    obtain ⟨u,inside,equal⟩ := exists_distinct member
    exact ⟨u,inside,same_symm u x equal⟩
  · intro u inside
    exact ⟨u,(distinct_sublist xs).subset inside,same_refl u⟩

theorem bothWays_distinct {xs ys : List Value} :
    BothWays (fun x y => same x y = true) (distinct xs) (distinct ys) ↔ BothWays (fun x y => same x y = true) xs ys := by
  have joins {us vs ws : List Value} (left : BothWays (fun x y => same x y = true) us vs)
      (right : BothWays (fun x y => same x y = true) vs ws) : BothWays (fun x y => same x y = true) us ws :=
    bothWays_trans (fun x _ y z => same_trans x y z) left right
  have back (zs : List Value) := bothWays_symm (fun x _ y => same_symm x y) (bothWays_kept zs)
  constructor
  · exact fun both => joins (joins (bothWays_kept xs) both) (back ys)
  · exact fun both => joins (joins (back xs) both) (bothWays_kept ys)

theorem bothWays_map {α β : Type} {R : β → β → Prop} {f : α → β} {xs ys : List α} :
    BothWays R (xs.map f) (ys.map f) ↔ BothWays (fun x y => R (f x) (f y)) xs ys := by
  simp [BothWays]

private theorem frozen_items_iff {xs ys : List Value} : (tuple (xs.map frozen) == tuple (ys.map frozen)) = true ↔
    List.Forall₂ (fun x y => same x.frozen y.frozen = true) xs ys := by
  rw [tuple_same_iff,List.forall₂_map_left_iff,List.forall₂_map_right_iff]

theorem items_imp {R S : Value → Value → Prop} {xs ys : List Value} (items : List.Forall₂ R xs ys)
    (weaker : ∀ x y, (x,y) ∈ xs.zip ys → R x y → S x y) : List.Forall₂ S xs ys := by
  rw [List.forall₂_iff_zip] at items ⊢
  exact ⟨items.1,fun place => weaker _ _ place (items.2 place)⟩

/-- The kinds that frozen forms tell apart. -/
private inductive FrozenKind where
  | atom | buffer | list | tuple | mapping | members
  deriving DecidableEq

private def FrozenKind.name : FrozenKind → String
  | atom => "value"
  | buffer => "repr"
  | list => "list"
  | tuple => "tuple"
  | mapping => "map"
  | members => "set"

private theorem FrozenKind.name_injective {first second : FrozenKind} (equal : first.name = second.name) :
    first = second := by
  revert equal
  cases first <;> cases second <;> decide

/-- What is frozen of a value of each kind. -/
private inductive Freezes (v : Value) : FrozenKind → Value → Prop
  | atom : Freezes v .atom v
  | buffer {content : List UInt8} (is : v = buffer content) : Freezes v .buffer (text (Text.quotedBuffer content))
  | list {items : List Value} (shape : v.form = .list items) : Freezes v .list (tuple (items.map frozen))
  | tuple {items : List Value} (shape : v.form = .tuple items) : Freezes v .tuple (tuple (items.map frozen))
  | mapping {entries : List (Value × Value)} (shape : v.form = .mapping entries) :
      Freezes v .mapping (frozenset (distinct (entries.map frozenPair)))
  | members {items : List Value} (shape : v.form = .members items) :
      Freezes v .members (frozenset (distinct (items.map frozen)))

private theorem freezes (v : Value) : ∃ kind content, v.frozen = tuple [text kind.name,content] ∧ Freezes v kind content := by
  cases shape : v.form with
  | atom a =>
    rcases frozen_atom shape with ⟨is,_⟩ | ⟨content,rfl⟩
    · exact ⟨.atom,v,is,.atom⟩
    · exact ⟨.buffer,_,rfl,.buffer rfl⟩
  | list items => exact ⟨.list,_,eq_list shape ▸ frozen_list items,.list shape⟩
  | tuple items => exact ⟨.tuple,_,eq_tuple shape ▸ frozen_tuple items,.tuple shape⟩
  | mapping entries => exact ⟨.mapping,_,eq_mapping shape ▸ frozen_mapping entries,.mapping shape⟩
  | members items => exact ⟨.members,_,frozen_members shape,.members shape⟩

/-- Values with the same frozen form are the same, whatever they hold. -/
theorem same_of_frozen {a b : Value} (equal : (a.frozen == b.frozen) = true) : (a == b) = true := by
  induction a using parts_induction generalizing b with
  | whole a ih =>
    obtain ⟨kind,content,is,first⟩ := freezes a
    obtain ⟨kind',content',is',second⟩ := freezes b
    rw [is,is',tagged_same_iff] at equal
    obtain ⟨name,held⟩ := equal
    obtain rfl := FrozenKind.name_injective name
    refine (same_iff a b).mpr ?_
    cases first with
    | atom =>
      cases second with
      | atom => exact (same_iff a b).mp held
    | buffer left =>
      cases second with
      | buffer right =>
        have literal : Atom.text _ = Atom.text _ := (same_iff _ _).mp held
        rw [left,right,Text.quotedBuffer_injective (Atom.text.inj literal)]
        exact (same_iff _ _).mp BEq.rfl
    | list left =>
      cases second with
      | list right =>
        rw [left] at ih ⊢
        rw [right]
        refine items_imp (frozen_items_iff.mp held) fun x y place equal => ?_
        exact ih x (List.of_mem_zip place).1 equal
    | tuple left =>
      cases second with
      | tuple right =>
        rw [left] at ih ⊢
        rw [right]
        refine items_imp (frozen_items_iff.mp held) fun x y place equal => ?_
        exact ih x (List.of_mem_zip place).1 equal
    | mapping left =>
      cases second with
      | mapping right =>
        rw [left] at ih ⊢
        rw [right]
        rw [frozenset_same_iff,bothWays_distinct,bothWays_map] at held
        refine held.imp fun e entry f _ pair => ?_
        obtain ⟨key,inner⟩ : same e.1 f.1 = true ∧ same e.2.frozen f.2.frozen = true := by
          simpa using tuple_same_iff.mp pair
        exact ⟨key,ih e.2 (entry_parts entry).2 inner⟩
    | members left =>
      cases second with
      | members right =>
        rw [left] at ih ⊢
        rw [right]
        rw [frozenset_same_iff,bothWays_distinct,bothWays_map] at held
        exact held.imp fun x member y _ equal => ih x member equal

/-- Frozen forms of values that are the same are the same, if bytes stand against a buffer nowhere in these. -/
theorem frozen_same {a b : Value} (first : Proper a) (second : Proper b) (equal : (a == b) = true)
    (clear : ¬ Clash a b) : (a.frozen == b.frozen) = true := by
  -- By the parts of the first value. The second one has a form that fits, and parts that are the same as these.
  induction first generalizing b with
  | @whole a keyed _ ih =>
    obtain ⟨keyed',parts'⟩ := second
    have forms := (same_iff a b).mp equal
    cases left : a.form with
    | atom x =>
      cases right : b.form <;> simp only [left,right,Form.Same] at forms
      subst forms
      rcases frozen_atom left with ⟨is,_⟩ | ⟨content,rfl⟩
      · rcases frozen_atom right with ⟨is',_⟩ | ⟨content,rfl⟩
        · rw [is,is',tagged_same_iff]
          exact ⟨rfl,equal⟩
        · cases right
          rcases form_bytes left with rfl | rfl
          · exact absurd (.bytes content) clear
          · exact BEq.rfl
      · cases left
        rcases form_bytes right with rfl | rfl
        · exact absurd (.buffer content) clear
        · exact BEq.rfl
    | list xs =>
      cases right : b.form <;> simp only [left,right,Form.Same] at forms ih parts'
      obtain rfl := eq_list left
      obtain rfl := eq_list right
      rw [frozen_list,frozen_list,tagged_same_iff,frozen_items_iff]
      refine ⟨rfl,items_imp forms fun x y place equal => ?_⟩
      obtain ⟨mine,yours⟩ := List.of_mem_zip place
      exact ih x mine (parts' y yours) equal fun inner => clear (.list place inner)
    | tuple xs =>
      cases right : b.form <;> simp only [left,right,Form.Same] at forms ih parts'
      obtain rfl := eq_tuple left
      obtain rfl := eq_tuple right
      rw [frozen_tuple,frozen_tuple,tagged_same_iff,frozen_items_iff]
      refine ⟨rfl,items_imp forms fun x y place equal => ?_⟩
      obtain ⟨mine,yours⟩ := List.of_mem_zip place
      exact ih x mine (parts' y yours) equal fun inner => clear (.tuple place inner)
    | mapping es =>
      cases right : b.form <;> simp only [left,right,Form.Same] at forms ih parts'
      obtain rfl := eq_mapping left
      obtain rfl := eq_mapping right
      rw [frozen_mapping,frozen_mapping,tagged_same_iff,frozenset_same_iff,bothWays_distinct,bothWays_map]
      refine ⟨rfl,forms.imp fun e entry f entry' related => ?_⟩
      have held := ih e.2 (entry_parts entry).2 (parts' f.2 (entry_parts entry').2) related.2
        fun inner => clear (.mapping entry entry' related.1 inner)
      exact tuple_same_iff.mpr (.cons related.1 (.cons held .nil))
    | members xs =>
      cases right : b.form <;> simp only [left,right,Form.Same] at forms ih parts' keyed keyed'
      rw [frozen_members left,frozen_members right,tagged_same_iff,frozenset_same_iff,bothWays_distinct,bothWays_map]
      -- Nothing need be assumed of members, since a set holds no buffers.
      refine ⟨rfl,forms.imp fun x member y member' equal => ?_⟩
      exact ih x member (parts' y member') equal (not_clash_of_hashable (keyed.1 x member) (keyed'.1 y member'))

/-- Where bytes stand against a buffer the frozen forms differ. -/
theorem frozen_differ {a b : Value} (clash : Clash a b) (first : Proper a) (second : Proper b) :
    ¬ (a.frozen == b.frozen) = true := by
  induction clash with
  | bytes content =>
    intro equal
    exact absurd (tagged_same_iff.mp equal).1 (by decide)
  | buffer content =>
    intro equal
    exact absurd (tagged_same_iff.mp equal).1 (by decide)
  | @list xs ys x y place _ ih =>
    intro equal
    rw [frozen_list,frozen_list,tagged_same_iff,frozen_items_iff,List.forall₂_iff_zip] at equal
    obtain ⟨left,right⟩ := List.of_mem_zip place
    exact ih (first.part left) (second.part right) (equal.2.2 place)
  | @tuple xs ys x y place _ ih =>
    intro equal
    rw [frozen_tuple,frozen_tuple,tagged_same_iff,frozen_items_iff,List.forall₂_iff_zip] at equal
    obtain ⟨left,right⟩ := List.of_mem_zip place
    exact ih (first.part left) (second.part right) (equal.2.2 place)
  | @mapping es fs e f entry entry' key _ ih =>
    intro equal
    rw [frozen_mapping,frozen_mapping,tagged_same_iff,frozenset_same_iff,bothWays_distinct,bothWays_map] at equal
    obtain ⟨g,inside,pair⟩ := equal.2.1 e entry
    obtain ⟨also,held⟩ : same e.1 g.1 = true ∧ same e.2.frozen g.2.frozen = true := by
      simpa using tuple_same_iff.mp pair
    obtain ⟨keyed,parts⟩ := second
    -- Keys are different, so the counterpart of an entry is the one that it clashes with.
    have one := List.inj_on_of_nodup_map (nodup_senses_map keyed.2) inside entry'
      (sense_eq_iff.mpr (BEq.trans (BEq.symm also) key))
    subst one
    exact ih (first.part (entry_parts entry).2) (parts _ (entry_parts entry').2) held

/-- Exactly the values that clash, among those that are the same, have different frozen forms. -/
theorem frozen_same_iff {a b : Value} (first : Proper a) (second : Proper b) (equal : (a == b) = true) :
    (a.frozen == b.frozen) = true ↔ ¬ Clash a b :=
  ⟨fun frozen clash => frozen_differ clash first second frozen,frozen_same first second equal⟩

end InfraGraph.Value
