import InfraGraph.Proofs.Precedence
import Mathlib.Data.List.Induction
import Mathlib.Data.List.Perm.Basic

/-!
First occurrences: of the items that a relation holds the same, the first one is kept. What is kept stands in
order, is pairwise different, and stands for everything else.
-/
namespace InfraGraph
variable {α β : Type} {r : α → α → Bool}

/-- The items that no earlier one is the same as. -/
def firsts (r : α → α → Bool) (items : List α) : List α :=
  items.foldl (fun kept a => if kept.any (r · a) then kept else kept ++ [a]) []

theorem firsts_snoc (r : α → α → Bool) (items : List α) (a : α) :
    firsts r (items ++ [a]) = if (firsts r items).any (r · a) then firsts r items else firsts r items ++ [a] := by
  simp [firsts,List.foldl_append]

theorem firsts_sublist (r : α → α → Bool) (items : List α) : (firsts r items).Sublist items := by
  induction items using List.reverseRecOn with
  | nil => exact .slnil
  | append_singleton items a ih =>
    rw [firsts_snoc]
    split
    · exact ih.trans (List.sublist_append_left _ _)
    · exact ih.append (.refl _)

theorem firsts_pairwise (r : α → α → Bool) (items : List α) : (firsts r items).Pairwise fun a b => r a b = false := by
  induction items using List.reverseRecOn with
  | nil => exact .nil
  | append_singleton items a ih =>
    rw [firsts_snoc]
    split
    · exact ih
    · next absent =>
      refine List.pairwise_append.mpr ⟨ih,List.pairwise_singleton _ _,?_⟩
      intro b member last inside
      rw [List.mem_singleton.mp inside]
      simp only [Bool.not_eq_true,List.any_eq_false] at absent
      exact absent b member

theorem firsts_eq_self {items : List α} (different : items.Pairwise fun a b => r a b = false) :
    firsts r items = items := by
  induction items using List.reverseRecOn with
  | nil => rfl
  | append_singleton items a ih =>
    obtain ⟨before,_,last⟩ := List.pairwise_append.mp different
    have absent : ¬ items.any (r · a) = true := by
      rw [List.any_eq_true]
      rintro ⟨b,member,same⟩
      rw [last b member a (by simp)] at same
      cases same
    rw [firsts_snoc,ih before,if_neg absent]

/-- A relation between features of the items is one between the items. -/
theorem firsts_map (f : β → α) (items : List β) :
    (firsts (fun a b => r (f a) (f b)) items).map f = firsts r (items.map f) := by
  induction items using List.reverseRecOn with
  | nil => rfl
  | append_singleton items b ih =>
    have present : (firsts (fun a b => r (f a) (f b)) items).any (fun a => r (f a) (f b)) =
        (firsts r (items.map f)).any (r · (f b)) := by
      rw [← ih,List.any_map]
      rfl
    rw [List.map_append,List.map_singleton,firsts_snoc,firsts_snoc,present,apply_ite (List.map f),List.map_append,ih]
    rfl

/-- A feature that the relation respects is found first in the same item. -/
theorem find?_firsts {p : α → Bool} (respects : ∀ a b, r a b = true → p a = p b) (items : List α) :
    (firsts r items).find? p = items.find? p := by
  induction items using List.reverseRecOn with
  | nil => rfl
  | append_singleton items a ih =>
    rw [firsts_snoc,List.find?_append,← ih]
    split
    · next present =>
      obtain ⟨b,member,same⟩ := List.any_eq_true.mp present
      -- An item that is left out is found no earlier than the one that it repeats.
      by_cases here : p a = true
      · have found : ((firsts r items).find? p).isSome = true :=
          List.find?_isSome.mpr ⟨b,member,(respects b a same).trans here⟩
        obtain ⟨c,is⟩ := Option.isSome_iff_exists.mp found
        rw [is,Option.some_or]
      · rw [List.find?_singleton,if_neg here,Option.or_none]
    · rw [List.find?_append]

/-- What a filter leaves of the kept items is kept of what it leaves, if it does not tell items of one kind apart. -/
theorem firsts_filter {p : α → Bool} (respects : ∀ a b, r a b = true → p a = p b) (items : List α) :
    (firsts r items).filter p = firsts r (items.filter p) := by
  induction items using List.reverseRecOn with
  | nil => rfl
  | append_singleton items a ih =>
    rw [firsts_snoc,List.filter_append]
    by_cases inside : p a = true
    · have present : (firsts r (items.filter p)).any (r · a) = (firsts r items).any (r · a) := by
        rw [← ih,List.any_filter]
        congr 1
        funext b
        by_cases same : r b a = true
        · simp [same,respects b a same,inside]
        · simp [same]
      rw [List.filter_cons_of_pos inside,List.filter_nil,firsts_snoc,present,apply_ite (List.filter p),List.filter_append,
        ih,List.filter_cons_of_pos inside,List.filter_nil]
    · rw [List.filter_cons_of_neg inside,List.filter_nil,List.append_nil,apply_ite (List.filter p),List.filter_append,
        List.filter_cons_of_neg inside,List.filter_nil,List.append_nil,ite_self,ih]

/-- No item before a place is the same as the one there. -/
def isFirst (r : α → α → Bool) (items : List α) (n : Nat) : Bool :=
  (items[n]?).any fun a => !(items.take n).any (r · a)

theorem isFirst_snoc (r : α → α → Bool) (items : List α) (a : α) :
    (∀ n < items.length, isFirst r (items ++ [a]) n = isFirst r items n) ∧
      isFirst r (items ++ [a]) items.length = !items.any (r · a) := by
  constructor
  · intro n less
    rw [isFirst,isFirst,List.getElem?_append_left less,List.take_append_of_le_length (by omega)]
  · simp [isFirst]

section Equivalence
variable (same : Equivalence fun a b => r a b = true)
include same

/-- Nothing is lost up to the relation. -/
theorem any_firsts (items : List α) (a : α) : (firsts r items).any (r · a) = items.any (r · a) := by
  induction items using List.reverseRecOn with
  | nil => rfl
  | append_singleton items b ih =>
    rw [firsts_snoc]
    by_cases present : (firsts r items).any (r · b) = true
    · rw [if_pos present,ih,List.any_append,List.any_cons,List.any_nil,Bool.or_false]
      by_cases equal : r b a = true
      · obtain ⟨c,member,alike⟩ := List.any_eq_true.mp present
        have found : items.any (r · a) = true := by
          rw [← ih]
          exact List.any_eq_true.mpr ⟨c,member,same.trans alike equal⟩
        simp [found]
      · simp [equal]
    · rw [if_neg present,List.any_append,List.any_append,ih]

theorem exists_firsts {items : List α} {a : α} (member : a ∈ items) : ∃ b ∈ firsts r items, r b a = true := by
  have listed : items.any (r · a) = true := List.any_eq_true.mpr ⟨a,member,same.refl a⟩
  rw [← any_firsts same] at listed
  exact List.any_eq_true.mp listed

/-- What is kept of two lists is what is kept of the first one and, of what is kept of the second one, whatever the first
one does not have already. -/
theorem firsts_append (items others : List α) :
    firsts r (items ++ others) = firsts r items ++ (firsts r others).filter fun a => !items.any (r · a) := by
  induction others using List.reverseRecOn with
  | nil => simp [firsts]
  | append_singleton others a ih =>
    rw [← List.append_assoc,firsts_snoc,firsts_snoc,any_firsts same,any_firsts same,List.any_append,ih]
    by_cases earlier : items.any (r · a) = true
    · by_cases again : others.any (r · a) = true
      · simp [again]
      · simp [earlier,again]
    · by_cases again : others.any (r · a) = true
      · simp [again]
      · simp [earlier,again]

/-- Items that repeat earlier ones add nothing. -/
theorem firsts_absorb {items others : List α} (repeated : ∀ a ∈ others, items.any (r · a) = true) :
    firsts r (items ++ others) = firsts r items := by
  rw [firsts_append same,List.filter_eq_nil_iff.mpr,List.append_nil]
  intro a kept
  rw [repeated a ((firsts_sublist r others).subset kept)]
  simp

/-- Lists that have been reduced to what is kept of them keep together what they kept before. -/
theorem firsts_flatMap (f : β → List α) (blocks : List β) :
    firsts r (blocks.flatMap fun b => firsts r (f b)) = firsts r (blocks.flatMap f) := by
  induction blocks with
  | nil => rfl
  | cons b rest ih =>
    rw [List.flatMap_cons,List.flatMap_cons,firsts_append same,firsts_append same,ih,
      firsts_eq_self (firsts_pairwise r (f b))]
    simp only [any_firsts same]

/-- Of the same items in another order the same kinds are kept, each once. -/
theorem firsts_perm {items others : List α} (reordered : items.Perm others) :
    ∃ kept, kept.Perm (firsts r others) ∧ List.Forall₂ (fun a b => r a b = true) (firsts r items) kept := by
  let kinds : Setoid α := ⟨fun a b => r a b = true,same⟩
  let kind (a : α) : Quotient kinds := Quotient.mk kinds a
  have once (l : List α) : ((firsts r l).map kind).Nodup := by
    refine List.pairwise_map.mpr ((firsts_pairwise r l).imp fun different equal => ?_)
    rw [Quotient.exact equal] at different
    cases different
  have covered {l m : List α} (subset : l ⊆ m) (x : Quotient kinds) (inside : x ∈ (firsts r l).map kind) :
      x ∈ (firsts r m).map kind := by
    obtain ⟨a,kept,rfl⟩ := List.mem_map.mp inside
    obtain ⟨b,member,equal⟩ := exists_firsts same (subset ((firsts_sublist r l).subset kept))
    exact List.mem_map.mpr ⟨b,member,Quotient.sound equal⟩
  have perm : ((firsts r items).map kind).Perm ((firsts r others).map kind) :=
    (List.perm_ext_iff_of_nodup (once items) (once others)).mpr fun x =>
      ⟨covered reordered.subset x,covered reordered.symm.subset x⟩
  -- A list in the order of the first one takes its items from the second one, kind by kind.
  have named : List.Forall₂ (fun x b => x = kind b) ((firsts r others).map kind) (firsts r others) :=
    List.forall₂_map_left_iff.mpr (List.forall₂_same.mpr fun _ _ => rfl)
  obtain ⟨kept,each,among⟩ := List.perm_comp_forall₂ perm named
  exact ⟨kept,among,(List.forall₂_map_left_iff.mp each).imp fun _ _ equal => Quotient.exact equal⟩

/-- A kept item is the first of its kind: whatever stands before it is the same as an item kept earlier. -/
theorem firsts_first {items : List α} {i : Nat} {a : α} (kept : (firsts r items)[i]? = some a) :
    ∃ n, items[n]? = some a ∧ ∀ (m : Nat) b, m < n → items[m]? = some b →
      ∃ j c, j < i ∧ (firsts r items)[j]? = some c ∧ r c b = true := by
  induction items using List.reverseRecOn with
  | nil => simp [firsts] at kept
  | append_singleton items last ih =>
    -- What is kept of the shorter list stays where it is.
    have widen {c : α} {j : Nat} (at_j : (firsts r items)[j]? = some c) :
        (firsts r (items ++ [last]))[j]? = some c := by
      rw [firsts_snoc]
      split
      · exact at_j
      · rw [List.getElem?_append_left (List.getElem?_eq_some_iff.mp at_j).1,at_j]
    by_cases old : i < (firsts r items).length
    · have here : (firsts r items)[i]? = some a := by
        rw [List.getElem?_eq_getElem old,← widen (List.getElem?_eq_getElem old),kept]
      obtain ⟨n,at_n,before⟩ := ih here
      have bound := (List.getElem?_eq_some_iff.mp at_n).1
      refine ⟨n,by rw [List.getElem?_append_left bound,at_n],?_⟩
      intro m b less at_m
      rw [List.getElem?_append_left (by omega)] at at_m
      obtain ⟨j,c,early,at_j,equal⟩ := before m b less at_m
      exact ⟨j,c,early,widen at_j,equal⟩
    · have fresh : firsts r (items ++ [last]) = firsts r items ++ [last] := by
        rw [firsts_snoc] at kept ⊢
        split at kept
        · exact absurd (List.getElem?_eq_some_iff.mp kept).1 old
        · next absent => rw [if_neg absent]
      rw [fresh,List.getElem?_append_right (by omega)] at kept
      have place : i = (firsts r items).length := by
        have := (List.getElem?_eq_some_iff.mp kept).1
        rw [List.length_singleton] at this
        omega
      obtain rfl : last = a := by simpa [place] using kept
      refine ⟨items.length,by simp,?_⟩
      intro m b less at_m
      rw [List.getElem?_append_left less] at at_m
      obtain ⟨c,inside,equal⟩ := exists_firsts same (List.mem_of_getElem? at_m)
      obtain ⟨j,at_j⟩ := List.mem_iff_getElem?.mp inside
      have bound := (List.getElem?_eq_some_iff.mp at_j).1
      exact ⟨j,c,by omega,widen at_j,equal⟩

/-- What is kept stands in the places before which nothing is the same. -/
theorem firsts_allotted (items : List α) : firsts r items = allotted (isFirst r items) true items := by
  induction items using List.reverseRecOn with
  | nil => rfl
  | append_singleton items a ih =>
    obtain ⟨before,here⟩ := isFirst_snoc r items a
    rw [firsts_snoc,any_firsts same,allotted_snoc,allotted_congr before,here,← ih]
    by_cases present : items.any (r · a) = true
    · simp [present]
    · simp [present]

/-- Every item is the same as one at or before its place before which nothing is the same. -/
theorem exists_isFirst {items : List α} {n : Nat} {a : α} (place : items[n]? = some a) :
    ∃ m b, m ≤ n ∧ isFirst r items m = true ∧ items[m]? = some b ∧ r b a = true := by
  induction n using Nat.strong_induction_on generalizing a with
  | _ n ih =>
    by_cases present : (items.take n).any (r · a) = true
    · obtain ⟨b,member,alike⟩ := List.any_eq_true.mp present
      obtain ⟨k,bound,rfl⟩ := List.mem_take_iff_getElem.mp member
      obtain ⟨m,c,early,first,at_m,equal⟩ := ih k (by omega) (List.getElem?_eq_getElem (by omega))
      exact ⟨m,c,by omega,first,at_m,same.trans equal alike⟩
    · exact ⟨n,a,le_rfl,by simpa [isFirst,place] using present,place,same.refl a⟩

end Equivalence
end InfraGraph
