import Mathlib.Data.List.Basic
import Mathlib.Data.List.Nodup
import Mathlib.Order.Monotone.Basic

/-!
Standing before in a list: one item stands before another where the list of the two is a sublist, which
is to say where their places are in that order. What a filter keeps stands in the same order as before, and so
does what falls to one share when the places are shared out.
-/
namespace InfraGraph
variable {α β : Type}

theorem pair_sublist_iff {l : List α} {u v : α} :
    [u,v].Sublist l ↔ ∃ i k : Nat, i < k ∧ l[i]? = some u ∧ l[k]? = some v := by
  induction l with
  | nil => simp
  | cons x rest ih =>
    rw [List.sublist_cons_iff,ih]
    constructor
    · rintro (⟨i,k,less,first,second⟩ | ⟨tail,pair,later⟩)
      · exact ⟨i + 1,k + 1,by omega,first,second⟩
      · obtain ⟨rfl,rfl⟩ := List.cons.inj pair
        obtain ⟨k,place⟩ := List.mem_iff_getElem?.mp (List.singleton_sublist.mp later)
        exact ⟨0,k + 1,by omega,rfl,place⟩
    · rintro ⟨i,k,less,first,second⟩
      obtain ⟨k,rfl⟩ := Nat.exists_eq_succ_of_ne_zero (Nat.ne_zero_of_lt less)
      cases i with
      | zero =>
        obtain rfl := Option.some.inj first
        exact .inr ⟨[v],rfl,List.singleton_sublist.mpr (List.mem_iff_getElem?.mpr ⟨k,second⟩)⟩
      | succ i => exact .inl ⟨i,k,by omega,first,second⟩

theorem place_unique {l : List α} (distinct : l.Nodup) {i k : Nat} {u : α} (first : l[i]? = some u)
    (second : l[k]? = some u) : i = k :=
  (List.getElem?_inj (List.getElem?_eq_some_iff.mp first).1 distinct).mp (first.trans second.symm)

theorem before_asymm {l : List α} (distinct : l.Nodup) {u v : α} (before : [u,v].Sublist l) : ¬ [v,u].Sublist l := by
  intro after
  obtain ⟨i,k,less,first,second⟩ := pair_sublist_iff.mp before
  obtain ⟨m,n,more,third,fourth⟩ := pair_sublist_iff.mp after
  have := place_unique distinct first fourth
  have := place_unique distinct second third
  omega

theorem before_iff_of_sublist {part l : List α} (distinct : l.Nodup) (kept : part.Sublist l) {u v : α} (left : u ∈ part)
    (right : v ∈ part) : [u,v].Sublist part ↔ [u,v].Sublist l := by
  refine ⟨fun before => before.trans kept,fun before => ?_⟩
  obtain ⟨i,first⟩ := List.mem_iff_getElem?.mp left
  obtain ⟨k,second⟩ := List.mem_iff_getElem?.mp right
  rcases Nat.lt_trichotomy i k with less | rfl | more
  · exact pair_sublist_iff.mpr ⟨i,k,less,first,second⟩
  · obtain rfl := Option.some.inj (first.symm.trans second)
    exact absurd before (before_asymm distinct before)
  · exact absurd before (before_asymm distinct ((pair_sublist_iff.mpr ⟨k,i,more,second,first⟩).trans kept))

/-- Items that two lists have in common in one order stand alike in both. -/
theorem before_alike {part l m : List α} (distinct : l.Nodup) (distinct' : m.Nodup) (kept : part.Sublist l)
    (kept' : part.Sublist m) {u v : α} (left : u ∈ part) (right : v ∈ part) : [u,v].Sublist l ↔ [u,v].Sublist m :=
  (before_iff_of_sublist distinct kept left right).symm.trans (before_iff_of_sublist distinct' kept' left right)

theorem pair_sublist_map {f : α → β} {l : List α} {x y : β} (before : [x,y].Sublist (l.map f)) :
    ∃ u v, [u,v].Sublist l ∧ f u = x ∧ f v = y := by
  obtain ⟨pair,sublist,senses⟩ := List.sublist_map_iff.mp before
  obtain ⟨u,rest,rfl,first,tail⟩ := List.map_eq_cons_iff.mp senses.symm
  obtain ⟨v,rfl,second⟩ := List.map_eq_singleton_iff.mp tail
  exact ⟨u,v,sublist,first,second⟩

theorem filter_unique [DecidableEq β] {f : α → β} {l : List α} (distinct : (l.map f).Nodup)
    {a : α} (member : a ∈ l) : (l.filter fun x => f x = f a) = [a] := by
  induction l with
  | nil => simp at member
  | cons x rest ih =>
    obtain ⟨fresh,distinct⟩ := List.nodup_cons.mp distinct
    rcases List.mem_cons.mp member with rfl | later
    · have none : (rest.filter fun y => f y = f a) = [] := by
        rw [List.filter_eq_nil_iff]
        intro y inside
        simp only [decide_eq_true_eq]
        exact fun same => fresh (same ▸ List.mem_map_of_mem inside)
      rw [List.filter_cons_of_pos (by simp),none]
    · have other : f x ≠ f a := fun same => fresh (same ▸ List.mem_map_of_mem later)
      rw [List.filter_cons_of_neg (by simpa using other),ih distinct later]

/-- The places of the items that a filter keeps, in order. -/
theorem filter_places (p : α → Bool) (l : List α) : ∃ place : Nat → Nat, StrictMono place ∧
    (∀ i, (l.filter p)[i]? = l[place i]?) ∧ ∀ n x, l[n]? = some x → p x = true → ∃ i, place i = n := by
  induction l with
  | nil => exact ⟨fun i => i,strictMono_id,fun i => rfl,by simp⟩
  | cons x rest ih =>
    obtain ⟨place,increasing,places,onto⟩ := ih
    by_cases kept : p x = true
    · refine ⟨fun i => if i = 0 then 0 else place (i - 1) + 1,?_,?_,?_⟩
      · refine strictMono_nat_of_lt_succ fun n => ?_
        cases n with
        | zero => simp
        | succ n => simpa using increasing (Nat.lt_succ_self n)
      · intro i
        rw [List.filter_cons_of_pos kept]
        cases i with
        | zero => rfl
        | succ i => simpa using places i
      · intro n y at_n holds
        cases n with
        | zero => exact ⟨0,rfl⟩
        | succ n =>
          obtain ⟨i,rfl⟩ := onto n y at_n holds
          exact ⟨i + 1,by simp⟩
    · refine ⟨fun i => place i + 1,fun i k less => Nat.succ_lt_succ (increasing less),?_,?_⟩
      · intro i
        rw [List.filter_cons_of_neg kept,places i,List.getElem?_cons_succ]
      · intro n y at_n holds
        cases n with
        | zero =>
          obtain rfl := Option.some.inj at_n
          exact absurd holds kept
        | succ n =>
          obtain ⟨i,rfl⟩ := onto n y at_n holds
          exact ⟨i,rfl⟩

section Share
variable {κ : Type} [DecidableEq κ]

/-- The items whose places fall to one share, in order. -/
def allotted (lot : Nat → κ) (share : κ) (items : List α) : List α :=
  (items.zipIdx.filter fun e => lot e.2 = share).map (·.1)

/-- Where each item tells the share of its place, a share is a filtered list. -/
theorem allotted_eq {lot : Nat → κ} {share : κ} {p : α → Bool} {items : List α}
    (told : ∀ n a, items[n]? = some a → (lot n = share ↔ p a = true)) : allotted lot share items = items.filter p := by
  have kept : items.zipIdx.filter (fun e => lot e.2 = share) = items.zipIdx.filter fun e => p e.1 := by
    apply List.filter_congr
    intro e member
    rw [Bool.eq_iff_iff,decide_eq_true_iff]
    exact told e.2 e.1 (List.mem_zipIdx_iff_getElem?.mp member)
  have back : items.filter p = ((items.zipIdx.map (·.1)).filter p) := by rw [List.zipIdx_map_fst]
  rw [allotted,kept,back,List.filter_map]
  rfl

theorem allotted_snoc (lot : Nat → κ) (share : κ) (items : List α) (a : α) :
    allotted lot share (items ++ [a]) = allotted lot share items ++ if lot items.length = share then [a] else [] := by
  rw [allotted,allotted,List.zipIdx_append,List.filter_append,List.map_append]
  by_cases mine : lot items.length = share
  · simp [mine]
  · simp [mine]

theorem allotted_congr {first second : Nat → κ} {items : List α} (agree : ∀ n < items.length, first n = second n)
    (share : κ) : allotted first share items = allotted second share items := by
  unfold allotted
  congr 1
  apply List.filter_congr
  intro e member
  have bound := (List.getElem?_eq_some_iff.mp (List.mem_zipIdx_iff_getElem?.mp member)).1
  rw [agree e.2 bound]

end Share
end InfraGraph
