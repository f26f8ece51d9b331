import InfraGraph.Value.Key
import InfraGraph.Proofs.Firsts
import InfraGraph.Proofs.Table
import InfraGraph.Proofs.Value.Sameness

/-!
The first of the values that are the same, and keys of tables. A list without repetitions of a kind
holds each value up to sameness once, in the order of the first occurrences.
-/
namespace InfraGraph

/-- Keeping the first of the values that are the same is keeping first occurrences up to sameness. -/
theorem distinct_eq (vs : List Value) : distinct vs = firsts (· == ·) vs := rfl

private theorem same_equivalence : Equivalence fun a b : Value => (a == b) = true := Value.sameSetoid.iseqv

theorem distinct_snoc (vs : List Value) (v : Value) :
    distinct (vs ++ [v]) = if (distinct vs).any (· == v) then distinct vs else distinct vs ++ [v] :=
  firsts_snoc _ vs v

theorem distinct_sublist (vs : List Value) : (distinct vs).Sublist vs := firsts_sublist _ vs

theorem distinct_pairwise (vs : List Value) : (distinct vs).Pairwise fun a b => (a == b) = false := firsts_pairwise _ vs

theorem distinct_distinct (vs : List Value) : distinct (distinct vs) = distinct vs := firsts_eq_self (distinct_pairwise vs)

theorem any_distinct (vs : List Value) (v : Value) : (distinct vs).any (· == v) = vs.any (· == v) :=
  any_firsts same_equivalence vs v

theorem exists_distinct {vs : List Value} {v : Value} (member : v ∈ vs) : ∃ w ∈ distinct vs, (w == v) = true :=
  exists_firsts same_equivalence member

/-- A value that is kept is the first of its kind: whatever stands before it is the same as a value kept earlier. -/
theorem distinct_first {vs : List Value} {i : Nat} {k : Value} (kept : (distinct vs)[i]? = some k) :
    ∃ n, vs[n]? = some k ∧ ∀ (m : Nat) u, m < n → vs[m]? = some u →
      ∃ j w, j < i ∧ (distinct vs)[j]? = some w ∧ (w == u) = true :=
  firsts_first same_equivalence kept

/-- Lists are equal value by value once they stand for the same. -/
theorem forall₂_same_iff {us vs : List Value} :
    List.Forall₂ (fun u v => (u == v) = true) us vs ↔ us.map Value.sense = vs.map Value.sense := by
  rw [← List.forall₂_eq_eq_eq,List.forall₂_map_left_iff,List.forall₂_map_right_iff]
  simp only [Value.sense_eq_iff]

theorem nodup_senses {vs : List Value} (pairwise : vs.Pairwise fun a b => (a == b) = false) :
    (vs.map Value.sense).Nodup := by
  refine List.pairwise_map.mpr (pairwise.imp fun different equal => ?_)
  rw [Value.sense_eq_iff.mp equal] at different
  cases different

/-- Items whose values under a function are pairwise different are told apart by the senses of these. -/
theorem nodup_senses_map {α : Type} {f : α → Value} {items : List α}
    (different : items.Pairwise fun a b => (f a == f b) = false) : (items.map fun a => (f a).sense).Nodup := by
  simpa [Function.comp_def] using nodup_senses (List.pairwise_map.mpr different)

theorem eq_of_sense {vs : List Value} (pairwise : vs.Pairwise fun a b => (a == b) = false) {a b : Value}
    (first : a ∈ vs) (second : b ∈ vs) (equal : a.sense = b.sense) : a = b :=
  List.inj_on_of_nodup_map (nodup_senses pairwise) first second equal

/-- Lists of items are equal once their images are, if the images tell the items apart. -/
theorem eq_of_map_eq {α β : Type} {f : α → β} {items xs ys : List α} (once : (items.map f).Nodup) (left : xs ⊆ items)
    (right : ys ⊆ items) (equal : xs.map f = ys.map f) : xs = ys := by
  induction xs generalizing ys with
  | nil => simpa using equal.symm
  | cons x rest ih =>
    cases ys with
    | nil => simp at equal
    | cons y others =>
      simp only [List.map_cons,List.cons.injEq] at equal
      have head := List.inj_on_of_nodup_map once (left (by simp)) (right (by simp)) equal.1
      have tail := ih (fun v later => left (List.mem_cons_of_mem _ later))
        (fun v later => right (List.mem_cons_of_mem _ later)) equal.2
      rw [head,tail]

theorem map_sense_injective {vs xs ys : List Value} (pairwise : vs.Pairwise fun a b => (a == b) = false)
    (left : xs ⊆ vs) (right : ys ⊆ vs) (equal : xs.map Value.sense = ys.map Value.sense) : xs = ys :=
  eq_of_map_eq (nodup_senses pairwise) left right equal

/-- Values among pairwise different ones are all of these once their senses are. -/
theorem perm_of_senses {vs xs : List Value} (pairwise : vs.Pairwise fun a b => (a == b) = false) (subset : xs ⊆ vs)
    (senses : (xs.map Value.sense).Perm (vs.map Value.sense)) : xs.Perm vs := by
  have distinct := nodup_senses pairwise
  refine (List.perm_ext_iff_of_nodup (.of_map _ (senses.nodup_iff.mpr distinct)) (.of_map _ distinct)).mpr fun v => ?_
  refine ⟨fun member => subset member,?_⟩
  intro member
  obtain ⟨u,inside,same⟩ := List.mem_map.mp (senses.mem_iff.mpr (List.mem_map_of_mem member))
  exact eq_of_sense pairwise (subset inside) member same ▸ inside

namespace Table
variable {ν : Type}

theorem contains_eq_any (t : Table Value ν) (key : Value) : t.contains key = t.keys.any (· == key) := by
  simp [contains,keys,List.any_map,Function.comp_def]

theorem get?_congr (t : Table Value ν) {a b : Value} (equal : (a == b) = true) : t.get? a = t.get? b := by
  rw [get?_eq,get?_eq]
  congr 2
  funext e
  exact BEq.congr_right equal

theorem contains_congr (t : Table Value ν) {a b : Value} (equal : (a == b) = true) : t.contains a = t.contains b := by
  rw [← isSome_get?,← isSome_get?,get?_congr t equal]

theorem get?_insertNew (t : Table Value ν) (key : Value) (value : ν) (sought : Value) :
    (t.insertNew key value).get? sought = (t.get? sought).or (if key == sought then some value else none) := by
  unfold insertNew
  by_cases present : t.contains key = true
  · rw [if_pos present]
    by_cases same : (key == sought) = true
    · have found : (t.get? sought).isSome = true := by rw [isSome_get?,← contains_congr t same,present]
      obtain ⟨held,is⟩ := Option.isSome_iff_exists.mp found
      simp [is]
    · simp [same]
  · rw [if_neg present]
    simp only [get?_eq,List.find?_append,Option.map_or]
    by_cases same : (key == sought) = true
    · simp [same]
    · simp [same]

/-- Entering values one after another unless their keys hold some makes each key hold the first. -/
theorem get?_foldl_insertNew {β : Type} (t : Table Value ν) (items : List β) (key : β → Value) (value : β → ν)
    (sought : Value) : (items.foldl (fun t b => t.insertNew (key b) (value b)) t).get? sought =
      (t.get? sought).or ((items.find? fun b => key b == sought).map value) := by
  induction items generalizing t with
  | nil => simp
  | cons b rest ih =>
    rw [List.foldl_cons,ih,get?_insertNew,List.find?_cons]
    by_cases same : (key b == sought) = true
    · simp [same]
    · simp [same]

end Table

end InfraGraph
