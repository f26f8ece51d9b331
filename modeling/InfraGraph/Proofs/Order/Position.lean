import InfraGraph.Proofs.Order.Cycle
import Mathlib.Order.ConditionallyCompleteLattice.Basic
import Mathlib.Order.Lattice.Nat

/-!
The order of the queue without a queue. Sources come first, as they were given. Every other vertex is
released by its latest predecessor, through the last edge from it, and these places alone decide which
of two vertices stands first. On a graph without cycles no other order follows that rule.
-/
open Relation (TransGen ReflTransGen)
namespace InfraGraph.Order
variable {α δ : Type}

/-- A vertex is released by the edge at place `j` out of the vertex at place `i`: no predecessor stands
    later in the order, and no later edge leads from that predecessor to the vertex. -/
structure ReleasedAt (f : δ → Option (α × α)) (ds : List δ) (order : List α) (w : α) (i j : Nat) : Prop where
  latest : IsGreatest {i | ∃ u, order[i]? = some u ∧ (u,w) ∈ ds.filterMap f} i
  last : IsGreatest {j | ∃ u d, order[i]? = some u ∧ ds[j]? = some d ∧ f d = some (u,w)} j

variable [DecidableEq α]

/-- The rule of the queue: all vertices once, sources first, the others by the places that release them. -/
structure QueueOrder (f : δ → Option (α × α)) (vs : List α) (ds : List δ) (order : List α) : Prop where
  all : order.Perm vs
  first : sources vs (ds.filterMap f) <+: order
  later : ∀ u v i j k l, ReleasedAt f ds order u i j → ReleasedAt f ds order v k l →
    ([u,v].Sublist order ↔ i < k ∨ i = k ∧ j < l)

section Places
variable {f : δ → Option (α × α)} {ds : List δ} {order : List α}
omit [DecidableEq α]

private theorem exists_greatest {S : Set Nat} {bound : Nat} (some : S.Nonempty) (below : ∀ n ∈ S, n < bound) :
    ∃ n, IsGreatest S n := by
  have bounded : BddAbove S := ⟨bound,fun n member => (below n member).le⟩
  exact ⟨sSup S,Nat.sSup_mem some bounded,fun n member => le_csSup bounded member⟩

private theorem place_lt {β : Type} {l : List β} {i : Nat} {x : β} (place : l[i]? = some x) : i < l.length :=
  (List.getElem?_eq_some_iff.mp place).1

/-- Every vertex with a predecessor in the order is released somewhere. -/
theorem releasedAt_exists {u w : α} (edge : (u,w) ∈ ds.filterMap f) (member : u ∈ order) :
    ∃ i j, ReleasedAt f ds order w i j := by
  obtain ⟨place,at_u⟩ := List.mem_iff_getElem?.mp member
  obtain ⟨i,latest⟩ := exists_greatest (S := {i | ∃ u, order[i]? = some u ∧ (u,w) ∈ ds.filterMap f})
    ⟨place,u,at_u,edge⟩ (by rintro n ⟨_,at_n,_⟩; exact place_lt at_n)
  obtain ⟨x,at_x,released⟩ := latest.1
  obtain ⟨d,inside,is⟩ := List.mem_filterMap.mp released
  obtain ⟨number,at_d⟩ := List.mem_iff_getElem?.mp inside
  obtain ⟨j,last⟩ := exists_greatest
    (S := {j | ∃ u d, order[i]? = some u ∧ ds[j]? = some d ∧ f d = some (u,w)})
    ⟨number,x,d,at_x,at_d,is⟩ (by rintro n ⟨_,_,_,at_n,_⟩; exact place_lt at_n)
  exact ⟨i,j,latest,last⟩

theorem ReleasedAt.predecessor {w : α} {i j : Nat} (released : ReleasedAt f ds order w i j) :
    ∃ u, order[i]? = some u ∧ (u,w) ∈ ds.filterMap f := released.latest.1

theorem ReleasedAt.edge {w : α} {i j : Nat} (released : ReleasedAt f ds order w i j) {u : α}
    (place : order[i]? = some u) : ∃ d, ds[j]? = some d ∧ f d = some (u,w) := by
  obtain ⟨v,d,at_v,at_d,is⟩ := released.last.1
  obtain rfl := Option.some.inj (at_v.symm.trans place)
  exact ⟨d,at_d,is⟩

private theorem split_at {β : Type} {l : List β} {i : Nat} {x : β} (place : l[i]? = some x) :
    l = l.take i ++ x :: l.drop (i + 1) := by
  obtain ⟨inside,rfl⟩ := List.getElem?_eq_some_iff.mp place
  rw [List.getElem_cons_drop,List.take_append_drop]

end Places

section Emission
variable {es : List (α × α)} {order : List α}

/-- What is emitted is released by some vertex of the order once those before it are taken. -/
private theorem place_of_emitted {w : α} (member : w ∈ emitted es [] order) :
    ∃ i x, order[i]? = some x ∧ w ∈ released es (order.take i) x := by
  induction order using List.reverseRecOn with
  | nil => simp [emitted] at member
  | append_singleton order v ih =>
    rw [emitted_snoc] at member
    rcases List.mem_append.mp member with old | new
    · obtain ⟨i,x,place,inside⟩ := ih old
      have within := place_lt place
      refine ⟨i,x,by rw [List.getElem?_append_left within,place],?_⟩
      rwa [List.take_append_of_le_length within.le]
    · exact ⟨order.length,v,by simp,by simpa using new⟩

private theorem emitted_split {i : Nat} {x : α} (place : order[i]? = some x) :
    emitted es [] order = emitted es [] (order.take i) ++ (released es (order.take i) x ++
      emitted es (order.take i ++ [x]) (order.drop (i + 1))) := by
  conv_lhs => rw [split_at place]
  rw [emitted_append]
  simp [emitted]

/-- What an earlier vertex releases stands before what a later one does. -/
private theorem emitted_before {i k : Nat} {x y u v : α} (less : i < k) (first : order[i]? = some x)
    (second : order[k]? = some y) (early : u ∈ released es (order.take i) x)
    (late : v ∈ released es (order.take k) y) : [u,v].Sublist (emitted es [] order) := by
  have cut : (order.take k)[i]? = some x := by rw [List.getElem?_take_of_lt less,first]
  have inside : u ∈ emitted es [] (order.take k) := by
    rw [emitted_split cut,List.take_take,min_eq_left less.le]
    exact List.mem_append_right _ (List.mem_append_left _ early)
  rw [emitted_split second]
  exact (List.singleton_sublist.mpr inside).append
    (List.singleton_sublist.mpr (List.mem_append_left _ late))

private theorem released_sublist {i : Nat} {x : α} (place : order[i]? = some x) :
    (released es (order.take i) x).Sublist (emitted es [] order) := by
  rw [emitted_split place]
  exact (List.sublist_append_left _ _).trans (List.sublist_append_right _ _)

private theorem dedup_before {front back : List α} {u v : α} (gone : u ∉ back) (later : v ∈ back) :
    [u,v].Sublist (front ++ u :: back).dedup := by
  have pair : [u,v].Sublist (u :: back.dedup) :=
    List.cons_sublist_cons.mpr (List.singleton_sublist.mpr (List.mem_dedup.mpr later))
  rw [List.dedup_append,List.dedup_cons_of_notMem gone]
  exact pair.trans (List.suffix_union_right _ _).sublist

end Emission

namespace Finished
variable {f : δ → Option (α × α)} {vs : List α} {ds : List δ} {order : List α}

/-- The vertex at the place that releases a vertex does release it in the run. -/
private theorem released_at (finished : Finished vs (ds.filterMap f) order) {w : α} {i j : Nat}
    (inside : w ∈ order) (rel : ReleasedAt f ds order w i j) :
    ∃ x, order[i]? = some x ∧ w ∈ released (ds.filterMap f) (order.take i) x := by
  obtain ⟨u,at_u,edge⟩ := rel.predecessor
  rw [finished.emission] at inside
  rcases List.mem_append.mp inside with source | later
  · exact absurd edge ((mem_sources.mp source).2 u)
  · obtain ⟨k,x,at_x,member⟩ := place_of_emitted later
    have upper := rel.latest.2 ⟨x,at_x,(mem_released.mp member).1⟩
    have lower : i ≤ k := by
      rcases List.mem_append.mp ((mem_released.mp member).2 u edge) with before | now
      · obtain ⟨n,at_n⟩ := List.mem_iff_getElem?.mp before
        have cut := place_lt at_n
        rw [List.length_take] at cut
        rw [List.getElem?_take_of_lt (by omega)] at at_n
        have := place_unique finished.distinct at_n at_u
        omega
      · rw [List.mem_singleton.mp now] at at_u
        exact (place_unique finished.distinct at_u at_x).le
    obtain rfl : k = i := le_antisymm upper lower
    exact ⟨x,at_x,member⟩

/-- Of two vertices that one vertex releases, the one with the earlier last edge is enqueued first. -/
private theorem released_before {taken : List α} {x u v : α} {i j l : Nat} (place : order[i]? = some x)
    (first : ReleasedAt f ds order u i j) (second : ReleasedAt f ds order v i l) (less : j < l)
    (left : u ∈ released (ds.filterMap f) taken x) (right : v ∈ released (ds.filterMap f) taken x) :
    [u,v].Sublist (released (ds.filterMap f) taken x) := by
  obtain ⟨d,at_d,is⟩ := first.edge place
  obtain ⟨e,at_e,is_e⟩ := second.edge place
  simp only [released,List.mem_dedup,List.mem_filter] at left right ⊢
  have shape : successors (ds.filterMap f) x = successors ((ds.take j).filterMap f) x ++
      u :: successors ((ds.drop (j + 1)).filterMap f) x := by
    conv_lhs => rw [split_at at_d,List.filterMap_append,List.filterMap_cons_some is]
    simp [successors]
  rw [shape,List.filter_append,List.filter_cons,if_pos left.2]
  apply dedup_before
  · intro again
    obtain ⟨c,inside,is_c⟩ := List.mem_filterMap.mp (mem_successors.mp (List.mem_filter.mp again).1)
    obtain ⟨n,at_n⟩ := List.mem_iff_getElem?.mp inside
    rw [List.getElem?_drop] at at_n
    have bound := first.last.2 ⟨x,c,place,at_n,is_c⟩
    omega
  · refine List.mem_filter.mpr ⟨mem_successors.mpr (List.mem_filterMap.mpr ⟨e,?_,is_e⟩),right.2⟩
    apply List.mem_iff_getElem?.mpr
    exact ⟨l - (j + 1),by rw [List.getElem?_drop,← at_e]; congr 1; omega⟩

theorem queueOrder (finished : Finished vs (ds.filterMap f) order) (known : ∀ e ∈ ds.filterMap f, e.2 ∈ vs)
    (all : order.Perm vs) : QueueOrder f vs ds order := by
  have member {w : α} {i j : Nat} (rel : ReleasedAt f ds order w i j) : w ∈ order := by
    obtain ⟨u,_,edge⟩ := rel.predecessor
    exact all.mem_iff.mpr (known _ edge)
  have emission : (emitted (ds.filterMap f) [] order).Sublist order := by
    conv_rhs => rw [finished.emission]
    exact List.sublist_append_right _ _
  have before {u v : α} {i j k l : Nat} (first : ReleasedAt f ds order u i j) (second : ReleasedAt f ds order v k l)
      (less : i < k ∨ i = k ∧ j < l) : [u,v].Sublist order := by
    obtain ⟨x,at_x,left⟩ := finished.released_at (member first) first
    obtain ⟨y,at_y,right⟩ := finished.released_at (member second) second
    rcases less with place | ⟨rfl,edge⟩
    · exact (emitted_before place at_x at_y left right).trans emission
    · obtain rfl := Option.some.inj (at_x.symm.trans at_y)
      exact ((released_before at_x first second edge left right).trans (released_sublist at_x)).trans emission
  refine ⟨all,?_,?_⟩
  · conv_rhs => rw [finished.emission]
    exact List.prefix_append _ _
  · intro u v i j k l first second
    refine ⟨?_,before first second⟩
    intro standing
    by_contra not
    -- Otherwise the second one stands first, or one edge releases both.
    rcases Nat.lt_trichotomy k i with less | same | more
    · exact before_asymm finished.distinct standing (before second first (.inl less))
    · subst same
      rcases Nat.lt_trichotomy l j with less | same | more
      · exact before_asymm finished.distinct standing (before second first (.inr ⟨rfl,less⟩))
      · subst same
        obtain ⟨x,at_x,_⟩ := first.predecessor
        obtain ⟨d,at_d,is⟩ := first.edge at_x
        obtain ⟨e,at_e,is_e⟩ := second.edge at_x
        obtain rfl := Option.some.inj (at_d.symm.trans at_e)
        obtain rfl : u = v := (Prod.mk.inj (Option.some.inj (is.symm.trans is_e))).2
        exact before_asymm finished.distinct standing standing
      · exact not (.inr ⟨rfl,more⟩)
    · exact not (.inl more)

end Finished

namespace QueueOrder
variable {f : δ → Option (α × α)} {vs : List α} {ds : List δ} {order other : List α}

/-- The places at the beginning are those of the vertices without predecessors. -/
theorem source_place (rule : QueueOrder f vs ds order) (once : vs.Nodup) {n : Nat} {w : α}
    (place : order[n]? = some w) : n < (sources vs (ds.filterMap f)).length ↔ ∀ u, (u,w) ∉ ds.filterMap f := by
  obtain ⟨rest,shape⟩ := rule.first
  constructor
  · intro early
    rw [← shape,List.getElem?_append_left early] at place
    exact (mem_sources.mp (List.mem_iff_getElem?.mpr ⟨n,place⟩)).2
  · intro none
    have source := mem_sources.mpr ⟨rule.all.mem_iff.mp (List.mem_iff_getElem?.mpr ⟨n,place⟩),none⟩
    obtain ⟨m,at_m⟩ := List.mem_iff_getElem?.mp source
    have early := (List.getElem?_eq_some_iff.mp at_m).1
    have again : order[m]? = some w := by rw [← shape,List.getElem?_append_left early,at_m]
    rwa [← place_unique (rule.all.nodup_iff.mpr once) again place]

/-- Whatever stands behind the sources is released somewhere. -/
theorem released_late (rule : QueueOrder f vs ds order) (once : vs.Nodup) (known : ∀ e ∈ ds.filterMap f, e.1 ∈ vs)
    {n : Nat} {w : α} (place : order[n]? = some w) (late : ¬ n < (sources vs (ds.filterMap f)).length) :
    ∃ i j, ReleasedAt f ds order w i j := by
  have entered := mt (rule.source_place once place).mpr late
  simp only [not_forall,not_not] at entered
  obtain ⟨u,edge⟩ := entered
  exact releasedAt_exists edge (rule.all.mem_iff.mpr (known _ edge))

private theorem predecessor_after (rule : QueueOrder f vs ds order) (once : vs.Nodup) {u w v : α} {i k : Nat}
    (edge : (u,w) ∈ ds.filterMap f) (first : order[i]? = some w) (second : order[k]? = some v) (after : i ≤ k) :
    ∃ x, (x,v) ∈ ds.filterMap f := by
  by_contra none
  have early := (rule.source_place once second).mpr (not_exists.mp none)
  exact (rule.source_place once first).mp (by omega) u edge

theorem forward (rule : QueueOrder f vs ds order) (once : vs.Nodup) (known : ∀ e ∈ ds.filterMap f, e.1 ∈ vs)
    (acyclic : ∀ v, ¬ BelowCycle (Edge (ds.filterMap f)) v) {u w : α} {i k : Nat}
    (edge : (u,w) ∈ ds.filterMap f) (first : order[i]? = some u) (second : order[k]? = some w) : i < k := by
  by_contra not
  have inside {e : α × α} (edge : e ∈ ds.filterMap f) : e.1 ∈ order := rule.all.mem_iff.mpr (known e edge)
  obtain ⟨m,j,released⟩ := releasedAt_exists edge (inside edge)
  have late : k ≤ m := by
    have := released.latest.2 ⟨u,first,edge⟩
    omega
  -- Then whatever stands from `w` on has a predecessor there.
  have each : ∀ v ∈ order.drop k, ∃ x ∈ order.drop k, Edge (ds.filterMap f) x v := by
    intro v member
    obtain ⟨n,place⟩ := List.mem_iff_getElem?.mp member
    rw [List.getElem?_drop] at place
    obtain ⟨x,entering⟩ := rule.predecessor_after once edge second place (by omega)
    obtain ⟨p,l,after⟩ := releasedAt_exists entering (inside entering)
    obtain ⟨y,at_y,leading⟩ := after.predecessor
    refine ⟨y,?_,leading⟩
    have far : k ≤ p := by
      by_cases same : n = 0
      · subst same
        obtain rfl := Option.some.inj (second.symm.trans place)
        have := after.latest.2 released.latest.1
        omega
      · have standing := pair_sublist_iff.mpr ⟨k,k + n,by omega,second,place⟩
        have := (rule.later w v m j p l released after).mp standing
        omega
    exact List.mem_iff_getElem?.mpr ⟨p - k,by rw [List.getElem?_drop,← at_y]; congr 1; omega⟩
  refine acyclic w (belowCycle_of_predecessors each ?_)
  exact List.mem_iff_getElem?.mpr ⟨0,by rw [List.getElem?_drop,← second]; rfl⟩

omit [DecidableEq α] in
/-- Orders that agree up to a place agree on what releases a vertex whose predecessors are there. -/
private theorem released_of_agree (distinct : other.Nodup) {n : Nat} (agree : order.take n = other.take n)
    {w : α} (early : ∀ u i, (u,w) ∈ ds.filterMap f → order[i]? = some u → i < n)
    (complete : ∀ u, (u,w) ∈ ds.filterMap f → u ∈ order) {i j : Nat} (released : ReleasedAt f ds order w i j) :
    ReleasedAt f ds other w i j := by
  have same {m : Nat} (less : m < n) : order[m]? = other[m]? := by
    rw [← List.getElem?_take_of_lt less,agree,List.getElem?_take_of_lt less]
  obtain ⟨x,at_x,edge⟩ := released.predecessor
  have here := same (early x i edge at_x)
  refine ⟨⟨⟨x,here ▸ at_x,edge⟩,?_⟩,?_⟩
  · rintro m ⟨u,at_u,edge⟩
    obtain ⟨k,place⟩ := List.mem_iff_getElem?.mp (complete u edge)
    have bound := released.latest.2 ⟨u,place,edge⟩
    have also := same (early u k edge place)
    have := place_unique distinct at_u (also ▸ place)
    omega
  · have last := released.last
    rw [here] at last
    exact last

omit [DecidableEq α] in
/-- Where orders part, what the other one has next stands later in the one. -/
private theorem next_before (distinct : other.Nodup) (same : order.Perm other) {n : Nat}
    (agree : order.take n = other.take n) {w w' : α} (here : order[n]? = some w) (there : other[n]? = some w')
    (different : w ≠ w') : [w,w'].Sublist order := by
  obtain ⟨m,place⟩ := List.mem_iff_getElem?.mp (same.mem_iff.mpr (List.mem_iff_getElem?.mpr ⟨n,there⟩))
  rcases Nat.lt_trichotomy m n with less | rfl | more
  · have moved : other[m]? = some w' := by
      rw [← List.getElem?_take_of_lt less,← agree,List.getElem?_take_of_lt less,place]
    have := place_unique distinct moved there
    omega
  · exact absurd (Option.some.inj (here.symm.trans place)) different
  · exact pair_sublist_iff.mpr ⟨n,m,more,here,place⟩

private theorem next_eq (rule : QueueOrder f vs ds order) (second : QueueOrder f vs ds other) (once : vs.Nodup)
    (known : ∀ e ∈ ds.filterMap f, e.1 ∈ vs) (acyclic : ∀ v, ¬ BelowCycle (Edge (ds.filterMap f)) v) {n : Nat}
    (agree : order.take n = other.take n) {w w' : α} (here : order[n]? = some w) (there : other[n]? = some w') :
    w = w' := by
  by_contra different
  have late : ¬ n < (sources vs (ds.filterMap f)).length := by
    intro early
    obtain ⟨rest,shape⟩ := rule.first
    obtain ⟨others,also⟩ := second.first
    rw [← shape,List.getElem?_append_left early] at here
    rw [← also,List.getElem?_append_left early] at there
    exact different (Option.some.inj (here.symm.trans there))
  obtain ⟨i,j,released⟩ := rule.released_late once known here late
  obtain ⟨k,l,released'⟩ := second.released_late once known there late
  have inside (v x : α) (edge : (v,x) ∈ ds.filterMap f) : v ∈ order := rule.all.mem_iff.mpr (known _ edge)
  have inside' (v x : α) (edge : (v,x) ∈ ds.filterMap f) : v ∈ other := second.all.mem_iff.mpr (known _ edge)
  have distinct : order.Nodup := rule.all.nodup_iff.mpr once
  have distinct' : other.Nodup := second.all.nodup_iff.mpr once
  have moved : ReleasedAt f ds other w i j := released_of_agree distinct' agree
    (fun v m edge at_v => rule.forward once known acyclic edge at_v here) (fun v edge => inside v w edge) released
  have moved' : ReleasedAt f ds order w' k l := released_of_agree distinct agree.symm
    (fun v m edge at_v => second.forward once known acyclic edge at_v there) (fun v edge => inside' v w' edge) released'
  have same : order.Perm other := rule.all.trans second.all.symm
  have first := (rule.later w w' i j k l released moved').mp
    (next_before distinct' same agree here there different)
  have again := (second.later w' w k l i j released' moved).mp
    (next_before distinct same.symm agree.symm there here (Ne.symm different))
  omega

/-- On a graph without cycles the rule of the queue leaves no choice. -/
theorem unique (rule : QueueOrder f vs ds order) (second : QueueOrder f vs ds other) (once : vs.Nodup)
    (known : ∀ e ∈ ds.filterMap f, e.1 ∈ vs) (acyclic : ∀ v, ¬ BelowCycle (Edge (ds.filterMap f)) v) :
    order = other := by
  have length : order.length = other.length := rule.all.length_eq.trans second.all.length_eq.symm
  have agree (n : Nat) : order.take n = other.take n := by
    induction n with
    | zero => rfl
    | succ n ih =>
      rw [List.take_add_one,List.take_add_one,ih]
      congr 2
      by_cases inside : n < order.length
      · have here := List.getElem?_eq_getElem inside
        have there := List.getElem?_eq_getElem (length ▸ inside)
        rw [here,there,rule.next_eq second once known acyclic ih here there]
      · rw [List.getElem?_eq_none (by omega),List.getElem?_eq_none (by omega)]
  rw [← List.take_length (l := order),agree,length,List.take_length]

end QueueOrder

end InfraGraph.Order
