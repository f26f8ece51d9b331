import InfraGraph.Proofs.Order.Position

/-!
The layers of the queue. The depth of a vertex is the number of edges of the longest chain that ends in
it. A vertex is one deeper than the predecessor that releases it, so along the order depths never
decrease.
-/
namespace InfraGraph.Order
variable {α δ : Type}

/-- A chain of so many steps of a relation ends in a vertex. -/
inductive Chain (R : α → α → Prop) : Nat → α → Prop where
  | start (v : α) : Chain R 0 v
  | next {n : Nat} {u v : α} (chain : Chain R n u) (step : R u v) : Chain R (n + 1) v

/-- The length of the longest chain that ends in a vertex. -/
def Depth (R : α → α → Prop) (v : α) (n : Nat) : Prop := IsGreatest {n | Chain R n v} n

/-- The vertex at a place has a depth, which none before it exceeds. -/
def Layered (R : α → α → Prop) (order : List α) (k : Nat) (w : α) : Prop :=
  ∃ n, Depth R w n ∧ ∀ i u m, i ≤ k → order[i]? = some u → Depth R u m → m ≤ n

theorem Depth.unique {R : α → α → Prop} {v : α} {m n : Nat} (first : Depth R v m) (second : Depth R v n) : m = n :=
  IsGreatest.unique first second

theorem depth_zero {R : α → α → Prop} {v : α} (none : ∀ u, ¬ R u v) : Depth R v 0 := by
  refine ⟨.start v,?_⟩
  intro n chain
  cases chain with
  | start => exact le_refl 0
  | next _ step => exact absurd step (none _)

namespace QueueOrder
variable [DecidableEq α] {f : δ → Option (α × α)} {vs : List α} {ds : List δ} {order : List α}

omit [DecidableEq α] in
/-- A vertex is one deeper than the predecessor that releases it. -/
private theorem depth_released {w x : α} {i j n : Nat} (released : ReleasedAt f ds order w i j)
    (place : order[i]? = some x) (complete : ∀ u, (u,w) ∈ ds.filterMap f → u ∈ order)
    (layers : ∀ k u, k ≤ i → order[k]? = some u → Layered (Edge (ds.filterMap f)) order k u)
    (depth : Depth (Edge (ds.filterMap f)) x n) : Depth (Edge (ds.filterMap f)) w (n + 1) := by
  obtain ⟨y,at_y,edge⟩ := released.predecessor
  obtain rfl := Option.some.inj (at_y.symm.trans place)
  refine ⟨.next depth.1 edge,?_⟩
  intro m chain
  cases chain with
  | start => exact Nat.zero_le _
  | @next m u _ before entering =>
    obtain ⟨k,at_u⟩ := List.mem_iff_getElem?.mp (complete u entering)
    have early := released.latest.2 ⟨u,at_u,entering⟩
    obtain ⟨d,depth_u,_⟩ := layers k u early at_u
    obtain ⟨e,depth_y,bound⟩ := layers i y le_rfl place
    have upper := depth_u.2 before
    have lower := bound k u d early at_u depth_u
    have := depth_y.unique depth
    omega

/-- A place that is released is one deeper than an earlier one, if all earlier ones are layered. -/
private theorem deeper_than_earlier (rule : QueueOrder f vs ds order) (once : vs.Nodup)
    (known : ∀ e ∈ ds.filterMap f, e.1 ∈ vs) (acyclic : ∀ v, ¬ BelowCycle (Edge (ds.filterMap f)) v) {i p j : Nat}
    {w : α} (place : order[i]? = some w) (released : ReleasedAt f ds order w p j)
    (layers : ∀ k u, k < i → order[k]? = some u → Layered (Edge (ds.filterMap f)) order k u) :
    ∃ x n, p < i ∧ order[p]? = some x ∧ Depth (Edge (ds.filterMap f)) x n ∧ Depth (Edge (ds.filterMap f)) w (n + 1) := by
  obtain ⟨x,at_x,edge⟩ := released.predecessor
  have before := rule.forward once known acyclic edge at_x place
  obtain ⟨n,depth,_⟩ := layers p x before at_x
  refine ⟨x,n,before,at_x,depth,?_⟩
  exact depth_released released at_x (fun u edge => rule.all.mem_iff.mpr (known _ edge))
    (fun k u close at_u => layers k u (by omega) at_u) depth

/-- What releases an earlier vertex does not stand later. -/
private theorem releasing_place_le (rule : QueueOrder f vs ds order) {i k p j q l : Nat} {u w : α} (before : i ≤ k)
    (first : order[i]? = some u) (second : order[k]? = some w) (released : ReleasedAt f ds order u q l)
    (released' : ReleasedAt f ds order w p j) : q ≤ p := by
  by_cases same : i = k
  · subst same
    obtain rfl := Option.some.inj (first.symm.trans second)
    exact (released.latest.unique released'.latest).le
  · have standing := pair_sublist_iff.mpr ⟨i,k,by omega,first,second⟩
    have := (rule.later u w q l p j released released').mp standing
    omega

theorem layered (rule : QueueOrder f vs ds order) (once : vs.Nodup) (known : ∀ e ∈ ds.filterMap f, e.1 ∈ vs)
    (acyclic : ∀ v, ¬ BelowCycle (Edge (ds.filterMap f)) v) (k : Nat) (w : α) (place : order[k]? = some w) :
    Layered (Edge (ds.filterMap f)) order k w := by
  induction k using Nat.strong_induction_on generalizing w with
  | _ k ih =>
    have shallow {i : Nat} {u : α} (at_u : order[i]? = some u)
        (early : i < (sources vs (ds.filterMap f)).length) : Depth (Edge (ds.filterMap f)) u 0 :=
      depth_zero ((rule.source_place once at_u).mp early)
    by_cases early : k < (sources vs (ds.filterMap f)).length
    · refine ⟨0,shallow place early,?_⟩
      intro i u m before at_u depth
      exact (depth.unique (shallow at_u (by omega))).le
    · obtain ⟨p,j,released⟩ := rule.released_late once known place early
      obtain ⟨x,n,less,at_x,depth,deeper⟩ := rule.deeper_than_earlier once known acyclic place released
        fun k u close at_u => ih k close u at_u
      refine ⟨n + 1,deeper,?_⟩
      intro i u m before at_u depth_u
      by_cases source : i < (sources vs (ds.filterMap f)).length
      · have := depth_u.unique (shallow at_u source)
        omega
      · -- Both are one deeper than what releases them, and this stands in the same order.
        obtain ⟨q,l,released'⟩ := rule.released_late once known at_u source
        obtain ⟨y,d,_,at_y,depth_y,deeper'⟩ := rule.deeper_than_earlier once known acyclic at_u released'
          fun k u close at_u => ih k (by omega) u at_u
        obtain ⟨e,depth_x,bound⟩ := ih p less x at_x
        have := bound q y d (rule.releasing_place_le before at_u place released' released) at_y depth_y
        have := depth_x.unique depth
        have := depth_u.unique deeper'
        omega

end QueueOrder

end InfraGraph.Order
