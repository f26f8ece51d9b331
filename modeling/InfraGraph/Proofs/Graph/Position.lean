import InfraGraph.Proofs.Graph.Sort
import InfraGraph.Proofs.Order.Depth

/-!
Where sorting puts the operations. Those without live prerequisites come first, as they were added. Any
other one is released by the prerequisite that stands latest, through the last dependency on it, and
these two places decide all ties. The order is layered by the longest chains of live dependencies.
-/
open Relation (TransGen ReflTransGen)
namespace InfraGraph.Graph
open Value (sense Sense sense_eq_iff sense_beq)
open InfraGraph.Order (Edge BelowCycle Finished Chain Depth)

/-- In an order of identifiers, an identifier is released at the place of its latest prerequisite, by the
    last dependency of the graph that leads from there to it. -/
structure ReleasedAt (g : Graph) (order : List Value) (id : Value) (i j : Nat) : Prop where
  latest : IsGreatest {i | ∃ u, order[i]? = some u ∧ g.Leads u id} i
  last : IsGreatest {j | ∃ u d, order[i]? = some u ∧ g.dependencies[j]? = some d ∧
    (d.prerequisite == u) = true ∧ (d.dependent == id) = true} j

open scoped Classical in
/-- The identifiers that no live dependency leads to, in the order of their first occurrences. -/
noncomputable def roots (g : Graph) : List Value :=
  (distinct (g.operations.map (·.id))).filter fun id => ∀ u, ¬ g.Leads u id

/-- The rule that fixes an order of the identifiers: all of them once; first those that no live dependency
    leads to, by their first occurrences; the others by the places that release them. -/
structure QueueOrder (g : Graph) (order : List Value) : Prop where
  all : order.Perm (distinct (g.operations.map (·.id)))
  first : g.roots <+: order
  later : ∀ u ∈ order, ∀ v ∈ order, ∀ i j k l, g.ReleasedAt order u i j → g.ReleasedAt order v k l →
    ([u,v].Sublist order ↔ i < k ∨ i = k ∧ j < l)

/-- The ends of a dependency up to sameness, if it is live. -/
def link (g : Graph) (d : Dependency) : Option (Sense × Sense) :=
  if g.Live d then some (d.prerequisite.sense,d.dependent.sense) else none

theorem edges_eq (g : Graph) : g.edges = g.dependencies.filterMap g.link := by
  simp only [edges,Order.renameEdges,liveEnds,List.map_map]
  induction g.dependencies with
  | nil => rfl
  | cons d rest ih =>
    by_cases live : g.Live d
    · simpa [live,link,ends] using ih
    · simpa [live,link] using ih

private theorem link_iff (g : Graph) (d : Dependency) (a b : Value) :
    g.link d = some (a.sense,b.sense) ↔ g.Live d ∧ (d.prerequisite == a) = true ∧ (d.dependent == b) = true := by
  by_cases live : g.Live d
  · simp [link,live,sense_eq_iff]
  · simp [link,live]

theorem releasedAt_iff (g : Graph) (order : List Value) (id : Value) (i j : Nat) :
    g.ReleasedAt order id i j ↔
      Order.ReleasedAt g.link g.dependencies (order.map sense) id.sense i j := by
  have latest : {i : Nat | ∃ x, (order.map sense)[i]? = some x ∧ (x,id.sense) ∈ g.dependencies.filterMap g.link} =
      {i : Nat | ∃ u, order[i]? = some u ∧ g.Leads u id} := by
    ext n
    simp only [List.getElem?_map,Option.map_eq_some_iff,Set.mem_ofPred_eq,← edges_eq]
    constructor
    · rintro ⟨_,⟨u,place,rfl⟩,edge⟩; exact ⟨u,place,(g.mem_edges u id).mp edge⟩
    · rintro ⟨u,place,leads⟩; exact ⟨_,⟨u,place,rfl⟩,(g.mem_edges u id).mpr leads⟩
  have last (leads : ∃ u, order[i]? = some u ∧ g.Leads u id) :
      {j : Nat | ∃ x d, (order.map sense)[i]? = some x ∧ g.dependencies[j]? = some d ∧ g.link d = some (x,id.sense)} =
        {j : Nat | ∃ u d, order[i]? = some u ∧ g.dependencies[j]? = some d ∧
          (d.prerequisite == u) = true ∧ (d.dependent == id) = true} := by
    obtain ⟨w,at_w,leads⟩ := leads
    ext n
    simp only [List.getElem?_map,Option.map_eq_some_iff,Set.mem_ofPred_eq]
    constructor
    · rintro ⟨_,d,⟨u,place,rfl⟩,at_d,is⟩
      exact ⟨u,d,place,at_d,((g.link_iff d u id).mp is).2⟩
    · rintro ⟨u,d,place,at_d,first,second⟩
      obtain rfl := Option.some.inj (at_w.symm.trans place)
      have known := known_of_leads leads
      have live : g.Live d := ⟨(known_congr first).mpr known.1,(known_congr second).mpr known.2⟩
      exact ⟨_,d,⟨w,place,rfl⟩,at_d,(g.link_iff d w id).mpr ⟨live,first,second⟩⟩
  constructor
  · rintro ⟨first,second⟩
    exact ⟨latest.symm ▸ first,(last first.1).symm ▸ second⟩
  · rintro ⟨first,second⟩
    rw [latest] at first
    exact ⟨first,last first.1 ▸ second⟩

private theorem roots_subset (g : Graph) : g.roots ⊆ g.ids := by
  rw [roots,← ids_eq]
  exact List.filter_subset_self _

theorem sources_eq (g : Graph) :
    Order.sources g.vertices (g.dependencies.filterMap g.link) = g.roots.map sense := by
  rw [← edges_eq,roots,← ids_eq,vertices,Order.sources,List.filter_map]
  congr 1
  apply List.filter_congr
  intro id _
  simp only [Function.comp_apply,decide_eq_decide,Order.waiting_eq_zero,List.not_mem_nil,imp_false]
  constructor
  · exact fun none u leads => none u.sense ((g.mem_edges u id).mpr leads)
  · intro none x edge
    obtain ⟨u,rfl⟩ := Quotient.exists_rep x
    exact none u ((g.mem_edges u id).mp edge)

section Senses
variable {g : Graph} {order : List Value} (all : order.Perm g.ids)
include all

private theorem before_iff {u v : Value} (first : u ∈ order) (second : v ∈ order) :
    [u,v].Sublist order ↔ [u.sense,v.sense].Sublist (order.map sense) := by
  refine ⟨fun before => before.map sense,?_⟩
  intro before
  obtain ⟨a,b,sublist,left,right⟩ := pair_sublist_map before
  have one {x y : Value} (inside : x ∈ order) (also : y ∈ order) (same : x.sense = y.sense) : x = y :=
    eq_of_sense g.ids_pairwise (all.subset inside) (all.subset also) same
  obtain rfl := one (sublist.subset (by simp)) first left
  obtain rfl := one (sublist.subset (by simp)) second right
  exact sublist

private theorem released_sense {x : Sense} {i j : Nat}
    (released : Order.ReleasedAt g.link g.dependencies (order.map sense) x i j) :
    ∃ u ∈ order, u.sense = x ∧ g.ReleasedAt order u i j := by
  obtain ⟨y,_,edge⟩ := released.predecessor
  rw [← edges_eq] at edge
  have inside : x ∈ order.map sense := (all.map sense).mem_iff.mpr (g.edges_known _ edge).2
  obtain ⟨u,member,rfl⟩ := List.mem_map.mp inside
  exact ⟨u,member,rfl,(g.releasedAt_iff order u i j).mpr released⟩

theorem queueOrder_iff : g.QueueOrder order ↔
    Order.QueueOrder g.link g.vertices g.dependencies (order.map sense) := by
  constructor
  · rintro ⟨_,first,later⟩
    refine ⟨all.map sense,g.sources_eq ▸ first.map sense,?_⟩
    intro x y i j k l released released'
    obtain ⟨u,left,rfl,place⟩ := released_sense all released
    obtain ⟨v,right,rfl,place'⟩ := released_sense all released'
    rw [← before_iff all left right]
    exact later u left v right i j k l place place'
  · rintro ⟨_,first,later⟩
    refine ⟨g.ids_eq ▸ all,?_,?_⟩
    · rw [sources_eq] at first
      obtain ⟨rest,shape⟩ := first
      obtain ⟨front,back,rfl,same,_⟩ := List.map_eq_append_iff.mp shape.symm
      have left : front ⊆ g.ids := fun u inside => all.subset (List.mem_append_left _ inside)
      exact map_sense_injective g.ids_pairwise left g.roots_subset same ▸ List.prefix_append _ _
    · intro u left v right i j k l released released'
      rw [before_iff all left right]
      exact later _ _ i j k l ((g.releasedAt_iff order u i j).mp released) ((g.releasedAt_iff order v k l).mp released')

end Senses

/-! ### Depths -/

private theorem chain_iff (g : Graph) (n : Nat) (v : Value) : Chain g.Leads n v ↔ Chain (Edge g.edges) n v.sense := by
  constructor
  · intro chain
    induction chain with
    | start v => exact .start _
    | next _ step ih => exact ih.next ((g.mem_edges _ _).mpr step)
  · intro chain
    generalize target : v.sense = x at chain
    induction chain generalizing v with
    | start => exact .start v
    | @next n y x _ step ih =>
      subst target
      obtain ⟨u,rfl⟩ := Quotient.exists_rep y
      exact (ih u rfl).next ((g.mem_edges u v).mp step)

theorem depth_iff (g : Graph) (v : Value) (n : Nat) : Depth g.Leads v n ↔ Depth (Edge g.edges) v.sense n := by
  have chains : {n | Chain g.Leads n v} = {n | Chain (Edge g.edges) n v.sense} := Set.ext fun n => g.chain_iff n v
  unfold Depth
  rw [chains]

/-! ### The order that sorting returns -/

theorem clear_of_acyclic {g : Graph} (acyclic : ¬ g.Cyclic) (x : Sense) : ¬ BelowCycle (Edge g.edges) x := by
  intro below
  obtain ⟨id,rfl⟩ := Quotient.exists_rep x
  exact acyclic (g.cyclic_iff.mpr ⟨id,(g.belowCycle_iff id).mpr below⟩)

/-- Without a cycle all identifiers are ordered. -/
theorem sortedIds_perm {g : Graph} (acyclic : ¬ g.Cyclic) : (g.sortedIds.map sense).Perm g.vertices := by
  refine (List.perm_ext_iff_of_nodup g.sortedIds_finished.distinct g.vertices_nodup).mpr fun x => ?_
  constructor
  · exact g.sortedIds_finished.mem_vertices fun e edge => (g.edges_known e edge).2
  · intro vertex
    exact (g.sortedIds_finished.mem_iff_not_belowCycle (fun e edge => (g.edges_known e edge).1) vertex).mpr
      (clear_of_acyclic acyclic x)

private theorem senses_of_sorted (g : Graph) : (g.sorted.map (·.id)).map sense = g.sortedIds.map sense := by
  rw [List.map_map]
  exact g.sorted_senses

theorem sorted_perm {g : Graph} (acyclic : ¬ g.Cyclic) : (g.sorted.map (·.id)).Perm g.ids := by
  refine perm_of_senses g.ids_pairwise ?_ (g.senses_of_sorted ▸ sortedIds_perm acyclic)
  intro id member
  obtain ⟨op,inside,rfl⟩ := List.mem_map.mp member
  exact id_mem_ids (g.find_sorted inside)

theorem sorted_rule {g : Graph} (acyclic : ¬ g.Cyclic) :
    Order.QueueOrder g.link g.vertices g.dependencies ((g.sorted.map (·.id)).map sense) := by
  rw [senses_of_sorted]
  refine Finished.queueOrder ?_ ?_ (sortedIds_perm acyclic)
  · exact g.edges_eq ▸ g.sortedIds_finished
  · exact fun e edge => (g.edges_known e (g.edges_eq ▸ edge)).2

theorem senses_of_rule {g : Graph} (acyclic : ¬ g.Cyclic) {senses : List Sense}
    (rule : Order.QueueOrder g.link g.vertices g.dependencies senses) : senses = (g.sorted.map (·.id)).map sense :=
  rule.unique (sorted_rule acyclic) g.vertices_nodup (fun e edge => (g.edges_known e (g.edges_eq ▸ edge)).1)
    (g.edges_eq ▸ clear_of_acyclic acyclic)

/-- Without a cycle the rule of the queue holds of the order and of no other one. -/
theorem queueOrder_sorted {g : Graph} (acyclic : ¬ g.Cyclic) (order : List Value) :
    g.QueueOrder order ↔ order = g.sorted.map (·.id) := by
  constructor
  · intro rule
    have all : order.Perm g.ids := g.ids_eq ▸ rule.all
    refine map_sense_injective g.ids_pairwise all.subset (sorted_perm acyclic).subset ?_
    exact senses_of_rule acyclic ((queueOrder_iff all).mp rule)
  · rintro rfl
    exact (queueOrder_iff (sorted_perm acyclic)).mpr (sorted_rule acyclic)

theorem layered_sorted {g : Graph} (acyclic : ¬ g.Cyclic) {i k : Nat} {a b : Operation} (less : i ≤ k)
    (first : g.sorted[i]? = some a) (second : g.sorted[k]? = some b) :
    ∃ m n, Depth g.Leads a.id m ∧ Depth g.Leads b.id n ∧ m ≤ n := by
  have layers := (sorted_rule acyclic).layered g.vertices_nodup
    (fun e edge => (g.edges_known e (g.edges_eq ▸ edge)).1) (g.edges_eq ▸ clear_of_acyclic acyclic)
  have place {n : Nat} {op : Operation} (at_n : g.sorted[n]? = some op) :
      ((g.sorted.map (·.id)).map sense)[n]? = some op.id.sense := by simp [at_n]
  obtain ⟨m,depth,_⟩ := layers i a.id.sense (place first)
  obtain ⟨n,deeper,bound⟩ := layers k b.id.sense (place second)
  rw [← edges_eq] at depth deeper bound
  exact ⟨m,n,(g.depth_iff _ _).mpr depth,(g.depth_iff _ _).mpr deeper,bound i _ m less (place first) depth⟩

theorem releasedAt_sorted {g : Graph} (acyclic : ¬ g.Cyclic) {u id : Value} (leads : g.Leads u id) :
    ∃ i j, g.ReleasedAt (g.sorted.map (·.id)) id i j := by
  have edge := (g.mem_edges u id).mpr leads
  have member : u.sense ∈ (g.sorted.map (·.id)).map sense :=
    ((sorted_perm acyclic).map sense).mem_iff.mpr (g.edges_known _ edge).1
  obtain ⟨i,j,released⟩ := Order.releasedAt_exists (g.edges_eq ▸ edge) member
  exact ⟨i,j,(g.releasedAt_iff _ id i j).mpr released⟩

/-- Without a cycle sorting returns, and what it returns needs no queue to describe it. The rule of the
    queue holds of this order and of no other. Each identifier that a live dependency leads to is released
    somewhere in it, and no operation is deeper than a later one. -/
theorem topologicalSort_queueOrder (g : Graph) (env : Environment) (s : Session) :
    (g.Keyed → ¬ g.Cyclic → ∃ ops t, g.topologicalSort.start env s = (.ok ops,t)) ∧
    ∀ ops t, g.topologicalSort.start env s = (.ok ops,t) →
      (∀ order, g.QueueOrder order ↔ order = ops.map (·.id)) ∧
      (∀ u id, g.Leads u id → ∃ i j, g.ReleasedAt (ops.map (·.id)) id i j) ∧
      ∀ (i k : Nat) (a b : Operation), i ≤ k → ops[i]? = some a → ops[k]? = some b →
        ∃ m n, Depth g.Leads a.id m ∧ Depth g.Leads b.id n ∧ m ≤ n := by
  constructor
  · intro keyed acyclic
    obtain ⟨t,executed⟩ := topologicalSort_of_acyclic keyed acyclic env s
    exact ⟨_,t,executed⟩
  · intro ops t returned
    obtain ⟨acyclic,rfl⟩ := topologicalSort_of_ok returned
    exact ⟨queueOrder_sorted acyclic,fun _ _ leads => releasedAt_sorted acyclic leads,
      fun _ _ _ _ less first second => layered_sorted acyclic less first second⟩

/-- A second copy of an edge puts one identifier behind another, and a place decides before an edge does. -/
def funnel : Graph :=
  assemble
    [bareOperation "x",bareOperation "y",bareOperation "z",bareOperation "s",bareOperation "r"]
    [bareDependency "r" "z",bareDependency "s" "x",bareDependency "s" "y",bareDependency "y" "z",
      bareDependency "s" "x",bareDependency "z" "ghost"] .empty

theorem funnel_keyed : funnel.Keyed := by
  constructor
  · decide
  · decide

theorem funnel_acyclic : ¬ funnel.Cyclic :=
  have sorted : funnel.topologicalSort.start .empty {} = (.ok funnel.sorted,_) := rfl
  (topologicalSort_of_ok sorted).1

theorem topologicalSort_funnel : funnel.Keyed ∧ ¬ funnel.Cyclic ∧
    ∃ ops t, funnel.topologicalSort.start .empty {} = (.ok ops,t) ∧
      ops.map (·.id) = [.text "s",.text "r",.text "y",.text "x",.text "z"] ∧
      ∀ order, funnel.QueueOrder order ↔ order = ops.map (·.id) :=
  ⟨funnel_keyed,funnel_acyclic,_,_,rfl,rfl,((topologicalSort_queueOrder funnel .empty {}).2 _ _ rfl).1⟩

end InfraGraph.Graph
