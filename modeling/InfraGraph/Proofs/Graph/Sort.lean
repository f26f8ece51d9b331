import InfraGraph.Proofs.Graph.Lookup
import InfraGraph.Proofs.Run

/-!
The order of the operations of a graph. It exists exactly if the live dependencies form no cycle; then
it holds the operation that each identifier names once, and every live dependency points forward in it.
Otherwise the identifiers on cycles and downstream of them are reported, in the order of their first
occurrences.
-/
open Relation (TransGen ReflTransGen)
namespace InfraGraph.Graph
open Value (sense Sense sense_eq_iff sense_beq)
open Run (Yields)
open InfraGraph.Order (Edge BelowCycle Finished renameEdges order_rename unresolved_rename unresolved_subset)
open scoped Classical in
/-- The identifiers on a cycle or downstream of one, in the order of their first occurrences. -/
noncomputable def blocked (g : Graph) : List Value :=
  (distinct (g.operations.map (·.id))).filter fun id => BelowCycle g.Leads id

/-- An order of the operations of a graph: each identifier is there once, as the operation that it
    names, nothing else is, and live dependencies point forward. -/
structure Schedule (g : Graph) (ops : List Operation) : Prop where
  within : ∀ op ∈ ops, op ∈ g.operations
  once : ∀ op ∈ g.operations, ∃ first, g.find? op.id = .ok (some first) ∧
    g.operations.find? (·.id == op.id) = some first ∧ ops.filter (·.id == op.id) = [first]
  forward : ∀ d ∈ g.dependencies, g.Live d → ∃ a b, g.find? d.prerequisite = .ok (some a) ∧
    g.find? d.dependent = .ok (some b) ∧ [a,b].Sublist ops

/-! ### The run over a graph -/

/-- The identifiers that the run over a graph orders. -/
def sortedIds (g : Graph) : List Value := (Order.arrange g.ids g.liveEnds).order

theorem order_eq (g : Graph) : (Order.arrange g.vertices g.edges).order = g.sortedIds.map sense :=
  order_rename sense_beq _ _

theorem sortedIds_finished (g : Graph) : Finished g.vertices g.edges (g.sortedIds.map sense) :=
  g.order_eq ▸ Order.arrange_finished g.vertices_nodup fun e edge => (g.edges_known e edge).2

theorem mem_sortedIds (g : Graph) {id : Value} (known : g.Known id) :
    id.sense ∈ g.sortedIds.map sense ↔ ¬ BelowCycle g.Leads id := by
  rw [belowCycle_iff]
  exact g.sortedIds_finished.mem_iff_not_belowCycle (fun e edge => (g.edges_known e edge).1) ((g.mem_vertices id).mpr known)

private theorem liveEnds_known (g : Graph) : ∀ e ∈ g.liveEnds, g.ids.any (· == e.2) = true := by
  intro e edge
  obtain ⟨d,member,rfl⟩ := List.mem_map.mp edge
  have live : g.Live d := by simpa using (List.mem_filter.mp member).2
  obtain ⟨v,inside,same⟩ := List.mem_map.mp ((g.mem_vertices _).mpr live.2)
  exact List.any_eq_true.mpr ⟨v,inside,sense_eq_iff.mp same⟩

/-- What the run leaves over is whatever it does not order. -/
theorem unresolved_senses (g : Graph) : (Order.arrange g.ids g.liveEnds).unresolved.map sense =
    g.vertices.filter fun x => x ∉ g.sortedIds.map sense := by
  rw [← g.order_eq,← unresolved_rename sense_beq]
  exact Order.arrange_unresolved g.vertices_nodup fun e edge => (g.edges_known e edge).2

theorem unresolved_eq (g : Graph) : (Order.arrange g.ids g.liveEnds).unresolved = g.blocked := by
  have left := unresolved_subset g.liveEnds_known
  have right : g.blocked ⊆ g.ids := by
    rw [blocked,← g.ids_eq]
    exact List.filter_subset_self _
  refine map_sense_injective g.ids_pairwise left right ?_
  rw [unresolved_senses,blocked,← g.ids_eq,vertices,List.filter_map]
  congr 1
  apply List.filter_congr
  intro id member
  apply decide_eq_decide.mpr
  have known := (g.mem_vertices id).mp (List.mem_map_of_mem member)
  rw [← not_iff_not,not_not]
  exact g.mem_sortedIds known

theorem mem_blocked (g : Graph) (id : Value) : (∃ v ∈ g.blocked, (v == id) = true) ↔ BelowCycle g.Leads id := by
  rw [blocked,← g.ids_eq]
  constructor
  · rintro ⟨v,listed,same⟩
    have below : BelowCycle g.Leads v := by simpa using (List.mem_filter.mp listed).2
    rw [belowCycle_iff,sense_eq_iff.mpr same] at below
    exact (g.belowCycle_iff id).mpr below
  · intro below
    obtain ⟨v,member,same⟩ := List.mem_map.mp ((g.mem_vertices id).mpr (known_of_belowCycle below))
    rw [belowCycle_iff,← same,← belowCycle_iff] at below
    exact ⟨v,List.mem_filter.mpr ⟨member,by simpa using below⟩,sense_eq_iff.mp same⟩

theorem blocked_eq_nil (g : Graph) : g.blocked = [] ↔ ¬ g.Cyclic := by
  rw [cyclic_iff,List.eq_nil_iff_forall_not_mem]
  constructor
  · rintro none ⟨id,below⟩
    obtain ⟨v,listed,_⟩ := (g.mem_blocked id).mpr below
    exact none v listed
  · exact fun clear v listed => clear ⟨v,(g.mem_blocked v).mp ⟨v,listed,BEq.rfl⟩⟩

theorem orderedIds_of_acyclic {g : Graph} (keyed : g.Keyed) (acyclic : ¬ g.Cyclic) (env : Environment) :
    Yields g.orderedIds env (.ok g.sortedIds) := by
  have none : g.blocked = [] := g.blocked_eq_nil.mpr acyclic
  unfold orderedIds
  rw [arrangement_eq keyed]
  refine (Run.yields_ofFault _).bind ?_
  rw [unresolved_eq,none,if_pos List.isEmpty_nil]
  exact (Run.yields_log _ _ _).bind (Run.yields_pure _)

theorem orderedIds_of_cyclic {g : Graph} (keyed : g.Keyed) (cyclic : g.Cyclic) (env : Environment) :
    Yields g.orderedIds env (.error (.ofUnresolved g.blocked)) := by
  have some : ¬ g.blocked.isEmpty = true := by
    simpa using mt g.blocked_eq_nil.mp (not_not.mpr cyclic)
  unfold orderedIds
  rw [arrangement_eq keyed]
  refine (Run.yields_ofFault _).bind ?_
  rw [unresolved_eq,if_neg some]
  exact (Run.yields_log _ _ _).bind (Run.yields_throw _)

private theorem ofUnresolved_texts {ids : List Value} (texts : ∀ id ∈ ids, id.isText = true) :
    Failure.ofUnresolved ids = .circularDependency ids := by
  have all (position : Nat) (vs : List Value) (texts : ∀ v ∈ vs, v.isText = true) :
      Failure.firstNonText? position vs = none := by
    induction vs generalizing position with
    | nil => rfl
    | cons v rest ih =>
      rw [Failure.firstNonText?,if_pos (texts v (by simp))]
      exact ih _ fun w later => texts w (List.mem_cons_of_mem _ later)
  rw [Failure.ofUnresolved,all 0 _ fun v member => texts v (List.mem_of_mem_take member)]

theorem ofUnresolved_blocked {g : Graph} (textual : g.Textual) :
    Failure.ofUnresolved g.blocked = .circularDependency g.blocked := by
  apply ofUnresolved_texts
  intro id member
  have listed := (distinct_sublist _).subset (List.mem_filter.mp member).1
  obtain ⟨op,inside,rfl⟩ := List.mem_map.mp listed
  exact textual.ids op inside

/-! ### The operations in order -/

/-- The operations that the ordered identifiers name. -/
def sorted (g : Graph) : List Operation := g.sortedIds.filterMap g.index.get?

theorem topologicalSort_of_acyclic {g : Graph} (keyed : g.Keyed) (acyclic : ¬ g.Cyclic) (env : Environment) :
    Yields g.topologicalSort env (.ok g.sorted) :=
  (orderedIds_of_acyclic keyed acyclic env).bind (Run.yields_pure _)

theorem topologicalSort_of_cyclic {g : Graph} (textual : g.Textual) (cyclic : g.Cyclic) (env : Environment) :
    Yields g.topologicalSort env (.error (.circularDependency g.blocked)) :=
  ofUnresolved_blocked textual ▸ (orderedIds_of_cyclic textual.keyed cyclic env).fails

/-- Whatever the dependencies name, sorting returns nothing but the operations in order, and that only
    without a cycle. -/
theorem topologicalSort_of_ok {g : Graph} {env : Environment} {s t : Session} {ops : List Operation}
    (returned : g.topologicalSort.start env s = (.ok ops,t)) : ¬ g.Cyclic ∧ ops = g.sorted := by
  simp only [topologicalSort,orderedIds,Run.start_bind,Run.start_ofFault] at returned
  cases arranged : g.arrangement with
  | error fault => simp [arranged,Except.mapError] at returned
  | ok outcome =>
    obtain rfl := arrangement_of_ok arranged
    simp only [arranged,Except.mapError,unresolved_eq] at returned
    by_cases none : g.blocked = []
    · simp only [none,List.isEmpty_nil,if_true,Run.start_bind,Run.start_log,Run.start_pure,Prod.mk.injEq,
        Except.ok.injEq] at returned
      exact ⟨g.blocked_eq_nil.mp none,returned.1.symm⟩
    · have some : g.blocked.isEmpty = false := by simpa using none
      simp [some,Run.start_bind] at returned

theorem validateAcyclic_of_acyclic {g : Graph} (keyed : g.Keyed) (acyclic : ¬ g.Cyclic) (env : Environment) :
    Yields g.validateAcyclic env (.ok none) :=
  ((orderedIds_of_acyclic keyed acyclic env).bind (Run.yields_pure none)).uncaught

theorem validateAcyclic_of_cyclic {g : Graph} (textual : g.Textual) (cyclic : g.Cyclic) (env : Environment) :
    Yields g.validateAcyclic env (.ok (some (.circularDependency g.blocked))) := by
  have failing := orderedIds_of_cyclic textual.keyed cyclic env
  rw [ofUnresolved_blocked textual] at failing
  exact failing.fails.caught (Run.yields_pure _)

theorem find?_congr (g : Graph) {a b : Value} (equal : (a == b) = true) :
    g.operations.find? (·.id == a) = g.operations.find? (·.id == b) := by
  rw [← get?_index,← get?_index,Table.get?_congr _ equal]

/-- A known identifier names an operation, which it finds again by its own identifier. -/
theorem Known.find {g : Graph} {id : Value} (known : g.Known id) :
    ∃ op, g.operations.find? (·.id == id) = some op ∧ (op.id == id) = true ∧
      g.operations.find? (·.id == op.id) = some op := by
  obtain ⟨other,member,same⟩ := known
  have some : (g.operations.find? (·.id == id)).isSome = true := by
    rw [List.find?_isSome]
    exact ⟨other,member,same⟩
  obtain ⟨op,found⟩ := Option.isSome_iff_exists.mp some
  have named : (op.id == id) = true := by simpa using List.find?_some found
  exact ⟨op,found,named,(g.find?_congr named).trans found⟩

private theorem resolve_known {g : Graph} (ids : List Value) (known : ∀ id ∈ ids, g.Known id) :
    (ids.filterMap g.index.get?).map (fun op => op.id.sense) = ids.map sense ∧
      ∀ op ∈ ids.filterMap g.index.get?, g.operations.find? (·.id == op.id) = some op := by
  induction ids with
  | nil => simp
  | cons id rest ih =>
    obtain ⟨op,found,named,again⟩ := (known id (by simp)).find
    obtain ⟨senses,finds⟩ := ih fun v later => known v (List.mem_cons_of_mem _ later)
    rw [List.filterMap_cons_some ((g.get?_index id).trans found)]
    refine ⟨?_,?_⟩
    · rw [List.map_cons,List.map_cons,senses,sense_eq_iff.mpr named]
    · rintro other (_ | ⟨_,later⟩)
      · exact again
      · exact finds other later

private theorem sortedIds_known (g : Graph) : ∀ id ∈ g.sortedIds, g.Known id := by
  intro id member
  exact (g.mem_vertices id).mp
    (g.sortedIds_finished.mem_vertices (fun e edge => (g.edges_known e edge).2) (List.mem_map_of_mem member))

theorem sorted_senses (g : Graph) : g.sorted.map (fun op => op.id.sense) = g.sortedIds.map sense :=
  (resolve_known g.sortedIds g.sortedIds_known).1

theorem find_sorted (g : Graph) {op : Operation} (member : op ∈ g.sorted) :
    g.operations.find? (·.id == op.id) = some op :=
  (resolve_known g.sortedIds g.sortedIds_known).2 op member

theorem sorted_subset (g : Graph) : g.sorted ⊆ g.operations :=
  fun _ member => List.mem_of_find?_eq_some (g.find_sorted member)

theorem sorted_nodup (g : Graph) : (g.sorted.map fun op => op.id.sense).Nodup :=
  g.sorted_senses ▸ g.sortedIds_finished.distinct

/-- Without a cycle every known identifier finds the operation that it names in the order. -/
theorem mem_sorted {g : Graph} (acyclic : ¬ g.Cyclic) {id : Value} {op : Operation}
    (found : g.operations.find? (·.id == id) = some op) : op ∈ g.sorted := by
  have named : (op.id == id) = true := by simpa using List.find?_some found
  have known : g.Known id := ⟨op,List.mem_of_find?_eq_some found,named⟩
  have clear : ¬ BelowCycle g.Leads id := fun below => acyclic (g.cyclic_iff.mpr ⟨id,below⟩)
  have ordered := (g.mem_sortedIds known).mpr clear
  rw [← sorted_senses] at ordered
  obtain ⟨other,member,same⟩ := List.mem_map.mp ordered
  have again := g.find_sorted member
  rw [g.find?_congr (sense_eq_iff.mp same),found] at again
  exact Option.some.inj again ▸ member

theorem sorted_before {g : Graph} {a b : Operation} (left : a ∈ g.sorted) (right : b ∈ g.sorted)
    (leads : g.Leads a.id b.id) : [a,b].Sublist g.sorted := by
  have inside : b.id.sense ∈ g.sortedIds.map sense := g.sorted_senses ▸ List.mem_map_of_mem right
  have before := g.sortedIds_finished.forward _ _ ((g.mem_edges _ _).mpr leads) inside
  rw [← sorted_senses] at before
  obtain ⟨u,v,sublist,first,second⟩ := pair_sublist_map before
  have one := List.inj_on_of_nodup_map g.sorted_nodup
  obtain rfl := one (sublist.subset (by simp)) left first
  obtain rfl := one (sublist.subset (by simp)) right second
  exact sublist

/-- Without a cycle, and with a different identifier for every operation, the order is of all operations. -/
theorem sorted_perm_operations {g : Graph} (acyclic : ¬ g.Cyclic)
    (different : g.operations.Pairwise fun a b => (a.id == b.id) = false) : g.sorted.Perm g.operations := by
  have once := ids_once different
  refine (List.perm_ext_iff_of_nodup (.of_map _ g.sorted_nodup) (.of_map _ once)).mpr fun op => ?_
  constructor
  · exact fun member => g.sorted_subset member
  · intro member
    obtain ⟨first,found,named,_⟩ := Known.find (g := g) ⟨op,member,BEq.rfl⟩
    have same := List.inj_on_of_nodup_map once (List.mem_of_find?_eq_some found) member (sense_eq_iff.mpr named)
    exact same ▸ mem_sorted acyclic found

/-- Without a cycle the order is complete, and every live dependency points forward. -/
theorem sorted_schedule {g : Graph} (keyed : g.Keyed) (acyclic : ¬ g.Cyclic) : g.Schedule g.sorted := by
  refine ⟨?_,?_,?_⟩
  · exact fun op member => g.sorted_subset member
  · intro op member
    obtain ⟨first,found,named,_⟩ := Known.find (g := g) ⟨op,member,BEq.rfl⟩
    refine ⟨first,(g.find?_eq (keyed.ids op member)).trans (congrArg _ found),found,?_⟩
    have alone := filter_unique g.sorted_nodup (mem_sorted acyclic found)
    rw [sense_eq_iff.mpr named] at alone
    rw [← alone]
    apply List.filter_congr
    intro other _
    rw [Bool.eq_iff_iff,decide_eq_true_iff,sense_eq_iff]
  · intro d member live
    obtain ⟨a,foundA,namedA,_⟩ := live.1.find
    obtain ⟨b,foundB,namedB,_⟩ := live.2.find
    obtain ⟨first,second⟩ := keyed.ends d member
    refine ⟨a,b,(g.find?_eq first).trans (congrArg _ foundA),(g.find?_eq second).trans (congrArg _ foundB),?_⟩
    exact sorted_before (mem_sorted acyclic foundA) (mem_sorted acyclic foundB)
      ⟨d,member,live,BEq.symm namedA,BEq.symm namedB⟩

/-! ### What sorting reports -/

/-- Sorting returns exactly on graphs without a cycle of live dependencies and reports a cycle
    otherwise. What it returns holds the first operation of each identifier once, every prerequisite
    before its dependents, whatever identifiers repeat and whatever dependencies dangle. -/
theorem topologicalSort_total_correct (g : Graph) (textual : g.Textual) (env : Environment) (s : Session) :
    ((∃ ops t, g.topologicalSort.start env s = (.ok ops,t)) ↔ ¬ g.Cyclic) ∧
    (g.Cyclic → ∃ ids t, g.topologicalSort.start env s = (.error (.circularDependency ids),t)) ∧
    ∀ ops t, g.topologicalSort.start env s = (.ok ops,t) → g.Schedule ops := by
  by_cases cyclic : g.Cyclic
  · obtain ⟨u,failed⟩ := topologicalSort_of_cyclic textual cyclic env s
    refine ⟨?_,fun _ => ⟨_,u,failed⟩,?_⟩
    · simp [failed,cyclic]
    · simp [failed]
  · obtain ⟨u,executed⟩ := topologicalSort_of_acyclic textual.keyed cyclic env s
    refine ⟨?_,fun absurdly => absurd absurdly cyclic,?_⟩
    · simp [executed,cyclic]
    · intro ops t result
      rw [executed] at result
      cases result
      exact sorted_schedule textual.keyed cyclic

/-- An operation of a free type, and a dependency between two identifiers, with nothing else to them. -/
def bareOperation (id : String) : Operation := ⟨.text id,.other (.text "step"),.empty,.empty,.empty⟩
def bareDependency (a b : String) : Dependency := ⟨.text a,.text b,.known .sequential,.empty⟩

/-- A repeated identifier, parallel edges and a dangling one do not keep a graph from being sorted. -/
def braid : Graph :=
  assemble
    [bareOperation "a",bareOperation "b",{ bareOperation "a" with type := .known .commandRun },bareOperation "c"]
    [bareDependency "c" "a",bareDependency "a" "b",bareDependency "c" "a",bareDependency "b" "ghost"] .empty

theorem braid_textual : braid.Textual := by
  constructor
  · decide
  · decide

theorem topologicalSort_braid : braid.Textual ∧ ∃ ops t, braid.topologicalSort.start .empty {} = (.ok ops,t) ∧
    braid.Schedule ops :=
  ⟨braid_textual,_,_,rfl,(topologicalSort_total_correct braid braid_textual .empty {}).2.2 _ _ rfl⟩

/-- A reported cycle lists exactly the identifiers on cycles of live dependencies and downstream of
    them, each once, in the order of their first occurrences; validation reports the same list. -/
theorem unresolved_total_correct (g : Graph) (textual : g.Textual) (env : Environment) (s : Session)
    (ids : List Value) :
    ((∃ t, g.topologicalSort.start env s = (.error (.circularDependency ids),t)) ↔ g.Cyclic ∧ ids = g.blocked) ∧
    ((∃ t, g.validateAcyclic.start env s = (.ok (some (.circularDependency ids)),t)) ↔
      g.Cyclic ∧ ids = g.blocked) := by
  by_cases cyclic : g.Cyclic
  · obtain ⟨t,sorting⟩ := topologicalSort_of_cyclic textual cyclic env s
    obtain ⟨u,validating⟩ := validateAcyclic_of_cyclic textual cyclic env s
    simp [sorting,validating,cyclic,eq_comm]
  · obtain ⟨t,sorting⟩ := topologicalSort_of_acyclic textual.keyed cyclic env s
    obtain ⟨u,validating⟩ := validateAcyclic_of_acyclic textual.keyed cyclic env s
    simp [sorting,validating,cyclic]

/-- Two cycles that share an identifier, one of them a loop, with something before and after them. -/
def tangle : Graph :=
  assemble
    [bareOperation "after",bareOperation "start",bareOperation "a",bareOperation "b",bareOperation "a"]
    [bareDependency "start" "a",bareDependency "a" "b",bareDependency "b" "a",bareDependency "a" "b",
      bareDependency "b" "b",bareDependency "b" "after",bareDependency "ghost" "start"] .empty

theorem tangle_textual : tangle.Textual := by
  constructor
  · decide
  · decide

theorem unresolved_tangle : tangle.Textual ∧ tangle.Cyclic ∧
    [Value.text "after",.text "a",.text "b"] = tangle.blocked :=
  ⟨tangle_textual,(unresolved_total_correct tangle tangle_textual .empty {} _).1.mp ⟨_,rfl⟩⟩

end InfraGraph.Graph
