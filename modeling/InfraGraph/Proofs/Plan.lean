import InfraGraph.Plan
import InfraGraph.Proofs.Graph.Partition
import InfraGraph.Proofs.Graph.Validation

/-!
What planning returns. A graph that validation finds at fault is not planned, and its fault is what
planning fails with. The plan of any other graph holds the groups of its operations in order, and no
dependency is lost: it points forward within a group or is dropped with those that cross.
-/
namespace InfraGraph.Plan
open InfraGraph.Graph (Keyed Textual Typed Cyclic grouped groupGraph groupGraphs groupGraph_within lyingIn groupKey_eq)
open Run (Yields)
variable {g : Graph} {env : Environment} {key : KeyFunction} {pk : Operation → Value}

/-- A plan carries a graph out by the keys of its operations. -/
structure Executes (p : Plan) (g : Graph) (pk : Operation → Value) : Prop where
  keys : p.steps.keys = distinct (g.operations.map pk)
  within : ∀ e ∈ p.steps.entries, ∀ op ∈ e.2, op ∈ g.operations ∧ (pk op == e.1) = true
  once : ∀ e ∈ p.steps.entries, ∀ op ∈ g.operations, (pk op == e.1) = true →
    ∃ first, (g.operations.filter fun other => pk other == e.1).find? (·.id == op.id) = some first ∧
      e.2.filter (·.id == op.id) = [first]
  placed : ∀ d ∈ g.dependencies, d ∈ p.dropped ∨ ∃ e ∈ p.steps.entries, ∃ a b,
    (a.id == d.prerequisite) = true ∧ (b.id == d.dependent) = true ∧ [a,b].Sublist e.2
  all : (g.operations.Pairwise fun a b => (a.id == b.id) = false) →
    p.steps.values.flatten.Perm g.operations ∧ p.operationCount = g.operations.length

/-! ### Sorting the groups -/

theorem sortAll_yields {graphs : List (Value × Graph)} (each : ∀ e ∈ graphs, e.2.Keyed ∧ ¬ e.2.Cyclic)
    (env : Environment) : Yields (sortAll graphs) env (.ok (graphs.map fun e => (e.1,e.2.sorted))) := by
  induction graphs with
  | nil => exact Run.yields_pure _
  | cons e rest ih =>
    obtain ⟨keyed,acyclic⟩ := each e (by simp)
    have others := ih fun other later => each other (List.mem_cons_of_mem _ later)
    exact (Graph.topologicalSort_of_acyclic keyed acyclic env).bind (others.bind (Run.yields_pure _))

/-- The plan of the groups of a graph. -/
def ofGroups (g : Graph) (pk : Operation → Value) : Plan :=
  ⟨⟨(g.groupGraphs pk).map fun e => (e.1,e.2.sorted)⟩,g.lyingIn pk .crossing⟩

private theorem mem_groupGraphs {e : Value × Graph} (entry : e ∈ g.groupGraphs pk) :
    ∃ i group, group ∈ grouped pk g.operations ∧ e = (group.1,g.groupGraph pk i group) := by
  obtain ⟨i,bound,rfl⟩ := List.mem_mapIdx.mp entry
  exact ⟨i,_,List.getElem_mem _,rfl⟩

private theorem entry_exists {e : Value × List Operation} (entry : e ∈ (ofGroups g pk).steps.entries) :
    ∃ i group, group ∈ grouped pk g.operations ∧ e = (group.1,(g.groupGraph pk i group).sorted) := by
  obtain ⟨sub,inside,rfl⟩ := List.mem_map.mp entry
  obtain ⟨i,group,member,rfl⟩ := mem_groupGraphs inside
  exact ⟨i,group,member,rfl⟩

private theorem entry_of_group {i : Nat} {group : Value × List Operation}
    (place : (grouped pk g.operations)[i]? = some group) :
    (group.1,(g.groupGraph pk i group).sorted) ∈ (ofGroups g pk).steps.entries := by
  refine List.mem_map.mpr ⟨(group.1,g.groupGraph pk i group),?_,rfl⟩
  apply List.mem_iff_getElem?.mpr
  exact ⟨i,by rw [Graph.groupGraphs,List.getElem?_mapIdx,place]; rfl⟩

private theorem partitioned_yields (keyed : g.Keyed) (acyclic : ¬ g.Cyclic)
    (returns : ∀ op ∈ g.operations, key.groupKey op = .ok (pk op)) (env : Environment) :
    Yields (partitioned g key) env (.ok (ofGroups g pk)) := by
  have each : ∀ e ∈ g.groupGraphs pk, e.2.Keyed ∧ ¬ e.2.Cyclic := by
    intro e entry
    obtain ⟨i,group,member,rfl⟩ := mem_groupGraphs entry
    have part := groupGraph_within member i
    exact ⟨part.keyed keyed,part.acyclic acyclic⟩
  unfold partitioned
  rw [Graph.crossEdges_eq keyed returns]
  exact (Run.yields_ofExcept _).bind ((Graph.partitionBy_yields keyed returns none env).bind
    ((sortAll_yields each env).bind (Yields.bind (Run.yields_log _ _ _) (Run.yields_pure _))))

theorem make_yields (keyed : g.Keyed) (acyclic : ¬ g.Cyclic) (validates : Yields g.validate env (.ok none))
    (returns : ∀ op ∈ g.operations, key.groupKey op = .ok (pk op)) :
    Yields (make g (some key)) env (.ok (ofGroups g pk)) :=
  Yields.step ((Graph.ensureValid_yields validates).bind (partitioned_yields keyed acyclic returns env)) _ _ _

theorem make_fails {e : Failure} (validates : Yields g.validate env (.ok (some e))) (key : Option KeyFunction) :
    Yields (make g key) env (.error e) :=
  Yields.step (Graph.ensureValid_yields validates).fails _ _ _

/-! ### What the plan holds -/

theorem steps_keys : (ofGroups g pk).steps.keys = distinct (g.operations.map pk) := by
  rw [← Graph.grouped_keys]
  apply List.ext_getElem?
  intro i
  simp [ofGroups,Table.keys,Graph.groupGraphs,Function.comp_def]

private theorem steps_flatten (pk : Operation → Value) (acyclic : ¬ g.Cyclic)
    (different : g.operations.Pairwise fun a b => (a.id == b.id) = false) :
    (ofGroups g pk).steps.values.flatten.Perm g.operations := by
  refine .trans (List.Perm.flatten_congr ?_) (Graph.flatten_grouped pk g.operations)
  -- Group by group the plan holds what the group does.
  refine List.forall₂_iff_get.mpr ⟨by simp [ofGroups,Table.values,Graph.groupGraphs],?_⟩
  intro i _ bound
  rw [List.length_map] at bound
  have inside := List.getElem_mem bound
  simp only [ofGroups,Table.values,Graph.groupGraphs,List.map_map,List.get_eq_getElem,List.getElem_map,
    List.getElem_mapIdx,Function.comp_apply]
  exact Graph.sorted_perm_operations ((groupGraph_within inside i).acyclic acyclic)
    (different.sublist (Graph.group_sublist inside))

private theorem group_schedule (keyed : g.Keyed) (acyclic : ¬ g.Cyclic) {group : Value × List Operation}
    (inside : group ∈ grouped pk g.operations) (i : Nat) :
    (g.groupGraph pk i group).Schedule (g.groupGraph pk i group).sorted :=
  have part := groupGraph_within inside i
  Graph.sorted_schedule (part.keyed keyed) (part.acyclic acyclic)

theorem ofGroups_executes (keyed : g.Keyed) (acyclic : ¬ g.Cyclic) (live : ∀ d ∈ g.dependencies, g.Live d) :
    Executes (ofGroups g pk) g pk := by
  refine ⟨steps_keys,?_,?_,?_,?_⟩
  · intro e entry op member
    obtain ⟨i,group,inside,rfl⟩ := entry_exists entry
    have grouped : op ∈ group.2 := (group_schedule keyed acyclic inside i).within op member
    rw [Graph.group_eq inside] at grouped
    exact List.mem_filter.mp grouped
  · intro e entry op member same
    obtain ⟨i,group,inside,rfl⟩ := entry_exists entry
    have grouped : op ∈ group.2 := by
      rw [Graph.group_eq inside]
      exact List.mem_filter.mpr ⟨member,same⟩
    obtain ⟨first,_,found,alone⟩ := (group_schedule keyed acyclic inside i).once op grouped
    refine ⟨first,?_,alone⟩
    rw [← Graph.group_eq inside]
    exact found
  · intro d member
    rcases Graph.dependency_placed pk member (live d member) with crossing | ⟨i,group,place,inside,within⟩
    · exact .inl crossing
    · obtain ⟨a,b,first,second,before⟩ :=
        (group_schedule keyed acyclic (List.mem_of_getElem? place) i).forward d inside within
      have named {id : Value} {op : Operation} (hashable : id.isHashable = true)
          (found : (g.groupGraph pk i group).find? id = .ok (some op)) : (op.id == id) = true := by
        rw [Graph.find?_eq _ hashable] at found
        simpa using List.find?_some (Except.ok.inj found)
      obtain ⟨left,right⟩ := keyed.ends d member
      exact .inr ⟨_,entry_of_group place,a,b,named left first,named right second,before⟩
  · intro different
    have perm := steps_flatten pk acyclic different
    exact ⟨perm,perm.length_eq⟩

/-- Planning fails with exactly what validation finds. Otherwise, if all keys can be made fit for a table,
    planning returns: no group has a cycle, the plan drops the crossing dependencies and nothing else, and
    it carries the graph out by its keys. -/
theorem make_total_correct (g : Graph) (textual : g.Textual) (typed : g.Typed) (key : KeyFunction)
    (value : Operation → Value) (returns : ∀ op ∈ g.operations, key op = .ok (value op)) (env : Environment) :
    ∃ problem, Yields g.validate env (.ok problem) ∧
      (∀ e, problem = some e → Yields (make g (some key)) env (.error e)) ∧
      (problem = none → ∀ pk, (∀ op ∈ g.operations, (value op).partitionKey? = some (pk op)) →
        ∃ p, Yields (make g (some key)) env (.ok p) ∧ g.crossEdges key = .ok p.dropped ∧ p.Executes g pk) := by
  obtain ⟨problem,validates,sound⟩ := Graph.validate_yields textual typed env
  refine ⟨problem,validates,?_,?_⟩
  · rintro e rfl
    exact make_fails validates (some key)
  · rintro rfl pk forms
    obtain ⟨live,acyclic⟩ := sound rfl
    have keys : ∀ op ∈ g.operations, key.groupKey op = .ok (pk op) :=
      fun op member => groupKey_eq (returns op member) (forms op member)
    exact ⟨ofGroups g pk,make_yields textual.keyed acyclic validates keys,Graph.crossEdges_eq textual.keyed keys,
      ofGroups_executes textual.keyed acyclic live⟩

/-- An operation on a host. -/
def hostOperation (id host : String) : Operation :=
  { Graph.bareOperation id with target := Mapping.single "host" (.text host) }

/-- The host of an operation. -/
def hostOf (op : Operation) : Value := (op.target.get? (.text "host")).getD .null

/-- Two hosts that take turns, with a dependency within one of them and one between them. -/
def relay : Graph :=
  Graph.assemble [hostOperation "c" "web",hostOperation "b" "db",hostOperation "a" "web"]
    [Graph.bareDependency "a" "c",Graph.bareDependency "a" "b"] .empty

theorem relay_textual : relay.Textual := by
  constructor
  · decide
  · decide

theorem relay_typed : relay.Typed := by
  unfold Graph.Typed
  decide

theorem make_relay : relay.Textual ∧ relay.Typed ∧
    ∃ p, Yields (make relay (some (.target (.text "host")))) .empty (.ok p) ∧
      relay.crossEdges (.target (.text "host")) = .ok p.dropped ∧ p.Executes relay hostOf := by
  refine ⟨relay_textual,relay_typed,?_⟩
  have forms : ∀ op ∈ relay.operations, (hostOf op).partitionKey? = some (hostOf op) := by
    rintro op (_ | ⟨_,_ | ⟨_,_ | ⟨_,⟨⟩⟩⟩⟩)
    · rfl
    · rfl
    · rfl
  obtain ⟨problem,validates,_,planned⟩ :=
    make_total_correct relay relay_textual relay_typed (.target (.text "host")) hostOf (fun _ _ => rfl) .empty
  obtain rfl : none = problem := Except.ok.inj (validates.result (s := {}) rfl)
  exact planned rfl hostOf forms

end InfraGraph.Plan
