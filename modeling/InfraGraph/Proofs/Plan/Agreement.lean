import InfraGraph.Proofs.Graph.Component
import InfraGraph.Proofs.Graph.Division
import InfraGraph.Proofs.Plan

/-!
Groups and the order of the whole graph. Where identifiers differ and no dependency crosses between groups, the
order of a group is what the order of the whole graph leaves of it, and a plan by groups agrees with that order.
-/
namespace InfraGraph
namespace Graph
open Value (sense_eq_iff)
variable {g : Graph} {pk : Operation → Value}

section Unshared
variable (different : g.operations.Pairwise fun a b => (a.id == b.id) = false)
  {i : Nat} {e : Value × List Operation} (place : (grouped pk g.operations)[i]? = some e)
include different place

omit different in
private theorem group_operations : (g.groupGraph pk i e).operations = g.operations.filter fun op => pk op == e.1 :=
  group_eq (List.mem_of_getElem? place)

/-- A group knows the identifier of an operation exactly if the operation has the key of the group. -/
theorem known_group {op : Operation} (member : op ∈ g.operations) :
    (g.groupGraph pk i e).Known op.id ↔ (pk op == e.1) = true := by
  constructor
  · rintro ⟨other,inside,same⟩
    rw [group_operations place] at inside
    obtain ⟨also,key⟩ := List.mem_filter.mp inside
    have one := List.inj_on_of_nodup_map (ids_once different) also member (sense_eq_iff.mpr same)
    exact one ▸ key
  · intro key
    exact ⟨op,group_operations place ▸ List.mem_filter.mpr ⟨member,key⟩,BEq.rfl⟩

variable (closed : g.lyingIn pk .crossing = [])
include closed

/-- A dependency lies inside a group exactly if the group knows one of its ends, and then the other. -/
private theorem inside_iff {d : Dependency} (member : d ∈ g.dependencies) (live : g.Live d) :
    (placement ((grouped pk g.operations).map (·.2)) d = .inside i ↔ (g.groupGraph pk i e).Known d.prerequisite) ∧
    (placement ((grouped pk g.operations).map (·.2)) d = .inside i ↔ (g.groupGraph pk i e).Known d.dependent) := by
  obtain ⟨⟨a,first,left⟩,b,second,right⟩ := live
  have placed := placement_eq (regrouped_unshared pk different first left) (regrouped_unshared pk different second right)
  have same : (pk a == pk b) = true := by
    by_contra other
    rw [if_neg other] at placed
    have crosses : d ∈ g.lyingIn pk .crossing := List.mem_filter.mpr ⟨member,beq_of_eq placed⟩
    rw [closed] at crosses
    cases crosses
  rw [if_pos same] at placed
  rw [placed,Placement.inside.injEq,← known_congr left,← known_congr right,
    known_group different place first,known_group different place second,groupOf_at place first]
  exact ⟨Iff.rfl,by rw [BEq.congr_left same]⟩

variable (live : ∀ d ∈ g.dependencies, g.Live d)
include live

private theorem group_component : (g.groupGraph pk i e).Component g where
  operations := by
    have apart : (g.groupGraph pk i e).operations.Pairwise fun a b => (a.id == b.id) = false :=
      different.sublist (group_sublist (List.mem_of_getElem? place))
    rw [firsts_eq_self (r := sharesId) apart,firsts_eq_self (r := sharesId) different]
    conv_lhs => rw [group_operations place]
    apply List.filter_congr
    intro op member
    rw [Bool.eq_iff_iff,decide_eq_true_iff]
    exact (known_group different place member).symm
  dependencies := by
    apply List.filter_congr
    intro d member
    obtain ⟨first,second⟩ := inside_iff different place closed member (live d member)
    rw [Bool.eq_iff_iff,beq_iff_eq,decide_eq_true_iff,Live,← first,← second,and_self_iff]
  closed d member ends := by
    obtain ⟨first,second⟩ := inside_iff different place closed member ends
    exact first.symm.trans second

/-- The order of a group is what the order of the whole graph leaves of it. -/
theorem sorted_group (acyclic : ¬ g.Cyclic) :
    (g.groupGraph pk i e).sorted = g.sorted.filter fun op => pk op == e.1 := by
  rw [(group_component different place closed live).sorted acyclic]
  apply List.filter_congr
  intro op member
  rw [Bool.eq_iff_iff,decide_eq_true_iff]
  exact known_group different place (g.sorted_subset member)

end Unshared
end Graph

namespace Plan
open InfraGraph.Graph (grouped lyingIn sorted_group crossEdges_eq sound_of_validate topologicalSort_of_acyclic typedOperation kindOf)
open Run (Yields)
variable {g : Graph} {pk : Operation → Value}

/-- The plan by groups holds under each key what the order of the whole graph leaves of the key. -/
private theorem steps_agree (different : g.operations.Pairwise fun a b => (a.id == b.id) = false)
    (closed : g.lyingIn pk .crossing = []) (live : ∀ d ∈ g.dependencies, g.Live d) (acyclic : ¬ g.Cyclic) :
    (ofGroups g pk).steps =
      Table.tabulate (distinct (g.operations.map pk)) fun k => g.sorted.filter fun op => pk op == k := by
  rw [ofGroups,Table.tabulate,← Graph.grouped_keys,Graph.groupGraphs,List.map_map,Table.mk.injEq]
  apply List.ext_getElem?
  intro i
  rw [List.getElem?_map,List.getElem?_map,List.getElem?_mapIdx,Option.map_map]
  cases place : (grouped pk g.operations)[i]? with
  | none => rfl
  | some e =>
    have order := sorted_group different place closed live acyclic
    simp only [Option.map_some,Function.comp_apply,order]

/-- If no dependency crosses between groups, a plan agrees with the order of the whole graph: whatever stands between
    the operations of a group in that order does not disturb them. -/
theorem make_agrees (g : Graph) (ids : ∀ op ∈ g.operations, op.id.isHashable = true)
    (different : g.operations.Pairwise fun a b => (a.id == b.id) = false) (env : Environment) (s t : Session)
    (valid : g.validate.start env s = (.ok none,t)) (key : KeyFunction) (pk : Operation → Value) (keys : g.KeyedBy key pk)
    (apart : g.crossEdges key = .ok []) :
    ∃ ops p, Yields g.topologicalSort env (.ok ops) ∧ Yields (make g (some key)) env (.ok p) ∧
      p.steps.keys = distinct (g.operations.map pk) ∧
      ∀ op ∈ g.operations, ∀ k, (pk op == k) = true →
        p.steps.get? k = some (ops.filter fun other => pk other == k) := by
  obtain ⟨keyed,live,acyclic,validates⟩ := sound_of_validate ids valid
  have returns := keys.groupKeys
  have closed : g.lyingIn pk .crossing = [] := by
    rw [crossEdges_eq keyed returns] at apart
    exact Except.ok.inj apart
  have steps := steps_agree different closed live acyclic
  refine ⟨_,_,topologicalSort_of_acyclic keyed acyclic env,make_yields keyed acyclic validates returns,steps_keys,?_⟩
  intro op member k same
  rw [steps]
  refine Table.get?_tabulate_same ?_ ?_
  · rw [any_distinct]
    exact List.any_eq_true.mpr ⟨_,List.mem_map_of_mem member,same⟩
  · intro other equal
    apply List.filter_congr
    exact fun op _ => BEq.congr_right equal

/-- Two kinds that take turns in the order of the whole graph, with dependencies within each of them. -/
def plait : Graph :=
  Graph.assemble
    [typedOperation "a" "web",typedOperation "b" "db",typedOperation "c" "web",typedOperation "d" "db",
      typedOperation "e" "web"]
    [Graph.bareDependency "e" "a",Graph.bareDependency "d" "b",Graph.bareDependency "e" "c",Graph.bareDependency "a" "c"]
    .empty

theorem make_plait : plait.validate.start .empty {} = (.ok none,(plait.validate.start .empty {}).2) ∧
    ∃ ops p, Yields plait.topologicalSort .empty (.ok ops) ∧ Yields (make plait (some .typeName)) .empty (.ok p) ∧
      ops.map (·.id) = [.text "d",.text "e",.text "b",.text "a",.text "c"] ∧
      p.steps.get? (.text "web") = some (ops.filter fun op => kindOf op == .text "web") := by
  have valid : plait.validate.start .empty {} = (.ok none,(plait.validate.start .empty {}).2) := rfl
  obtain ⟨ops,p,sorted,planned,_,agrees⟩ := make_agrees plait (by decide) (by decide) .empty {} _ valid .typeName kindOf
    (fun _ _ => ⟨_,rfl,rfl⟩) rfl
  have is : Except.ok plait.sorted = .ok ops := sorted.result (s := {}) rfl
  obtain rfl := Except.ok.inj is
  have web : typedOperation "a" "web" ∈ plait.operations := List.mem_cons_self
  exact ⟨valid,_,p,sorted,planned,rfl,agrees _ web (.text "web") (by decide)⟩

end Plan
end InfraGraph
