import InfraGraph.Proofs.Graph.Diagnosis
import InfraGraph.Proofs.Graph.Division
import InfraGraph.Proofs.Graph.Merge

/-!
What the parts of a graph keep of it. Merged again they are the graph, less the dependencies that cross and those that
dangle, with one part written after another. A part refers to nothing that it does not have, it has no cycle that the
graph does not have, and together the operations of the parts lack what those of the graph do.
-/
namespace InfraGraph.Graph
open Run (Yields)
variable {g : Graph} {pk : Operation → Value}

/-! ### Parts side by side -/

/-- The graphs of the groups, without their keys. -/
def parts (g : Graph) (pk : Operation → Value) : List Graph := (g.groupGraphs pk).map (·.2)

theorem part_at {h : Graph} (part : h ∈ g.parts pk) :
    ∃ i e, (grouped pk g.operations)[i]? = some e ∧ g.groupGraph pk i e = h := by
  obtain ⟨entry,listed,rfl⟩ := List.mem_map.mp part
  obtain ⟨i,place⟩ := List.mem_iff_getElem?.mp listed
  obtain ⟨e,at_i,rfl⟩ := groupGraphs_at.mp place
  exact ⟨i,e,at_i,rfl⟩

theorem part_within {h : Graph} (part : h ∈ g.parts pk) : h.Within g := by
  obtain ⟨i,e,at_i,rfl⟩ := part_at part
  exact groupGraph_within (List.mem_of_getElem? at_i) i

theorem part_sublist {h : Graph} (part : h ∈ g.parts pk) :
    h.operations.Sublist g.operations ∧ h.dependencies.Sublist g.dependencies := by
  obtain ⟨i,e,at_i,rfl⟩ := part_at part
  exact ⟨group_sublist (List.mem_of_getElem? at_i),List.filter_sublist⟩

theorem part_live {h : Graph} (part : h ∈ g.parts pk) : ∀ d ∈ h.dependencies, h.Live d := by
  obtain ⟨i,e,at_i,rfl⟩ := part_at part
  intro d inside
  obtain ⟨e',again,live⟩ := lyingIn_inside inside
  obtain rfl := Option.some.inj (at_i.symm.trans again)
  exact live

theorem parts_operations (g : Graph) (pk : Operation → Value) :
    (g.groupGraphs pk).map (fun e => e.2.operations) = (grouped pk g.operations).map (·.2) := by
  apply List.ext_getElem?
  intro i
  rw [List.getElem?_map,List.getElem?_map,groupGraphs,List.getElem?_mapIdx,Option.map_map]
  rfl

/-- The parts have the dependencies that lie inside their groups. -/
theorem parts_dependencies (g : Graph) (pk : Operation → Value) :
    (g.groupGraphs pk).map (fun e => e.2.dependencies) =
      (List.range (grouped pk g.operations).length).map fun i => g.lyingIn pk (.inside i) := by
  apply List.ext_getElem?
  intro i
  rw [List.getElem?_map,List.getElem?_map,groupGraphs,List.getElem?_mapIdx,Option.map_map]
  by_cases bound : i < (grouped pk g.operations).length
  · rw [List.getElem?_eq_getElem bound,List.getElem?_range bound]
    rfl
  · rw [List.getElem?_eq_none (by omega),List.getElem?_eq_none (by simpa using bound)]
    rfl

theorem parts_operations_perm (g : Graph) (pk : Operation → Value) :
    ((g.parts pk).flatMap (·.operations)).Perm g.operations := by
  rw [parts,List.flatMap_map,List.flatMap_def,parts_operations]
  exact flatten_grouped pk g.operations

/-- Every dependency lies inside a group, or it crosses, or it dangles. -/
theorem parts_dependencies_perm (g : Graph) (pk : Operation → Value) :
    ((g.parts pk).flatMap (·.dependencies) ++
      (g.lyingIn pk .crossing ++ g.dependencies.filter fun d => ¬ g.Live d)).Perm g.dependencies := by
  let places : List Placement := (List.range (grouped pk g.operations).length).map .inside ++ [.crossing,.dangling]
  have once : places.Nodup := by
    refine List.nodup_append.mpr ⟨List.nodup_range.map fun _ _ => Placement.inside.inj,by simp,?_⟩
    simp
  have covered : ∀ d ∈ g.dependencies, placement ((grouped pk g.operations).map (·.2)) d ∈ places := by
    intro d member
    cases place : placement ((grouped pk g.operations).map (·.2)) d with
    | dangling => simp [places]
    | crossing => simp [places]
    -- Whatever lies inside a group makes it one of the groups, so that its position is in range.
    | inside i =>
      obtain ⟨e,at_i,_⟩ := lyingIn_inside (List.mem_filter.mpr ⟨member,beq_of_eq place⟩)
      have bound := (List.getElem?_eq_some_iff.mp at_i).1
      simp [places,bound]
  have perm := flatMap_filter_perm (placement ((grouped pk g.operations).map (·.2))) once g.dependencies covered
  rw [parts,List.flatMap_map,List.flatMap_def,parts_dependencies,← lyingIn_dangling g pk]
  refine .trans (.of_eq ?_) perm
  simp [places,List.flatMap_def,lyingIn,Function.comp_def,beq_eq_decide]

/-! ### Parts merged again -/

theorem merged_within {graphs : List Graph} (each : ∀ h ∈ graphs, h.Within g) : (merged graphs).Within g := by
  constructor
  · intro op kept
    obtain ⟨h,listed,inside⟩ := mem_merged_operations kept
    exact (each h listed).operations inside
  · intro d kept
    obtain ⟨h,listed,inside⟩ := mem_merged_dependencies kept
    exact (each h listed).dependencies inside

/-- A graph has what another one has, except for the dependencies that cross between parts and for those that dangle.
    What one part has stands in both in the same order. -/
structure Reunites (h g : Graph) (parts : List Graph) (crossing : List Dependency) : Prop where
  operations : h.operations.Perm g.operations
  dependencies : (h.dependencies ++ (crossing ++ g.dependencies.filter fun d => ¬ g.Live d)).Perm g.dependencies
  operationOrder : ∀ part ∈ parts, ∀ a ∈ part.operations, ∀ b ∈ part.operations,
    [a,b].Sublist h.operations ↔ [a,b].Sublist g.operations
  dependencyOrder : ∀ part ∈ parts, ∀ a ∈ part.dependencies, ∀ b ∈ part.dependencies,
    [a,b].Sublist h.dependencies ↔ [a,b].Sublist g.dependencies
  acyclic : ¬ g.Cyclic → ¬ h.Cyclic

section Distinct
variable (different : g.operations.Pairwise fun a b => (a.id == b.id) = false)
  (once : g.dependencies.Pairwise fun a b => (a == b) = false)
include different once

/-- Where nothing repeats, merging the parts writes them one after another. -/
theorem merged_parts (pk : Operation → Value) :
    (merged (g.parts pk)).operations = (g.parts pk).flatMap (·.operations) ∧
      (merged (g.parts pk)).dependencies = (g.parts pk).flatMap (·.dependencies) := by
  constructor
  · refine (merged_operations _).trans (firsts_eq_self ?_)
    exact (parts_operations_perm g pk).symm.pairwise different fun apart => BEq.comm.trans apart
  · refine (merged_dependencies _).trans (firsts_eq_self ?_)
    have parted := (parts_dependencies_perm g pk).symm.pairwise once fun apart => BEq.comm.trans apart
    refine (List.pairwise_append.mp parted).1.imp fun {a b} apart => ?_
    by_contra again
    rw [(Dependency.repeats_iff.mp (by simpa using again)).2] at apart
    cases apart

theorem merged_parts_reunites (pk : Operation → Value) :
    (merged (g.parts pk)).Reunites g (g.parts pk) (g.lyingIn pk .crossing) := by
  obtain ⟨operations,dependencies⟩ := merged_parts different once pk
  have perm := parts_dependencies_perm g pk
  have operations_nodup : g.operations.Nodup := different.imp fun apart equal => by simp [equal] at apart
  have dependencies_nodup : g.dependencies.Nodup := once.imp fun apart equal => by simp [equal] at apart
  have grouped_nodup := (parts_operations_perm g pk).nodup_iff.mpr operations_nodup
  have placed_nodup := (List.nodup_append.mp (perm.nodup_iff.mpr dependencies_nodup)).1
  refine ⟨operations ▸ parts_operations_perm g pk,dependencies ▸ perm,?_,?_,?_⟩
  · intro part listed a left b right
    rw [operations]
    have written := List.sublist_flatten_of_mem (List.mem_map_of_mem (f := Graph.operations) listed)
    exact before_alike grouped_nodup operations_nodup written (part_sublist listed).1 left right
  · intro part listed a left b right
    rw [dependencies]
    have written := List.sublist_flatten_of_mem (List.mem_map_of_mem (f := Graph.dependencies) listed)
    exact before_alike placed_nodup dependencies_nodup written (part_sublist listed).2 left right
  · exact (merged_within fun h listed => part_within listed).acyclic

end Distinct

/-- Partitioning a graph without repetitions and merging the parts loses the dependencies that cross and those that
    dangle, and nothing else. -/
theorem merge_partitionBy (g : Graph) (ids : ∀ op ∈ g.operations, op.id.isHashable = true)
    (keyed : ∀ d ∈ g.dependencies, d.Keyed) (different : g.operations.Pairwise fun a b => (a.id == b.id) = false)
    (once : g.dependencies.Pairwise fun a b => (a == b) = false) (key : KeyFunction) (pk : Operation → Value)
    (keys : g.KeyedBy key pk) (settings : Option GraphSettings) (env : Environment) :
    ∃ parts crossing h, Yields (g.partitionBy key settings) env (.ok parts) ∧ g.crossEdges key = .ok crossing ∧
      Yields (merge parts.values) env (.ok h) ∧ h.Reunites g parts.values crossing := by
  have lookups : g.Keyed := ⟨ids,fun d member => (keyed d member).ends⟩
  refine ⟨_,_,_,partitionBy_yields lookups keys.groupKeys settings env,crossEdges_eq lookups keys.groupKeys,?_,
    merged_parts_reunites different once pk⟩
  exact merge_of_keyed (fun h listed d inside => keyed d ((part_within listed).dependencies inside)) env

/-- Two kinds that take turns, with dependencies inside both, one that crosses, and one that dangles. -/
def terrace : Graph :=
  assemble [typedOperation "a" "web",typedOperation "b" "db",typedOperation "c" "web",typedOperation "d" "db"]
    [bareDependency "a" "b",bareDependency "b" "d",bareDependency "ghost" "a",bareDependency "a" "c"] .empty

theorem merge_partitionBy_terrace : (∀ op ∈ terrace.operations, op.id.isHashable = true) ∧
    (∀ d ∈ terrace.dependencies, d.Keyed) ∧ (terrace.operations.Pairwise fun a b => (a.id == b.id) = false) ∧
    (terrace.dependencies.Pairwise fun a b => (a == b) = false) ∧ ∃ parts h,
      Yields (terrace.partitionBy .typeName none) .empty (.ok parts) ∧ Yields (merge parts.values) .empty (.ok h) ∧
      h.Reunites terrace parts.values [bareDependency "a" "b"] ∧
      h.dependencies = [bareDependency "a" "c",bareDependency "b" "d"] := by
  have ids : ∀ op ∈ terrace.operations, op.id.isHashable = true := by decide
  have keyed : ∀ d ∈ terrace.dependencies, d.Keyed := by decide
  have different : terrace.operations.Pairwise fun a b => (a.id == b.id) = false := by decide
  have once : terrace.dependencies.Pairwise fun a b => (a == b) = false := by decide
  obtain ⟨parts,crossing,h,parted,crossed,yields,reunites⟩ := merge_partitionBy terrace ids keyed different once .typeName
    kindOf (fun _ _ => ⟨_,rfl,rfl⟩) none .empty
  obtain rfl : [bareDependency "a" "b"] = crossing := Except.ok.inj crossed
  refine ⟨ids,keyed,different,once,parts,h,parted,yields,reunites,?_⟩
  have split : Except.ok ⟨terrace.groupGraphs kindOf⟩ = .ok parts := parted.result (s := {}) rfl
  obtain rfl := Except.ok.inj split
  have is : Except.ok (merged (terrace.parts kindOf)) = .ok h := yields.result (s := {}) rfl
  obtain rfl := Except.ok.inj is
  rfl

/-! ### What is wrong with parts -/

/-- The identifiers that a failure reports as unresolved. -/
def unresolvedIn : Option Failure → List Value
  | some (.circularDependency ids) => ids
  | _ => []

/-- The operations that a failure reports, each with what it lacks. -/
def lackingIn : Option Failure → List (Operation × MissingParameter)
  | some (.invalidOperations failures) => failures
  | _ => []

theorem unresolvedIn_cycleFailure (g : Graph) : unresolvedIn g.cycleFailure = g.blocked := by
  unfold cycleFailure
  by_cases cyclic : g.Cyclic
  · rw [if_pos cyclic]
    rfl
  · rw [if_neg cyclic,g.blocked_eq_nil.mpr cyclic]
    rfl

theorem lackingIn_operationFailure (g : Graph) : lackingIn g.operationFailure = shortcomings g.operations := by
  unfold operationFailure
  by_cases none : (shortcomings g.operations).isEmpty = true
  · rw [if_pos none,List.isEmpty_iff.mp none]
    rfl
  · rw [if_neg none]
    rfl

/-- A part refers to nothing that it does not have, and whatever is unresolved in it is unresolved in the graph. -/
structure Inherits (part g : Graph) (env : Environment) : Prop where
  references : Yields part.validateReferences env (.ok none)
  unresolved : ∃ inside whole, Yields part.validateAcyclic env (.ok inside) ∧ Yields g.validateAcyclic env (.ok whole) ∧
    ∀ u ∈ unresolvedIn inside, ∃ v ∈ unresolvedIn whole, (v == u) = true
  acyclic : ¬ g.Cyclic → ¬ part.Cyclic ∧ Yields part.validateAcyclic env (.ok none)

theorem part_inherits (textual : g.Textual) {part : Graph} (listed : part ∈ g.parts pk)
    (env : Environment) : part.Inherits g env := by
  have within := part_within listed
  refine ⟨?_,⟨_,_,validateAcyclic_yields (within.textual textual) env,validateAcyclic_yields textual env,?_⟩,?_⟩
  · have checked := validateReferences_yields (within.keyed textual.keyed) env
    rwa [(part.referenceFailure_eq_none _).mpr (part_live listed)] at checked
  · rw [unresolvedIn_cycleFailure,unresolvedIn_cycleFailure]
    intro u blocked
    exact (g.mem_blocked u).mpr (within.belowCycle ((part.mem_blocked u).mp ⟨u,blocked,BEq.rfl⟩))
  · intro acyclic
    have clear := within.acyclic acyclic
    exact ⟨clear,validateAcyclic_of_acyclic (within.keyed textual.keyed) clear env⟩

/-- The operations of the parts lack together what those of the graph lack. -/
theorem parts_shortcomings (g : Graph) (pk : Operation → Value) :
    ((g.parts pk).flatMap fun part => shortcomings part.operations).Perm (shortcomings g.operations) := by
  have perm := (parts_operations_perm g pk).filterMap fun op => (shortcoming op).map fun missing => (op,missing)
  rwa [List.filterMap_flatMap] at perm

/-- Parts inherit soundness, whatever identifiers are repeated and whatever dangles or goes round. Validation of the parts
    reports the operations that it reports of the graph, each as often. -/
theorem partitionBy_inherits (g : Graph) (textual : g.Textual) (key : KeyFunction) (pk : Operation → Value)
    (keys : g.KeyedBy key pk) (settings : Option GraphSettings) (env : Environment) :
    ∃ parts, Yields (g.partitionBy key settings) env (.ok parts) ∧ (∀ part ∈ parts.values, part.Inherits g env) ∧
      (g.Typed → ∃ problem, Yields g.validateOperations env (.ok problem)) ∧
      ∀ problem, Yields g.validateOperations env (.ok problem) → ∃ problems,
        List.Forall₂ (fun part inside => Yields part.validateOperations env (.ok inside)) parts.values problems ∧
          (problems.flatMap lackingIn).Perm (lackingIn problem) := by
  refine ⟨_,partitionBy_yields textual.keyed keys.groupKeys settings env,fun _ listed => part_inherits textual listed env,
    fun typed => ⟨_,validateOperations_yields typed env⟩,?_⟩
  intro problem reported
  obtain ⟨typed,rfl⟩ := validateOperations_yields_ok.mp reported
  refine ⟨(g.parts pk).map operationFailure,?_,?_⟩
  · refine List.forall₂_map_right_iff.mpr (List.forall₂_same.mpr fun part listed => ?_)
    exact validateOperations_yields (fun op inside => typed op ((part_within listed).operations inside)) env
  · rw [List.flatMap_map,lackingIn_operationFailure]
    simp only [lackingIn_operationFailure]
    exact parts_shortcomings g pk

/-- Two kinds of faulty operations that share an identifier, with a cycle in one kind, a dependency below it that crosses,
    and one that dangles. -/
def tenement : Graph :=
  assemble [unnamed,unplaced,{ unnamed with id := .text "c" },hollow]
    [bareDependency "a" "c",bareDependency "c" "a",bareDependency "a" "b",bareDependency "b" "ghost"] .empty

theorem tenement_textual : tenement.Textual := by
  constructor
  · decide
  · decide

theorem partitionBy_tenement : tenement.Textual ∧ tenement.Typed ∧ ∃ parts problem problems,
    Yields (tenement.partitionBy .typeName none) .empty (.ok parts) ∧
      (∀ part ∈ parts.values, part.Inherits tenement .empty) ∧
      Yields tenement.validateOperations .empty (.ok problem) ∧
      List.Forall₂ (fun part inside => Yields part.validateOperations .empty (.ok inside)) parts.values problems ∧
      (problems.flatMap lackingIn).Perm (lackingIn problem) ∧
      (lackingIn problem).map (·.1) = [unnamed,unplaced,{ unnamed with id := .text "c" },hollow] := by
  have typed : tenement.Typed := by
    unfold Typed
    decide
  obtain ⟨parts,parted,inherits,reports,together⟩ := partitionBy_inherits tenement tenement_textual .typeName kindOf
    (fun _ _ => ⟨_,rfl,rfl⟩) none .empty
  obtain ⟨problem,reported⟩ := reports typed
  obtain ⟨problems,each,perm⟩ := together problem reported
  refine ⟨tenement_textual,typed,parts,problem,problems,parted,inherits,reported,each,perm,?_⟩
  have is : Except.ok tenement.operationFailure = .ok problem := reported.result (s := {}) rfl
  obtain rfl := Except.ok.inj is
  rfl

end InfraGraph.Graph
