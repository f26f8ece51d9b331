import InfraGraph.Proofs.Graph.Position
import InfraGraph.Proofs.Order.Restriction

/-!
Parts that no live dependency connects with the rest of a graph. Whatever such a part names is named there as in the
whole graph, and its order is what the order of the whole graph leaves of it.
-/
namespace InfraGraph.Graph
open Value (sense Sense)

/-- A graph knows some of the identifiers of another one, under which it finds the same operations. It has the
    dependencies between these identifiers, and no other live one leads to them or from them. -/
structure Component (h g : Graph) : Prop where
  operations : firsts sharesId h.operations = (firsts sharesId g.operations).filter fun op => h.Known op.id
  dependencies : h.dependencies = g.dependencies.filter fun d => h.Live d
  closed : ∀ d ∈ g.dependencies, g.Live d → (h.Known d.prerequisite ↔ h.Known d.dependent)

namespace Component
variable {g h : Graph} (part : h.Component g)
include part

theorem known {id : Value} (known : h.Known id) : g.Known id := by
  obtain ⟨op,member,same⟩ := known
  obtain ⟨first,kept,again⟩ := exists_firsts sharesId_equivalence member
  rw [part.operations] at kept
  exact ⟨first,(firsts_sublist _ _).subset (List.mem_filter.mp kept).1,BEq.trans again same⟩

theorem find? {id : Value} (known : h.Known id) :
    h.operations.find? (·.id == id) = g.operations.find? (·.id == id) := by
  have respects (a b : Operation) (same : sharesId a b = true) : (a.id == id) = (b.id == id) := BEq.congr_left same
  rw [← find?_firsts respects h.operations,part.operations,List.find?_filter,← find?_firsts respects g.operations]
  congr 1
  funext op
  by_cases same : (op.id == id) = true
  · simp [same,(known_congr same).mpr known]
  · simp [same]

theorem vertices : h.vertices = g.vertices.filter fun x => x ∈ h.vertices := by
  have ids : h.ids = g.ids.filter fun id => h.Known id := by
    rw [ids_firsts,ids_firsts,part.operations,List.filter_map]
    rfl
  calc h.vertices
    _ = (g.ids.filter fun id => h.Known id).map sense := congrArg (List.map sense) ids
    _ = (g.ids.map sense).filter fun x => x ∈ h.vertices := by
      rw [List.filter_map]
      congr 1
      apply List.filter_congr
      exact fun id _ => decide_eq_decide.mpr (h.mem_vertices id).symm

theorem live {d : Dependency} (live : h.Live d) : g.Live d := ⟨part.known live.1,part.known live.2⟩

theorem acyclic (acyclic : ¬ g.Cyclic) : ¬ h.Cyclic := by
  refine acyclic_of_leads ?_ acyclic
  rintro a b ⟨d,member,live,ends⟩
  rw [part.dependencies] at member
  exact ⟨d,(List.mem_filter.mp member).1,part.live live,ends⟩

/-- The order of a part is what the order of the whole graph leaves of it. -/
theorem sorted (acyclic : ¬ g.Cyclic) : h.sorted = g.sorted.filter fun op => h.Known op.id := by
  have cut : ∀ d ∈ g.dependencies, ∀ x y, g.link d = some (x,y) →
      decide (h.Live d) = decide (x ∈ h.vertices) ∧ decide (h.Live d) = decide (y ∈ h.vertices) := by
    intro d member x y is
    by_cases live : g.Live d
    · have together := part.closed d member live
      rw [link,if_pos live] at is
      cases is
      rw [decide_eq_decide,decide_eq_decide,mem_vertices,mem_vertices,Live,together]
      exact ⟨and_self_iff,and_self_iff⟩
    · rw [link,if_neg live] at is
      cases is
  have alike : ∀ d ∈ g.dependencies.filter fun d => h.Live d, g.link d = h.link d := by
    intro d inside
    have live : h.Live d := by simpa using (List.mem_filter.mp inside).2
    rw [link,link,if_pos live,if_pos (part.live live)]
  -- What the filter leaves of the order follows the rule for the part, and so it is the order of the part.
  have rule := ((sorted_rule acyclic).filter cut).congr alike
  rw [← part.vertices,← part.dependencies] at rule
  have senses := senses_of_rule (part.acyclic acyclic) rule
  have kept : ((g.sorted.map (·.id)).map sense).filter (fun x => decide (x ∈ h.vertices)) =
      (g.sorted.filter fun op => h.Known op.id).map fun op => op.id.sense := by
    rw [List.map_map,List.filter_map]
    congr 1
    apply List.filter_congr
    exact fun op _ => decide_eq_decide.mpr (h.mem_vertices op.id)
  rw [kept,List.map_map] at senses
  refine (eq_of_map_eq g.sorted_nodup (List.filter_subset_self _) ?_ senses).symm
  intro op member
  have found := h.find_sorted member
  rw [part.find? ⟨op,h.sorted_subset member,BEq.rfl⟩] at found
  exact mem_sorted acyclic found

end Component
end InfraGraph.Graph
