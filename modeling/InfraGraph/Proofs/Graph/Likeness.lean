import InfraGraph.Proofs.Graph.Sort

/-!
Graphs that list the same identifiers and the same ends. They have the same cycles and order the identifiers alike,
whatever else their operations and dependencies hold.
-/
namespace InfraGraph.Graph

/-- The same identifiers and the same ends, place by place. -/
structure Alike (g h : Graph) : Prop where
  ids : g.operations.map (·.id) = h.operations.map (·.id)
  ends : g.dependencies.map ends = h.dependencies.map ends

theorem known_iff_listed (g : Graph) (id : Value) : g.Known id ↔ ∃ v ∈ g.operations.map (·.id), (v == id) = true := by
  simp only [Known,List.mem_map,exists_exists_and_eq_and]

theorem liveEnds_eq (g : Graph) :
    g.liveEnds = (g.dependencies.map ends).filter fun e => g.Known e.1 ∧ g.Known e.2 := by
  rw [liveEnds,List.filter_map]
  rfl

theorem leads_iff_liveEnds (g : Graph) (a b : Value) :
    g.Leads a b ↔ ∃ e ∈ g.liveEnds, (e.1 == a) = true ∧ (e.2 == b) = true := by
  constructor
  · rintro ⟨d,member,live,left,right⟩
    exact ⟨ends d,List.mem_map_of_mem (List.mem_filter.mpr ⟨member,decide_eq_true live⟩),left,right⟩
  · rintro ⟨e,edge,left,right⟩
    obtain ⟨d,kept,rfl⟩ := List.mem_map.mp edge
    obtain ⟨member,live⟩ := List.mem_filter.mp kept
    exact ⟨d,member,of_decide_eq_true live,left,right⟩

namespace Alike
variable {g h : Graph} (alike : g.Alike h)
include alike

theorem textual (textual : h.Textual) : g.Textual where
  ids op member := by
    have listed : op.id ∈ h.operations.map (·.id) := alike.ids ▸ List.mem_map_of_mem member
    obtain ⟨other,inside,same⟩ := List.mem_map.mp listed
    exact same ▸ textual.ids other inside
  ends d member := by
    have listed : Graph.ends d ∈ h.dependencies.map Graph.ends := alike.ends ▸ List.mem_map_of_mem member
    obtain ⟨other,inside,same⟩ := List.mem_map.mp listed
    obtain ⟨first,second⟩ := Prod.mk.inj same
    exact first ▸ second ▸ textual.ends other inside

theorem known (id : Value) : g.Known id ↔ h.Known id := by
  rw [known_iff_listed,known_iff_listed,alike.ids]

theorem liveEnds_eq : g.liveEnds = h.liveEnds := by
  rw [Graph.liveEnds_eq,Graph.liveEnds_eq,alike.ends]
  simp only [alike.known]

theorem leads_eq : g.Leads = h.Leads := by
  funext a b
  rw [leads_iff_liveEnds,leads_iff_liveEnds,alike.liveEnds_eq]

theorem cyclic : g.Cyclic ↔ h.Cyclic := by
  rw [Cyclic,Cyclic,alike.leads_eq]

theorem blocked_eq : g.blocked = h.blocked := by
  rw [blocked,blocked,alike.ids,alike.leads_eq]

theorem sortedIds_eq : g.sortedIds = h.sortedIds := by
  rw [sortedIds,sortedIds,ids_eq,ids_eq,alike.ids,alike.liveEnds_eq]

end Alike
end InfraGraph.Graph
