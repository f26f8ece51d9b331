import InfraGraph.Proofs.Graph.Position
import InfraGraph.Proofs.Graph.Sources
import InfraGraph.Proofs.Order.Presentation

/-!
What sorting makes of the order in which operations were added. Only the order of the identifiers that no live dependency
leads to counts, and sorting keeps that order. So operations that are sorted already stay as they are.
-/
namespace InfraGraph.Graph
open Value (sense Sense sense_eq_iff)
open Run (Yields)
variable {g h : Graph}

/-- The same identifiers, the same dependencies up to equality, and the same order of the identifiers that no live dependency
    leads to. How the other identifiers are ordered, and what else the operations hold, does not matter. -/
structure Restates (g h : Graph) : Prop where
  known : ∀ id, g.Known id ↔ h.Known id
  dependencies : List.Forall₂ (fun d e => (d == e) = true) g.dependencies h.dependencies
  roots : List.Forall₂ (fun u v => (u == v) = true) g.roots h.roots

theorem edges_congr (known : ∀ id, g.Known id ↔ h.Known id)
    (dependencies : List.Forall₂ (fun d e => (d == e) = true) g.dependencies h.dependencies) : g.edges = h.edges := by
  have link {d e : Dependency} (equal : (d == e) = true) : g.link d = h.link e := by
    obtain ⟨first,second,_⟩ := Dependency.beq_iff.mp equal
    have live : g.Live d ↔ h.Live e := (and_congr (known _) (known _)).trans (live_congr equal)
    simp only [Graph.link,live,sense_eq_iff.mpr first,sense_eq_iff.mpr second]
  rw [edges_eq,edges_eq]
  generalize g.dependencies = ds,h.dependencies = es at dependencies
  induction dependencies with
  | nil => rfl
  | cons first _ ih => rw [List.filterMap_cons,List.filterMap_cons,ih,link first]

namespace Restates
variable (same : g.Restates h)
include same

theorem rearranges : g.Rearranges h := ⟨same.known,h.dependencies,.refl _,same.dependencies⟩

theorem sortedIds : g.sortedIds.map sense = h.sortedIds.map sense := by
  have edges : g.edges = h.edges := edges_congr same.known same.dependencies
  have begun : Order.sources g.vertices g.edges = Order.sources h.vertices g.edges := by
    conv_rhs => rw [edges]
    rw [edges_eq,edges_eq,sources_eq,sources_eq]
    exact forall₂_same_iff.mp same.roots
  have vertices (x : Sense) : x ∈ g.vertices ↔ x ∈ h.vertices := by
    obtain ⟨id,rfl⟩ := Quotient.exists_rep x
    exact (g.mem_vertices id).trans ((same.known id).trans (h.mem_vertices id).symm)
  have inside (e : Sense × Sense) (edge : e ∈ g.edges) : e.2 ∈ g.vertices := (g.edges_known e edge).2
  rw [← order_eq,← order_eq,← edges]
  exact Order.arrange_order_congr inside (fun e edge => (vertices e.2).mp (inside e edge)) g.vertices_nodup h.vertices_nodup
    vertices begun

theorem sorted : List.Forall₂ (fun u v => (u == v) = true) (g.sorted.map (·.id)) (h.sorted.map (·.id)) := by
  rw [forall₂_same_iff,List.map_map,List.map_map]
  exact g.sorted_senses.trans (same.sortedIds.trans h.sorted_senses.symm)

end Restates

/-! ### Operations that are sorted already -/

/-- A graph with its operations in order. -/
def inOrder (g : Graph) (metadata : Mapping) : Graph := assemble g.sorted g.dependencies metadata

private theorem inOrder_vertices (g : Graph) (metadata : Mapping) :
    (g.inOrder metadata).vertices = g.sortedIds.map sense := by
  have different : (g.sorted.map (·.id)).Pairwise fun a b => (a == b) = false := by
    refine List.pairwise_map.mpr ((List.pairwise_map.mp g.sorted_nodup).imp fun other => ?_)
    simpa [sense_eq_iff] using other
  have kept : (g.inOrder metadata).ids = g.sorted.map (·.id) := (ids_eq _).trans (firsts_eq_self different)
  rw [vertices,kept,List.map_map]
  exact g.sorted_senses

theorem inOrder_restates (acyclic : ¬ g.Cyclic) (metadata : Mapping) : (g.inOrder metadata).Restates g := by
  have known (id : Value) : (g.inOrder metadata).Known id ↔ g.Known id := by
    constructor
    · rintro ⟨op,member,same⟩
      exact ⟨op,g.sorted_subset member,same⟩
    · intro known
      obtain ⟨op,found,named,_⟩ := known.find
      exact ⟨op,mem_sorted acyclic found,named⟩
  have dependencies : List.Forall₂ (fun d e => (d == e) = true) (g.inOrder metadata).dependencies g.dependencies :=
    List.forall₂_same.mpr fun d _ => BEq.rfl
  refine ⟨known,dependencies,forall₂_same_iff.mpr ?_⟩
  rw [← sources_eq,← sources_eq,← edges_eq,← edges_eq,edges_congr known dependencies,inOrder_vertices]
  exact g.sortedIds_finished.sources_eq

theorem sorted_inOrder (acyclic : ¬ g.Cyclic) (metadata : Mapping) : (g.inOrder metadata).sorted = g.sorted := by
  have senses := (inOrder_restates acyclic metadata).sortedIds
  rw [← sorted_senses,← sorted_senses] at senses
  exact eq_of_map_eq g.sorted_nodup (g.inOrder metadata).sorted_subset (List.Subset.refl _) senses

/-- Operations that were sorted stay as they are when they are sorted again with the same dependencies. More generally, graphs
    that know the same identifiers, have equal dependencies and begin with the same identifiers are ordered alike, or a cycle
    leaves the same identifiers over in both. -/
theorem topologicalSort_presentation (g : Graph) (textual : g.Textual) (env : Environment) :
    (∀ s ops t, g.topologicalSort.start env s = (.ok ops,t) → ∀ metadata, ∃ h, create ops g.dependencies metadata = .ok h ∧
      Yields h.topologicalSort env (.ok ops)) ∧
    ∀ h : Graph, h.Textual → g.Restates h →
      (∃ ops others, Yields g.topologicalSort env (.ok ops) ∧ Yields h.topologicalSort env (.ok others) ∧
        List.Forall₂ (fun u v => (u == v) = true) (ops.map (·.id)) (others.map (·.id))) ∨
      ∃ us vs, Yields g.topologicalSort env (.error (.circularDependency us)) ∧
        Yields h.topologicalSort env (.error (.circularDependency vs)) ∧
        ∀ id, (∃ u ∈ us, (u == id) = true) ↔ ∃ v ∈ vs, (v == id) = true := by
  constructor
  · intro s ops t returned metadata
    obtain ⟨acyclic,rfl⟩ := topologicalSort_of_ok returned
    have ids : ∀ op ∈ g.sorted, op.id.isHashable = true := fun op member => textual.keyed.ids op (g.sorted_subset member)
    refine ⟨g.inOrder metadata,create_ok ids g.dependencies metadata,?_⟩
    have clear : ¬ (g.inOrder metadata).Cyclic := by
      rwa [Cyclic,(inOrder_restates acyclic metadata).rearranges.leads]
    have sorts := topologicalSort_of_acyclic (g := g.inOrder metadata) ⟨ids,textual.ends⟩ clear env
    rwa [sorted_inOrder acyclic] at sorts
  · intro h also same
    have leads := same.rearranges.leads
    by_cases cyclic : g.Cyclic
    · have again : h.Cyclic := by rwa [Cyclic,← leads]
      refine .inr ⟨_,_,topologicalSort_of_cyclic textual cyclic env,topologicalSort_of_cyclic also again env,fun id => ?_⟩
      rw [mem_blocked,mem_blocked,leads]
    · have clear : ¬ h.Cyclic := by rwa [Cyclic,← leads]
      exact .inl ⟨_,_,topologicalSort_of_acyclic textual.keyed cyclic env,topologicalSort_of_acyclic also.keyed clear env,
        same.sorted⟩

theorem roots_eq (g : Graph) :
    g.roots = g.ids.filter fun id => g.dependencies.all fun d => !decide (g.Live d) || !(d.dependent == id) := by
  classical
  rw [roots,← ids_eq]
  apply List.filter_congr
  intro id _
  rw [Bool.eq_iff_iff,decide_eq_true_iff,List.all_eq_true]
  constructor
  · intro none d member
    by_contra entering
    simp only [Bool.or_eq_true,Bool.not_eq_true',decide_eq_false_iff_not,not_or,not_not,Bool.not_eq_false] at entering
    exact none d.prerequisite ⟨d,member,entering.1,BEq.rfl,entering.2⟩
  · rintro none u ⟨d,member,live,_,second⟩
    have absent := none d member
    simp [live,second] at absent

/-- The operations of `funnel`, of which only those that begin the order stand as they did, and one of them twice. -/
def reshuffled : Graph :=
  assemble
    [bareOperation "z",bareOperation "s",bareOperation "y",{ bareOperation "r" with type := .known .commandRun },
      bareOperation "x",bareOperation "s"] funnel.dependencies .empty

theorem reshuffled_textual : reshuffled.Textual := by
  constructor
  · decide
  · decide

theorem funnel_textual : funnel.Textual := by
  constructor
  · decide
  · decide

theorem funnel_restates : funnel.Restates reshuffled where
  known id := by
    have within {g h : Graph} (each : ∀ op ∈ g.operations, h.Known op.id) (known : g.Known id) : h.Known id := by
      obtain ⟨op,member,same⟩ := known
      exact (known_congr same).mp (each op member)
    exact ⟨within (by decide),within (by decide)⟩
  dependencies := List.forall₂_same.mpr fun _ _ => BEq.rfl
  roots := by
    have first : funnel.roots = [.text "s",.text "r"] := by
      rw [roots_eq]
      rfl
    have second : reshuffled.roots = [.text "s",.text "r"] := by
      rw [roots_eq]
      rfl
    rw [first,second]
    exact List.forall₂_same.mpr fun _ _ => BEq.rfl

theorem topologicalSort_reshuffled : funnel.Textual ∧ reshuffled.Textual ∧ funnel.Restates reshuffled ∧
    (∃ h, create funnel.sorted funnel.dependencies .empty = .ok h ∧ Yields h.topologicalSort .empty (.ok funnel.sorted)) ∧
    ∃ others, Yields reshuffled.topologicalSort .empty (.ok others) ∧
      List.Forall₂ (fun u v => (u == v) = true) [.text "s",.text "r",.text "y",.text "x",.text "z"] (others.map (·.id)) := by
  obtain ⟨again,alike⟩ := topologicalSort_presentation funnel funnel_textual .empty
  refine ⟨funnel_textual,reshuffled_textual,funnel_restates,again {} _ _ rfl .empty,?_⟩
  rcases alike reshuffled reshuffled_textual funnel_restates with ⟨ops,others,first,second,same⟩ | ⟨us,vs,stuck,_⟩
  · have is : Except.ok funnel.sorted = .ok ops := first.result (s := {}) rfl
    obtain rfl := Except.ok.inj is
    exact ⟨others,second,same⟩
  · cases stuck.result (s := {}) rfl

end InfraGraph.Graph
