import InfraGraph.Proofs.Graph.Sort

/-!
What one dependency more does to the cycles of a graph. A dependency that dangles does nothing. One that is live leads on
whatever is left over already, and closes cycles of its own if its end leads back to its start.
-/
open Relation (TransGen ReflTransGen)
namespace InfraGraph.Graph
open Value (sense sense_eq_iff)
open Run (Yields)
open InfraGraph.Order (Edge BelowCycle belowCycle_snoc renameEdges)
variable {g : Graph} {d : Dependency}

/-- What a cycle leaves over of a graph, for sorting and validation alike: nothing if the graph can be sorted, and what they
    report otherwise. -/
inductive LeavesOver (g : Graph) (env : Environment) : List Value → Prop
  | nothing (ops : List Operation) : Yields g.topologicalSort env (.ok ops) → Yields g.validateAcyclic env (.ok none) →
      LeavesOver g env []
  | ids (ids : List Value) : Yields g.topologicalSort env (.error (.circularDependency ids)) →
      Yields g.validateAcyclic env (.ok (some (.circularDependency ids))) → LeavesOver g env ids

/-- An identifier is, up to equality, among others. -/
def Among (ids : List Value) (id : Value) : Prop := ∃ v ∈ ids, (v == id) = true

/-- Live dependencies lead from one identifier to another, or both are the same. What names no operation leads nowhere. -/
def Reaches (g : Graph) (a b : Value) : Prop := g.Known a ∧ ((a == b) = true ∨ TransGen g.Leads a b)

theorem leavesOver_blocked (textual : g.Textual) (env : Environment) : g.LeavesOver env g.blocked := by
  by_cases cyclic : g.Cyclic
  · exact .ids _ (topologicalSort_of_cyclic textual cyclic env) (validateAcyclic_of_cyclic textual cyclic env)
  · rw [g.blocked_eq_nil.mpr cyclic]
    exact .nothing _ (topologicalSort_of_acyclic textual.keyed cyclic env) (validateAcyclic_of_acyclic textual.keyed cyclic env)

theorem sorts_iff (textual : g.Textual) (env : Environment) :
    (∃ ops, Yields g.topologicalSort env (.ok ops)) ↔ g.blocked = [] := by
  rw [blocked_eq_nil]
  constructor
  · rintro ⟨ops,sorts⟩
    obtain ⟨t,returned⟩ := sorts {}
    exact (topologicalSort_of_ok returned).1
  · exact fun acyclic => ⟨_,topologicalSort_of_acyclic textual.keyed acyclic env⟩

theorem reaches_iff {a : Value} (known : g.Known a) (b : Value) :
    g.Reaches a b ↔ ReflTransGen (Edge g.edges) a.sense b.sense := by
  rw [Reaches,and_iff_right known,Relation.reflTransGen_iff_eq_or_transGen,transGen_iff,← sense_eq_iff,
    eq_comm (a := b.sense)]

/-! ### The graph with one dependency more -/

/-- The graph that adding a dependency makes. -/
def grown (g : Graph) (d : Dependency) : Graph := assemble g.operations (g.dependencies ++ [d]) g.metadata

theorem grown_textual (textual : g.Textual) (first : d.prerequisite.isHashable = true)
    (second : d.dependent.isHashable = true) : (g.grown d).Textual where
  ids := textual.ids
  ends := by
    intro e member
    rcases List.mem_append.mp member with old | new
    · exact textual.ends e old
    · obtain rfl := List.mem_singleton.mp new
      exact ⟨first,second⟩

private theorem grown_liveEnds (g : Graph) (d : Dependency) :
    (g.grown d).liveEnds = g.liveEnds ++ if g.Live d then [ends d] else [] := by
  have lives : (g.grown d).liveEnds = ((g.dependencies ++ [d]).filter fun e => g.Live e).map ends := rfl
  rw [lives,List.filter_append,List.map_append]
  by_cases live : g.Live d
  · simp [live,liveEnds]
  · simp [live,liveEnds]

private theorem grown_edges (g : Graph) (d : Dependency) :
    (g.grown d).edges = g.edges ++ if g.Live d then [(d.prerequisite.sense,d.dependent.sense)] else [] := by
  rw [edges,grown_liveEnds,renameEdges,List.map_append]
  by_cases live : g.Live d
  · rw [if_pos live,if_pos live]
    rfl
  · rw [if_neg live,if_neg live]
    rfl

theorem grown_blocked_of_dangling (dangling : ¬ g.Live d) : (g.grown d).blocked = g.blocked := by
  have edges : (g.grown d).edges = g.edges := by rw [grown_edges,if_neg dangling,List.append_nil]
  have leads : (g.grown d).Leads = g.Leads := by
    funext a b
    rw [← mem_edges,← mem_edges,edges]
  unfold blocked
  rw [leads]
  rfl

theorem mem_grown_blocked (live : g.Live d) (id : Value) : Among (g.grown d).blocked id ↔ Among g.blocked id ∨
    (Among g.blocked d.prerequisite ∨ g.Reaches d.dependent d.prerequisite) ∧ g.Reaches d.dependent id := by
  simp only [Among,mem_blocked,belowCycle_iff,reaches_iff live.2]
  rw [grown_edges,if_pos live]
  exact belowCycle_snoc

theorem grown_acyclic_iff (acyclic : g.blocked = []) : (g.grown d).blocked = [] ↔ ¬ g.Reaches d.dependent d.prerequisite := by
  by_cases live : g.Live d
  · constructor
    · intro none closing
      obtain ⟨v,listed,_⟩ := (mem_grown_blocked live d.dependent).mpr (.inr ⟨.inr closing,live.2,.inl BEq.rfl⟩)
      simp [none] at listed
    · intro clear
      refine List.eq_nil_iff_forall_not_mem.mpr fun v listed => ?_
      have listed : Among (g.grown d).blocked v := ⟨v,listed,BEq.rfl⟩
      rw [mem_grown_blocked live] at listed
      simp [Among,acyclic,clear] at listed
  · rw [grown_blocked_of_dangling live]
    refine iff_of_true acyclic ?_
    rintro ⟨known,same | path⟩
    · -- An identifier that is the same as the known end is known.
      exact live ⟨(known_congr same).mp known,known⟩
    · obtain ⟨_,_,leads⟩ := TransGen.tail'_iff.mp path
      exact live ⟨(known_of_leads leads).2,known⟩

/-- A dependency that is added leaves over what was left over before, if it dangles. If it is live and starts at something
    that is left over or that its end leads to, whatever its end leads to is left over besides. So a graph that can be sorted
    stays so exactly if the end does not lead to the start. -/
theorem addDependency_leavesOver (g : Graph) (textual : g.Textual) (env : Environment) (d : Dependency)
    (first : d.prerequisite.isHashable = true) (second : d.dependent.isHashable = true) :
    ∃ h left more, g.addDependency d = .ok h ∧ g.LeavesOver env left ∧ h.LeavesOver env more ∧
      (¬ g.Live d → more = left) ∧
      (g.Live d → ∀ id, Among more id ↔ Among left id ∨
        (Among left d.prerequisite ∨ g.Reaches d.dependent d.prerequisite) ∧ g.Reaches d.dependent id) ∧
      ((∃ ops, Yields g.topologicalSort env (.ok ops)) →
        ((∃ ops, Yields h.topologicalSort env (.ok ops)) ↔ ¬ g.Reaches d.dependent d.prerequisite)) := by
  have grows : g.addDependency d = .ok (g.grown d) := create_ok textual.keyed.ids _ _
  have grown := grown_textual textual first second
  refine ⟨g.grown d,g.blocked,(g.grown d).blocked,grows,leavesOver_blocked textual env,leavesOver_blocked grown env,?_,?_,?_⟩
  · exact grown_blocked_of_dangling
  · exact mem_grown_blocked
  · intro sorts
    rw [sorts_iff grown]
    exact grown_acyclic_iff ((sorts_iff textual env).mp sorts)

/-- Past the cycles of `tangle` back to where it starts. -/
theorem addDependency_tangle : tangle.Textual ∧ ∃ h left more,
    tangle.addDependency (bareDependency "after" "start") = .ok h ∧ tangle.LeavesOver .empty left ∧ h.LeavesOver .empty more ∧
      left = [.text "after",.text "a",.text "b"] ∧ Among more (.text "start") := by
  obtain ⟨h,left,more,grows,before,after,_,live,_⟩ := addDependency_leavesOver tangle tangle_textual .empty
    (bareDependency "after" "start") rfl rfl
  have is : left = [.text "after",.text "a",.text "b"] := by
    cases before with
    | nothing _ sorts _ => cases sorts.result (s := {}) rfl
    | ids _ stuck _ =>
      cases stuck.result (s := {}) rfl
      rfl
  refine ⟨tangle_textual,h,left,more,grows,before,after,is,(live (by decide) _).mpr (.inr ⟨.inl ?_,?_⟩)⟩
  · exact ⟨.text "after",by simp [is],rfl⟩
  · exact ⟨by decide,.inl rfl⟩

end InfraGraph.Graph
