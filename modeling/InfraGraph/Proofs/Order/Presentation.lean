import InfraGraph.Proofs.Order.Invariant

/-!
What a run makes of the order in which vertices are given. It looks at that order once, when the sources enter the queue;
whatever else becomes of a vertex is decided by the edges. So a run over the vertices in the order in which it took them
before takes them in that order again.
-/
namespace InfraGraph.Order
variable {α : Type} [DecidableEq α] {vs ws : List α} {es : List (α × α)}

/-- Two runs stand at the same place: they have taken the same vertices, and the same ones wait. -/
structure Together (p q : Progress α) : Prop where
  order : p.order = q.order
  queue : p.queue = q.queue

section Runs
variable (first : ∀ e ∈ es, e.2 ∈ vs) (second : ∀ e ∈ es, e.2 ∈ ws)
include first second

private theorem progress_together {order queue : List α} (distinct : (order ++ queue).Nodup) :
    Together (step es (progress vs es order queue)) (step es (progress ws es order queue)) := by
  cases queue with
  | nil => exact ⟨rfl,rfl⟩
  | cons v rest =>
    have fresh : v ∉ order := fun taken => (List.nodup_append.mp distinct).2.2 v taken v (by simp) rfl
    rw [step_eq vs es first fresh rest,step_eq ws es second fresh rest]
    exact ⟨rfl,rfl⟩

private theorem step_together {p q : Progress α} (inv : Invariant vs es p) (inv' : Invariant ws es q)
    (together : Together p q) : Together (step es p) (step es q) := by
  have here : step es p = step es (progress vs es p.order p.queue) := congrArg _ inv.degrees
  have there : step es q = step es (progress ws es p.order p.queue) := by
    rw [together.order,together.queue]
    exact congrArg _ inv'.degrees
  rw [here,there]
  exact progress_together first second inv.distinct

private theorem run_together (steps : Nat) {p q : Progress α} (inv : Invariant vs es p) (inv' : Invariant ws es q)
    (together : Together p q) : Together (run es steps p) (run es steps q) := by
  induction steps generalizing p q with
  | zero => exact together
  | succ steps ih =>
    exact ih (step_invariant first inv) (step_invariant second inv') (step_together first second inv inv' together)

/-- The order depends on the given vertices only through the sources and the order that these have. -/
theorem arrange_order_congr (once : vs.Nodup) (once' : ws.Nodup) (same : ∀ v, v ∈ vs ↔ v ∈ ws)
    (begun : sources vs es = sources ws es) : (arrange vs es).order = (arrange ws es).order := by
  have length : vs.length = ws.length := ((List.perm_ext_iff_of_nodup once once').mpr same).length_eq
  have together : Together (start vs es) (start ws es) := by
    rw [start_eq vs es first,start_eq ws es second]
    exact ⟨rfl,begun⟩
  have ended := run_together first second vs.length (start_invariant once first) (start_invariant once' second) together
  rw [arrange,arrange,← length]
  exact ended.order

end Runs

/-- What is emitted has a predecessor. -/
private theorem emitted_entered {taken order : List α} {w : α} (member : w ∈ emitted es taken order) :
    ∃ u, (u,w) ∈ es := by
  induction order generalizing taken with
  | nil => simp [emitted] at member
  | cons v rest ih =>
    rcases List.mem_append.mp member with now | later
    · exact ⟨v,(mem_released.mp now).1⟩
    · exact ih later

/-- Given in the order of a run, the sources still have the order that they had before. -/
theorem Finished.sources_eq {order : List α} (finished : Finished vs es order) : sources order es = sources vs es := by
  have kept : sources (sources vs es) es = sources vs es := by simp [sources]
  have gone : sources (emitted es [] order) es = [] := by
    refine List.eq_nil_iff_forall_not_mem.mpr fun w member => ?_
    obtain ⟨inside,none⟩ := mem_sources.mp member
    obtain ⟨u,edge⟩ := emitted_entered inside
    exact none u edge
  calc sources order es
    _ = sources (sources vs es ++ emitted es [] order) es := congrArg (sources · es) finished.emission
    _ = sources (sources vs es) es ++ sources (emitted es [] order) es := List.filter_append ..
    _ = sources vs es := by rw [kept,gone,List.append_nil]

end InfraGraph.Order
