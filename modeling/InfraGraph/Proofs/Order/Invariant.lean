import InfraGraph.Proofs.Order.Release
import Mathlib.Data.List.Sublists

/-!
The loop of the queue. What is taken and what waits in the queue are together the sources followed by
what the taken vertices release in turn, each vertex once, and every edge points forward in it. A run
has a step for each vertex, which is enough to empty the queue.
-/
namespace InfraGraph.Order
variable {α : Type} [DecidableEq α] {vs : List α} {es : List (α × α)}

/-- What vertices release when they are taken in turn after `taken`. -/
def emitted (es : List (α × α)) : (taken : List α) → List α → List α
  | _, [] => []
  | taken, v :: rest => released es taken v ++ emitted es (taken ++ [v]) rest

theorem emitted_append (es : List (α × α)) (taken first second : List α) :
    emitted es taken (first ++ second) = emitted es taken first ++ emitted es (taken ++ first) second := by
  induction first generalizing taken with
  | nil => simp [emitted]
  | cons v rest ih => simp [emitted,ih]

theorem emitted_snoc (es : List (α × α)) (order : List α) (v : α) :
    emitted es [] (order ++ [v]) = emitted es [] order ++ released es order v := by
  simp [emitted_append,emitted]

/-- The sources and what taken vertices have released wait for nothing, and nothing else does. -/
theorem mem_emission {order : List α} {w : α} (inside : w ∈ vs) :
    w ∈ sources vs es ++ emitted es [] order ↔ waiting es order w = 0 := by
  induction order using List.reverseRecOn with
  | nil => simp [emitted,sources,inside]
  | append_singleton order v ih =>
    rw [emitted_snoc,← List.append_assoc,List.mem_append,ih]
    simp only [waiting_eq_zero,mem_released]
    constructor
    · rintro (before | ⟨_,now⟩)
      · intro u edge; exact List.mem_append_left _ (before u edge)
      · exact now
    · intro all
      by_cases edge : (v,w) ∈ es
      · exact .inr ⟨edge,all⟩
      · refine .inl fun u other => ?_
        rcases List.mem_append.mp (all u other) with old | new
        · exact old
        · rw [List.mem_singleton.mp new] at other
          exact absurd other edge

/-- What holds between two steps of the queue. -/
structure Invariant (vs : List α) (es : List (α × α)) (p : Progress α) : Prop where
  degrees : p = progress vs es p.order p.queue
  distinct : (p.order ++ p.queue).Nodup
  emission : p.order ++ p.queue = sources vs es ++ emitted es [] p.order
  forward : ∀ u v, (u,v) ∈ es → v ∈ p.order ++ p.queue → [u,v].Sublist (p.order ++ p.queue)

theorem start_invariant (once : vs.Nodup) (known : ∀ e ∈ es, e.2 ∈ vs) : Invariant vs es (start vs es) := by
  rw [start_eq vs es known]
  refine ⟨rfl,?_,?_,?_⟩
  · simpa [progress,sources] using once.filter _
  · simp [progress,emitted]
  · intro u v edge member
    have source : v ∈ sources vs es := by simpa [progress] using member
    exact absurd edge ((mem_sources.mp source).2 u)

/-- What a vertex releases was neither taken nor enqueued before. -/
private theorem released_fresh (known : ∀ e ∈ es, e.2 ∈ vs) {p : Progress α} (inv : Invariant vs es p) {v w : α}
    (fresh : v ∉ p.order) (member : w ∈ released es p.order v) : w ∉ p.order ++ p.queue := by
  have edge := (mem_released.mp member).1
  rw [inv.emission,mem_emission (known _ edge),waiting_eq_zero]
  intro all
  exact fresh (all v edge)

theorem step_invariant (known : ∀ e ∈ es, e.2 ∈ vs) {p : Progress α} (inv : Invariant vs es p) :
    Invariant vs es (step es p) := by
  obtain ⟨degrees,queue,order⟩ := p
  cases queue with
  | nil => exact inv
  | cons v rest =>
    have fresh : v ∉ order := fun taken => (List.nodup_append.mp inv.distinct).2.2 v taken v (by simp) rfl
    have same := inv.degrees
    have pushed (w : α) (member : w ∈ released es order v) := released_fresh known inv fresh member
    have distinct := inv.distinct
    have emission := inv.emission
    have forward := inv.forward
    simp only at same pushed distinct emission forward
    rw [same,step_eq vs es known fresh rest]
    have shape : (order ++ [v]) ++ (rest ++ released es order v) = (order ++ v :: rest) ++ released es order v := by
      simp
    refine ⟨rfl,?_,?_,?_⟩
    · simp only [progress]
      rw [shape]
      refine List.nodup_append.mpr ⟨distinct,List.nodup_dedup _,?_⟩
      rintro x old y new rfl
      exact pushed x new old
    · simp only [progress]
      rw [shape,emission,emitted_snoc,List.append_assoc]
    · simp only [progress]
      rw [shape]
      intro a b edge member
      rcases List.mem_append.mp member with old | new
      · exact (forward a b edge old).trans (List.sublist_append_left _ _)
      · have before : a ∈ order ++ v :: rest := by
          rcases List.mem_append.mp ((mem_released.mp new).2 a edge) with early | now
          · simp [early]
          · simp [List.mem_singleton.mp now]
        exact (List.singleton_sublist.mpr before).append (List.singleton_sublist.mpr new)

theorem run_invariant (known : ∀ e ∈ es, e.2 ∈ vs) (steps : Nat) {p : Progress α} (inv : Invariant vs es p) :
    Invariant vs es (run es steps p) := by
  induction steps generalizing p with
  | zero => exact inv
  | succ steps ih => exact ih (step_invariant known inv)

/-- A run goes on taking vertices until the queue is empty. -/
private theorem run_takes (known : ∀ e ∈ es, e.2 ∈ vs) (steps : Nat) {p : Progress α} (inv : Invariant vs es p) :
    (run es steps p).queue = [] ∨ (run es steps p).order.length = p.order.length + steps := by
  induction steps generalizing p with
  | zero => exact .inr rfl
  | succ steps ih =>
    rcases ih (step_invariant known inv) with done | taken
    · exact .inl done
    · cases queue : p.queue with
      | nil =>
        have idle : step es p = p := by simp [step,queue]
        have still : ∀ n, run es n p = p := by
          intro n
          induction n with
          | zero => rfl
          | succ n ih => rw [run,idle,ih]
        exact .inl ((congrArg Progress.queue (still _)).trans queue)
      | cons v rest =>
        have grown : (step es p).order.length = p.order.length + 1 := by
          have fresh : v ∉ p.order := by
            have distinct := inv.distinct
            rw [queue] at distinct
            exact fun taken => (List.nodup_append.mp distinct).2.2 v taken v (by simp) rfl
          rw [inv.degrees,queue,step_eq vs es known fresh rest]
          simp [progress]
        refine .inr ?_
        rw [run,taken,grown]
        omega

/-- What holds of the order that a run leaves. -/
structure Finished (vs : List α) (es : List (α × α)) (order : List α) : Prop where
  distinct : order.Nodup
  emission : order = sources vs es ++ emitted es [] order
  forward : ∀ u v, (u,v) ∈ es → v ∈ order → [u,v].Sublist order

theorem emission_known (known : ∀ e ∈ es, e.2 ∈ vs) {order : List α} {v : α}
    (member : v ∈ sources vs es ++ emitted es [] order) : v ∈ vs := by
  rcases List.mem_append.mp member with source | later
  · exact (mem_sources.mp source).1
  · induction order using List.reverseRecOn with
    | nil => simp [emitted] at later
    | append_singleton order u ih =>
      rw [emitted_snoc] at later
      rcases List.mem_append.mp later with old | new
      · exact ih (List.mem_append_right _ old) old
      · exact known _ (mem_released.mp new).1

theorem Finished.mem_vertices {order : List α} (finished : Finished vs es order) (known : ∀ e ∈ es, e.2 ∈ vs)
    {v : α} (member : v ∈ order) : v ∈ vs :=
  emission_known known (finished.emission ▸ member)

/-- A vertex is in a finished order once all its predecessors are. -/
theorem Finished.mem_iff {order : List α} (finished : Finished vs es order) {v : α} (inside : v ∈ vs) :
    v ∈ order ↔ ∀ u, (u,v) ∈ es → u ∈ order := by
  rw [← waiting_eq_zero,← mem_emission inside,← finished.emission]

theorem queue_empty (once : vs.Nodup) (known : ∀ e ∈ es, e.2 ∈ vs) :
    (run es vs.length (start vs es)).queue = [] := by
  have inv := run_invariant known vs.length (start_invariant once known)
  rcases run_takes known vs.length (start_invariant once known) with done | taken
  · exact done
  · set p := run es vs.length (start vs es)
    have within : p.order ++ p.queue ⊆ vs := by
      intro v member
      exact emission_known known (inv.emission ▸ member)
    have bound := (List.subperm_of_subset inv.distinct within).length_le
    have begun : (start vs es).order.length = 0 := rfl
    rw [List.length_append,taken,begun] at bound
    exact List.length_eq_zero_iff.mp (by omega)

theorem arrange_finished (once : vs.Nodup) (known : ∀ e ∈ es, e.2 ∈ vs) :
    Finished vs es (arrange vs es).order := by
  have inv := run_invariant known vs.length (start_invariant once known)
  have whole : (run es vs.length (start vs es)).order ++ (run es vs.length (start vs es)).queue =
      (arrange vs es).order := by
    rw [queue_empty once known,List.append_nil]
    rfl
  obtain ⟨_,distinct,emission,forward⟩ := inv
  rw [whole] at distinct emission forward
  exact ⟨distinct,emission,forward⟩

/-- What a run leaves over are the vertices that are not in its order, as they were given. -/
theorem arrange_unresolved (once : vs.Nodup) (known : ∀ e ∈ es, e.2 ∈ vs) :
    (arrange vs es).unresolved = vs.filter fun v => v ∉ (arrange vs es).order := by
  have inv := run_invariant known vs.length (start_invariant once known)
  have left := unresolved_eq vs es (arrange vs es).order (run es vs.length (start vs es)).queue
  have same : (arrange vs es).unresolved = vs.filter fun v => waiting es (arrange vs es).order v ≠ 0 := by
    rw [← left]
    exact congrArg (fun p => keysWhere (fun n => 0 < n) p.degrees) inv.degrees
  rw [same]
  apply List.filter_congr
  intro v inside
  apply decide_eq_decide.mpr
  rw [ne_eq,waiting_eq_zero,← (arrange_finished once known).mem_iff inside]

end InfraGraph.Order
