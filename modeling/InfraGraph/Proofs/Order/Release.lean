import InfraGraph.Order
import InfraGraph.Proofs.Table
import Mathlib.Data.List.Dedup

/-!
What one step of the queue does, in closed form. The degrees that a step finds are a function of the
vertices taken so far: each vertex waits for its incoming edges from vertices that are not taken. A
step that takes a vertex enqueues exactly those of its successors that wait for nothing any more, each
once, in the order of the last edges to them.
-/
namespace InfraGraph.Order
open Table (tabulate get?_tabulate update_tabulate)
variable {α : Type} [DecidableEq α]

/-- How many edges lead to a vertex from vertices that are not taken. -/
def waiting (es : List (α × α)) (taken : List α) (v : α) : Nat :=
  es.countP fun e => decide (e.2 = v ∧ e.1 ∉ taken)

/-- The vertices that wait for nothing at the beginning. -/
def sources (vs : List α) (es : List (α × α)) : List α := vs.filter fun v => waiting es [] v = 0

/-- The vertices that a vertex releases once `taken` are taken. -/
def released (es : List (α × α)) (taken : List α) (v : α) : List α :=
  ((successors es v).filter fun w => waiting es (taken ++ [v]) w = 0).dedup

/-- The progress with given vertices taken and waiting in the queue. -/
def progress (vs : List α) (es : List (α × α)) (order queue : List α) : Progress α :=
  ⟨tabulate vs fun v => (waiting es order v : Int),queue,order⟩

theorem mem_successors {es : List (α × α)} {v w : α} : w ∈ successors es v ↔ (v,w) ∈ es := by
  simp only [successors,List.mem_map,List.mem_filter,beq_iff_eq]
  constructor
  · rintro ⟨⟨a,b⟩,⟨edge,rfl⟩,rfl⟩; exact edge
  · intro edge; exact ⟨(v,w),⟨edge,rfl⟩,rfl⟩

theorem waiting_eq_zero {es : List (α × α)} {taken : List α} {v : α} :
    waiting es taken v = 0 ↔ ∀ u, (u,v) ∈ es → u ∈ taken := by
  simp only [waiting,List.countP_eq_zero,decide_eq_true_eq,not_and,not_not,Prod.forall]
  constructor
  · intro all u edge; exact all u v edge rfl
  · rintro all u w edge rfl; exact all u edge

theorem mem_sources {vs : List α} {es : List (α × α)} {v : α} :
    v ∈ sources vs es ↔ v ∈ vs ∧ ∀ u, (u,v) ∉ es := by
  simp [sources,waiting_eq_zero]

theorem mem_released {es : List (α × α)} {taken : List α} {v w : α} :
    w ∈ released es taken v ↔ (v,w) ∈ es ∧ ∀ u, (u,w) ∈ es → u ∈ taken ++ [v] := by
  simp only [released,List.mem_dedup,List.mem_filter,mem_successors,decide_eq_true_eq,waiting_eq_zero]

theorem waiting_cons (e : α × α) (es : List (α × α)) (taken : List α) (v : α) :
    waiting (e :: es) taken v = waiting es taken v + if e.2 = v ∧ e.1 ∉ taken then 1 else 0 := by
  simp [waiting,List.countP_cons]

theorem successors_cons (e : α × α) (es : List (α × α)) (v : α) :
    successors (e :: es) v = if e.1 = v then e.2 :: successors es v else successors es v := by
  by_cases leaves : e.1 = v
  · simp [successors,leaves]
  · simp [successors,leaves]

/-- Taking a vertex does away with its edges, as often as they occur. -/
theorem waiting_take (es : List (α × α)) {taken : List α} {v : α} (fresh : v ∉ taken) (w : α) :
    waiting es taken w = waiting es (taken ++ [v]) w + (successors es v).count w := by
  induction es with
  | nil => rfl
  | cons e rest ih =>
    rw [waiting_cons,waiting_cons,successors_cons,ih]
    by_cases leaves : e.1 = v
    · by_cases enters : e.2 = w
      · simp [enters,leaves,fresh]; omega
      · simp [enters,leaves]
    · simp [leaves]; omega

private theorem degrees_eq (vs : List α) (es : List (α × α)) (known : ∀ e ∈ es, e.2 ∈ vs) (f : α → Int) :
    es.foldl (fun t e => t.update e.2 0 (· + 1)) (tabulate vs f) =
      tabulate vs fun v => f v + (waiting es [] v : Int) := by
  induction es generalizing f with
  | nil => simp [waiting]
  | cons e rest ih =>
    rw [List.foldl_cons,update_tabulate (known e (by simp)),ih (fun d later => known d (List.mem_cons_of_mem _ later))]
    congr 1
    funext v
    rw [waiting_cons]
    by_cases same : e.2 = v
    · subst same; simp; omega
    · simp [same,Function.update_of_ne (Ne.symm same)]

omit [DecidableEq α] in
private theorem keysWhere_tabulate (holds : Int → Bool) (vs : List α) (f : α → Int) :
    keysWhere holds (tabulate vs f) = vs.filter fun v => holds (f v) := by
  simp [keysWhere,tabulate,List.filter_map,Function.comp_def]

theorem start_eq (vs : List α) (es : List (α × α)) (known : ∀ e ∈ es, e.2 ∈ vs) :
    start vs es = progress vs es [] (sources vs es) := by
  have counted : degrees vs es = tabulate vs fun v => (waiting es [] v : Int) := by
    simpa [degrees,tabulate] using degrees_eq vs es known fun _ => 0
  simp only [start,progress,counted,keysWhere_tabulate,sources,Progress.mk.injEq,true_and,and_true]
  apply List.filter_congr
  intro v _
  rw [Bool.eq_iff_iff,beq_iff_eq,decide_eq_true_iff,Int.natCast_eq_zero]

theorem unresolved_eq (vs : List α) (es : List (α × α)) (order queue : List α) :
    keysWhere (fun n => 0 < n) (progress vs es order queue).degrees = vs.filter fun v => waiting es order v ≠ 0 := by
  rw [progress,keysWhere_tabulate]
  apply List.filter_congr
  intro v _
  apply decide_eq_decide.mpr
  omega

private theorem release_eq {vs : List α} {w : α} (inside : w ∈ vs) (f : α → Int) (queue order : List α) :
    release ⟨tabulate vs f,queue,order⟩ w =
      ⟨tabulate vs (Function.update f w (f w - 1)),if f w = 1 then queue ++ [w] else queue,order⟩ := by
  simp only [release,update_tabulate inside,get?_tabulate inside,Function.update_self,Progress.mk.injEq,
    true_and,and_true]
  by_cases last : f w = 1
  · simp [last]
  · have : f w - 1 ≠ 0 := by omega
    simp [last,this]

private theorem update_sub_count (f : α → Int) (w : α) (ws : List α) (v : α) :
    Function.update f w (f w - 1) v - (ws.count v : Int) = f v - ((w :: ws).count v : Int) := by
  by_cases same : v = w
  · subst same; simp; omega
  · rw [Function.update_of_ne same,List.count_cons_of_ne (Ne.symm same)]

/-- A vertex whose degree is used up by its first occurrence does not occur again. -/
private theorem dedup_used (f : α → Int) (w : α) (ws queue : List α) (enough : ((w :: ws).count w : Int) ≤ f w)
    (p : α → Bool) (used : p w = true ↔ f w = ((w :: ws).count w : Int)) :
    (if f w = 1 then queue ++ [w] else queue) ++ (ws.filter p).dedup = queue ++ ((w :: ws).filter p).dedup := by
  rw [List.count_cons_self] at enough used
  rw [List.filter_cons]
  by_cases last : f w = 1
  · have fresh : w ∉ ws := List.count_eq_zero.mp (by omega)
    rw [if_pos last,if_pos (used.mpr (by omega)),List.dedup_cons_of_notMem (by simp [fresh])]
    simp
  · rw [if_neg last]
    by_cases here : p w = true
    · have again : w ∈ ws := List.count_pos_iff.mp (by have := used.mp here; omega)
      rw [if_pos here,List.dedup_cons_of_mem (List.mem_filter.mpr ⟨again,here⟩)]
    · rw [if_neg here]

/-- Releasing vertices in turn takes as much from each degree as the vertex occurs, and enqueues those
    whose degree is used up, where they occur last. -/
private theorem foldl_release (vs : List α) (order : List α) (ws : List α) (known : ∀ w ∈ ws, w ∈ vs)
    (f : α → Int) (enough : ∀ w ∈ ws, (ws.count w : Int) ≤ f w) (queue : List α) :
    ws.foldl release ⟨tabulate vs f,queue,order⟩ =
      ⟨tabulate vs fun v => f v - (ws.count v : Int),
        queue ++ (ws.filter fun w => f w = (ws.count w : Int)).dedup,order⟩ := by
  induction ws generalizing f queue with
  | nil => simp
  | cons w rest ih =>
    have left (v : α) := update_sub_count f w rest v
    have used (v : α) : Function.update f w (f w - 1) v = (rest.count v : Int) ↔ f v = ((w :: rest).count v : Int) := by
      have := left v
      omega
    have enoughLater : ∀ v ∈ rest, (rest.count v : Int) ≤ Function.update f w (f w - 1) v := by
      intro v later
      have := enough v (List.mem_cons_of_mem _ later)
      have := left v
      omega
    rw [List.foldl_cons,release_eq (known w (by simp)),
      ih (fun v later => known v (List.mem_cons_of_mem _ later)) _ enoughLater]
    simp only [left,used,Progress.mk.injEq,true_and,and_true]
    exact dedup_used f w rest queue (enough w (by simp)) _ (by simp)

/-- A step takes the first vertex of the queue and enqueues what it releases. -/
theorem step_eq (vs : List α) (es : List (α × α)) (known : ∀ e ∈ es, e.2 ∈ vs) {order : List α} {v : α}
    (fresh : v ∉ order) (rest : List α) :
    step es (progress vs es order (v :: rest)) = progress vs es (order ++ [v]) (rest ++ released es order v) := by
  have total (w : α) := waiting_take es fresh w
  have inside : ∀ w ∈ successors es v, w ∈ vs := fun w member => known (v,w) (mem_successors.mp member)
  simp only [step,progress]
  rw [foldl_release vs (order ++ [v]) _ inside _ (by intro w _; rw [total w]; omega)]
  simp only [released,Progress.mk.injEq,and_true]
  refine ⟨?_,?_⟩
  · congr 1
    funext w
    rw [total w]; omega
  · congr 2
    apply List.filter_congr
    intro w _
    rw [total w]
    apply decide_eq_decide.mpr
    omega

end InfraGraph.Order
