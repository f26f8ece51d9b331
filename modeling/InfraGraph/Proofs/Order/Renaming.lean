import InfraGraph.Order
import InfraGraph.Proofs.Table

/-!
The queue only compares vertices. A renaming of the vertices that keeps equality, such as the one that
takes a value to what it stands for, commutes with every part of a run. The vertices that a run leaves
over go by the names under which they were given, whatever the edges call them.
-/
namespace InfraGraph.Order
open Table (contains_mapKeys get?_mapKeys update_mapKeys mapKeys)
variable {α β : Type} [BEq α] [BEq β] {f : α → β}

/-- Edges between renamed vertices. -/
def renameEdges (f : α → β) (es : List (α × α)) : List (β × β) := es.map fun e => (f e.1,f e.2)

/-- The progress of a run between renamed vertices. -/
def Progress.rename (f : α → β) (p : Progress α) : Progress β :=
  ⟨p.degrees.mapKeys f,p.queue.map f,p.order.map f⟩

omit [BEq α] [BEq β] in
private theorem keysWhere_rename (holds : Int → Bool) (t : Table α Int) :
    keysWhere holds (t.mapKeys f) = (keysWhere holds t).map f := by
  simp [keysWhere,mapKeys,List.filter_map,Function.comp_def]

variable (faithful : ∀ a b, (f a == f b) = (a == b))
include faithful

private theorem degrees_rename (vs : List α) (es : List (α × α)) :
    degrees (vs.map f) (renameEdges f es) = (degrees vs es).mapKeys f := by
  have fold (t : Table α Int) : (renameEdges f es).foldl (fun t e => t.update e.2 0 (· + 1)) (t.mapKeys f) =
      (es.foldl (fun t e => t.update e.2 0 (· + 1)) t).mapKeys f := by
    induction es generalizing t with
    | nil => rfl
    | cons e rest ih =>
      simp only [renameEdges,List.map_cons,List.foldl_cons] at ih ⊢
      rw [update_mapKeys faithful,ih]
  have begun : (⟨(vs.map f).map fun v => (v,0)⟩ : Table β Int) = (⟨vs.map fun v => (v,0)⟩ : Table α Int).mapKeys f := by
    simp [mapKeys]
  rw [degrees,begun,fold,degrees]

theorem start_rename (vs : List α) (es : List (α × α)) :
    start (vs.map f) (renameEdges f es) = (start vs es).rename f := by
  simp [start,Progress.rename,degrees_rename faithful,keysWhere_rename]

private theorem successors_rename (es : List (α × α)) (v : α) :
    successors (renameEdges f es) (f v) = (successors es v).map f := by
  simp [successors,renameEdges,List.filter_map,Function.comp_def,faithful]

private theorem release_rename (p : Progress α) (v : α) : release (p.rename f) (f v) = (release p v).rename f := by
  simp only [release,Progress.rename,update_mapKeys faithful,get?_mapKeys faithful,Progress.mk.injEq,true_and,and_true]
  split
  · simp
  · rfl

private theorem step_rename (es : List (α × α)) (p : Progress α) :
    step (renameEdges f es) (p.rename f) = (step es p).rename f := by
  obtain ⟨degrees,queue,order⟩ := p
  cases queue with
  | nil => rfl
  | cons v rest =>
    have fold (ws : List α) (q : Progress α) :
        (ws.map f).foldl release (q.rename f) = (ws.foldl release q).rename f := by
      induction ws generalizing q with
      | nil => rfl
      | cons w rest ih => rw [List.map_cons,List.foldl_cons,release_rename faithful,ih,List.foldl_cons]
    have taken : (⟨degrees.mapKeys f,rest.map f,order.map f ++ [f v]⟩ : Progress β) =
        (⟨degrees,rest,order ++ [v]⟩ : Progress α).rename f := by
      simp [Progress.rename]
    simp only [step,Progress.rename,List.map_cons]
    rw [successors_rename faithful,taken,fold]
    rfl

theorem run_rename (es : List (α × α)) (steps : Nat) (p : Progress α) :
    run (renameEdges f es) steps (p.rename f) = (run es steps p).rename f := by
  induction steps generalizing p with
  | zero => rfl
  | succ steps ih => rw [run,step_rename faithful,ih,run]

private theorem arrange_rename (vs : List α) (es : List (α × α)) :
    run (renameEdges f es) (vs.map f).length (start (vs.map f) (renameEdges f es)) =
      (run es vs.length (start vs es)).rename f := by
  rw [List.length_map,start_rename faithful,run_rename faithful]

/-- The order of renamed vertices is the renamed order. -/
theorem order_rename (vs : List α) (es : List (α × α)) :
    (arrange (vs.map f) (renameEdges f es)).order = (arrange vs es).order.map f := by
  rw [arrange,arrange_rename faithful]
  rfl

/-- The renamed vertices that are left over are the renamed ones of those that are left over. -/
theorem unresolved_rename (vs : List α) (es : List (α × α)) :
    (arrange (vs.map f) (renameEdges f es)).unresolved = (arrange vs es).unresolved.map f := by
  rw [arrange,arrange_rename faithful]
  simp only [arrange,Progress.rename,keysWhere_rename]

omit faithful

section Names
variable {es : List (α × α)} {vs : List α} (known : ∀ e ∈ es, vs.any (· == e.2) = true)
include known

private theorem contains_of_keys {t : Table α Int} (keys : t.keys = vs) {e : α × α} (edge : e ∈ es) :
    t.contains e.2 = true := by
  have named := known e edge
  rw [← keys] at named
  simpa [Table.contains,Table.keys,List.any_map,Function.comp_def] using named

private theorem degrees_keys : (degrees vs es).keys = vs := by
  have fold (ds : List (α × α)) (edges : ds ⊆ es) (t : Table α Int) (keys : t.keys = vs) :
      (ds.foldl (fun t e => t.update e.2 0 (· + 1)) t).keys = vs := by
    induction ds generalizing t with
    | nil => exact keys
    | cons e rest ih =>
      have present := contains_of_keys known keys (edges List.mem_cons_self)
      exact ih (fun d later => edges (List.mem_cons_of_mem _ later)) _ ((Table.keys_update present _ _).trans keys)
  exact fold es (List.Subset.refl _) _ (by simp [Table.keys,Function.comp_def])

private theorem step_keys {p : Progress α} (keys : p.degrees.keys = vs) : (step es p).degrees.keys = vs := by
  have fold (ws : List α) (edges : ∀ w ∈ ws, ∃ e ∈ es, e.2 = w) (q : Progress α) (keys : q.degrees.keys = vs) :
      (ws.foldl release q).degrees.keys = vs := by
    induction ws generalizing q with
    | nil => exact keys
    | cons w rest ih =>
      obtain ⟨e,edge,rfl⟩ := edges w (by simp)
      have present := contains_of_keys known keys edge
      exact ih (fun v later => edges v (List.mem_cons_of_mem _ later)) _ ((Table.keys_update present _ _).trans keys)
  unfold step
  split
  · exact keys
  · refine fold _ ?_ _ keys
    intro w member
    obtain ⟨e,edge,rfl⟩ := List.mem_map.mp member
    exact ⟨e,(List.mem_filter.mp edge).1,rfl⟩

theorem unresolved_subset : (arrange vs es).unresolved ⊆ vs := by
  have keys (steps : Nat) (p : Progress α) (keys : p.degrees.keys = vs) : (run es steps p).degrees.keys = vs := by
    induction steps generalizing p with
    | zero => exact keys
    | succ steps ih => exact ih _ (step_keys known keys)
  intro v member
  obtain ⟨e,entry,rfl⟩ := List.mem_map.mp member
  rw [← keys vs.length (start vs es) (degrees_keys known)]
  exact List.mem_map.mpr ⟨e,(List.mem_filter.mp entry).1,rfl⟩

end Names

end InfraGraph.Order
