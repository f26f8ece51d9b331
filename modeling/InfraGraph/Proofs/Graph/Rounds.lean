import InfraGraph.Proofs.Graph.Growth

/-!
The rounds of the queue over a graph. Between two rounds the degree of an identifier counts the live dependencies that enter it
from what is not taken yet, and nothing is taken or waits in the queue twice. So there are no more rounds than identifiers, and
what is taken at the end and what is left over are all of them.
-/
namespace InfraGraph.Order
variable {α : Type} [BEq α] {es : List (α × α)}

theorem run_add (m n : Nat) (p : Progress α) : run es (m + n) p = run es n (run es m p) := by
  induction m generalizing p with
  | zero => rw [Nat.zero_add,run]
  | succ m ih => rw [Nat.succ_add,run,ih,run]

/-- An empty queue ends a run. -/
theorem run_of_empty {p : Progress α} (empty : p.queue = []) (steps : Nat) : run es steps p = p := by
  induction steps with
  | zero => rfl
  | succ steps ih =>
    have idle : step es p = p := by simp [step,empty]
    rw [run,idle,ih]

private theorem foldl_release_order (vs : List α) (p : Progress α) : (vs.foldl release p).order = p.order := by
  induction vs generalizing p with
  | nil => rfl
  | cons v rest ih => exact ih _

/-- A step takes what waits first. -/
theorem step_order {p : Progress α} {v : α} {rest : List α} (queue : p.queue = v :: rest) :
    (step es p).order = p.order ++ [v] := by
  rw [step,queue]
  exact foldl_release_order _ _

end InfraGraph.Order

namespace InfraGraph.Graph
open Value (sense Sense sense_eq_iff sense_beq)
open InfraGraph.Order (Progress keysWhere)
variable {g : Graph}

/-- Where the queue over a graph stands after a number of rounds. -/
def progress (g : Graph) (rounds : Nat) : Progress Value := Order.run g.liveEnds rounds (Order.start g.ids g.liveEnds)

/-- How many live dependencies enter an identifier from one that is not taken. -/
def entering (g : Graph) (taken : List Value) (id : Value) : Nat :=
  g.dependencies.countP fun d => g.Live d ∧ (d.dependent == id) = true ∧ taken.any (· == d.prerequisite) = false

/-- What holds between two rounds. -/
structure Steady (g : Graph) (p : Progress Value) : Prop where
  known : ∀ id ∈ p.order ++ p.queue, g.Known id
  once : (p.order ++ p.queue).Pairwise fun a b => (a == b) = false
  degrees : ∀ id, g.Known id → p.degrees.get? id = some (g.entering p.order id : Int)
  nonnegative : ∀ e ∈ p.degrees.entries, 0 ≤ e.2
  free : ∀ id, g.Known id → (Among (p.order ++ p.queue) id ↔ p.degrees.get? id = some 0)

theorem among_iff {ids : List Value} {id : Value} : Among ids id ↔ id.sense ∈ ids.map sense := by
  rw [Among,List.mem_map]
  exact exists_congr fun v => and_congr_right fun _ => sense_eq_iff.symm

theorem pairwise_iff_nodup {ids : List Value} :
    (ids.Pairwise fun a b => (a == b) = false) ↔ (ids.map sense).Nodup := by
  rw [List.Nodup,List.pairwise_map]
  simp only [ne_eq,sense_eq_iff,Bool.not_eq_true]

/-! ### One round after another -/

private theorem progress_rename (g : Graph) (rounds : Nat) :
    (g.progress rounds).rename sense = Order.run g.edges rounds (Order.start g.vertices g.edges) := by
  rw [vertices,edges,Order.start_rename sense_beq,Order.run_rename sense_beq]
  rfl

private theorem edges_inside (g : Graph) : ∀ e ∈ g.edges, e.2 ∈ g.vertices := fun e edge => (g.edges_known e edge).2

/-- What a round keeps holds after any number of rounds, with identifiers taken for what they stand for. -/
private theorem progress_invariant (g : Graph) (rounds : Nat) :
    Order.Invariant g.vertices g.edges ((g.progress rounds).rename sense) := by
  rw [progress_rename]
  exact Order.run_invariant g.edges_inside rounds (Order.start_invariant g.vertices_nodup g.edges_inside)

theorem waiting_edges (g : Graph) (taken : List Value) (id : Value) :
    Order.waiting g.edges (taken.map sense) id.sense = g.entering taken id := by
  have absent (v : Value) : v.sense ∉ taken.map sense ↔ taken.any (· == v) = false := by
    rw [← among_iff,Among,← Bool.not_eq_true,List.any_eq_true]
  simp only [Order.waiting,edges,Order.renameEdges,liveEnds,List.countP_map,List.countP_filter,entering]
  apply List.countP_congr
  intro d _
  simp only [Function.comp_apply,ends,sense_eq_iff,absent,Bool.and_eq_true,decide_eq_true_eq]
  tauto

theorem progress_steady (g : Graph) (rounds : Nat) : g.Steady (g.progress rounds) := by
  have inv := g.progress_invariant rounds
  set p := g.progress rounds
  have degrees : p.degrees.mapKeys sense = Table.tabulate g.vertices fun x =>
      (Order.waiting g.edges (p.order.map sense) x : Int) := congrArg Progress.degrees inv.degrees
  have held (id : Value) (known : g.Known id) : p.degrees.get? id = some (g.entering p.order id : Int) := by
    rw [← Table.get?_mapKeys sense_beq,degrees,Table.get?_tabulate ((g.mem_vertices id).mpr known),waiting_edges]
  have emission : p.order.map sense ++ p.queue.map sense =
      Order.sources g.vertices g.edges ++ Order.emitted g.edges [] (p.order.map sense) := inv.emission
  refine ⟨?_,?_,held,?_,?_⟩
  · intro id member
    have inside : id.sense ∈ p.order.map sense ++ p.queue.map sense := List.map_append ▸ List.mem_map_of_mem member
    exact (g.mem_vertices id).mp (Order.emission_known g.edges_inside (emission ▸ inside))
  · rw [pairwise_iff_nodup,List.map_append]
    exact inv.distinct
  · intro e entry
    have renamed : (e.1.sense,e.2) ∈ (p.degrees.mapKeys sense).entries := List.mem_map_of_mem entry
    rw [degrees] at renamed
    obtain ⟨x,_,is⟩ := List.mem_map.mp renamed
    rw [← (Prod.mk.inj is).2]
    exact Int.natCast_nonneg _
  · intro id known
    rw [held id known,among_iff,List.map_append,emission,Order.mem_emission ((g.mem_vertices id).mpr known),waiting_edges]
    simp

/-! ### The last round -/

theorem progress_queue_ids (g : Graph) : (g.progress g.ids.length).queue = [] := by
  have empty := Order.queue_empty g.vertices_nodup g.edges_inside
  rw [← progress_rename,vertices,List.length_map] at empty
  exact List.map_eq_nil_iff.mp empty

/-- A round with a queue takes what waits first, which was not taken before. -/
theorem progress_succ {rounds : Nat} {v : Value} {rest : List Value} (queue : (g.progress rounds).queue = v :: rest) :
    (g.progress (rounds + 1)).order = (g.progress rounds).order ++ [v] := by
  rw [progress,Order.run_add]
  exact Order.step_order queue

/-- What every round before it takes is taken after some rounds. -/
theorem progress_length {rounds : Nat} (goes : ∀ r < rounds, (g.progress r).queue ≠ []) :
    (g.progress rounds).order.length = rounds := by
  induction rounds with
  | zero => rfl
  | succ rounds ih =>
    obtain ⟨v,rest,queue⟩ := List.exists_cons_of_ne_nil (goes rounds (by omega))
    rw [progress_succ queue,List.length_append,ih fun r less => goes r (by omega),List.length_singleton]

/-- The end of a run: what is taken and what is left over. -/
def outcomeAt (g : Graph) (rounds : Nat) : Order.Outcome Value :=
  ⟨(g.progress rounds).order,keysWhere (fun n => 0 < n) (g.progress rounds).degrees⟩

theorem arrange_of_empty {rounds : Nat} (few : rounds ≤ g.ids.length) (empty : (g.progress rounds).queue = []) :
    Order.arrange g.ids g.liveEnds = g.outcomeAt rounds := by
  have idle : g.progress g.ids.length = g.progress rounds := by
    have whole : g.ids.length = rounds + (g.ids.length - rounds) := by omega
    rw [whole,progress,Order.run_add]
    exact Order.run_of_empty empty _
  rw [outcomeAt,← idle]
  rfl

/-- What is ordered and what is left over are together all identifiers, each once. -/
theorem arrange_complete (g : Graph) {outcome : Order.Outcome Value} (is : outcome = Order.arrange g.ids g.liveEnds) :
    ((outcome.order ++ outcome.unresolved).Pairwise fun a b => (a == b) = false) ∧
      ∀ id, Among (outcome.order ++ outcome.unresolved) id ↔ g.Known id := by
  obtain rfl := is
  have senses : ((Order.arrange g.ids g.liveEnds).order ++ (Order.arrange g.ids g.liveEnds).unresolved).map sense =
      g.sortedIds.map sense ++ g.vertices.filter fun x => x ∉ g.sortedIds.map sense := by
    rw [List.map_append,unresolved_senses]
    rfl
  constructor
  · rw [pairwise_iff_nodup,senses]
    refine List.nodup_append.mpr ⟨g.sortedIds_finished.distinct,g.vertices_nodup.filter _,?_⟩
    rintro x ordered y left rfl
    exact of_decide_eq_true (List.mem_filter.mp left).2 ordered
  · intro id
    rw [among_iff,senses,← mem_vertices,List.mem_append,List.mem_filter,decide_eq_true_eq]
    constructor
    · rintro (ordered | left)
      · exact g.sortedIds_finished.mem_vertices g.edges_inside ordered
      · exact left.1
    · exact fun inside => or_iff_not_imp_left.mpr fun absent => ⟨inside,absent⟩

/-- Between rounds nothing is taken or waits twice, the degree of each identifier counts what enters it from whatever is not
    taken, and it is zero exactly for what is taken or waits. The queue is empty after at most as many rounds as there are
    identifiers, each of which takes what waits first. Then what is taken is the order, what has a degree left is left over,
    and both together are all identifiers, each once. -/
theorem arrangement_rounds (g : Graph) (keyed : g.Keyed) :
    (∀ rounds, g.Steady (g.progress rounds)) ∧
    ∃ rounds ≤ g.ids.length,
      (∀ r < rounds, ∃ v rest, (g.progress r).queue = v :: rest ∧
        (g.progress (r + 1)).order = (g.progress r).order ++ [v]) ∧
      (g.progress rounds).queue = [] ∧ (g.progress rounds).order.length = rounds ∧
      ∃ outcome, g.arrangement = .ok outcome ∧ outcome.order = (g.progress rounds).order ∧
        outcome.unresolved = keysWhere (fun n => 0 < n) (g.progress rounds).degrees ∧
        ((outcome.order ++ outcome.unresolved).Pairwise fun a b => (a == b) = false) ∧
        ∀ id, Among (outcome.order ++ outcome.unresolved) id ↔ g.Known id := by
  refine ⟨g.progress_steady,?_⟩
  have ends : ∃ rounds, (g.progress rounds).queue = [] := ⟨_,g.progress_queue_ids⟩
  classical
  have empty := Nat.find_spec ends
  have goes (r : Nat) (less : r < Nat.find ends) : (g.progress r).queue ≠ [] := Nat.find_min ends less
  have few : Nat.find ends ≤ g.ids.length := Nat.find_min' ends g.progress_queue_ids
  have arranged := arrange_of_empty few empty
  refine ⟨Nat.find ends,few,?_,empty,progress_length goes,g.outcomeAt _,?_,rfl,rfl,g.arrange_complete arranged.symm⟩
  · intro r less
    obtain ⟨v,rest,queue⟩ := List.exists_cons_of_ne_nil (goes r less)
    exact ⟨v,rest,queue,progress_succ queue⟩
  · rw [arrangement_eq keyed,arranged]

/-- The queue over `tangle`, where a loop, a pair of cycles and a parallel dependency keep all but one identifier waiting. -/
theorem arrangement_rounds_tangle : tangle.Keyed ∧ tangle.Steady (tangle.progress 1) ∧
    ∃ rounds ≤ 4, (tangle.progress rounds).queue = [] ∧ (tangle.progress rounds).order = [.text "start"] := by
  obtain ⟨steady,rounds,few,_,empty,_,outcome,arranged,order,_⟩ := arrangement_rounds tangle tangle_textual.keyed
  have is : tangle.arrangement = .ok ⟨[.text "start"],[.text "after",.text "a",.text "b"]⟩ := rfl
  cases is.symm.trans arranged
  exact ⟨tangle_textual.keyed,steady 1,rounds,few,empty,order.symm⟩

end InfraGraph.Graph
