import InfraGraph.Graph.Validation
import InfraGraph.Proofs.Order.Cycle
import InfraGraph.Proofs.Order.Renaming
import InfraGraph.Proofs.Run
import InfraGraph.Proofs.Value.Distinct

/-!
What a graph says about identifiers: which of them name operations, which dependencies are live, and
where live dependencies lead. The index and the run over the graph are read in these terms, the run
after its vertices are renamed to what they stand for.
-/
open Relation (TransGen ReflTransGen)
namespace InfraGraph.Graph
open Value (sense Sense sense_eq_iff sense_beq)
open InfraGraph.Order (Edge BelowCycle Finished renameEdges order_rename unresolved_rename)

/-- An identifier names an operation. -/
def Known (g : Graph) (id : Value) : Prop := ∃ op ∈ g.operations, (op.id == id) = true
/-- Both ends of a dependency name operations. -/
def Live (g : Graph) (d : Dependency) : Prop := g.Known d.prerequisite ∧ g.Known d.dependent
/-- A live dependency leads from one identifier to another. -/
def Leads (g : Graph) (a b : Value) : Prop :=
  ∃ d ∈ g.dependencies, g.Live d ∧ (d.prerequisite == a) = true ∧ (d.dependent == b) = true
/-- Live dependencies lead from some identifier back to it. -/
def Cyclic (g : Graph) : Prop := ∃ id, TransGen g.Leads id id

/-- Whatever a graph names can be looked up. -/
structure Keyed (g : Graph) : Prop where
  ids : ∀ op ∈ g.operations, op.id.isHashable = true
  ends : ∀ d ∈ g.dependencies, d.prerequisite.isHashable = true ∧ d.dependent.isHashable = true
/-- The identifiers of the operations are texts; whatever the dependencies name can be looked up. -/
structure Textual (g : Graph) : Prop where
  ids : ∀ op ∈ g.operations, op.id.isText = true
  ends : ∀ d ∈ g.dependencies, d.prerequisite.isHashable = true ∧ d.dependent.isHashable = true

theorem Textual.keyed {g : Graph} (textual : g.Textual) : g.Keyed :=
  ⟨fun op member => Value.hashable_of_text (textual.ids op member),textual.ends⟩

instance (g : Graph) (id : Value) : Decidable (g.Known id) :=
  inferInstanceAs (Decidable (∃ op ∈ g.operations, (op.id == id) = true))
instance (g : Graph) (d : Dependency) : Decidable (g.Live d) :=
  inferInstanceAs (Decidable (g.Known d.prerequisite ∧ g.Known d.dependent))

/-! ### Graphs that are built -/

theorem requireIds_ok {ops : List Operation} (hashable : ∀ op ∈ ops, op.id.isHashable = true) :
    requireIds ops = .ok () := by
  induction ops with
  | nil => rfl
  | cons op rest ih =>
    rw [requireIds,Value.requireHashable_eq_ok.mpr (hashable op (by simp)),
      ih fun other later => hashable other (List.mem_cons_of_mem _ later)]
    rfl

theorem create_ok {ops : List Operation} (hashable : ∀ op ∈ ops, op.id.isHashable = true) (ds : List Dependency)
    (metadata : Mapping) : create ops ds metadata = .ok (assemble ops ds metadata) := by
  rw [create,requireIds_ok hashable]
  rfl

theorem eq_of_create {ops : List Operation} {ds : List Dependency} {metadata : Mapping} {g : Graph}
    (created : create ops ds metadata = .ok g) : g = assemble ops ds metadata := by
  obtain ⟨_,_,made⟩ := bind_eq_ok.mp created
  exact (Except.ok.inj made).symm

/-! ### The index -/

/-- Operations have the same identifier. -/
def sharesId (a b : Operation) : Bool := a.id == b.id

theorem sharesId_equivalence : Equivalence fun a b => sharesId a b = true where
  refl _ := BEq.rfl
  symm := BEq.symm
  trans := BEq.trans

/-- The index holds the first operation of each identifier under it. -/
theorem indexOf_eq (ops : List Operation) : indexOf ops = ⟨(firsts sharesId ops).map fun op => (op.id,op)⟩ := by
  induction ops using List.reverseRecOn with
  | nil => rfl
  | append_singleton ops op ih =>
    have present : (indexOf ops).contains op.id = (firsts sharesId ops).any (sharesId · op) := by
      rw [ih,Table.contains,List.any_map]
      rfl
    have entered : indexOf (ops ++ [op]) = (indexOf ops).insertNew op.id op := by
      rw [indexOf,List.foldl_append]
      rfl
    rw [entered,Table.insertNew,present,ih,firsts_snoc]
    split
    · rfl
    · rw [List.map_append]
      rfl

theorem get?_index (g : Graph) (id : Value) : g.index.get? id = g.operations.find? (·.id == id) := by
  rw [g.index_eq,indexOf,Table.get?_foldl_insertNew]
  simp

theorem contains_index (g : Graph) (id : Value) : g.index.contains id = decide (g.Known id) := by
  rw [← Table.isSome_get?,get?_index,Bool.eq_iff_iff,List.find?_isSome,decide_eq_true_iff]
  rfl

theorem ids_firsts (g : Graph) : g.ids = (firsts sharesId g.operations).map (·.id) := by
  rw [ids,g.index_eq,indexOf_eq,Table.keys,List.map_map]
  rfl

/-- The identifiers are listed once, in the order of their first occurrences. -/
theorem ids_eq (g : Graph) : g.ids = distinct (g.operations.map (·.id)) := by
  rw [ids_firsts,distinct_eq,← firsts_map]
  rfl

theorem ids_pairwise (g : Graph) : g.ids.Pairwise fun a b => (a == b) = false :=
  g.ids_eq ▸ distinct_pairwise _

/-- Operations with different identifiers are told apart by them. -/
theorem ids_once {ops : List Operation} (different : ops.Pairwise fun a b => (a.id == b.id) = false) :
    (ops.map fun op => op.id.sense).Nodup :=
  nodup_senses_map different

/-- An operation that its identifier finds lends its identifier to the list. -/
theorem id_mem_ids {g : Graph} {op : Operation} (found : g.operations.find? (·.id == op.id) = some op) :
    op.id ∈ g.ids := by
  rw [← find?_firsts (r := sharesId) fun a b same => BEq.congr_left same] at found
  rw [ids_firsts]
  exact List.mem_map_of_mem (List.mem_of_find?_eq_some found)

/-! ### Live dependencies -/

theorem find?_eq (g : Graph) {id : Value} (hashable : id.isHashable = true) :
    g.find? id = .ok (g.operations.find? (·.id == id)) := by
  rw [find?,Value.requireHashable_eq_ok.mpr hashable,get?_index]
  rfl

private theorem knows_eq (g : Graph) {id : Value} (hashable : id.isHashable = true) :
    g.knows id = .ok (decide (g.Known id)) := by
  rw [knows,Value.requireHashable_eq_ok.mpr hashable,contains_index]
  rfl

private theorem isLive_eq (g : Graph) {d : Dependency} (first : d.prerequisite.isHashable = true)
    (second : d.dependent.isHashable = true) : g.isLive d = .ok (decide (g.Live d)) := by
  rw [isLive,knows_eq g first,knows_eq g second]
  by_cases known : g.Known d.prerequisite
  · simp [known,Live,bind,Except.bind]
  · simp [known,Live,bind,Except.bind,pure,Except.pure]

private theorem sortOut_eq (g : Graph) (ds : List Dependency)
    (hashable : ∀ d ∈ ds, d.prerequisite.isHashable = true ∧ d.dependent.isHashable = true) :
    g.sortOut ds = .ok (ds.filter fun d => g.Live d,ds.filter fun d => ¬ g.Live d) := by
  induction ds with
  | nil => rfl
  | cons d rest ih =>
    obtain ⟨first,second⟩ := hashable d (by simp)
    rw [sortOut,isLive_eq g first second,ih fun e later => hashable e (List.mem_cons_of_mem _ later)]
    by_cases live : g.Live d
    · simp [live,bind,Except.bind,pure,Except.pure]
    · simp [live,bind,Except.bind,pure,Except.pure]

/-- A lookup that returns has told whether an identifier is known. -/
private theorem knows_of_ok {g : Graph} {id : Value} {known : Bool} (returned : g.knows id = .ok known) :
    id.isHashable = true ∧ known = decide (g.Known id) := by
  obtain ⟨_,required,_⟩ := bind_eq_ok.mp returned
  have hashable := Value.requireHashable_eq_ok.mp required
  rw [knows_eq g hashable] at returned
  exact ⟨hashable,(Except.ok.inj returned).symm⟩

private theorem isLive_of_ok {g : Graph} {d : Dependency} {live : Bool} (returned : g.isLive d = .ok live) :
    live = decide (g.Live d) := by
  obtain ⟨known,first,returned⟩ := bind_eq_ok.mp returned
  have is := (knows_of_ok first).2
  cases known with
  | false =>
    have unknown : ¬ g.Known d.prerequisite := by simpa using is
    cases returned
    simp [Live,unknown]
  | true =>
    have known : g.Known d.prerequisite := by simpa using is
    simp [(knows_of_ok returned).2,Live,known]

private theorem hashable_of_live {g : Graph} {d : Dependency} (live : g.isLive d = .ok true) :
    d.prerequisite.isHashable = true ∧ d.dependent.isHashable = true := by
  obtain ⟨known,first,returned⟩ := bind_eq_ok.mp live
  cases known with
  | false => cases returned
  | true => exact ⟨(knows_of_ok first).1,(knows_of_ok returned).1⟩

/-- Sorting out goes through the dependencies one by one. -/
private theorem sortOut_cons {g : Graph} {d : Dependency} {rest : List Dependency}
    {sorted : List Dependency × List Dependency} (returned : g.sortOut (d :: rest) = .ok sorted) :
    ∃ live later, g.isLive d = .ok live ∧ g.sortOut rest = .ok later ∧
      sorted = if live then (d :: later.1,later.2) else (later.1,d :: later.2) := by
  obtain ⟨live,first,returned⟩ := bind_eq_ok.mp returned
  obtain ⟨later,others,returned⟩ := bind_eq_ok.mp returned
  exact ⟨live,later,first,others,(Except.ok.inj returned).symm⟩

private theorem sortOut_of_ok {g : Graph} {ds : List Dependency} {sorted : List Dependency × List Dependency}
    (returned : g.sortOut ds = .ok sorted) :
    sorted = (ds.filter fun d => g.Live d,ds.filter fun d => ¬ g.Live d) := by
  induction ds generalizing sorted with
  | nil => exact (Except.ok.inj returned).symm
  | cons d rest ih =>
    obtain ⟨live,later,first,others,rfl⟩ := sortOut_cons returned
    rw [ih others,isLive_of_ok first]
    by_cases live : g.Live d
    · simp [live]
    · simp [live]

private theorem hashable_of_sortOut {g : Graph} {ds lives : List Dependency} (returned : g.sortOut ds = .ok (lives,[])) :
    ∀ d ∈ ds, d.prerequisite.isHashable = true ∧ d.dependent.isHashable = true := by
  induction ds generalizing lives with
  | nil => simp
  | cons d rest ih =>
    obtain ⟨live,⟨front,danglings⟩,first,others,sorted⟩ := sortOut_cons returned
    cases live with
    | false => cases sorted
    | true =>
      cases sorted
      exact List.forall_mem_cons.mpr ⟨hashable_of_live first,ih others⟩

/-- If it turns out that no dependency dangles, both ends of each have been looked up. -/
theorem hashable_of_dangling {g : Graph} (returned : g.danglingDependencies = .ok []) :
    ∀ d ∈ g.dependencies, d.prerequisite.isHashable = true ∧ d.dependent.isHashable = true := by
  obtain ⟨⟨lives,danglings⟩,sorted,returned⟩ := bind_eq_ok.mp returned
  cases returned
  exact hashable_of_sortOut sorted

/-- The ends of the live dependencies, in order. -/
def liveEnds (g : Graph) : List (Value × Value) := (g.dependencies.filter fun d => g.Live d).map ends

theorem arrangement_eq {g : Graph} (keyed : g.Keyed) : g.arrangement = .ok (Order.arrange g.ids g.liveEnds) := by
  rw [arrangement,liveDependencies,sortOut_eq g _ keyed.ends]
  rfl

/-- Whatever the dependencies name, an arrangement that is returned is that of the live ones. -/
theorem arrangement_of_ok {g : Graph} {outcome : Order.Outcome Value} (returned : g.arrangement = .ok outcome) :
    outcome = Order.arrange g.ids g.liveEnds := by
  obtain ⟨live,told,returned⟩ := bind_eq_ok.mp returned
  obtain ⟨_,parts,kept⟩ := bind_eq_ok.mp told
  obtain rfl := sortOut_of_ok parts
  cases kept
  exact (Except.ok.inj returned).symm

theorem dangling_eq {g : Graph} (keyed : g.Keyed) :
    g.danglingDependencies = .ok (g.dependencies.filter fun d => ¬ g.Live d) := by
  rw [danglingDependencies,sortOut_eq g _ keyed.ends]
  rfl

/-! ### Vertices and edges up to sameness -/

/-- What the identifiers stand for. -/
def vertices (g : Graph) : List Sense := g.ids.map sense
/-- The live dependencies between what identifiers stand for. -/
def edges (g : Graph) : List (Sense × Sense) := renameEdges sense g.liveEnds

theorem vertices_nodup (g : Graph) : g.vertices.Nodup := nodup_senses g.ids_pairwise

theorem mem_vertices (g : Graph) (id : Value) : id.sense ∈ g.vertices ↔ g.Known id := by
  have any : (g.operations.map (·.id)).any (· == id) = true ↔ g.Known id := by
    simp [Known]
  rw [← any,← any_distinct,← ids_eq,vertices,List.mem_map,List.any_eq_true]
  exact exists_congr fun v => and_congr_right fun _ => sense_eq_iff

theorem known_congr {g : Graph} {a b : Value} (equal : (a == b) = true) : g.Known a ↔ g.Known b := by
  rw [← mem_vertices,← mem_vertices,sense_eq_iff.mpr equal]

theorem mem_edges (g : Graph) (a b : Value) : (a.sense,b.sense) ∈ g.edges ↔ g.Leads a b := by
  simp only [edges,renameEdges,liveEnds,List.map_map,List.mem_map,List.mem_filter,decide_eq_true_eq,
    Function.comp_apply,Prod.mk.injEq,sense_eq_iff,ends,Leads,and_assoc]

theorem edges_known (g : Graph) : ∀ e ∈ g.edges, e.1 ∈ g.vertices ∧ e.2 ∈ g.vertices := by
  intro e edge
  simp only [edges,renameEdges,liveEnds,List.map_map,List.mem_map,List.mem_filter,decide_eq_true_eq] at edge
  obtain ⟨d,⟨_,first,second⟩,rfl⟩ := edge
  exact ⟨(g.mem_vertices _).mpr first,(g.mem_vertices _).mpr second⟩

theorem known_of_leads {g : Graph} {a b : Value} (leads : g.Leads a b) : g.Known a ∧ g.Known b := by
  have inside := g.edges_known _ ((g.mem_edges a b).mpr leads)
  exact ⟨(g.mem_vertices a).mp inside.1,(g.mem_vertices b).mp inside.2⟩

theorem transGen_iff (g : Graph) (a b : Value) :
    TransGen g.Leads a b ↔ TransGen (Edge g.edges) a.sense b.sense := by
  constructor
  · exact fun path => path.lift sense fun u v leads => (g.mem_edges u v).mpr leads
  · intro path
    generalize target : b.sense = t at path
    induction path generalizing b with
    | single edge =>
      subst target
      exact .single ((g.mem_edges a b).mp edge)
    | @tail m t _ edge ih =>
      subst target
      obtain ⟨middle,rfl⟩ := Quotient.exists_rep m
      exact (ih middle rfl).tail ((g.mem_edges middle b).mp edge)

theorem belowCycle_iff (g : Graph) (id : Value) : BelowCycle g.Leads id ↔ BelowCycle (Edge g.edges) id.sense := by
  constructor
  · rintro ⟨c,round,path⟩
    exact ⟨c.sense,(g.transGen_iff c c).mp round,path.lift sense fun u v leads => (g.mem_edges u v).mpr leads⟩
  · rintro ⟨x,round,path⟩
    obtain ⟨c,rfl⟩ := Quotient.exists_rep x
    have around := (g.transGen_iff c c).mpr round
    rcases Relation.reflTransGen_iff_eq_or_transGen.mp path with same | onward
    · -- An identifier that is the same as one on the cycle is on it too.
      have same : id.sense = c.sense := same
      exact ⟨id,(g.transGen_iff id id).mpr (by rw [same]; exact round),.refl⟩
    · exact ⟨c,around,((g.transGen_iff c id).mpr onward).to_reflTransGen⟩

/-- There is a cycle as soon as some identifier is below one. -/
theorem cyclic_iff (g : Graph) : g.Cyclic ↔ ∃ id, BelowCycle g.Leads id := by
  constructor
  · rintro ⟨id,round⟩; exact ⟨id,id,round,.refl⟩
  · rintro ⟨_,c,round,_⟩; exact ⟨c,round⟩

theorem acyclic_of_leads {g h : Graph} (leads : ∀ a b, h.Leads a b → g.Leads a b) (acyclic : ¬ g.Cyclic) : ¬ h.Cyclic := by
  rintro ⟨id,round⟩
  exact acyclic ⟨id,round.lift (fun v => v) leads⟩

theorem known_of_belowCycle {g : Graph} {id : Value} (below : BelowCycle g.Leads id) : g.Known id := by
  obtain ⟨c,round,path⟩ := below
  rcases path.cases_tail with rfl | ⟨_,_,leads⟩
  · obtain ⟨_,_,leads⟩ := TransGen.tail'_iff.mp round
    exact (known_of_leads leads).2
  · exact (known_of_leads leads).2

end InfraGraph.Graph
