import InfraGraph.Graph.Partition
import InfraGraph.Proofs.Graph.Sort
import Mathlib.Data.List.Perm.Basic

/-!
What partitioning does, in closed form. The groups are the operations of each key, keys in the order of
their first operations. A live dependency lies inside a group or crosses between two, and those inside one
are the dependencies of its graph. The graph of a group is part of the whole graph, so that it has no cycle
if that has none.
-/
open Relation (TransGen)
namespace InfraGraph.Graph
open Value (sense Sense sense_eq_iff)
open Run (Yields)
open InfraGraph.Order (BelowCycle)

/-! ### Parts of a graph -/

/-- A graph all of whose operations and dependencies belong to another one. -/
structure Within (h g : Graph) : Prop where
  operations : h.operations ⊆ g.operations
  dependencies : h.dependencies ⊆ g.dependencies

namespace Within
variable {h g : Graph} (part : h.Within g)
include part

theorem known {id : Value} (known : h.Known id) : g.Known id := by
  obtain ⟨op,member,same⟩ := known
  exact ⟨op,part.operations member,same⟩

theorem leads {a b : Value} (leads : h.Leads a b) : g.Leads a b := by
  obtain ⟨d,member,live,ends⟩ := leads
  exact ⟨d,part.dependencies member,⟨part.known live.1,part.known live.2⟩,ends⟩

theorem acyclic (acyclic : ¬ g.Cyclic) : ¬ h.Cyclic := acyclic_of_leads (fun _ _ => part.leads) acyclic

theorem keyed (keyed : g.Keyed) : h.Keyed :=
  ⟨fun op member => keyed.ids op (part.operations member),fun d member => keyed.ends d (part.dependencies member)⟩

theorem textual (textual : g.Textual) : h.Textual :=
  ⟨fun op member => textual.ids op (part.operations member),fun d member => textual.ends d (part.dependencies member)⟩

theorem belowCycle {id : Value} (below : BelowCycle h.Leads id) : BelowCycle g.Leads id := by
  obtain ⟨c,round,path⟩ := below
  exact ⟨c,round.lift (fun v => v) fun _ _ => part.leads,path.lift (fun v => v) fun _ _ => part.leads⟩

end Within

/-! ### Groups -/

/-- The operations of each key, in the order of the keys' first operations. -/
def grouped (pk : Operation → Value) (ops : List Operation) : List (Value × List Operation) :=
  (distinct (ops.map pk)).map fun k => (k,ops.filter fun op => pk op == k)

section Groups
variable {pk : Operation → Value}

theorem grouped_keys (ops : List Operation) : (grouped pk ops).map (·.1) = distinct (ops.map pk) := by
  simp [grouped,Function.comp_def]

/-- The group of a key holds the operations of that key, as they are ordered. -/
theorem group_eq {ops : List Operation} {e : Value × List Operation} (entry : e ∈ grouped pk ops) :
    e.2 = ops.filter fun op => pk op == e.1 := by
  obtain ⟨k,_,rfl⟩ := List.mem_map.mp entry
  rfl

theorem group_sublist {ops : List Operation} {e : Value × List Operation} (entry : e ∈ grouped pk ops) :
    e.2.Sublist ops := by
  rw [group_eq entry]
  exact List.filter_sublist

theorem group_exists (pk : Operation → Value) {ops : List Operation} {op : Operation} (member : op ∈ ops) :
    ∃ e ∈ grouped pk ops, op ∈ e.2 := by
  obtain ⟨k,inside,same⟩ := exists_distinct (List.mem_map_of_mem (f := pk) member)
  exact ⟨_,List.mem_map_of_mem inside,List.mem_filter.mpr ⟨member,BEq.symm same⟩⟩

theorem flatMap_filter_perm {α κ : Type} [DecidableEq κ] (f : α → κ) {keys : List κ} (once : keys.Nodup)
    (items : List α) (covered : ∀ a ∈ items, f a ∈ keys) :
    (keys.flatMap fun k => items.filter fun a => f a = k).Perm items := by
  induction keys generalizing items with
  | nil =>
    have none : items = [] := List.eq_nil_iff_forall_not_mem.mpr fun a member => by simpa using covered a member
    simp [none]
  | cons k rest ih =>
    obtain ⟨fresh,once⟩ := List.nodup_cons.mp once
    have others := ih once (items.filter fun a => ¬ f a = k) fun a member => by
      obtain ⟨inside,other⟩ := List.mem_filter.mp member
      exact (List.mem_cons.mp (covered a inside)).resolve_left (by simpa using other)
    have same : (rest.flatMap fun l => (items.filter fun a => ¬ f a = k).filter fun a => f a = l) =
        rest.flatMap fun l => items.filter fun a => f a = l := by
      apply List.flatMap_congr
      intro l later
      rw [List.filter_filter]
      apply List.filter_congr
      intro a _
      have other : l ≠ k := fun equal => fresh (equal ▸ later)
      by_cases holds : f a = l
      · simp [holds,other]
      · simp [holds]
    rw [List.flatMap_cons,← same]
    refine (others.append_left _).trans ?_
    simpa using List.filter_append_perm (fun a => decide (f a = k)) items

theorem flatten_grouped (pk : Operation → Value) (ops : List Operation) : ((grouped pk ops).map (·.2)).flatten.Perm ops := by
  have covered : ∀ op ∈ ops, (pk op).sense ∈ (distinct (ops.map pk)).map sense := by
    intro op member
    obtain ⟨k,inside,same⟩ := exists_distinct (List.mem_map_of_mem (f := pk) member)
    exact List.mem_map.mpr ⟨k,inside,sense_eq_iff.mpr same⟩
  have perm := flatMap_filter_perm (fun op => (pk op).sense) (nodup_senses (distinct_pairwise _)) ops covered
  rw [List.flatMap_map] at perm
  rw [grouped,List.map_map,← List.flatMap_def]
  refine .trans (.of_eq ?_) perm
  apply List.flatMap_congr
  intro k _
  apply List.filter_congr
  intro op _
  rw [Bool.eq_iff_iff,decide_eq_true_iff]
  exact sense_eq_iff.symm

private theorem grouped_old {ops : List Operation} {op : Operation}
    (old : (distinct (ops.map pk)).any (· == pk op) = true) :
    grouped pk (ops ++ [op]) = (grouped pk ops).map fun e => if e.1 == pk op then (e.1,e.2 ++ [op]) else e := by
  simp only [grouped,List.map_append,List.map_cons,List.map_nil,distinct_snoc,List.filter_append]
  rw [if_pos old,List.map_map]
  apply List.map_congr_left
  intro k _
  by_cases same : (k == pk op) = true
  · simp [same,BEq.symm same]
  · have other : ¬ (pk op == k) = true := fun equal => same (BEq.symm equal)
    simp [same,other]

private theorem grouped_new {ops : List Operation} {op : Operation}
    (new : ¬ (distinct (ops.map pk)).any (· == pk op) = true) :
    grouped pk (ops ++ [op]) = grouped pk ops ++ [(pk op,[op])] := by
  have fresh : ∀ k ∈ distinct (ops.map pk), (pk op == k) = false := by
    intro k inside
    by_contra same
    exact new (List.any_eq_true.mpr ⟨k,inside,BEq.symm (by simpa using same)⟩)
  have none : (ops.filter fun other => pk other == pk op) = [] := by
    rw [any_distinct,List.any_eq_true] at new
    rw [List.filter_eq_nil_iff]
    exact fun other member same => new ⟨pk other,List.mem_map_of_mem member,same⟩
  simp only [grouped,List.map_append,List.map_cons,List.map_nil,distinct_snoc,List.filter_append]
  rw [if_neg new,List.map_append]
  congr 1
  · apply List.map_congr_left
    intro k inside
    simp [fresh k inside]
  · simp [none]

/-- One more operation changes the group of its key, which may be new. -/
private theorem grouped_snoc (ops : List Operation) (op : Operation) :
    (⟨grouped pk (ops ++ [op])⟩ : Table Value (List Operation)) =
      (⟨grouped pk ops⟩ : Table Value (List Operation)).update (pk op) [] (· ++ [op]) := by
  have present : (⟨grouped pk ops⟩ : Table Value (List Operation)).contains (pk op) =
      (distinct (ops.map pk)).any (· == pk op) := by
    rw [Table.contains_eq_any]
    exact congrArg (fun keys => keys.any (· == pk op)) (grouped_keys ops)
  unfold Table.update
  rw [present]
  by_cases old : (distinct (ops.map pk)).any (· == pk op) = true
  · rw [if_pos old,grouped_old old]
  · rw [if_neg old,grouped_new old]
    rfl

private theorem groupInto_eq {key : KeyFunction} (t : Table Value (List Operation)) (ops : List Operation)
    (returns : ∀ op ∈ ops, key.groupKey op = .ok (pk op)) :
    groupInto key t ops = .ok (ops.foldl (fun t op => t.update (pk op) [] (· ++ [op])) t) := by
  induction ops generalizing t with
  | nil => rfl
  | cons op rest ih =>
    rw [groupInto,returns op (by simp)]
    exact ih _ fun other later => returns other (List.mem_cons_of_mem _ later)

theorem groups_eq {g : Graph} {key : KeyFunction} (returns : ∀ op ∈ g.operations, key.groupKey op = .ok (pk op)) :
    g.groups key = .ok ⟨grouped pk g.operations⟩ := by
  rw [groups,groupInto_eq _ _ returns]
  congr 1
  generalize g.operations = ops
  induction ops using List.reverseRecOn with
  | nil => rfl
  | append_singleton ops op ih => rw [List.foldl_append,ih,List.foldl_cons,List.foldl_nil,grouped_snoc]

end Groups

/-- A key function gives every operation of a graph a value, and `pk` the key that stands for it. -/
def KeyedBy (g : Graph) (key : KeyFunction) (pk : Operation → Value) : Prop :=
  ∀ op ∈ g.operations, ∃ v, key op = .ok v ∧ v.partitionKey? = some (pk op)

theorem groupKey_eq {key : KeyFunction} {op : Operation} {v k : Value} (returns : key op = .ok v)
    (form : v.partitionKey? = some k) : key.groupKey op = .ok k := by
  simp only [KeyFunction.groupKey,returns,bind,Except.bind,form]
  rfl

theorem KeyedBy.groupKeys {g : Graph} {key : KeyFunction} {pk : Operation → Value} (keys : g.KeyedBy key pk) :
    ∀ op ∈ g.operations, key.groupKey op = .ok (pk op) := by
  intro op member
  obtain ⟨v,returns,form⟩ := keys op member
  exact groupKey_eq returns form

/-! ### Places of dependencies -/

/-- The position of the first group that holds an identifier. -/
def position? (groups : List (List Operation)) (id : Value) : Option Nat :=
  groups.findIdx? fun ops => ops.any (·.id == id)

/-- Where a dependency lies, by the positions of its ends. -/
def placement (groups : List (List Operation)) (d : Dependency) : Placement :=
  match position? groups d.prerequisite,position? groups d.dependent with
  | some first,some second => if first = second then .inside first else .crossing
  | _,_ => .dangling

private theorem get?_positions (position : Nat) (t : Table Value Nat) (groups : List (List Operation)) (id : Value) :
    (groupPositions position t groups).get? id =
      (t.get? id).or ((position? groups id).map (· + position)) := by
  induction groups generalizing position t with
  | nil => simp [groupPositions,position?]
  | cons ops rest ih =>
    rw [groupPositions,ih,Table.get?_foldl_insertNew,Option.or_assoc,position?,position?,List.findIdx?_cons]
    congr 1
    by_cases here : ops.any (·.id == id) = true
    · obtain ⟨op,found⟩ := Option.isSome_iff_exists.mp (List.find?_isSome.mpr (List.any_eq_true.mp here))
      simp [here,found]
    · have none : ops.find? (·.id == id) = none := by
        rw [List.find?_eq_none]
        exact fun op member same => here (List.any_eq_true.mpr ⟨op,member,same⟩)
      rw [if_neg here,none]
      simp [Function.comp_def,Nat.add_right_comm,Nat.add_assoc]

private theorem place_eq (groups : List (List Operation)) {d : Dependency}
    (hashable : d.prerequisite.isHashable = true ∧ d.dependent.isHashable = true) :
    place (groupPositions 0 .empty groups) d = .ok (placement groups d) := by
  have positions (id : Value) : (groupPositions 0 .empty groups).get? id = position? groups id := by
    rw [get?_positions]
    simp
  unfold place placement
  rw [Value.requireHashable_eq_ok.mpr hashable.1,Value.requireHashable_eq_ok.mpr hashable.2,positions,positions]
  cases position? groups d.prerequisite with
  | none => rfl
  | some first =>
    cases position? groups d.dependent with
    | none => rfl
    | some second => rfl

theorem placeAll_eq (groups : List (List Operation)) (ds : List Dependency)
    (hashable : ∀ d ∈ ds, d.prerequisite.isHashable = true ∧ d.dependent.isHashable = true) :
    placeAll (groupPositions 0 .empty groups) ds = .ok (ds.map fun d => (placement groups d,d)) := by
  induction ds with
  | nil => rfl
  | cons d rest ih =>
    rw [placeAll,place_eq groups (hashable d (by simp)),ih fun e later => hashable e (List.mem_cons_of_mem _ later)]
    rfl

private theorem placedAt_eq (groups : List (List Operation)) (ds : List Dependency) (place : Placement) :
    placedAt place (ds.map fun d => (placement groups d,d)) = ds.filter fun d => placement groups d == place := by
  simp [placedAt,List.filter_map,Function.comp_def]

/-- An identifier that an operation has is in a group, and the group at its position holds it. -/
theorem position_exists {g : Graph} (pk : Operation → Value) {id : Value} (known : g.Known id) :
    ∃ i e, position? ((grouped pk g.operations).map (·.2)) id = some i ∧
      (grouped pk g.operations)[i]? = some e ∧ ∃ op ∈ e.2, (op.id == id) = true := by
  obtain ⟨op,member,same⟩ := known
  obtain ⟨e,entry,inside⟩ := group_exists pk member
  have some : (position? ((grouped pk g.operations).map (·.2)) id).isSome = true := by
    rw [position?,List.findIdx?_isSome,List.any_eq_true]
    exact ⟨e.2,List.mem_map_of_mem entry,List.any_eq_true.mpr ⟨op,inside,same⟩⟩
  obtain ⟨i,found⟩ := Option.isSome_iff_exists.mp some
  obtain ⟨bound,holds,_⟩ := List.findIdx?_eq_some_iff_getElem.mp found
  rw [List.length_map] at bound
  rw [List.getElem_map,List.any_eq_true] at holds
  exact ⟨i,_,found,List.getElem?_eq_getElem bound,holds⟩

/-! ### Graphs of the groups -/

/-- The dependencies of a graph that lie in one place among the groups of a key. -/
def lyingIn (g : Graph) (pk : Operation → Value) (place : Placement) : List Dependency :=
  g.dependencies.filter fun d => placement ((grouped pk g.operations).map (·.2)) d == place

/-- The graph of the group at a position. -/
def groupGraph (g : Graph) (pk : Operation → Value) (position : Nat) (e : Value × List Operation) : Graph :=
  assemble e.2 (g.lyingIn pk (.inside position)) (Mapping.single partitionKeyName e.1)

/-- The groups of a key with their graphs. -/
def groupGraphs (g : Graph) (pk : Operation → Value) : List (Value × Graph) :=
  (grouped pk g.operations).mapIdx fun i e => (e.1,g.groupGraph pk i e)

theorem groupGraph_within {g : Graph} {pk : Operation → Value} {e : Value × List Operation}
    (entry : e ∈ grouped pk g.operations) (position : Nat) : (g.groupGraph pk position e).Within g :=
  ⟨(group_sublist entry).subset,List.filter_subset_self _⟩

private theorem subgraphs_eq (g : Graph) (pk : Operation → Value) (position : Nat)
    (groups : List (Value × List Operation)) :
    subgraphs (g.dependencies.map fun d => (placement ((grouped pk g.operations).map (·.2)) d,d)) position groups =
      groups.mapIdx fun i e => (e.1,g.groupGraph pk (position + i) e) := by
  induction groups generalizing position with
  | nil => rfl
  | cons e rest ih =>
    rw [subgraphs,ih,placedAt_eq,List.mapIdx_cons]
    simp only [groupGraph,lyingIn,Nat.add_zero,Nat.add_assoc,Nat.add_comm 1]

private theorem reportDropped_yields (settings : GraphSettings) (crossing : List Dependency) (env : Environment) :
    Yields (reportDropped settings crossing) env (.ok ()) := by
  unfold reportDropped
  split
  · exact Run.yields_log _ _ _
  · exact Run.yields_pure _

/-- Whatever the settings are, the groups decide what a partitioning ends with. -/
theorem partitionBy_ends (g : Graph) (key : KeyFunction) (settings : Option GraphSettings) (env : Environment) :
    Yields (g.partitionBy key settings) env ((g.split key).map Split.partitions) := by
  unfold partitionBy
  cases g.split key with
  | error e => exact (Run.yields_ofExcept _).fails
  | ok parts =>
    exact (Run.yields_ofExcept _).bind (Yields.bind Run.yields_read
      ((reportDropped_yields _ _ env).bind (Yields.bind (Run.yields_log _ _ _) (Run.yields_pure _))))

section Key
variable {g : Graph} {pk : Operation → Value} {key : KeyFunction} (keyed : g.Keyed)
  (returns : ∀ op ∈ g.operations, key.groupKey op = .ok (pk op))
include keyed returns

private theorem split_eq : g.split key = .ok ⟨⟨grouped pk g.operations⟩,
    g.dependencies.map fun d => (placement ((grouped pk g.operations).map (·.2)) d,d)⟩ := by
  have placed := placeAll_eq ((grouped pk g.operations).map (·.2)) g.dependencies keyed.ends
  simp only [split,groups_eq returns,bind,Except.bind,Table.values,placed]
  rfl

theorem crossEdges_eq : g.crossEdges key = .ok (g.lyingIn pk .crossing) := by
  rw [crossEdges,split_eq keyed returns,lyingIn,← placedAt_eq]
  rfl

theorem partitionBy_yields (settings : Option GraphSettings) (env : Environment) :
    Yields (g.partitionBy key settings) env (.ok ⟨g.groupGraphs pk⟩) := by
  have ends := partitionBy_ends g key settings env
  rw [split_eq keyed returns,Except.map,Split.partitions,subgraphs_eq] at ends
  simpa only [Nat.zero_add,groupGraphs] using ends

end Key

/-- A live dependency crosses between groups, or it is a live dependency of the graph of one. -/
theorem dependency_placed {g : Graph} (pk : Operation → Value) {d : Dependency} (member : d ∈ g.dependencies)
    (live : g.Live d) : d ∈ g.lyingIn pk .crossing ∨ ∃ (i : Nat) (e : Value × List Operation),
      (grouped pk g.operations)[i]? = some e ∧ d ∈ (g.groupGraph pk i e).dependencies ∧ (g.groupGraph pk i e).Live d := by
  obtain ⟨i,e,first,place,named⟩ := position_exists pk live.1
  obtain ⟨k,e',second,place',named'⟩ := position_exists pk live.2
  by_cases same : i = k
  · subst same
    obtain rfl := Option.some.inj (place.symm.trans place')
    refine .inr ⟨i,e,place,List.mem_filter.mpr ⟨member,?_⟩,named,named'⟩
    simp [placement,first,second]
  · refine .inl (List.mem_filter.mpr ⟨member,?_⟩)
    simp [placement,first,second,same]

end InfraGraph.Graph
