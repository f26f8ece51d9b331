import InfraGraph.Proofs.Graph.Partition
import InfraGraph.Proofs.Graph.Validation

/-!
How partitioning splits a graph, place by place. Every operation falls to the group of its key, and every
dependency to one group, to those that cross or to those that dangle; what falls to one of these keeps its
order. Where operations share an identifier, a dependency goes by the first operations with its ends when the
groups are written one after another.
-/
namespace InfraGraph.Graph
open Value (sense Sense sense_eq_iff)
open Run (Yields)
variable {g : Graph} {pk : Operation → Value}

/-! ### Groups by their keys -/

/-- The position of the group of a key. -/
def groupOf (g : Graph) (pk : Operation → Value) (k : Value) : Nat :=
  (distinct (g.operations.map pk)).findIdx (· == k)

/-- The groups of a graph, written one after another. -/
def regrouped (g : Graph) (pk : Operation → Value) : List Operation :=
  (grouped pk g.operations).flatMap (·.2)

theorem groupOf_congr {a b : Value} (equal : (a == b) = true) : g.groupOf pk a = g.groupOf pk b := by
  unfold groupOf
  congr 1
  funext k
  exact BEq.congr_right equal

/-- A group is found at its position by any form of its key. -/
theorem groupOf_eq {i : Nat} {e : Value × List Operation} (place : (grouped pk g.operations)[i]? = some e) {k : Value}
    (equal : (k == e.1) = true) : g.groupOf pk k = i := by
  rw [groupOf_congr equal,groupOf]
  have key : (distinct (g.operations.map pk))[i]? = some e.1 := by
    rw [← grouped_keys,List.getElem?_map,place]
    rfl
  obtain ⟨bound,is⟩ := List.getElem?_eq_some_iff.mp key
  refine (List.findIdx_eq bound).mpr ⟨by rw [is]; exact BEq.rfl,?_⟩
  intro j less
  have apart := List.pairwise_iff_getElem.mp (distinct_pairwise (g.operations.map pk)) j i (by omega) bound less
  rwa [is] at apart

theorem group_at (pk : Operation → Value) {op : Operation} (member : op ∈ g.operations) :
    ∃ e, (grouped pk g.operations)[g.groupOf pk (pk op)]? = some e ∧ (pk op == e.1) = true := by
  obtain ⟨e,entry,inside⟩ := group_exists pk member
  have same : (pk op == e.1) = true := by
    rw [group_eq entry] at inside
    exact (List.mem_filter.mp inside).2
  obtain ⟨i,place⟩ := List.mem_iff_getElem?.mp entry
  rw [groupOf_eq place same]
  exact ⟨e,place,same⟩

/-- The group of an operation is the one whose key is that of the operation. -/
theorem groupOf_at {i : Nat} {e : Value × List Operation} (place : (grouped pk g.operations)[i]? = some e)
    {op : Operation} (member : op ∈ g.operations) : g.groupOf pk (pk op) = i ↔ (pk op == e.1) = true := by
  constructor
  · rintro rfl
    obtain ⟨e',place',same⟩ := group_at pk member
    rw [place] at place'
    exact Option.some.inj place' ▸ same
  · exact groupOf_eq place

theorem groupOf_iff {a b : Operation} (first : a ∈ g.operations) (second : b ∈ g.operations) :
    g.groupOf pk (pk a) = g.groupOf pk (pk b) ↔ (pk a == pk b) = true := by
  refine ⟨fun together => ?_,groupOf_congr⟩
  obtain ⟨e,place,same⟩ := group_at pk second
  rw [← together] at place
  exact BEq.trans ((groupOf_at place first).mp rfl) (BEq.symm same)

/-- The group that counts for an identifier holds the first operation with it, groups written one after another. -/
private theorem position_flatten (groups : List (List Operation)) (id : Value) :
    match position? groups id with
    | some i => ∃ ops op, groups[i]? = some ops ∧ op ∈ ops ∧ groups.flatten.find? (·.id == id) = some op
    | none => groups.flatten.find? (·.id == id) = none := by
  induction groups with
  | nil => rfl
  | cons ops rest ih =>
    rw [position?,List.findIdx?_cons,List.flatten_cons,List.find?_append]
    by_cases here : ops.any (·.id == id) = true
    · obtain ⟨op,found⟩ := Option.isSome_iff_exists.mp (List.find?_isSome.mpr (List.any_eq_true.mp here))
      rw [if_pos here,found]
      exact ⟨ops,op,rfl,List.mem_of_find?_eq_some found,rfl⟩
    · have none : ops.find? (·.id == id) = none := by
        rw [List.find?_eq_none]
        exact fun op member same => here (List.any_eq_true.mpr ⟨op,member,same⟩)
      rw [if_neg here,none,Option.none_or]
      rw [position?] at ih
      cases later : rest.findIdx? fun ops => ops.any (·.id == id) with
      | none => rw [later] at ih; exact ih
      | some i => rw [later] at ih; exact ih

theorem position_eq (g : Graph) (pk : Operation → Value) (id : Value) :
    position? ((grouped pk g.operations).map (·.2)) id =
      ((g.regrouped pk).find? (·.id == id)).map fun op => g.groupOf pk (pk op) := by
  have flat : (g.regrouped pk) = ((grouped pk g.operations).map (·.2)).flatten := by
    rw [regrouped,List.flatMap_def]
  have first := position_flatten ((grouped pk g.operations).map (·.2)) id
  rw [← flat] at first
  cases place : position? ((grouped pk g.operations).map (·.2)) id with
  | none =>
    rw [place] at first
    rw [first]
    rfl
  | some i =>
    rw [place] at first
    obtain ⟨ops,op,at_i,inside,found⟩ := first
    rw [List.getElem?_map,Option.map_eq_some_iff] at at_i
    obtain ⟨e,at_e,rfl⟩ := at_i
    rw [group_eq (List.mem_of_getElem? at_e)] at inside
    rw [found,Option.map_some,groupOf_eq at_e (List.mem_filter.mp inside).2]

theorem regrouped_perm (g : Graph) (pk : Operation → Value) : (g.regrouped pk).Perm g.operations := by
  rw [regrouped,List.flatMap_def]
  exact flatten_grouped pk g.operations

theorem regrouped_find (pk : Operation → Value) {id : Value} (known : g.Known id) :
    ∃ a ∈ g.operations, (g.regrouped pk).find? (·.id == id) = some a ∧ (a.id == id) = true := by
  obtain ⟨op,member,same⟩ := known
  have some : ((g.regrouped pk).find? (·.id == id)).isSome = true :=
    List.find?_isSome.mpr ⟨op,(g.regrouped_perm pk).mem_iff.mpr member,same⟩
  obtain ⟨a,found⟩ := Option.isSome_iff_exists.mp some
  exact ⟨a,(g.regrouped_perm pk).mem_iff.mp (List.mem_of_find?_eq_some found),found,
    by simpa using List.find?_some found⟩

/-! ### Places of dependencies -/

/-- A live dependency is placed by the first operations with its ends, groups written one after another. -/
theorem placement_eq {d : Dependency} {a b : Operation}
    (first : (g.regrouped pk).find? (·.id == d.prerequisite) = some a)
    (second : (g.regrouped pk).find? (·.id == d.dependent) = some b) :
    placement ((grouped pk g.operations).map (·.2)) d =
      if (pk a == pk b) = true then .inside (g.groupOf pk (pk a)) else .crossing := by
  have member {id : Value} {op : Operation} (found : (g.regrouped pk).find? (·.id == id) = some op) : op ∈ g.operations :=
    (g.regrouped_perm pk).mem_iff.mp (List.mem_of_find?_eq_some found)
  rw [placement,position_eq,position_eq,first,second,Option.map_some,Option.map_some]
  simp only [groupOf_iff (member first) (member second)]

theorem placement_dangling (pk : Operation → Value) (d : Dependency) :
    placement ((grouped pk g.operations).map (·.2)) d = .dangling ↔ ¬ g.Live d := by
  have unknown {id : Value} (unknown : ¬ g.Known id) : (g.regrouped pk).find? (·.id == id) = none := by
    rw [List.find?_eq_none]
    exact fun op member same => unknown ⟨op,(g.regrouped_perm pk).mem_iff.mp member,same⟩
  constructor
  · intro dangling live
    obtain ⟨a,_,first,_⟩ := regrouped_find pk live.1
    obtain ⟨b,_,second,_⟩ := regrouped_find pk live.2
    rw [placement_eq first second] at dangling
    split at dangling
    · cases dangling
    · cases dangling
  · intro dead
    rw [placement,position_eq,position_eq]
    by_cases first : g.Known d.prerequisite
    · rw [unknown fun second => dead ⟨first,second⟩]
      simp
    · rw [unknown first]
      rfl

theorem lyingIn_inside {i : Nat} {d : Dependency} (inside : d ∈ g.lyingIn pk (.inside i)) :
    ∃ e, (grouped pk g.operations)[i]? = some e ∧ (g.groupGraph pk i e).Live d := by
  obtain ⟨member,place⟩ := List.mem_filter.mp inside
  have place := eq_of_beq place
  have live : g.Live d := by
    by_contra dead
    rw [(placement_dangling pk d).mpr dead] at place
    cases place
  rcases dependency_placed pk member live with crossing | ⟨k,e,at_k,within,ends⟩
  · have other := eq_of_beq (List.mem_filter.mp crossing).2
    rw [place] at other
    cases other
  · have same := eq_of_beq (List.mem_filter.mp within).2
    rw [place] at same
    cases same
    exact ⟨e,at_k,ends⟩

theorem lyingIn_dangling (g : Graph) (pk : Operation → Value) :
    g.lyingIn pk .dangling = g.dependencies.filter fun d => ¬ g.Live d := by
  apply List.filter_congr
  intro d _
  rw [Bool.eq_iff_iff,beq_iff_eq,placement_dangling,decide_eq_true_iff]

/-! ### What falls to a group -/

/-- A split of a graph by the keys of its operations: `home` tells to which part each operation falls, and
    `place` where each dependency does. -/
structure Division (g : Graph) (pk : Operation → Value) (parts : Table Value Graph) (crossing dangling : List Dependency)
    (home : Nat → Nat) (place : Nat → Placement) : Prop where
  housed : ∀ n op, g.operations[n]? = some op → ∃ e, parts.entries[home n]? = some e ∧ (pk op == e.1) = true
  together : ∀ m n a b, g.operations[m]? = some a → g.operations[n]? = some b →
    (home m = home n ↔ (pk a == pk b) = true)
  operations : ∀ i e, parts.entries[i]? = some e → e.2.operations = allotted home i g.operations
  first : ∀ i e, parts.entries[i]? = some e → e.2.metadata = Mapping.single partitionKeyName e.1 ∧
    ∃ n op, g.operations[n]? = some op ∧ home n = i ∧ e.1 = pk op ∧ ∀ m < n, home m < i
  inside : ∀ n d i, g.dependencies[n]? = some d → place n = .inside i →
    ∃ e, parts.entries[i]? = some e ∧ e.2.Live d
  dependencies : ∀ i e, parts.entries[i]? = some e → e.2.dependencies = allotted place (.inside i) g.dependencies
  crossing : crossing = allotted place .crossing g.dependencies
  dangling : dangling = allotted place .dangling g.dependencies
  unshared : (g.operations.Pairwise fun a b => (a.id == b.id) = false) → ∀ n d, g.dependencies[n]? = some d →
    ∀ a ∈ g.operations, ∀ b ∈ g.operations, (a.id == d.prerequisite) = true → (b.id == d.dependent) = true →
      ((∃ i, place n = .inside i) ↔ (pk a == pk b) = true)

/-- The position of the group to which the operation at a place falls. -/
def home (g : Graph) (pk : Operation → Value) (n : Nat) : Nat :=
  (g.operations[n]?).elim 0 fun op => g.groupOf pk (pk op)

/-- Where the dependency at a place lies. -/
def lot (g : Graph) (pk : Operation → Value) (n : Nat) : Placement :=
  (g.dependencies[n]?).elim .dangling (placement ((grouped pk g.operations).map (·.2)))

private theorem home_eq {n : Nat} {op : Operation} (place : g.operations[n]? = some op) :
    g.home pk n = g.groupOf pk (pk op) := by
  rw [home,place]
  rfl

private theorem lot_eq {n : Nat} {d : Dependency} (place : g.dependencies[n]? = some d) :
    g.lot pk n = placement ((grouped pk g.operations).map (·.2)) d := by
  rw [lot,place]
  rfl

theorem groupGraphs_at {i : Nat} {e : Value × Graph} : (g.groupGraphs pk)[i]? = some e ↔
    ∃ group, (grouped pk g.operations)[i]? = some group ∧ (group.1,g.groupGraph pk i group) = e := by
  rw [groupGraphs,List.getElem?_mapIdx,Option.map_eq_some_iff]

private theorem group_allotted {i : Nat} {e : Value × List Operation} (place : (grouped pk g.operations)[i]? = some e) :
    e.2 = allotted (g.home pk) i g.operations := by
  rw [group_eq (List.mem_of_getElem? place)]
  refine (allotted_eq ?_).symm
  intro n op at_n
  rw [home_eq at_n]
  exact groupOf_at place (List.mem_of_getElem? at_n)

private theorem lyingIn_allotted (g : Graph) (pk : Operation → Value) (place : Placement) :
    g.lyingIn pk place = allotted (g.lot pk) place g.dependencies := by
  refine (allotted_eq ?_).symm
  intro n d at_n
  rw [lot_eq at_n,beq_iff_eq]

/-- The first operation of a group has its key as it is, and whatever stands before falls to earlier groups. -/
private theorem group_first {i : Nat} {e : Value × List Operation} (place : (grouped pk g.operations)[i]? = some e) :
    ∃ n op, g.operations[n]? = some op ∧ g.home pk n = i ∧ e.1 = pk op ∧ ∀ m < n, g.home pk m < i := by
  have key : (distinct (g.operations.map pk))[i]? = some e.1 := by
    rw [← grouped_keys,List.getElem?_map,place]
    rfl
  obtain ⟨n,at_n,before⟩ := distinct_first key
  rw [List.getElem?_map,Option.map_eq_some_iff] at at_n
  obtain ⟨op,at_n,is⟩ := at_n
  refine ⟨n,op,at_n,(home_eq at_n).trans (groupOf_eq place (by rw [is]; exact BEq.rfl)),is.symm,?_⟩
  intro m less
  have bound := (List.getElem?_eq_some_iff.mp at_n).1
  have at_m := List.getElem?_eq_getElem (show m < g.operations.length by omega)
  obtain ⟨j,w,early,at_j,equal⟩ := before m _ less (by rw [List.getElem?_map,at_m]; rfl)
  rw [← grouped_keys,List.getElem?_map,Option.map_eq_some_iff] at at_j
  obtain ⟨e',place',rfl⟩ := at_j
  rw [home_eq at_m,groupOf_eq place' (BEq.symm equal)]
  exact early

/-- With different identifiers it does not matter how the operations are arranged. -/
theorem regrouped_unshared (pk : Operation → Value) (different : g.operations.Pairwise fun a b => (a.id == b.id) = false)
    {a : Operation} (member : a ∈ g.operations) {id : Value} (named : (a.id == id) = true) :
    (g.regrouped pk).find? (·.id == id) = some a := by
  obtain ⟨other,inside,found,same⟩ := regrouped_find pk ⟨a,member,named⟩
  have one := List.inj_on_of_nodup_map (ids_once different) inside member
    (sense_eq_iff.mpr (BEq.trans same (BEq.symm named)))
  exact one ▸ found

theorem groupGraphs_division (g : Graph) (pk : Operation → Value) :
    g.Division pk ⟨g.groupGraphs pk⟩ (g.lyingIn pk .crossing) (g.dependencies.filter fun d => ¬ g.Live d)
      (g.home pk) (g.lot pk) where
  housed n op at_n := by
    obtain ⟨e,place,same⟩ := group_at pk (List.mem_of_getElem? at_n)
    rw [home_eq at_n]
    exact ⟨_,groupGraphs_at.mpr ⟨e,place,rfl⟩,same⟩
  together m n a b at_m at_n := by
    rw [home_eq at_m,home_eq at_n]
    exact groupOf_iff (List.mem_of_getElem? at_m) (List.mem_of_getElem? at_n)
  operations i e place := by
    obtain ⟨group,at_i,rfl⟩ := groupGraphs_at.mp place
    exact group_allotted at_i
  first i e place := by
    obtain ⟨group,at_i,rfl⟩ := groupGraphs_at.mp place
    exact ⟨rfl,group_first at_i⟩
  inside n d i at_n inside := by
    rw [lot_eq at_n] at inside
    obtain ⟨e,place,live⟩ := lyingIn_inside (List.mem_filter.mpr ⟨List.mem_of_getElem? at_n,beq_of_eq inside⟩)
    exact ⟨_,groupGraphs_at.mpr ⟨e,place,rfl⟩,live⟩
  dependencies i e place := by
    obtain ⟨group,_,rfl⟩ := groupGraphs_at.mp place
    exact g.lyingIn_allotted pk _
  crossing := g.lyingIn_allotted pk _
  dangling := by
    rw [← lyingIn_dangling]
    exact g.lyingIn_allotted pk _
  unshared different n d at_n a first b second left right := by
    rw [lot_eq at_n,placement_eq (regrouped_unshared pk different first left) (regrouped_unshared pk different second right)]
    by_cases same : (pk a == pk b) = true
    · simp [same]
    · simp [same]

/-- Partitioning splits a graph exactly, whatever cycles, dangling ends and repeated identifiers it has: the parts,
    the crossing dependencies and those that validation finds dangling divide what the graph holds. -/
theorem partitionBy_division (g : Graph) (keyed : g.Keyed) (key : KeyFunction) (pk : Operation → Value)
    (keys : g.KeyedBy key pk) (settings : Option GraphSettings) (env : Environment) :
    ∃ parts crossing dangling, Yields (g.partitionBy key settings) env (.ok parts) ∧ g.crossEdges key = .ok crossing ∧
      Yields g.validateReferences env
        (.ok (if dangling.isEmpty then none else some (.invalidReferences dangling (isVerbose env)))) ∧
      ∃ home place, g.Division pk parts crossing dangling home place := by
  have returns := keys.groupKeys
  exact ⟨_,_,_,partitionBy_yields keyed returns settings env,crossEdges_eq keyed returns,validateReferences_yields keyed env,
    _,_,g.groupGraphs_division pk⟩

/-- An operation of a kind, with nothing else to it, and the key that is its kind. -/
def typedOperation (id kind : String) : Operation := { bareOperation id with type := .other (.text kind) }
def kindOf (op : Operation) : Value := .text op.typeName

/-- Two kinds that take turns, with a shared identifier, a cycle, a loop and a dangling end. -/
def patchwork : Graph :=
  assemble
    [typedOperation "a" "web",typedOperation "b" "db",typedOperation "c" "web",typedOperation "a" "db"]
    [bareDependency "b" "a",bareDependency "a" "c",bareDependency "ghost" "b",bareDependency "c" "a",
      bareDependency "b" "b"] .empty

theorem patchwork_keyed : patchwork.Keyed := by
  constructor
  · decide
  · decide

theorem partitionBy_patchwork : patchwork.Keyed ∧ ∃ parts home place,
    Yields (patchwork.partitionBy .typeName none) .empty (.ok parts) ∧
      patchwork.Division kindOf parts [bareDependency "b" "a"] [bareDependency "ghost" "b"] home place := by
  obtain ⟨parts,crossing,dangling,parted,crossed,referred,home,place,division⟩ := partitionBy_division patchwork
    patchwork_keyed .typeName kindOf (fun _ _ => ⟨_,rfl,rfl⟩) none .empty
  obtain rfl : [bareDependency "b" "a"] = crossing := Except.ok.inj crossed
  have reported : Except.ok (some (Failure.invalidReferences [bareDependency "ghost" "b"] false)) = _ :=
    referred.result (s := {}) rfl
  obtain rfl : [bareDependency "ghost" "b"] = dangling := by
    split at reported
    · cases reported
    · cases reported
      rfl
  exact ⟨patchwork_keyed,parts,home,place,parted,division⟩

end InfraGraph.Graph
