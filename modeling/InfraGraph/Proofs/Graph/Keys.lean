import InfraGraph.Proofs.Graph.Partition
import InfraGraph.Proofs.Value.Hashable

/-!
Which keys a partitioning takes. It refuses a graph if a buffer stands in the value of some operation, and then it reports
the first such operation with the value as it is. No other value is refused, and operations with values that are the same
fall to one group.
-/
namespace InfraGraph.Graph
open Run (Yields)
variable {g : Graph} {key : KeyFunction} {value : Operation → Value}

/-! ### Keys that are refused -/

theorem groupKey_refused {op : Operation} {v : Value} (returns : key op = .ok v) (holds : v.HoldsBuffer) :
    key.groupKey op = .error (.partitionKey op.id v) := by
  simp only [KeyFunction.groupKey,returns,bind,Except.bind,Value.partitionKey_eq_none_iff.mpr holds]
  rfl

/-- Grouping stops at the first operation without a key. -/
theorem groupInto_refused {before after : List Operation} {op : Operation} {e : Failure}
    (t : Table Value (List Operation)) (keyed : ∀ earlier ∈ before, ∃ k, key.groupKey earlier = .ok k)
    (refused : key.groupKey op = .error e) : groupInto key t (before ++ op :: after) = .error e := by
  induction before generalizing t with
  | nil =>
    rw [List.nil_append,groupInto,refused]
    rfl
  | cons first rest ih =>
    obtain ⟨k,is⟩ := keyed first (by simp)
    rw [List.cons_append,groupInto,is]
    exact ih _ fun earlier member => keyed earlier (List.mem_cons_of_mem _ member)

/-- The first operation with a buffer in its value. -/
def firstHolding (g : Graph) (value : Operation → Value) : Option Operation :=
  g.operations.find? fun op => (value op).HoldsBuffer

theorem firstHolding_eq_none : g.firstHolding value = none ↔ ∀ op ∈ g.operations, ¬ (value op).HoldsBuffer := by
  simp [firstHolding]

/-- The key of a value, where it has one. -/
def keyOf (value : Operation → Value) (op : Operation) : Value := (value op).partitionKey?.getD .null

theorem keyOf_eq {op : Operation} (clear : ¬ (value op).HoldsBuffer) :
    (value op).partitionKey? = some (keyOf value op) := by
  obtain ⟨k,is⟩ := Option.ne_none_iff_exists'.mp (mt Value.partitionKey_eq_none_iff.mp clear)
  simp [keyOf,is]

section Values
variable (values : ∀ op ∈ g.operations, key op = .ok (value op))
include values

theorem split_refused {op : Operation} (first : g.firstHolding value = some op) :
    g.split key = .error (.partitionKey op.id (value op)) := by
  obtain ⟨holds,before,after,operations,clear⟩ := List.find?_eq_some_iff_append.mp first
  have inside (x : Operation) (member : x ∈ before ++ op :: after) := values x (operations ▸ member)
  have keyed : ∀ earlier ∈ before, ∃ k, key.groupKey earlier = .ok k := fun earlier member =>
    ⟨_,groupKey_eq (inside earlier (List.mem_append_left _ member)) (keyOf_eq (by simpa using clear earlier member))⟩
  have refused := groupKey_refused (inside op (by simp)) (of_decide_eq_true holds)
  rw [split,groups,operations,groupInto_refused _ keyed refused]
  rfl

theorem keyedBy_keyOf (clear : g.firstHolding value = none) : g.KeyedBy key (keyOf value) := fun op member =>
  ⟨value op,values op member,keyOf_eq (firstHolding_eq_none.mp clear op member)⟩

end Values

/-! ### Groups of a split -/

/-- What is not the fault of a key is that of an end of a dependency. -/
theorem split_of_groups {groups : Table Value (List Operation)} (grouped : g.groups key = .ok groups) :
    (∃ fault, g.split key = .error (.fault fault)) ∨ ∃ placed, g.split key = .ok ⟨groups,placed⟩ := by
  rw [split,grouped]
  simp only [bind,Except.bind]
  cases placeAll (groupPositions 0 .empty groups.values) g.dependencies with
  | error fault => exact .inl ⟨fault,rfl⟩
  | ok placed => exact .inr ⟨placed,rfl⟩

theorem subgraphs_groups (placed : List (Placement × Dependency)) (position : Nat) (groups : List (Value × List Operation)) :
    (subgraphs placed position groups).map (fun e => (e.1,e.2.operations)) = groups := by
  induction groups generalizing position with
  | nil => rfl
  | cons e rest ih =>
    rw [subgraphs,List.map_cons,ih]
    rfl

theorem partitionBy_yields_iff {settings : Option GraphSettings} {env : Environment}
    {result : Except Failure (Table Value Graph)} :
    Yields (g.partitionBy key settings) env result ↔ (g.split key).map Split.partitions = result :=
  ⟨fun yields => (partitionBy_ends g key settings env).unique yields,fun is => is ▸ partitionBy_ends g key settings env⟩

/-- A partitioning that ended once ends like that whatever the session is. -/
theorem partitionBy_yields_of_start {settings : Option GraphSettings} {env : Environment} {s t : Session}
    {result : Except Failure (Table Value Graph)} (ended : (g.partitionBy key settings).start env s = (result,t)) :
    Yields (g.partitionBy key settings) env result :=
  partitionBy_yields_iff.mpr ((partitionBy_ends g key settings env).result ended).symm

theorem partitionBy_error_iff {settings : Option GraphSettings} {env : Environment} {e : Failure} :
    Yields (g.partitionBy key settings) env (.error e) ↔ g.split key = .error e := by
  rw [partitionBy_yields_iff]
  cases g.split key <;> simp [Except.map]

theorem crossEdges_error_iff {e : Failure} : g.crossEdges key = .error e ↔ g.split key = .error e := by
  rw [crossEdges]
  cases g.split key <;> simp [bind,Except.bind,pure,Except.pure]

/-- The parts are the groups, whatever becomes of the dependencies. -/
theorem partitionBy_groups {settings : Option GraphSettings} {env : Environment} {parts : Table Value Graph}
    (parted : Yields (g.partitionBy key settings) env (.ok parts)) {groups : Table Value (List Operation)}
    (grouped : g.groups key = .ok groups) : parts.entries.map (fun e => (e.1,e.2.operations)) = groups.entries := by
  rw [partitionBy_yields_iff] at parted
  rcases split_of_groups grouped with ⟨fault,is⟩ | ⟨placed,is⟩
  · rw [is] at parted
    cases parted
  · rw [is] at parted
    cases parted
    exact subgraphs_groups placed 0 groups.entries

/-- Grouping that comes to an end has had a key for every operation. -/
theorem groupInto_keyed {t groups : Table Value (List Operation)} {ops : List Operation}
    (grouped : groupInto key t ops = .ok groups) : ∀ op ∈ ops, ∃ k, key.groupKey op = .ok k := by
  induction ops generalizing t with
  | nil => simp
  | cons op rest ih =>
    obtain ⟨k,is,later⟩ := bind_eq_ok.mp grouped
    exact List.forall_mem_cons.mpr ⟨⟨k,is⟩,ih later⟩

/-- An operation falls to the group of a key. -/
def fallsTo (key : KeyFunction) (k : Value) (op : Operation) : Bool :=
  match key.groupKey op with
  | .ok own => own == k
  | .error _ => false

/-- A part has the operations that fall to its group, whatever key function there is. -/
theorem part_operations {settings : Option GraphSettings} {env : Environment} {parts : Table Value Graph}
    (parted : Yields (g.partitionBy key settings) env (.ok parts)) {e : Value × Graph} (entry : e ∈ parts.entries) :
    e.2.operations = g.operations.filter (fallsTo key e.1) := by
  obtain ⟨groups,keyed⟩ : ∃ groups, g.groups key = .ok groups := by
    have returned := partitionBy_yields_iff.mp parted
    cases is : g.split key with
    | error e =>
      rw [is] at returned
      cases returned
    | ok s =>
      obtain ⟨groups,grouped,_⟩ := bind_eq_ok.mp is
      exact ⟨groups,grouped⟩
  choose! pk own using groupInto_keyed keyed
  have entries : parts.entries.map (fun e => (e.1,e.2.operations)) = grouped pk g.operations :=
    partitionBy_groups parted (groups_eq own)
  have listed : (e.1,e.2.operations) ∈ grouped pk g.operations := entries ▸ List.mem_map_of_mem entry
  refine (group_eq listed).trans (List.filter_congr fun op member => ?_)
  rw [fallsTo,own op member]

/-! ### What the values of operations decide -/

section Values
variable (values : ∀ op ∈ g.operations, key op = .ok (value op))
include values

theorem split_refuses_iff : (∃ id v, g.split key = .error (.partitionKey id v)) ↔
    ∃ op ∈ g.operations, (value op).HoldsBuffer := by
  cases first : g.firstHolding value with
  | some op =>
    have holds : (value op).HoldsBuffer := by simpa using List.find?_some (p := fun op => (value op).HoldsBuffer) first
    exact iff_of_true ⟨_,_,split_refused values first⟩ ⟨op,List.mem_of_find?_eq_some first,holds⟩
  | none =>
    refine iff_of_false ?_ (by simpa using firstHolding_eq_none.mp first)
    rintro ⟨id,v,refused⟩
    -- Only a fault can end a split into groups that there are.
    rcases split_of_groups (groups_eq (keyedBy_keyOf values first).groupKeys) with ⟨fault,is⟩ | ⟨placed,is⟩
    · cases is.symm.trans refused
    · cases is.symm.trans refused

theorem partitionBy_together {settings : Option GraphSettings} {env : Environment} {parts : Table Value Graph}
    (parted : Yields (g.partitionBy key settings) env (.ok parts)) {a b : Operation} (first : a ∈ g.operations)
    (second : b ∈ g.operations) (equal : (value a == value b) = true) :
    ∃ e ∈ parts.entries, a ∈ e.2.operations ∧ b ∈ e.2.operations := by
  have clear : g.firstHolding value = none := by
    cases holding : g.firstHolding value with
    | none => rfl
    | some op => cases parted.unique (partitionBy_error_iff.mpr (split_refused values holding))
  have keyed (op : Operation) (member : op ∈ g.operations) := keyOf_eq (firstHolding_eq_none.mp clear op member)
  have groups : parts.entries.map (fun e => (e.1,e.2.operations)) = grouped (keyOf value) g.operations :=
    partitionBy_groups parted (groups_eq (keyedBy_keyOf values clear).groupKeys)
  obtain ⟨e,entry,inside⟩ := group_exists (keyOf value) first
  have beside : b ∈ e.2 := by
    have same := Value.partitionKey_congr equal (keyed a first) (keyed b second)
    rw [group_eq entry] at inside ⊢
    exact List.mem_filter.mpr ⟨second,BEq.trans (BEq.symm same) (List.mem_filter.mp inside).2⟩
  obtain ⟨part,listed,rfl⟩ := List.mem_map.mp (groups ▸ entry)
  exact ⟨part,listed,inside,beside⟩

end Values

/-- The values that a key function gives decide which operations a partitioning refuses, and which ones it puts together. -/
structure DecidedBy (g : Graph) (key : KeyFunction) (value : Operation → Value) (settings : Option GraphSettings)
    (env : Environment) : Prop where
  partitioning : (∃ id v, Yields (g.partitionBy key settings) env (.error (.partitionKey id v))) ↔
    ∃ op ∈ g.operations, (value op).HoldsBuffer
  crossing : (∃ id v, g.crossEdges key = .error (.partitionKey id v)) ↔ ∃ op ∈ g.operations, (value op).HoldsBuffer
  reported : ∀ op, g.firstHolding value = some op →
    Yields (g.partitionBy key settings) env (.error (.partitionKey op.id (value op))) ∧
      g.crossEdges key = .error (.partitionKey op.id (value op))
  returned : g.Keyed → (∀ op ∈ g.operations, ¬ (value op).HoldsBuffer) →
    ∃ parts crossing, Yields (g.partitionBy key settings) env (.ok parts) ∧ g.crossEdges key = .ok crossing
  together : ∀ parts, Yields (g.partitionBy key settings) env (.ok parts) →
    ∀ a ∈ g.operations, ∀ b ∈ g.operations, (value a == value b) = true →
      ∃ e ∈ parts.entries, a ∈ e.2.operations ∧ b ∈ e.2.operations

theorem decidedBy_values (values : ∀ op ∈ g.operations, key op = .ok (value op)) (settings : Option GraphSettings)
    (env : Environment) : g.DecidedBy key value settings env := by
  refine ⟨?_,?_,?_,?_,?_⟩
  · simp only [partitionBy_error_iff]
    exact split_refuses_iff values
  · simp only [crossEdges_error_iff]
    exact split_refuses_iff values
  · intro op first
    have refused := split_refused values first
    exact ⟨partitionBy_error_iff.mpr refused,crossEdges_error_iff.mpr refused⟩
  · intro keyed clear
    have keys := (keyedBy_keyOf values (firstHolding_eq_none.mpr clear)).groupKeys
    exact ⟨_,_,partitionBy_yields keyed keys settings env,crossEdges_eq keyed keys⟩
  · exact fun parts parted a first b second equal => partitionBy_together values parted first second equal

/-- Partition keys are well defined. What can be looked up is the same as its form, so that it does not matter whether it
    is converted, and converting a form changes nothing. Values that are the same have the same key. A value has none
    exactly if a buffer stands in it, and what a partitioning refuses is a value that has none. A value counts here as the
    same as itself even if it is not a number, as it does where keys are looked up. -/
theorem partitionKeys_total_correct :
    (∀ v : Value, v.isHashable = true →
      v.partitionKey? = some v ∧ ∃ form, v.hashableForm? = some form ∧ (form == v) = true) ∧
    (∀ v form : Value, v.hashableForm? = some form → form.isHashable = true ∧ form.hashableForm? = some form) ∧
    (∀ a b k l : Value, (a == b) = true → a.partitionKey? = some k → b.partitionKey? = some l → (k == l) = true) ∧
    (∀ v : Value, v.partitionKey? = none ↔ v.HoldsBuffer) ∧
    ∀ (g : Graph) (key : KeyFunction) (value : Operation → Value), (∀ op ∈ g.operations, key op = .ok (value op)) →
      ∀ settings env, g.DecidedBy key value settings env := by
  refine ⟨?_,?_,?_,fun v => Value.partitionKey_eq_none_iff,?_⟩
  · intro v hashable
    obtain ⟨form,is⟩ := Value.exists_form hashable
    exact ⟨Value.partitionKey_of_hashable hashable,form,is,Value.form_same hashable is⟩
  · exact fun v form is => ⟨Value.hashable_of_form is,Value.form_fixed is⟩
  · exact fun a b k l equal first second => Value.partitionKey_congr equal first second
  · exact fun g key value values settings env => decidedBy_values values settings env

/-- What the target of an operation says about its zone. -/
def zoneOf (op : Operation) : Value := (op.target.get? (.text "zone")).getD .null

def zonedOperation (id : String) (zone : Value) : Operation :=
  { bareOperation id with target := Mapping.single "zone" zone }

/-- Zones that are equal although they are written in two ways, one that is not a number, and two with a buffer inside. -/
def depot : Graph :=
  assemble [zonedOperation "a" (.list [.int 1]),zonedOperation "b" (.list [.bool true]),
      zonedOperation "c" (.tuple [.nan 0,.frozenset [.text "x"]]),
      zonedOperation "d" (.mapping [(.text "x",.list [.buffer [7]])]),zonedOperation "e" (.buffer [7])]
    [bareDependency "a" "e"] .empty

theorem partitionKeys_depot :
    (∀ op ∈ depot.operations, KeyFunction.target (.text "zone") op = .ok (zoneOf op)) ∧
    (∃ form, (Value.tuple [.nan 0,.frozenset [.text "x"]]).hashableForm? = some form ∧ form.hashableForm? = some form) ∧
    (Value.tuple [.int 1] == .tuple [.bool true]) = true ∧
    Yields (depot.partitionBy (.target (.text "zone")) none) .empty
      (.error (.partitionKey (.text "d") (.mapping [(.text "x",.list [.buffer [7]])]))) ∧
    depot.crossEdges (.target (.text "zone")) =
      .error (.partitionKey (.text "d") (.mapping [(.text "x",.list [.buffer [7]])])) := by
  have values : ∀ op ∈ depot.operations, KeyFunction.target (.text "zone") op = .ok (zoneOf op) := fun _ _ => rfl
  obtain ⟨own,forms,keys,_,decided⟩ := partitionKeys_total_correct
  obtain ⟨_,form,is,_⟩ := own (.tuple [.nan 0,.frozenset [.text "x"]]) rfl
  have equal := keys (.list [.int 1]) (.list [.bool true]) (.tuple [.int 1]) (.tuple [.bool true]) (by decide) rfl rfl
  have refused := (decided depot _ zoneOf values none .empty).reported (zonedOperation "d" _) rfl
  exact ⟨values,⟨form,is,(forms _ form is).2⟩,equal,refused⟩

end InfraGraph.Graph
