import InfraGraph.Proofs.Graph.Division

/-!
Which operation an identifier stands for when a graph is split. A lookup finds the first operation with an
identifier, while a dependency goes by the first one when the groups are written one after another. The two
are in one group wherever no group before that of the operation found holds the identifier.
-/
namespace InfraGraph.Graph
open Run (Yields)
variable {g : Graph} {pk : Operation → Value}

/-- The operation that an identifier finds is in the first of the groups that hold the identifier. -/
def FoundFirst (g : Graph) (pk : Operation → Value) (id : Value) : Prop :=
  ∀ a b, g.operations.find? (·.id == id) = some a → b ∈ g.operations → (b.id == id) = true →
    g.groupOf pk (pk a) ≤ g.groupOf pk (pk b)

/-- A dependency crosses exactly if two operations have different keys, and is kept in the part of their
    common key otherwise. -/
def DividedBy (pk : Operation → Value) (parts : Table Value Graph) (crossing : List Dependency) (d : Dependency)
    (a b : Operation) : Prop :=
  (d ∈ crossing ↔ (pk a == pk b) = false) ∧
    ((pk a == pk b) = true → ∃ e ∈ parts.entries, (e.1 == pk a) = true ∧ d ∈ e.2.dependencies)

/-- No group before that of the first operation with an identifier holds the identifier, if the groups are
    written one after another. -/
private theorem groupOf_least {id : Value} {a b : Operation} (found : (g.regrouped pk).find? (·.id == id) = some a)
    (member : b ∈ g.operations) (named : (b.id == id) = true) : g.groupOf pk (pk a) ≤ g.groupOf pk (pk b) := by
  have place := g.position_eq pk id
  rw [found,Option.map_some] at place
  obtain ⟨_,_,least⟩ := List.findIdx?_eq_some_iff_getElem.mp place
  by_contra less
  obtain ⟨e,at_b,same⟩ := group_at pk member
  have inside : b ∈ e.2 := by
    rw [group_eq (List.mem_of_getElem? at_b)]
    exact List.mem_filter.mpr ⟨member,same⟩
  refine least _ (Nat.lt_of_not_le less) ?_
  obtain ⟨bound,is⟩ := List.getElem?_eq_some_iff.mp at_b
  rw [List.getElem_map,is]
  exact List.any_eq_true.mpr ⟨b,inside,named⟩

/-- Both ways to resolve an identifier end in one group exactly where a lookup finds an operation of the first
    group that holds it. -/
theorem foundFirst_iff {id : Value} {a b : Operation} (found : (g.regrouped pk).find? (·.id == id) = some a)
    (sought : g.operations.find? (·.id == id) = some b) : g.FoundFirst pk id ↔ (pk a == pk b) = true := by
  have member := (g.regrouped_perm pk).mem_iff.mp (List.mem_of_find?_eq_some found)
  have inside := List.mem_of_find?_eq_some sought
  have named : (a.id == id) = true := by simpa using List.find?_some found
  have same : (b.id == id) = true := by simpa using List.find?_some sought
  rw [← groupOf_iff member inside]
  constructor
  · exact fun first => Nat.le_antisymm (groupOf_least found inside same) (first b a sought member named)
  · intro equal other c again holds named
    obtain rfl := Option.some.inj (sought.symm.trans again)
    exact equal ▸ groupOf_least found holds named

private theorem dividedBy_regrouped {d : Dependency} (member : d ∈ g.dependencies) {a b : Operation}
    (first : (g.regrouped pk).find? (·.id == d.prerequisite) = some a)
    (second : (g.regrouped pk).find? (·.id == d.dependent) = some b) :
    DividedBy pk ⟨g.groupGraphs pk⟩ (g.lyingIn pk .crossing) d a b := by
  have place := placement_eq first second
  refine ⟨?_,?_⟩
  · rw [lyingIn,List.mem_filter,place]
    by_cases same : (pk a == pk b) = true
    · simp [same]
    · simp [same,member]
  · intro same
    rw [if_pos same] at place
    obtain ⟨e,at_a,equal⟩ := group_at pk ((g.regrouped_perm pk).mem_iff.mp (List.mem_of_find?_eq_some first))
    refine ⟨_,List.mem_of_getElem? (groupGraphs_at.mpr ⟨e,at_a,rfl⟩),BEq.symm equal,?_⟩
    exact List.mem_filter.mpr ⟨member,beq_of_eq place⟩

private theorem DividedBy.congr {parts : Table Value Graph} {crossing : List Dependency} {d : Dependency}
    {a b a' b' : Operation} (divided : DividedBy pk parts crossing d a b) (first : (pk a == pk a') = true)
    (second : (pk b == pk b') = true) : DividedBy pk parts crossing d a' b' := by
  have same : (pk a' == pk b') = (pk a == pk b) := by
    rw [← BEq.congr_left first,← BEq.congr_right second]
  refine ⟨by rw [same]; exact divided.1,?_⟩
  intro equal
  obtain ⟨e,entry,key,inside⟩ := divided.2 (same ▸ equal)
  exact ⟨e,entry,BEq.trans key first,inside⟩

/-- An identifier that several operations share stands for the first of them when the groups are written one
    after another, and a live dependency crosses or is kept by the keys of these. That is the operation that
    a lookup finds, up to its group, wherever no earlier group holds the identifier. -/
theorem crossEdges_regrouped (g : Graph) (keyed : g.Keyed) (key : KeyFunction) (pk : Operation → Value)
    (keys : g.KeyedBy key pk) (settings : Option GraphSettings) (env : Environment) :
    ∃ parts crossing, Yields (g.partitionBy key settings) env (.ok parts) ∧ g.crossEdges key = .ok crossing ∧
      ∀ d ∈ g.dependencies, g.Live d →
        (∃ a b, (g.regrouped pk).find? (·.id == d.prerequisite) = some a ∧
          (g.regrouped pk).find? (·.id == d.dependent) = some b ∧ DividedBy pk parts crossing d a b) ∧
        (g.FoundFirst pk d.prerequisite → g.FoundFirst pk d.dependent →
          ∃ a b, g.find? d.prerequisite = .ok (some a) ∧ g.find? d.dependent = .ok (some b) ∧
            DividedBy pk parts crossing d a b) := by
  have returns := keys.groupKeys
  refine ⟨_,_,partitionBy_yields keyed returns settings env,crossEdges_eq keyed returns,?_⟩
  intro d member live
  obtain ⟨a,_,first,_⟩ := regrouped_find pk live.1
  obtain ⟨b,_,second,_⟩ := regrouped_find pk live.2
  have divided := dividedBy_regrouped member first second
  refine ⟨⟨a,b,first,second,divided⟩,?_⟩
  intro settled settled'
  obtain ⟨a',found,_,_⟩ := live.1.find
  obtain ⟨b',found',_,_⟩ := live.2.find
  obtain ⟨left,right⟩ := keyed.ends d member
  exact ⟨a',b',(g.find?_eq left).trans (congrArg _ found),(g.find?_eq right).trans (congrArg _ found'),
    divided.congr ((foundFirst_iff first found).mp settled) ((foundFirst_iff second found').mp settled')⟩

/-- An identifier whose first operation is in the second group and whose second one is in the first. -/
def straddle : Graph :=
  assemble [typedOperation "p" "web",typedOperation "x" "db",typedOperation "x" "web"] [bareDependency "p" "x"] .empty

theorem straddle_keyed : straddle.Keyed := by
  constructor
  · decide
  · decide

/-- What a lookup finds does not decide here: the keys of what the ends find differ, yet nothing crosses. -/
theorem crossEdges_straddle : straddle.crossEdges .typeName = .ok [] ∧
    ∃ d ∈ straddle.dependencies, straddle.Live d ∧ ∃ a b, straddle.find? d.prerequisite = .ok (some a) ∧
      straddle.find? d.dependent = .ok (some b) ∧ (kindOf a == kindOf b) = false ∧
      ∀ parts, ¬ DividedBy kindOf parts [] d a b := by
  have differ : (kindOf (typedOperation "p" "web") == kindOf (typedOperation "x" "db")) = false := by decide
  refine ⟨rfl,_,List.mem_singleton.mpr rfl,by decide,_,_,rfl,rfl,differ,?_⟩
  intro parts divided
  exact absurd (divided.1.mpr differ) List.not_mem_nil

/-- The shared identifier again, with its first operation in the first group. -/
def abreast : Graph :=
  assemble [typedOperation "p" "web",typedOperation "x" "web",typedOperation "x" "db"] [bareDependency "p" "x"] .empty

theorem abreast_keyed : abreast.Keyed := by
  constructor
  · decide
  · decide

theorem crossEdges_regrouped_straddle : straddle.Keyed ∧
    (∃ parts crossing, Yields (straddle.partitionBy .typeName none) .empty (.ok parts) ∧
      straddle.crossEdges .typeName = .ok crossing ∧
      ∃ a b, (straddle.regrouped kindOf).find? (·.id == .text "p") = some a ∧
        (straddle.regrouped kindOf).find? (·.id == .text "x") = some b ∧
        DividedBy kindOf parts crossing (bareDependency "p" "x") a b) ∧
    abreast.Keyed ∧ abreast.FoundFirst kindOf (.text "p") ∧ abreast.FoundFirst kindOf (.text "x") ∧
    ∃ parts crossing, Yields (abreast.partitionBy .typeName none) .empty (.ok parts) ∧
      abreast.crossEdges .typeName = .ok crossing ∧
      ∃ a b, abreast.find? (.text "p") = .ok (some a) ∧ abreast.find? (.text "x") = .ok (some b) ∧
        DividedBy kindOf parts crossing (bareDependency "p" "x") a b := by
  obtain ⟨parts,crossing,parted,crossed,divided⟩ := crossEdges_regrouped straddle straddle_keyed .typeName kindOf
    (fun _ _ => ⟨_,rfl,rfl⟩) none .empty
  refine ⟨straddle_keyed,⟨parts,crossing,parted,crossed,(divided _ (List.mem_singleton.mpr rfl) (by decide)).1⟩,?_⟩
  obtain ⟨parts,crossing,parted,crossed,divided⟩ := crossEdges_regrouped abreast abreast_keyed .typeName kindOf
    (fun _ _ => ⟨_,rfl,rfl⟩) none .empty
  have first : abreast.FoundFirst kindOf (.text "p") := (foundFirst_iff rfl rfl).mpr (by decide)
  have second : abreast.FoundFirst kindOf (.text "x") := (foundFirst_iff rfl rfl).mpr (by decide)
  exact ⟨abreast_keyed,first,second,parts,crossing,parted,crossed,
    (divided _ (List.mem_singleton.mpr rfl) (by decide)).2 first second⟩

end InfraGraph.Graph
