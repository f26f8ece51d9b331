import InfraGraph.Graph.Merge
import InfraGraph.Proofs.Dependency
import InfraGraph.Proofs.Graph.Sort

/-!
What merging keeps. Of operations with one identifier the first one stays, and of dependencies that repeat one another
the first one does. Nothing is lost: what is left out is found again in what stays. Two equal dependencies stay where
bytes stand against a buffer in their metadata, and only there.
-/
namespace InfraGraph.Graph
open Run (Yields)

private theorem keepNew_eq (kept : List Dependency) {ds : List Dependency}
    (hashable : ∀ d ∈ ds, d.identityKey.isHashable = true) :
    keepNew kept ds = .ok (ds.foldl (fun kept d => if kept.any (·.repeats d) then kept else kept ++ [d]) kept) := by
  induction ds generalizing kept with
  | nil => rfl
  | cons d rest ih =>
    rw [keepNew,Value.requireHashable_eq_ok.mpr (hashable d (by simp)),List.foldl_cons]
    exact ih _ fun other later => hashable other (List.mem_cons_of_mem _ later)

/-- Graphs merged: the first operation of each identifier, and the first of the dependencies that repeat it. -/
def merged (graphs : List Graph) : Graph :=
  assemble (mergedOperations graphs) (firsts Dependency.repeats (graphs.flatMap (·.dependencies))) (mergedMetadata graphs)

theorem merge_yields {graphs : List Graph}
    (hashable : ∀ d ∈ graphs.flatMap (·.dependencies), d.identityKey.isHashable = true) (env : Environment) :
    Yields (merge graphs) env (.ok (merged graphs)) := by
  have kept : mergedDependencies graphs = .ok (firsts Dependency.repeats (graphs.flatMap (·.dependencies))) :=
    keepNew_eq [] hashable
  unfold merge
  rw [kept]
  exact (Run.yields_ofFault _).bind (Yields.bind (Run.yields_log _ _ _) (Run.yields_pure _))

private theorem dependency_textual {graphs : List Graph} (textual : ∀ g ∈ graphs, ∀ d ∈ g.dependencies, d.Textual) :
    ∀ d ∈ graphs.flatMap (·.dependencies), d.Textual := by
  intro d member
  obtain ⟨g,listed,inside⟩ := List.mem_flatMap.mp member
  exact textual g listed d inside

theorem merge_of_keyed {graphs : List Graph} (keyed : ∀ g ∈ graphs, ∀ d ∈ g.dependencies, d.Keyed) (env : Environment) :
    Yields (merge graphs) env (.ok (merged graphs)) := by
  refine merge_yields (fun d member => ?_) env
  obtain ⟨g,listed,inside⟩ := List.mem_flatMap.mp member
  exact (keyed g listed d inside).identityKey_hashable

/-! ### First occurrences -/

/-- A graph holds what several graphs hold together: the first operation of each identifier, which is the one that the
    first graph to know the identifier finds, and for every dependency an equal one from the same place or before. -/
structure Combines (h : Graph) (graphs : List Graph) : Prop where
  operations : h.operations =
    allotted (isFirst sharesId (graphs.flatMap (·.operations))) true (graphs.flatMap (·.operations))
  different : h.operations.Pairwise fun a b => (a.id == b.id) = false
  found : ∀ id, id.isHashable = true → h.find? id =
    match graphs.find? fun g => g.Known id with
    | some g => g.find? id
    | none => .ok none
  dependencies : ∃ kept : Nat → Bool, h.dependencies = allotted kept true (graphs.flatMap (·.dependencies)) ∧
    ∀ (n : Nat) d, (graphs.flatMap (·.dependencies))[n]? = some d → ∃ (m : Nat) (e : Dependency), m ≤ n ∧ kept m = true ∧
      (graphs.flatMap (·.dependencies))[m]? = some e ∧ (e == d) = true

theorem mergedOperations_eq (graphs : List Graph) :
    mergedOperations graphs = firsts sharesId (graphs.flatMap (·.operations)) := by
  rw [mergedOperations,indexOf_eq,Table.values,List.map_map]
  exact List.map_id _

theorem merged_operations (graphs : List Graph) :
    (merged graphs).operations = firsts sharesId (graphs.flatMap (·.operations)) := mergedOperations_eq graphs

theorem merged_dependencies (graphs : List Graph) :
    (merged graphs).dependencies = firsts Dependency.repeats (graphs.flatMap (·.dependencies)) := rfl

/-- Merging invents nothing. -/
theorem mem_merged_operations {graphs : List Graph} {op : Operation} (kept : op ∈ (merged graphs).operations) :
    ∃ g ∈ graphs, op ∈ g.operations := by
  rw [merged_operations] at kept
  exact List.mem_flatMap.mp ((firsts_sublist _ _).subset kept)

theorem mem_merged_dependencies {graphs : List Graph} {d : Dependency} (kept : d ∈ (merged graphs).dependencies) :
    ∃ g ∈ graphs, d ∈ g.dependencies :=
  List.mem_flatMap.mp ((firsts_sublist _ _).subset kept)

/-- The first graph that knows an identifier finds the first operation with it. -/
private theorem find?_flatMap (graphs : List Graph) (id : Value) :
    (graphs.flatMap (·.operations)).find? (·.id == id) =
      (graphs.find? fun g => g.Known id).bind fun g => g.operations.find? (·.id == id) := by
  induction graphs with
  | nil => rfl
  | cons g rest ih =>
    rw [List.flatMap_cons,List.find?_append,ih]
    by_cases known : g.Known id
    · obtain ⟨op,found,_⟩ := known.find
      rw [List.find?_cons_of_pos (by simpa using known),found,Option.some_or,Option.bind_some,found]
    · have none : g.operations.find? (·.id == id) = none := by
        rw [List.find?_eq_none]
        exact fun op member same => known ⟨op,member,same⟩
      rw [List.find?_cons_of_neg (by simpa using known),none,Option.none_or]

theorem merged_combines (graphs : List Graph) : (merged graphs).Combines graphs where
  operations := (mergedOperations_eq graphs).trans (firsts_allotted sharesId_equivalence _)
  different := by
    have pairwise := firsts_pairwise sharesId (graphs.flatMap (·.operations))
    rw [← mergedOperations_eq] at pairwise
    exact pairwise
  found id hashable := by
    have first : (merged graphs).operations.find? (·.id == id) =
        (graphs.find? fun g => g.Known id).bind fun g => g.operations.find? (·.id == id) := by
      rw [← find?_flatMap,← find?_firsts (r := sharesId) (fun a b same => BEq.congr_left same) (graphs.flatMap _),
        ← mergedOperations_eq]
      rfl
    rw [find?_eq _ hashable,first]
    cases graphs.find? fun g => g.Known id with
    | none => rfl
    | some g => exact (find?_eq g hashable).symm
  dependencies := by
    refine ⟨_,firsts_allotted Dependency.repeats_equivalence _,fun n d place => ?_⟩
    obtain ⟨m,e,early,first,at_m,again⟩ := exists_isFirst Dependency.repeats_equivalence place
    exact ⟨m,e,early,first,at_m,(Dependency.repeats_iff.mp again).2⟩

/-- Merging returns, loses nothing and lets the first occurrence win, whatever identifiers and dependencies the graphs
    share. -/
theorem merge_total_correct (graphs : List Graph) (textual : ∀ g ∈ graphs, ∀ d ∈ g.dependencies, d.Textual)
    (env : Environment) : ∃ h, Yields (merge graphs) env (.ok h) ∧ h.Combines graphs :=
  ⟨_,merge_yields (fun d member => (dependency_textual textual d member).keyed.identityKey_hashable) env,merged_combines graphs⟩

/-- Two graphs that share an identifier and a dependency, which is written in two ways. -/
def northern : Graph :=
  assemble [bareOperation "b",bareOperation "a"] [.plainlyWritten,bareDependency "b" "a"] .empty
def southern : Graph :=
  assemble [bareOperation "c",{ bareOperation "a" with type := .known .commandRun },bareOperation "c"]
    [bareDependency "b" "a",.richlyWritten,bareDependency "c" "ghost"] .empty

theorem merge_regions : ∃ h, Yields (merge [northern,southern]) .empty (.ok h) ∧ h.Combines [northern,southern] ∧
    h.operations = [bareOperation "b",bareOperation "a",bareOperation "c"] ∧
    h.dependencies = [.plainlyWritten,bareDependency "b" "a",bareDependency "c" "ghost"] := by
  have textual : ∀ g ∈ [northern,southern], ∀ d ∈ g.dependencies, d.Textual := by decide
  obtain ⟨h,yields,combines⟩ := merge_total_correct [northern,southern] textual .empty
  have is : Except.ok (merged [northern,southern]) = .ok h := yields.result (s := {}) rfl
  obtain rfl := Except.ok.inj is
  exact ⟨_,yields,combines,rfl,rfl⟩

/-! ### Equal dependencies that stay -/

/-- Merging returns. Of two dependencies that stay and are equal, one has bytes in its metadata where the other one
    has a buffer. Whatever is left out is equal to one that stays, without such a difference. -/
theorem merge_clashes (graphs : List Graph) (textual : ∀ g ∈ graphs, ∀ d ∈ g.dependencies, d.Textual)
    (env : Environment) :
    ∃ h, Yields (merge graphs) env (.ok h) ∧ h.dependencies.Sublist (graphs.flatMap (·.dependencies)) ∧
      (h.dependencies.Pairwise fun a b => (a == b) = true → a.Clashes b) ∧
      ∀ d ∈ graphs.flatMap (·.dependencies), ∃ e ∈ h.dependencies, (e == d) = true ∧ ¬ e.Clashes d := by
  have each := dependency_textual textual
  have sublist := firsts_sublist Dependency.repeats (graphs.flatMap (·.dependencies))
  refine ⟨_,merge_yields (fun d member => (each d member).keyed.identityKey_hashable) env,sublist,?_,?_⟩
  · refine (firsts_pairwise Dependency.repeats _).imp_of_mem fun {a b} left right apart equal => ?_
    by_contra clear
    have again := (Dependency.repeats_textual (each a (sublist.subset left)) (each b (sublist.subset right))).mpr ⟨equal,clear⟩
    rw [apart] at again
    cases again
  · intro d member
    obtain ⟨e,kept,again⟩ := exists_firsts Dependency.repeats_equivalence member
    exact ⟨e,kept,(Dependency.repeats_textual (each e (sublist.subset kept)) (each d member)).mp again⟩

/-- A dependency that carries a value. -/
def carrying (v : Value) : Graph :=
  assemble [] [{ bareDependency "a" "b" with metadata := Mapping.single "content" v }] .empty

theorem carrying_textual {v : Value} (proper : v.Proper) : ∀ d ∈ (carrying v).dependencies, d.Textual := by
  intro d member
  obtain rfl := List.mem_singleton.mp member
  refine ⟨⟨rfl,rfl⟩,rfl,.whole ⟨?_,List.pairwise_singleton _ _⟩ ?_⟩
  · exact List.forall_mem_singleton.mpr rfl
  · exact List.forall_mem_cons.mpr ⟨.of_atom rfl,List.forall_mem_singleton.mpr proper⟩

/-- Bytes and a buffer with the same content are equal, and both dependencies stay. -/
theorem merge_carrying : ∃ h t a b, (merge [carrying (.bytes [1]),carrying (.buffer [1])]).start .empty {} = (.ok h,t) ∧
    h.dependencies = [a,b] ∧ (a == b) = true :=
  ⟨_,_,_,_,rfl,rfl,by decide⟩

theorem merge_clashes_carrying : ∃ h a b,
    Yields (merge [carrying (.bytes [1]),carrying (.buffer [1]),carrying (.bytes [1])]) .empty (.ok h) ∧
      h.dependencies = [a,b] ∧ a.Clashes b := by
  have textual : ∀ g ∈ [carrying (.bytes [1]),carrying (.buffer [1]),carrying (.bytes [1])],
      ∀ d ∈ g.dependencies, d.Textual := by
    rintro g (_ | ⟨_,_ | ⟨_,_ | ⟨_,⟨⟩⟩⟩⟩)
    · exact carrying_textual (.of_atom rfl)
    · exact carrying_textual (.of_atom rfl)
    · exact carrying_textual (.of_atom rfl)
  obtain ⟨h,yields,_,clashes,_⟩ := merge_clashes _ textual .empty
  have is : Except.ok (merged [carrying (.bytes [1]),carrying (.buffer [1]),carrying (.bytes [1])]) = .ok h :=
    yields.result (s := {}) rfl
  obtain rfl := Except.ok.inj is
  exact ⟨_,_,_,yields,rfl,(List.pairwise_pair.mp clashes) (by decide)⟩

end InfraGraph.Graph
