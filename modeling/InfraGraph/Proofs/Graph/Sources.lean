import InfraGraph.Proofs.Graph.Merge
import InfraGraph.Proofs.Graph.Validation

/-!
What the arrangement of merged graphs decides. How they are merged in turn, how often, and whether void ones are among
them makes no difference to operations and dependencies. Their order decides which of equal things stay and where they
stand, but neither what is known and connected nor whether dependencies dangle or close a cycle.
-/
open Relation (TransGen)
namespace InfraGraph.Graph
open Run (Yields)
open InfraGraph.Order (BelowCycle)

/-! ### Grouping -/

/-- The same operations and dependencies, in the same order. -/
structure Coincides (g h : Graph) : Prop where
  operations : g.operations = h.operations
  dependencies : g.dependencies = h.dependencies

/-- An empty graph that has no dependencies either, which would dangle in it. -/
def isVoid (g : Graph) : Bool := g.isEmpty && g.dependencies.isEmpty

private theorem flatMap_flatten {α β : Type} (f : α → List β) (blocks : List (List α)) :
    blocks.flatten.flatMap f = blocks.flatMap fun block => block.flatMap f := by
  rw [← List.flatMap_id,List.flatMap_assoc]
  rfl

theorem merged_regrouped (blocks : List (List Graph)) :
    (merged (blocks.map merged)).Coincides (merged blocks.flatten) where
  operations := by
    rw [merged_operations,merged_operations,List.flatMap_map,flatMap_flatten]
    simp only [merged_operations]
    exact firsts_flatMap sharesId_equivalence _ blocks
  dependencies := by
    rw [merged_dependencies,merged_dependencies,List.flatMap_map,flatMap_flatten]
    exact firsts_flatMap Dependency.repeats_equivalence (fun block => block.flatMap (·.dependencies)) blocks

theorem merged_twice (graphs : List Graph) : (merged (graphs ++ graphs)).Coincides (merged graphs) where
  operations := by
    rw [merged_operations,merged_operations,List.flatMap_append]
    exact firsts_absorb sharesId_equivalence fun op member => List.any_eq_true.mpr ⟨op,member,BEq.rfl⟩
  dependencies := by
    rw [merged_dependencies,merged_dependencies,List.flatMap_append]
    exact firsts_absorb Dependency.repeats_equivalence fun d member =>
      List.any_eq_true.mpr ⟨d,member,Dependency.repeats_equivalence.refl d⟩

private theorem flatMap_void {α : Type} {f : Graph → List α} (nothing : ∀ g : Graph, g.isVoid = true → f g = [])
    (graphs : List Graph) : graphs.flatMap f = (graphs.filter fun g => !g.isVoid).flatMap f := by
  induction graphs with
  | nil => rfl
  | cons g rest ih =>
    by_cases void : g.isVoid = true
    · rw [List.flatMap_cons,nothing g void,List.filter_cons_of_neg (by simp [void]),ih,List.nil_append]
    · rw [List.flatMap_cons,List.filter_cons_of_pos (by simpa using void),List.flatMap_cons,ih]

/-- Lists that differ in void graphs only hold the same operations and dependencies. -/
private theorem contents_void {graphs others : List Graph}
    (same : (others.filter fun g => !g.isVoid) = graphs.filter fun g => !g.isVoid) :
    others.flatMap (·.operations) = graphs.flatMap (·.operations) ∧
      others.flatMap (·.dependencies) = graphs.flatMap (·.dependencies) := by
  have operations : ∀ g : Graph, g.isVoid = true → g.operations = [] := by
    intro g void
    exact List.isEmpty_iff.mp (Bool.and_eq_true_iff.mp void).1
  have dependencies : ∀ g : Graph, g.isVoid = true → g.dependencies = [] := by
    intro g void
    exact List.isEmpty_iff.mp (Bool.and_eq_true_iff.mp void).2
  rw [flatMap_void operations others,flatMap_void dependencies others,flatMap_void operations graphs,
    flatMap_void dependencies graphs,same]
  exact ⟨rfl,rfl⟩

private theorem mapM_merge {blocks : List (List Graph)}
    (keyed : ∀ block ∈ blocks, ∀ g ∈ block, ∀ d ∈ g.dependencies, d.Keyed) (env : Environment) :
    Yields (blocks.mapM merge) env (.ok (blocks.map merged)) := by
  have each : blocks.mapM (fun block => Except.ok (ε := Failure) (merged block)) = .ok (blocks.map merged) :=
    List.mapM_pure
  rw [← each]
  exact Run.yields_mapM fun block listed => merge_of_keyed (keyed block listed) env

/-- Merging is associative and idempotent, and void graphs are neutral: merging what blocks of graphs merge to, merging
    all graphs twice, or merging them with void ones among them gives the operations and dependencies that merging them
    at once gives. -/
theorem merge_blocks (blocks : List (List Graph)) (keyed : ∀ g ∈ blocks.flatten, ∀ d ∈ g.dependencies, d.Keyed)
    (env : Environment) :
    ∃ whole, Yields (merge blocks.flatten) env (.ok whole) ∧
      (∃ parts h, Yields (blocks.mapM merge) env (.ok parts) ∧ Yields (merge parts) env (.ok h) ∧ h.Coincides whole) ∧
      (∃ h, Yields (merge (blocks.flatten ++ blocks.flatten)) env (.ok h) ∧ h.Coincides whole) ∧
      ∀ others : List Graph, (others.filter fun g => !g.isVoid) = (blocks.flatten.filter fun g => !g.isVoid) →
        ∃ h, Yields (merge others) env (.ok h) ∧ h.Coincides whole := by
  have each : ∀ block ∈ blocks, ∀ g ∈ block, ∀ d ∈ g.dependencies, d.Keyed := fun block listed g inside =>
    keyed g (List.mem_flatten_of_mem listed inside)
  refine ⟨_,merge_of_keyed keyed env,⟨_,_,mapM_merge each env,?_,merged_regrouped blocks⟩,⟨_,?_,merged_twice _⟩,?_⟩
  · refine merge_of_keyed (List.forall_mem_map.mpr fun block listed d kept => ?_) env
    obtain ⟨g,inside,member⟩ := mem_merged_dependencies kept
    exact each block listed g inside d member
  · refine merge_of_keyed (fun g listed => keyed g ?_) env
    rwa [List.mem_append,or_self] at listed
  · intro others same
    -- The other list may hold graphs that are not in the blocks, but no dependencies of theirs.
    obtain ⟨operations,dependencies⟩ := contents_void same
    refine ⟨merged others,merge_of_keyed (fun g listed d member => ?_) env,?_,?_⟩
    · have inside : d ∈ others.flatMap (·.dependencies) := List.mem_flatMap.mpr ⟨g,listed,member⟩
      rw [dependencies] at inside
      obtain ⟨h,among,also⟩ := List.mem_flatMap.mp inside
      exact keyed h among d also
    · rw [merged_operations,merged_operations,operations]
    · rw [merged_dependencies,merged_dependencies,dependencies]

theorem merge_blocks_regions : (∀ g ∈ [[northern],[],[southern,northern]].flatten, ∀ d ∈ g.dependencies, d.Keyed) ∧
    ∃ whole parts h k, Yields (merge [northern,southern,northern]) .empty (.ok whole) ∧
      Yields ([[northern],[],[southern,northern]].mapM merge) .empty (.ok parts) ∧
      Yields (merge parts) .empty (.ok h) ∧ h.Coincides whole ∧
      Yields (merge [northern,southern,assemble [] [] (.single "region" .null),northern]) .empty (.ok k) ∧
      k.Coincides whole ∧ whole.operations = [bareOperation "b",bareOperation "a",bareOperation "c"] ∧
      whole.dependencies = [.plainlyWritten,bareDependency "b" "a",bareDependency "c" "ghost"] := by
  have keyed : ∀ g ∈ [[northern],[],[southern,northern]].flatten, ∀ d ∈ g.dependencies, d.Keyed := by decide
  obtain ⟨whole,yields,⟨parts,h,each,again,grouped⟩,_,void⟩ := merge_blocks _ keyed .empty
  obtain ⟨k,inserted,same⟩ := void [northern,southern,assemble [] [] (.single "region" .null),northern] rfl
  have is : Except.ok (merged [northern,southern,northern]) = .ok whole := yields.result (s := {}) rfl
  obtain rfl := Except.ok.inj is
  exact ⟨keyed,_,parts,h,k,yields,each,again,grouped,inserted,same,rfl,rfl⟩

/-! ### The order of the sources -/

/-- The same identifiers, and the same dependencies up to equality in another order. -/
structure Rearranges (g h : Graph) : Prop where
  known : ∀ id, g.Known id ↔ h.Known id
  dependencies : ∃ ds, ds.Perm h.dependencies ∧ List.Forall₂ (fun a b => (a == b) = true) g.dependencies ds

theorem known_merged (graphs : List Graph) (id : Value) : (merged graphs).Known id ↔ ∃ g ∈ graphs, g.Known id := by
  constructor
  · rintro ⟨op,kept,same⟩
    obtain ⟨g,listed,member⟩ := mem_merged_operations kept
    exact ⟨g,listed,op,member,same⟩
  · rintro ⟨g,listed,op,member,same⟩
    obtain ⟨first,kept,again⟩ := exists_firsts sharesId_equivalence (List.mem_flatMap.mpr ⟨g,listed,member⟩)
    rw [← merged_operations] at kept
    exact ⟨first,kept,BEq.trans again same⟩

theorem live_congr {g : Graph} {d e : Dependency} (equal : (d == e) = true) : g.Live d ↔ g.Live e := by
  obtain ⟨first,second,_⟩ := Dependency.beq_iff.mp equal
  rw [Live,Live,known_congr first,known_congr second]

theorem merged_rearranges {graphs others : List Graph} (reordered : graphs.Perm others) :
    (merged graphs).Rearranges (merged others) where
  known id := by
    rw [known_merged,known_merged]
    exact exists_congr fun g => and_congr_left' reordered.mem_iff
  dependencies := by
    obtain ⟨ds,among,each⟩ := firsts_perm Dependency.repeats_equivalence (reordered.flatMap_right (·.dependencies))
    exact ⟨ds,among,each.imp fun _ _ again => (Dependency.repeats_iff.mp again).2⟩

namespace Rearranges
variable {g h : Graph}

theorem symm (same : g.Rearranges h) : h.Rearranges g := by
  obtain ⟨ds,among,each⟩ := same.dependencies
  obtain ⟨es,counterparts,within⟩ := List.perm_comp_forall₂ among.symm (each.flip.imp fun _ _ equal => BEq.symm equal)
  exact ⟨fun id => (same.known id).symm,es,within,counterparts⟩

theorem counterpart (same : g.Rearranges h) {d : Dependency} (member : d ∈ g.dependencies) :
    ∃ e ∈ h.dependencies, (d == e) = true := by
  obtain ⟨ds,among,each⟩ := same.dependencies
  obtain ⟨i,bound,rfl⟩ := List.getElem_of_mem member
  have inside : i < ds.length := each.length_eq ▸ bound
  exact ⟨ds[i],among.subset (List.getElem_mem inside),each.get bound inside⟩

theorem live (same : g.Rearranges h) (d : Dependency) : g.Live d ↔ h.Live d := by
  rw [Live,Live,same.known,same.known]

private theorem leads_of (same : g.Rearranges h) {a b : Value} (leads : g.Leads a b) : h.Leads a b := by
  obtain ⟨d,member,live,left,right⟩ := leads
  obtain ⟨e,inside,equal⟩ := same.counterpart member
  obtain ⟨first,second,_⟩ := Dependency.beq_iff.mp equal
  have live : h.Live e := (live_congr equal).mp ((same.live d).mp live)
  exact ⟨e,inside,live,BEq.trans (BEq.symm first) left,BEq.trans (BEq.symm second) right⟩

theorem leads (same : g.Rearranges h) : g.Leads = h.Leads := by
  funext a b
  exact propext ⟨leads_of same,leads_of same.symm⟩

private theorem all_live_of (same : g.Rearranges h) (all : ∀ d ∈ g.dependencies, g.Live d) :
    ∀ d ∈ h.dependencies, h.Live d := by
  intro e member
  obtain ⟨d,inside,equal⟩ := same.symm.counterpart member
  exact (live_congr equal).mpr ((same.live d).mp (all d inside))

theorem all_live (same : g.Rearranges h) :
    (∀ d ∈ g.dependencies, g.Live d) ↔ ∀ d ∈ h.dependencies, h.Live d :=
  ⟨all_live_of same,all_live_of same.symm⟩

end Rearranges

theorem merged_textual {graphs : List Graph} (ids : ∀ g ∈ graphs, ∀ op ∈ g.operations, op.id.isText = true)
    (keyed : ∀ g ∈ graphs, ∀ d ∈ g.dependencies, d.Keyed) : (merged graphs).Textual where
  ids op kept := by
    obtain ⟨g,listed,member⟩ := mem_merged_operations kept
    exact ids g listed op member
  ends d kept := by
    obtain ⟨g,listed,member⟩ := mem_merged_dependencies kept
    exact (keyed g listed d member).ends

/-- The order of merged graphs decides no more than which of equal things stay and where they stand. The identifiers are
    the same, the dependencies are the same up to equality, and so is whether there are dangling dependencies, whether
    there is a cycle, and which identifiers a cycle leaves over. -/
theorem merge_reordered (graphs others : List Graph) (reordered : graphs.Perm others)
    (ids : ∀ g ∈ graphs, ∀ op ∈ g.operations, op.id.isText = true)
    (keyed : ∀ g ∈ graphs, ∀ d ∈ g.dependencies, d.Keyed) (env : Environment) :
    ∃ h k, Yields (merge graphs) env (.ok h) ∧ Yields (merge others) env (.ok k) ∧ h.Rearranges k ∧
      (∃ p q, Yields h.validateReferences env (.ok p) ∧ Yields k.validateReferences env (.ok q) ∧ (p = none ↔ q = none)) ∧
      ((Yields h.validateAcyclic env (.ok none) ∧ Yields k.validateAcyclic env (.ok none)) ∨
        ∃ us vs, Yields h.validateAcyclic env (.ok (some (.circularDependency us))) ∧
          Yields k.validateAcyclic env (.ok (some (.circularDependency vs))) ∧
          ∀ id, (∃ u ∈ us, (u == id) = true) ↔ ∃ v ∈ vs, (v == id) = true) := by
  have keyed' : ∀ g ∈ others, ∀ d ∈ g.dependencies, d.Keyed := fun g listed => keyed g (reordered.mem_iff.mpr listed)
  have first : (merged graphs).Textual := merged_textual ids keyed
  have second : (merged others).Textual := merged_textual (fun g listed => ids g (reordered.mem_iff.mpr listed)) keyed'
  have same : (merged graphs).Rearranges (merged others) := merged_rearranges reordered
  refine ⟨_,_,merge_of_keyed keyed env,merge_of_keyed keyed' env,same,
    ⟨_,_,validateReferences_yields first.keyed env,validateReferences_yields second.keyed env,?_⟩,?_⟩
  · rw [referenceFailure_eq_none,referenceFailure_eq_none]
    exact same.all_live
  · by_cases cyclic : (merged graphs).Cyclic
    · have again : (merged others).Cyclic := by rwa [Cyclic,← same.leads]
      refine .inr ⟨_,_,validateAcyclic_of_cyclic first cyclic env,validateAcyclic_of_cyclic second again env,fun id => ?_⟩
      rw [mem_blocked,mem_blocked,same.leads]
    · have clear : ¬ (merged others).Cyclic := by rwa [Cyclic,← same.leads]
      exact .inl ⟨validateAcyclic_of_acyclic first.keyed cyclic env,validateAcyclic_of_acyclic second.keyed clear env⟩

theorem merge_reordered_regions : [northern,southern].Perm [southern,northern] ∧
    (∀ g ∈ [northern,southern], ∀ op ∈ g.operations, op.id.isText = true) ∧
    (∀ g ∈ [northern,southern], ∀ d ∈ g.dependencies, d.Keyed) ∧
    ∃ h k, Yields (merge [northern,southern]) .empty (.ok h) ∧ Yields (merge [southern,northern]) .empty (.ok k) ∧
      h.Rearranges k ∧
      h.dependencies = [.plainlyWritten,bareDependency "b" "a",bareDependency "c" "ghost"] ∧
      k.dependencies = [bareDependency "b" "a",.richlyWritten,bareDependency "c" "ghost"] ∧
      Yields h.validateReferences .empty (.ok (some (.invalidReferences [bareDependency "c" "ghost"] false))) ∧
      Yields k.validateReferences .empty (.ok (some (.invalidReferences [bareDependency "c" "ghost"] false))) ∧
      Yields h.validateAcyclic .empty (.ok (some (.circularDependency [.text "b",.text "a"]))) ∧
      Yields k.validateAcyclic .empty (.ok (some (.circularDependency [.text "a",.text "b"]))) := by
  have reordered : [northern,southern].Perm [southern,northern] := .swap _ _ _
  have ids : ∀ g ∈ [northern,southern], ∀ op ∈ g.operations, op.id.isText = true := by decide
  have keyed : ∀ g ∈ [northern,southern], ∀ d ∈ g.dependencies, d.Keyed := by decide
  obtain ⟨h,k,first,second,same,⟨p,q,dangling,likewise,_⟩,cycle⟩ := merge_reordered _ _ reordered ids keyed .empty
  have is : Except.ok (merged [northern,southern]) = .ok h := first.result (s := {}) rfl
  obtain rfl := Except.ok.inj is
  have is : Except.ok (merged [southern,northern]) = .ok k := second.result (s := {}) rfl
  obtain rfl := Except.ok.inj is
  cases dangling.result (s := {}) rfl
  cases likewise.result (s := {}) rfl
  refine ⟨reordered,ids,keyed,_,_,first,second,same,rfl,rfl,dangling,likewise,?_⟩
  rcases cycle with ⟨clear,_⟩ | ⟨us,vs,stuck,again,_⟩
  · cases clear.result (s := {}) rfl
  · cases stuck.result (s := {}) rfl
    cases again.result (s := {}) rfl
    exact ⟨stuck,again⟩

end InfraGraph.Graph
