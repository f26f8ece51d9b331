import InfraGraph.Proofs.Graph.Component
import InfraGraph.Proofs.Graph.Diagnosis
import InfraGraph.Proofs.Graph.Sources

/-!
Sound graphs merged. Whatever dangles in one graph may end in another one, and a cycle may run through several of them,
but nothing else goes wrong. Graphs that share no identifier stay apart when they are merged: each of them is a component
of what they are merged to, and the order interleaves theirs.
-/
open Relation (TransGen)
namespace InfraGraph.Graph
open Run (Yields)
variable {graphs : List Graph} {g h : Graph}

theorem merged_all_live : (∀ d ∈ (merged graphs).dependencies, (merged graphs).Live d) ↔
    ∀ g ∈ graphs, ∀ d ∈ g.dependencies, (merged graphs).Live d := by
  constructor
  · intro all g listed d member
    obtain ⟨e,kept,again⟩ := exists_firsts Dependency.repeats_equivalence (List.mem_flatMap.mpr ⟨g,listed,member⟩)
    exact (live_congr (Dependency.repeats_iff.mp again).2).mp (all e kept)
  · intro all d kept
    obtain ⟨g,listed,member⟩ := mem_merged_dependencies kept
    exact all g listed d member

theorem merged_live (live : ∀ g ∈ graphs, ∀ d ∈ g.dependencies, g.Live d) :
    ∀ d ∈ (merged graphs).dependencies, (merged graphs).Live d := by
  refine merged_all_live.mpr fun g listed d member => ?_
  obtain ⟨first,second⟩ := live g listed d member
  exact ⟨(known_merged graphs _).mpr ⟨g,listed,first⟩,(known_merged graphs _).mpr ⟨g,listed,second⟩⟩

/-- What sound graphs are merged to may have a cycle, and nothing else is wrong with it. -/
theorem merged_sound (each : ∀ g ∈ graphs, g.Sound) (acyclic : ¬ (merged graphs).Cyclic) : (merged graphs).Sound where
  live := merged_live fun g listed => (each g listed).live
  acyclic := acyclic
  each op kept := by
    obtain ⟨g,listed,member⟩ := mem_merged_operations kept
    exact (each g listed).each op member

/-! ### Graphs that share nothing -/

/-- No identifier is known to both graphs. -/
def Apart (g h : Graph) : Prop := ∀ id, ¬ (g.Known id ∧ h.Known id)

instance : Std.Symm Apart where
  symm _ _ apart id both := apart id both.symm

theorem apart_iff : g.Apart h ↔ ∀ a ∈ g.operations, ∀ b ∈ h.operations, (a.id == b.id) = false := by
  constructor
  · intro apart a left b right
    by_contra same
    exact apart b.id ⟨⟨a,left,by simpa using same⟩,b,right,BEq.rfl⟩
  · rintro different id ⟨⟨a,left,same⟩,b,right,also⟩
    have equal : (a.id == b.id) = true := BEq.trans same (BEq.symm also)
    rw [different a left b right] at equal
    cases equal

instance : DecidableRel Apart := fun _ _ => decidable_of_iff _ apart_iff.symm

section Apart
variable (apart : graphs.Pairwise Apart) (live : ∀ g ∈ graphs, ∀ d ∈ g.dependencies, g.Live d)

include apart in
theorem home_unique (first : g ∈ graphs) (second : h ∈ graphs) {id : Value} (known : g.Known id) (also : h.Known id) :
    g = h := by
  by_contra different
  exact apart.forall first second different id ⟨known,also⟩

include live in
theorem leads_of_merged {a b : Value} (leads : (merged graphs).Leads a b) : ∃ g ∈ graphs, g.Leads a b := by
  obtain ⟨d,kept,_,ends⟩ := leads
  obtain ⟨g,listed,member⟩ := mem_merged_dependencies kept
  exact ⟨g,listed,d,member,live g listed d member,ends⟩

include apart live

/-- A path never leaves the graph that it starts in. -/
theorem path_of_merged {a b : Value} (path : TransGen (merged graphs).Leads a b) : ∃ g ∈ graphs, TransGen g.Leads a b := by
  induction path with
  | single leads =>
    obtain ⟨g,listed,leads⟩ := leads_of_merged live leads
    exact ⟨g,listed,.single leads⟩
  | tail _ leads ih =>
    obtain ⟨g,listed,path⟩ := ih
    obtain ⟨h,also,onward⟩ := leads_of_merged live leads
    obtain ⟨_,_,entering⟩ := TransGen.tail'_iff.mp path
    -- Both graphs know the identifier where the path has arrived, so they are the same.
    obtain rfl := home_unique apart listed also (known_of_leads entering).2 (known_of_leads onward).1
    exact ⟨g,listed,path.tail onward⟩

theorem merged_acyclic (acyclic : ∀ g ∈ graphs, ¬ g.Cyclic) : ¬ (merged graphs).Cyclic := by
  rintro ⟨id,round⟩
  obtain ⟨g,listed,round⟩ := path_of_merged apart live round
  exact acyclic g listed ⟨id,round⟩

omit live in
/-- A filter for what only one of the graphs has leaves what that graph has. -/
private theorem filter_flatMap {α : Type} {f : Graph → List α} {p : α → Bool} (listed : g ∈ graphs)
    (inside : ∀ a ∈ f g, p a = true) (outside : ∀ h ∈ graphs, h.Apart g → ∀ a ∈ f h, ¬ p a = true) :
    (graphs.flatMap f).filter p = f g := by
  obtain ⟨before,after,rfl⟩ := List.append_of_mem listed
  obtain ⟨_,later,across⟩ := List.pairwise_append.mp apart
  have front : (before.flatMap f).filter p = [] := by
    refine List.filter_eq_nil_iff.mpr fun a member => ?_
    obtain ⟨h,first,among⟩ := List.mem_flatMap.mp member
    exact outside h (by simp [first]) (across h first g (by simp)) a among
  have back : (after.flatMap f).filter p = [] := by
    refine List.filter_eq_nil_iff.mpr fun a member => ?_
    obtain ⟨h,last,among⟩ := List.mem_flatMap.mp member
    exact outside h (by simp [last]) (symm ((List.pairwise_cons.mp later).1 h last)) a among
  rw [List.flatMap_append,List.flatMap_cons,List.filter_append,List.filter_append,front,back,
    List.filter_eq_self.mpr inside,List.nil_append,List.append_nil]

theorem component_merged (listed : g ∈ graphs) (once : g.dependencies.Pairwise fun a b => (a == b) = false) :
    g.Component (merged graphs) where
  operations := by
    have own : (graphs.flatMap (·.operations)).filter (fun op => g.Known op.id) = g.operations := by
      refine filter_flatMap apart listed ?_ ?_
      · intro op member
        exact decide_eq_true ⟨op,member,BEq.rfl⟩
      · intro h _ foreign op member known
        exact foreign op.id ⟨⟨op,member,BEq.rfl⟩,of_decide_eq_true known⟩
    have respects (a b : Operation) (same : sharesId a b = true) : decide (g.Known a.id) = decide (g.Known b.id) :=
      decide_eq_decide.mpr (known_congr same)
    -- What has been merged repeats no identifier, so its first operations are all that it has.
    rw [merged_operations,firsts_eq_self (firsts_pairwise _ _),firsts_filter respects,own]
  dependencies := by
    have own : (graphs.flatMap (·.dependencies)).filter (fun d => g.Live d) = g.dependencies := by
      refine filter_flatMap apart listed ?_ ?_
      · intro d member
        exact decide_eq_true (live g listed d member)
      · intro h also foreign d member within
        exact foreign d.prerequisite ⟨(live h also d member).1,(of_decide_eq_true within).1⟩
    have respects (a b : Dependency) (again : a.repeats b = true) : decide (g.Live a) = decide (g.Live b) :=
      decide_eq_decide.mpr (live_congr (Dependency.repeats_iff.mp again).2)
    have different : g.dependencies.Pairwise fun a b => a.repeats b = false := by
      refine once.imp fun {a b} apart => ?_
      rw [Dependency.repeats,apart,Bool.and_false]
    rw [merged_dependencies,firsts_filter respects,own,firsts_eq_self different]
  closed d kept _ := by
    obtain ⟨h,also,member⟩ := mem_merged_dependencies kept
    obtain ⟨first,second⟩ := live h also d member
    constructor
    · intro known
      obtain rfl := home_unique apart listed also known first
      exact second
    · intro known
      obtain rfl := home_unique apart listed also known second
      exact first

end Apart

/-- What graphs are merged to has no dangling dependency exactly if each end of each of their dependencies is known to
    one of them. If they are sound, it is sound or has a cycle. If they are sound and share no identifier, it is sound,
    and if none of them has equal dependencies, its order leaves each of them the order that it has on its own. -/
theorem merge_validity (graphs : List Graph) (ids : ∀ g ∈ graphs, ∀ op ∈ g.operations, op.id.isText = true)
    (labelled : ∀ g ∈ graphs, ∀ op ∈ g.operations, op.Labelled)
    (textual : ∀ g ∈ graphs, ∀ d ∈ g.dependencies, d.Textual) (env : Environment) :
    ∃ h dangling problem, Yields (merge graphs) env (.ok h) ∧ Yields h.validateReferences env (.ok dangling) ∧
      Yields h.validate env (.ok problem) ∧
      (dangling = none ↔ ∀ g ∈ graphs, ∀ d ∈ g.dependencies,
        (∃ k ∈ graphs, k.Known d.prerequisite) ∧ ∃ k ∈ graphs, k.Known d.dependent) ∧
      ((∀ g ∈ graphs, Yields g.validate env (.ok none)) →
        (problem = none ∨ ∃ unresolved, problem = some (.circularDependency unresolved)) ∧
        (graphs.Pairwise Apart → problem = none ∧
          ((∀ g ∈ graphs, g.dependencies.Pairwise fun a b => (a == b) = false) →
            ∃ ops, Yields h.topologicalSort env (.ok ops) ∧
              ∀ g ∈ graphs, Yields g.topologicalSort env (.ok (ops.filter fun op => g.Known op.id))))) := by
  have keyed : ∀ g ∈ graphs, ∀ d ∈ g.dependencies, d.Keyed := fun g listed d member => (textual g listed d member).keyed
  have textuals : ∀ g ∈ graphs, g.Textual := fun g listed => ⟨ids g listed,fun d member => (keyed g listed d member).ends⟩
  have whole : (merged graphs).Textual := merged_textual ids keyed
  have types : ∀ op ∈ (merged graphs).operations, op.Labelled := by
    intro op kept
    obtain ⟨g,listed,member⟩ := mem_merged_operations kept
    exact labelled g listed op member
  obtain ⟨problem,validates,diagnosed⟩ := validate_diagnosed whole types env
  refine ⟨_,_,problem,merge_of_keyed keyed env,validateReferences_yields whole.keyed env,validates,
    ?_,?_⟩
  · rw [referenceFailure_eq_none,merged_all_live]
    simp only [Live,known_merged]
  · intro passes
    have sound : ∀ g ∈ graphs, g.Sound := fun g listed =>
      (validate_none_iff (textuals g listed) (labelled g listed) env).mp (passes g listed)
    have live : ∀ g ∈ graphs, ∀ d ∈ g.dependencies, g.Live d := fun g listed => (sound g listed).live
    constructor
    · by_cases cyclic : (merged graphs).Cyclic
      · exact .inr ⟨_,diagnosed.unique (.cyclic (merged_live live) cyclic)⟩
      · exact .inl (diagnosed.unique (diagnosed_none.mpr (merged_sound sound cyclic)))
    · intro apart
      have acyclic := merged_acyclic apart live fun g listed => (sound g listed).acyclic
      refine ⟨diagnosed.unique (diagnosed_none.mpr (merged_sound sound acyclic)),fun once => ?_⟩
      refine ⟨_,topologicalSort_of_acyclic whole.keyed acyclic env,fun g listed => ?_⟩
      rw [← (component_merged apart live listed (once g listed)).sorted acyclic]
      exact topologicalSort_of_acyclic (textuals g listed).keyed (sound g listed).acyclic env

/-- Two graphs with identifiers of their own, whose orders take turns in the order of both. -/
def upstairs : Graph :=
  assemble [bareOperation "b",bareOperation "a",bareOperation "b"] [bareDependency "a" "b"] .empty
def downstairs : Graph :=
  assemble [bareOperation "y",bareOperation "x",bareOperation "z"] [bareDependency "x" "y",bareDependency "z" "y"] .empty

theorem bareOperation_labelled (id : String) : (bareOperation id).Labelled := ⟨rfl,rfl⟩

theorem merge_storeys : (∀ g ∈ [upstairs,downstairs], ∀ op ∈ g.operations, op.id.isText = true) ∧
    (∀ g ∈ [upstairs,downstairs], ∀ op ∈ g.operations, op.Labelled) ∧
    (∀ g ∈ [upstairs,downstairs], ∀ d ∈ g.dependencies, d.Textual) ∧
    (∀ g ∈ [upstairs,downstairs], Yields g.validate .empty (.ok none)) ∧ [upstairs,downstairs].Pairwise Apart ∧
    ∃ h ops, Yields (merge [upstairs,downstairs]) .empty (.ok h) ∧ Yields h.validate .empty (.ok none) ∧
      Yields h.topologicalSort .empty (.ok ops) ∧
      ops.map (·.id) = [.text "a",.text "x",.text "z",.text "b",.text "y"] ∧
      Yields upstairs.topologicalSort .empty (.ok (ops.filter fun op => upstairs.Known op.id)) ∧
      Yields downstairs.topologicalSort .empty (.ok (ops.filter fun op => downstairs.Known op.id)) := by
  have ids : ∀ g ∈ [upstairs,downstairs], ∀ op ∈ g.operations, op.id.isText = true := by decide
  have textual : ∀ g ∈ [upstairs,downstairs], ∀ d ∈ g.dependencies, d.Textual := by decide
  have labelled : ∀ g ∈ [upstairs,downstairs], ∀ op ∈ g.operations, op.Labelled := by
    simp [upstairs,downstairs,assemble,bareOperation_labelled]
  have passes : ∀ g ∈ [upstairs,downstairs], Yields g.validate .empty (.ok none) := by
    rintro g (_ | ⟨_,_ | ⟨_,⟨⟩⟩⟩)
    · exact (sound_of_validate (s := {}) (by decide) rfl).2.2.2
    · exact (sound_of_validate (s := {}) (by decide) rfl).2.2.2
  have apart : [upstairs,downstairs].Pairwise Apart := by decide
  obtain ⟨h,_,problem,merges,_,validates,_,sound⟩ := merge_validity _ ids labelled textual .empty
  have is : Except.ok (merged [upstairs,downstairs]) = .ok h := merges.result (s := {}) rfl
  obtain rfl := Except.ok.inj is
  obtain ⟨rfl,order⟩ := (sound passes).2 apart
  obtain ⟨ops,sorts,each⟩ := order (by decide)
  have is : Except.ok (merged [upstairs,downstairs]).sorted = .ok ops := sorts.result (s := {}) rfl
  obtain rfl := Except.ok.inj is
  exact ⟨ids,labelled,textual,passes,apart,_,_,merges,validates,sorts,rfl,each _ (by simp),each _ (by simp)⟩

end InfraGraph.Graph
