import InfraGraph.Proofs.Graph.Validation
import InfraGraph.Proofs.Operation

/-!
What there is to report of a graph, said without the checks. Validation reports this, whatever else is wrong with the
graph: dependencies without an end hide a cycle, and a cycle hides what the operations lack.
-/
open Relator (RightUnique)
namespace InfraGraph.Graph
open Run (Yields)

/-- A failure names an operation and what it lacks, with its type. -/
def Names (op : Operation) (failure : Operation × MissingParameter) : Prop :=
  ∃ field, op.Lacks field ∧ failure = (op,⟨op.typeName,.text field⟩)

open scoped Classical in
/-- Failures name the operations that break the rule of their type, in their order and as often as they are there. -/
def Lists (ops : List Operation) (failures : List (Operation × MissingParameter)) : Prop :=
  List.Forall₂ Names (ops.filter fun op => op.Faulty) failures

/-- What there is to report of a graph. -/
inductive Diagnosed (g : Graph) (verbose : Bool) : Option Failure → Prop
  | dangling {d : Dependency} (member : d ∈ g.dependencies) (dead : ¬ g.Live d) :
      Diagnosed g verbose (some (.invalidReferences (g.dependencies.filter fun d => ¬ g.Live d) verbose))
  | cyclic (live : ∀ d ∈ g.dependencies, g.Live d) (cycle : g.Cyclic) :
      Diagnosed g verbose (some (.circularDependency g.blocked))
  | faulty {failures : List (Operation × MissingParameter)} (live : ∀ d ∈ g.dependencies, g.Live d)
      (acyclic : ¬ g.Cyclic) (listed : Lists g.operations failures) (any : failures ≠ []) :
      Diagnosed g verbose (some (.invalidOperations failures))
  | sound (live : ∀ d ∈ g.dependencies, g.Live d) (acyclic : ¬ g.Cyclic) (each : ∀ op ∈ g.operations, ¬ op.Faulty) :
      Diagnosed g verbose none

theorem names_rightUnique : RightUnique Names := by
  rintro op _ _ ⟨a,first,rfl⟩ ⟨b,second,rfl⟩
  rw [first.unique second]

theorem Lists.unique {ops : List Operation} {as bs : List (Operation × MissingParameter)} (first : Lists ops as)
    (second : Lists ops bs) : as = bs :=
  names_rightUnique.forall₂ first second

theorem lists_nil {ops : List Operation} : Lists ops [] ↔ ∀ op ∈ ops, ¬ op.Faulty := by
  rw [Lists,List.forall₂_nil_right_iff,List.filter_eq_nil_iff]
  simp

theorem Diagnosed.unique {g : Graph} {verbose : Bool} {a b : Option Failure} (first : g.Diagnosed verbose a)
    (second : g.Diagnosed verbose b) : a = b := by
  cases first with
  | dangling member dead =>
    cases second with
    | dangling => rfl
    | cyclic live => exact absurd (live _ member) dead
    | faulty live => exact absurd (live _ member) dead
    | sound live => exact absurd (live _ member) dead
  | cyclic live cycle =>
    cases second with
    | dangling member dead => exact absurd (live _ member) dead
    | cyclic => rfl
    | faulty _ acyclic => exact absurd cycle acyclic
    | sound _ acyclic => exact absurd cycle acyclic
  | faulty live acyclic listed any =>
    cases second with
    | dangling member dead => exact absurd (live _ member) dead
    | cyclic _ cycle => exact absurd cycle acyclic
    | faulty _ _ again => rw [listed.unique again]
    | sound _ _ each => exact absurd (listed.unique (lists_nil.mpr each)) any
  | sound live acyclic each =>
    cases second with
    | dangling member dead => exact absurd (live _ member) dead
    | cyclic _ cycle => exact absurd cycle acyclic
    | faulty _ _ listed any => exact absurd (listed.unique (lists_nil.mpr each)) any
    | sound => rfl

theorem lackingOperations_lists {ops : List Operation} (labelled : ∀ op ∈ ops, op.Labelled) :
    ∃ failures, lackingOperations ops = .ok failures ∧ Lists ops failures := by
  induction ops with
  | nil => exact ⟨[],rfl,.nil⟩
  | cons op rest ih =>
    obtain ⟨failures,found,listed⟩ := ih fun other later => labelled other (List.mem_cons_of_mem _ later)
    rcases Operation.validate_spec (labelled op (by simp)) with ⟨field,lacks,reported⟩ | ⟨sound,passed⟩
    · refine ⟨(op,⟨op.typeName,.text field⟩) :: failures,by rw [lackingOperations,reported,found]; rfl,?_⟩
      rw [Lists,List.filter_cons_of_pos (by simpa using ⟨field,lacks⟩)]
      exact .cons ⟨field,lacks,rfl⟩ listed
    · refine ⟨failures,by rw [lackingOperations,passed,found]; rfl,?_⟩
      rw [Lists,List.filter_cons_of_neg (by simpa using sound)]
      exact listed

/-- Validation reports what there is to report. -/
theorem validate_diagnosed {g : Graph} (textual : g.Textual) (labelled : ∀ op ∈ g.operations, op.Labelled)
    (env : Environment) : ∃ problem, Yields g.validate env (.ok problem) ∧ g.Diagnosed (isVerbose env) problem := by
  obtain ⟨failures,found,listed⟩ := lackingOperations_lists labelled
  obtain ⟨typed,rfl⟩ := lackingOperations_eq_ok.mp found
  have checks := firstFailure_yields (.cons (validateReferences_yields textual.keyed env)
    (.cons (validateAcyclic_yields textual env) (.cons (validateOperations_yields typed env) .nil)))
  -- The first check that fails hides those after it, so the cases are those of the checks, in their order.
  refine ⟨_,checks,?_⟩
  by_cases live : ∀ d ∈ g.dependencies, g.Live d
  · rw [(g.referenceFailure_eq_none _).mpr live,List.findSome?_cons]
    by_cases cyclic : g.Cyclic
    · rw [cycleFailure,if_pos cyclic]
      exact .cyclic live cyclic
    · rw [g.cycleFailure_eq_none.mpr cyclic,List.findSome?_cons,operationFailure]
      generalize shortcomings g.operations = failures at listed ⊢
      cases failures with
      | nil => exact .sound live cyclic (lists_nil.mp listed)
      | cons failure rest => exact .faulty live cyclic listed (by simp)
  · push Not at live
    obtain ⟨d,member,dead⟩ := live
    have some : ¬ (g.dependencies.filter fun d => ¬ g.Live d).isEmpty = true := by
      rw [List.isEmpty_iff,List.filter_eq_nil_iff]
      exact fun none => none d member (by simpa using dead)
    rw [referenceFailure,if_neg some]
    exact .dangling member dead

/-- There is nothing to report of a graph. -/
structure Sound (g : Graph) : Prop where
  live : ∀ d ∈ g.dependencies, g.Live d
  acyclic : ¬ g.Cyclic
  each : ∀ op ∈ g.operations, ¬ op.Faulty

theorem diagnosed_none {g : Graph} {verbose : Bool} : g.Diagnosed verbose none ↔ g.Sound := by
  constructor
  · rintro (_ | _ | _ | ⟨live,acyclic,each⟩)
    exact ⟨live,acyclic,each⟩
  · exact fun sound => .sound sound.live sound.acyclic sound.each

theorem validate_none_iff {g : Graph} (textual : g.Textual) (labelled : ∀ op ∈ g.operations, op.Labelled)
    (env : Environment) : Yields g.validate env (.ok none) ↔ g.Sound := by
  obtain ⟨problem,validates,diagnosed⟩ := validate_diagnosed textual labelled env
  constructor
  · intro passes
    obtain ⟨t,executed⟩ := passes {}
    cases validates.result executed
    exact diagnosed_none.mp diagnosed
  · intro sound
    obtain rfl := diagnosed.unique (diagnosed_none.mpr sound)
    exact validates

/-- Validation returns the one thing there is to report, which `ensureValid` fails with. A graph with nothing to report
    can be sorted. -/
theorem validate_total_correct (g : Graph) (textual : g.Textual) (labelled : ∀ op ∈ g.operations, op.Labelled)
    (env : Environment) :
    ∃ problem, Yields g.validate env (.ok problem) ∧
      (∀ other, g.Diagnosed (isVerbose env) other ↔ other = problem) ∧
      Yields g.ensureValid env (problem.elim (.ok ()) .error) ∧
      (problem = none → ∃ ops, Yields g.topologicalSort env (.ok ops)) := by
  obtain ⟨problem,validates,diagnosed⟩ := validate_diagnosed textual labelled env
  refine ⟨problem,validates,fun other => ⟨fun again => again.unique diagnosed,?_⟩,ensureValid_yields validates,?_⟩
  · rintro rfl
    exact diagnosed
  · rintro rfl
    cases diagnosed with
    | sound _ acyclic _ => exact ⟨_,topologicalSort_of_acyclic textual.keyed acyclic env⟩

/-- A package without a name, a file without a content, and a file without a place under an identifier that is taken. -/
def unnamed : Operation := { bareOperation "a" with type := .known .packageInstall }
def hollow : Operation :=
  { bareOperation "b" with type := .known .fileWrite, params := Mapping.single "path" (.text "/etc/hosts") }
def unplaced : Operation := { bareOperation "a" with type := .known .fileWrite }

/-- They stand among operations that lack nothing, and the dependencies are in order. -/
def unprovided : Graph :=
  assemble
    [unnamed,hollow,{ bareOperation "c" with type := .known .serviceStart, params := Mapping.single "name" (.text "sshd") },
      bareOperation "d",unplaced]
    [bareDependency "a" "b",bareDependency "a" "c"] .empty

theorem unprovided_textual : unprovided.Textual := by
  constructor
  · decide
  · decide

theorem unprovided_labelled : ∀ op ∈ unprovided.operations, op.Labelled := by
  rintro op (_ | ⟨_,_ | ⟨_,_ | ⟨_,_ | ⟨_,_ | ⟨_,⟨⟩⟩⟩⟩⟩⟩)
  all_goals exact ⟨rfl,rfl⟩

theorem validate_unprovided : unprovided.Textual ∧ (∀ op ∈ unprovided.operations, op.Labelled) ∧
    unprovided.Diagnosed false (some (.invalidOperations [(unnamed,⟨"package_install",.text "package"⟩),
      (hollow,⟨"file_write",.text "content_or_source"⟩),(unplaced,⟨"file_write",.text "path"⟩)])) := by
  obtain ⟨problem,validates,reported,_⟩ :=
    validate_total_correct unprovided unprovided_textual unprovided_labelled .empty
  exact ⟨unprovided_textual,unprovided_labelled,(reported _).mpr (Except.ok.inj (validates.result (s := {}) rfl))⟩

end InfraGraph.Graph
