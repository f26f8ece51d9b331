import InfraGraph.Proofs.Graph.Sort

/-!
What validation reports. Every check ends with a result of its own on a graph whose identifiers are texts
and whose types can be looked up, and validation with the first of these results that is a failure.
-/
namespace InfraGraph

/-- A failure tells that a format has no adapter. -/
def Failure.Unsupported (e : Failure) : Prop := ∃ adapterKind name, e = .unsupportedFormat adapterKind name

namespace Graph
open Run (Yields)
variable {env : Environment}

/-- The types of the operations can be looked up. -/
def Typed (g : Graph) : Prop := ∀ op ∈ g.operations, op.typeValue.isHashable = true

theorem firstFailure_yields {checks : List (Run (Option Failure))} {results : List (Option Failure)}
    (each : List.Forall₂ (fun check result => Yields check env (.ok result)) checks results) :
    Yields (firstFailure checks) env (.ok (results.findSome? fun result => result)) := by
  induction each with
  | nil => exact Run.yields_pure _
  | @cons check result checks results first _ ih =>
    cases result with
    | none => exact first.bind ih
    | some e => exact first.bind (Yields.bind (Run.yields_log _ _ _) (Run.yields_pure _))

/-- Every check passes in its turn when none of them fails. -/
theorem firstFailure_passed {checks : List (Run (Option Failure))} {s t : Session}
    (passed : (firstFailure checks).start env s = (.ok none,t)) :
    ∀ check ∈ checks, ∃ u v, check.start env u = (.ok none,v) := by
  induction checks generalizing s with
  | nil => simp
  | cons check rest ih =>
    rw [firstFailure,Run.start_bind] at passed
    rcases executed : check.start env s with ⟨result,u⟩
    rw [executed] at passed
    cases result with
    | error e => simp at passed
    | ok found =>
      cases found with
      | some e =>
        simp only [Run.start_bind,Run.start_log,Run.start_pure,Prod.mk.injEq,Except.ok.injEq] at passed
        cases passed.1
      | none =>
        intro other member
        rcases List.mem_cons.mp member with rfl | later
        · exact ⟨s,u,executed⟩
        · exact ih passed other later

/-! ### Results of the checks -/

open scoped Classical in
/-- The failure that live dependencies on a cycle are. -/
noncomputable def cycleFailure (g : Graph) : Option Failure :=
  if g.Cyclic then some (.circularDependency g.blocked) else none

/-- The failure that dependencies without an end are. -/
def referenceFailure (g : Graph) (verbose : Bool) : Option Failure :=
  let dangling := g.dependencies.filter fun d => ¬ g.Live d
  if dangling.isEmpty then none else some (.invalidReferences dangling verbose)

theorem referenceFailure_eq_none (g : Graph) (verbose : Bool) :
    g.referenceFailure verbose = none ↔ ∀ d ∈ g.dependencies, g.Live d := by
  simp [referenceFailure]

theorem cycleFailure_eq_none (g : Graph) : g.cycleFailure = none ↔ ¬ g.Cyclic := by
  simp [cycleFailure]

theorem validateReferences_yields {g : Graph} (keyed : g.Keyed) (env : Environment) :
    Yields g.validateReferences env (.ok (g.referenceFailure (isVerbose env))) := by
  unfold validateReferences referenceFailure
  rw [dangling_eq keyed]
  refine (Run.yields_ofFault _).bind ?_
  by_cases none : (g.dependencies.filter fun d => ¬ g.Live d).isEmpty = true
  · rw [if_pos none,if_pos none]
    exact Run.yields_pure _
  · rw [if_neg none,if_neg none]
    exact Yields.bind Run.yields_read (Run.yields_pure _)

theorem validateAcyclic_yields {g : Graph} (textual : g.Textual) (env : Environment) :
    Yields g.validateAcyclic env (.ok g.cycleFailure) := by
  by_cases cyclic : g.Cyclic
  · rw [cycleFailure,if_pos cyclic]
    exact validateAcyclic_of_cyclic textual cyclic env
  · rw [cycleFailure,if_neg cyclic]
    exact validateAcyclic_of_acyclic textual.keyed cyclic env

/-- What an operation lacks by the rule of its type. -/
def shortcoming (op : Operation) : Option MissingParameter :=
  match op.type with
  | .known action => (Operation.lackedBy op.params action).map fun field => ⟨op.typeName,.text field⟩
  | .other _ => none

/-- The operations that lack something, each with what it lacks. -/
def shortcomings (ops : List Operation) : List (Operation × MissingParameter) :=
  ops.filterMap fun op => (shortcoming op).map fun missing => (op,missing)

private theorem validate_eq_ok {op : Operation} {missing : Option MissingParameter} :
    op.validate = .ok missing ↔ op.typeValue.isHashable = true ∧ shortcoming op = missing := by
  unfold Operation.validate shortcoming Operation.typeValue
  cases op.type with
  | known action =>
    have hashable : ((Label.known action).toValue Tag.action).isHashable = true := rfl
    simp [hashable]
  | other v =>
    simp only [bind_eq_ok,Label.toValue]
    constructor
    · rintro ⟨_,required,returned⟩
      exact ⟨Value.requireHashable_eq_ok.mp required,Except.ok.inj returned⟩
    · rintro ⟨hashable,rfl⟩
      exact ⟨_,Value.requireHashable_eq_ok.mpr hashable,rfl⟩

private theorem shortcomings_cons (op : Operation) (rest : List Operation) : shortcomings (op :: rest) =
    ((shortcoming op).map fun missing => (op,missing)).toList ++ shortcomings rest := by
  cases is : shortcoming op with
  | none => exact List.filterMap_cons_none (by rw [is]; rfl)
  | some missing => exact List.filterMap_cons_some (by rw [is]; rfl)

/-- Validation reaches the end of the operations exactly if all types can be looked up. -/
theorem lackingOperations_eq_ok {ops : List Operation} {lacking : List (Operation × MissingParameter)} :
    lackingOperations ops = .ok lacking ↔
      (∀ op ∈ ops, op.typeValue.isHashable = true) ∧ shortcomings ops = lacking := by
  induction ops generalizing lacking with
  | nil => simp [lackingOperations,shortcomings]
  | cons op rest ih =>
    rw [lackingOperations,List.forall_mem_cons,shortcomings_cons]
    simp only [bind_eq_ok,validate_eq_ok,ih]
    constructor
    · rintro ⟨missing,⟨first,rfl⟩,_,⟨later,rfl⟩,returned⟩
      refine ⟨⟨first,later⟩,.trans ?_ (Except.ok.inj returned)⟩
      cases shortcoming op with
      | none => rfl
      | some missing => rfl
    · rintro ⟨⟨first,later⟩,rfl⟩
      refine ⟨_,⟨first,rfl⟩,_,⟨later,rfl⟩,congrArg Except.ok ?_⟩
      cases shortcoming op with
      | none => rfl
      | some missing => rfl

/-- The failure that operations are which lack something. -/
def operationFailure (g : Graph) : Option Failure :=
  if (shortcomings g.operations).isEmpty then none else some (.invalidOperations (shortcomings g.operations))

theorem validateOperations_yields {g : Graph} (typed : g.Typed) (env : Environment) :
    Yields g.validateOperations env (.ok g.operationFailure) := by
  unfold validateOperations operationFailure
  rw [lackingOperations_eq_ok.mpr ⟨typed,rfl⟩]
  refine (Run.yields_ofFault _).bind ?_
  by_cases none : (shortcomings g.operations).isEmpty = true
  · rw [if_pos none,if_pos none]
    exact Run.yields_pure _
  · rw [if_neg none,if_neg none]
    exact Run.yields_pure _

private theorem validateOperations_untyped {g : Graph} (untyped : ¬ g.Typed) (env : Environment) :
    ∃ fault, Yields g.validateOperations env (.error (.fault fault)) := by
  cases checked : lackingOperations g.operations with
  | ok lacking => exact absurd (lackingOperations_eq_ok.mp checked).1 untyped
  | error fault =>
    unfold validateOperations
    rw [checked]
    exact ⟨fault,(Run.yields_ofFault _).fails⟩

/-- The operations can be validated exactly if all types can be looked up. -/
theorem validateOperations_yields_ok {g : Graph} {problem : Option Failure} :
    Yields g.validateOperations env (.ok problem) ↔ g.Typed ∧ g.operationFailure = problem := by
  by_cases typed : g.Typed
  · have result := validateOperations_yields typed env
    constructor
    · exact fun also => ⟨typed,Except.ok.inj (result.unique also)⟩
    · rintro ⟨_,rfl⟩
      exact result
  · obtain ⟨fault,fails⟩ := validateOperations_untyped typed env
    constructor
    · intro returns
      cases fails.unique returns
    · exact fun ⟨also,_⟩ => absurd also typed

/-! ### Graphs of any kind -/

/-- A check that ends with one result, which says nothing about formats. -/
private def Settles (check : Run (Option Failure)) (env : Environment) : Prop :=
  ∃ result, Yields check env result ∧ ∀ e, result = .error e ∨ result = .ok (some e) → ¬ e.Unsupported

private theorem firstFailure_settles {checks : List (Run (Option Failure))} (each : ∀ check ∈ checks, Settles check env) :
    Settles (firstFailure checks) env := by
  induction checks with
  | nil => exact ⟨_,Run.yields_pure none,by simp⟩
  | cons check rest ih =>
    obtain ⟨result,settled,others⟩ := each check (by simp)
    cases result with
    | error e => exact ⟨_,settled.fails,others⟩
    | ok found =>
      cases found with
      | some e => exact ⟨_,settled.bind (Yields.bind (Run.yields_log _ _ _) (Run.yields_pure _)),others⟩
      | none =>
        obtain ⟨result,later,others⟩ := ih fun other member => each other (List.mem_cons_of_mem _ member)
        exact ⟨result,settled.bind later,others⟩

private theorem validateReferences_settles (g : Graph) (env : Environment) : Settles g.validateReferences env := by
  unfold validateReferences
  cases g.danglingDependencies with
  | error fault => exact ⟨_,(Run.yields_ofFault _).fails,by simp [Failure.Unsupported]⟩
  | ok dangling =>
    by_cases clear : dangling.isEmpty = true
    · refine ⟨.ok none,(Run.yields_ofFault _).bind ?_,by simp⟩
      rw [if_pos clear]
      exact Run.yields_pure _
    · refine ⟨.ok (some (.invalidReferences dangling (isVerbose env))),(Run.yields_ofFault _).bind ?_,?_⟩
      · rw [if_neg clear]
        exact Yields.bind Run.yields_read (Run.yields_pure _)
      · simp [Failure.Unsupported]

private theorem ofUnresolved_supported (ids : List Value) : ¬ (Failure.ofUnresolved ids).Unsupported := by
  unfold Failure.ofUnresolved
  split
  · simp [Failure.Unsupported]
  · simp [Failure.Unsupported]

private theorem orderedIds_settled (g : Graph) (env : Environment) :
    ∃ result, Yields g.orderedIds env result ∧ ∀ e, result = .error e → ¬ e.Unsupported := by
  unfold orderedIds
  cases g.arrangement with
  | error fault => exact ⟨_,(Run.yields_ofFault _).fails,by simp [Failure.Unsupported]⟩
  | ok outcome =>
    by_cases none : outcome.unresolved.isEmpty = true
    · refine ⟨.ok outcome.order,(Run.yields_ofFault _).bind ?_,by simp⟩
      rw [if_pos none]
      exact (Run.yields_log _ _ _).bind (Run.yields_pure _)
    · refine ⟨.error (.ofUnresolved outcome.unresolved),(Run.yields_ofFault _).bind ?_,?_⟩
      · rw [if_neg none]
        exact (Run.yields_log _ _ _).bind (Run.yields_throw _)
      · rintro e ⟨⟩
        exact ofUnresolved_supported _

private theorem validateAcyclic_settles (g : Graph) (env : Environment) : Settles g.validateAcyclic env := by
  obtain ⟨result,settled,others⟩ := orderedIds_settled g env
  cases result with
  | ok ids => exact ⟨_,(settled.bind (Run.yields_pure none)).uncaught,by simp⟩
  | error e =>
    have other : ¬ e.Unsupported := others e rfl
    -- Only a cycle is caught, and it is what the check then finds.
    by_cases cycle : ∃ ids, e = .circularDependency ids
    · obtain ⟨ids,rfl⟩ := cycle
      exact ⟨_,settled.fails.caught (Run.yields_pure _),by simpa using other⟩
    · refine ⟨.error e,settled.fails.caught ?_,by simpa using other⟩
      split
      · next ids => exact absurd ⟨ids,rfl⟩ cycle
      · exact Run.yields_throw _

private theorem validateOperations_settles (g : Graph) (env : Environment) : Settles g.validateOperations env := by
  by_cases typed : g.Typed
  · refine ⟨_,validateOperations_yields typed env,?_⟩
    unfold operationFailure
    split
    · simp
    · simp [Failure.Unsupported]
  · obtain ⟨fault,fails⟩ := validateOperations_untyped typed env
    exact ⟨_,fails,by simp [Failure.Unsupported]⟩

/-- Validation ends with one result, whatever the graph holds, and finds no fault with formats. -/
theorem validate_settled (g : Graph) (env : Environment) :
    ∃ result, Yields g.validate env result ∧ ∀ e, result = .error e ∨ result = .ok (some e) → ¬ e.Unsupported := by
  refine firstFailure_settles (List.forall_mem_cons.mpr ⟨validateReferences_settles g env,?_⟩)
  exact List.forall_mem_cons.mpr ⟨validateAcyclic_settles g env,List.forall_mem_singleton.mpr (validateOperations_settles g env)⟩

/-! ### The result of validation -/

/-- Validation has one result. Without a failure every dependency is live and there is no cycle. -/
theorem validate_yields {g : Graph} (textual : g.Textual) (typed : g.Typed) (env : Environment) :
    ∃ problem, Yields g.validate env (.ok problem) ∧
      (problem = none → (∀ d ∈ g.dependencies, g.Live d) ∧ ¬ g.Cyclic) := by
  refine ⟨_,firstFailure_yields (.cons (validateReferences_yields textual.keyed env)
    (.cons (validateAcyclic_yields textual env) (.cons (validateOperations_yields typed env) .nil))),?_⟩
  intro none
  rw [List.findSome?_eq_none_iff] at none
  have references := none (g.referenceFailure (isVerbose env)) (by simp)
  have cycle := none g.cycleFailure (by simp)
  exact ⟨(g.referenceFailure_eq_none _).mp references,g.cycleFailure_eq_none.mp cycle⟩

private theorem dangling_none {g : Graph} {s t : Session} (passed : g.validateReferences.start env s = (.ok none,t)) :
    g.danglingDependencies = .ok [] := by
  simp only [validateReferences,Run.start_bind,Run.start_ofFault] at passed
  cases dangling : g.danglingDependencies with
  | error fault => simp [dangling,Except.mapError] at passed
  | ok ds =>
    cases ds with
    | nil => rfl
    | cons d rest =>
      simp only [dangling,Except.mapError,List.isEmpty_cons,Bool.false_eq_true,if_false,Run.start_bind,Run.start_read,
        Run.start_pure,Prod.mk.injEq,Except.ok.injEq] at passed
      cases passed.1

private theorem acyclic_of_passed {g : Graph} (keyed : g.Keyed) {s t : Session}
    (passed : g.validateAcyclic.start env s = (.ok none,t)) : ¬ g.Cyclic := by
  intro cyclic
  obtain ⟨u,failed⟩ := orderedIds_of_cyclic keyed cyclic env s
  simp only [validateAcyclic,Run.start_tryCatch,Run.start_bind,failed] at passed
  split at passed
  · cases passed
  · simp at passed

/-- A graph that validation finds nothing wrong with, once, is sound: its dependencies are live, they form no
    cycle, and validation finds nothing wrong with it ever. -/
theorem sound_of_validate {g : Graph} (ids : ∀ op ∈ g.operations, op.id.isHashable = true) {s t : Session}
    (passed : g.validate.start env s = (.ok none,t)) :
    g.Keyed ∧ (∀ d ∈ g.dependencies, g.Live d) ∧ ¬ g.Cyclic ∧ Yields g.validate env (.ok none) := by
  have each := firstFailure_passed passed
  obtain ⟨_,_,references⟩ := each g.validateReferences (by simp)
  obtain ⟨_,_,order⟩ := each g.validateAcyclic (by simp)
  obtain ⟨_,_,types⟩ := each g.validateOperations (by simp)
  have keyed : g.Keyed := ⟨ids,hashable_of_dangling (dangling_none references)⟩
  have acyclic := acyclic_of_passed keyed order
  have live : g.referenceFailure (isVerbose env) = none :=
    (Except.ok.inj ((validateReferences_yields keyed env).result references)).symm
  obtain ⟨result,settled,_⟩ := validateOperations_settles g env
  obtain rfl := settled.result types
  refine ⟨keyed,(g.referenceFailure_eq_none _).mp live,acyclic,?_⟩
  exact firstFailure_yields (.cons (live ▸ validateReferences_yields keyed env)
    (.cons (validateAcyclic_of_acyclic keyed acyclic env) (.cons settled .nil)))

theorem ensureValid_yields {g : Graph} {problem : Option Failure} (validates : Yields g.validate env (.ok problem)) :
    Yields g.ensureValid env (problem.elim (.ok ()) .error) := by
  cases problem with
  | none => exact validates.bind (Run.yields_pure _)
  | some e => exact validates.bind (Run.yields_throw _)

end Graph
end InfraGraph
