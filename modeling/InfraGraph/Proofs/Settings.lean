import InfraGraph.Proofs.Graph.Division
import InfraGraph.Proofs.Plan

/-!
What settings change. Runs that look at the environment only to tell how much they say end alike in every environment. So do
partitioning and planning, wherever their keys do not change with the environment: settings add a record to the log of the one
and a text to a failure of the other, and nothing else. A key function that looks at what is displayed lets them change more.
-/
namespace InfraGraph
open Run (Yields)

/-- A failure without what shows in its texts only. Its class and what it carries stay. -/
def Failure.plain : Failure → Failure
  | .invalidReferences ds _ => .invalidReferences ds false
  | e => e

theorem Failure.className_plain (e : Failure) : e.plain.className = e.className := by
  cases e <;> rfl

/-! ### Runs that end alike in every environment -/

namespace Run
variable {α β : Type}

/-- The result depends neither on the session nor on the environment. -/
def Indifferent (run : Run α) : Prop := ∃ result, ∀ env, Yields run env result

/-- The same, but for what shows in the texts of a failure only. -/
def Alike (run : Run α) : Prop := ∃ outcome, ∀ env, ∃ result, Yields run env result ∧ result.mapError Failure.plain = outcome

theorem indifferent_pure (a : α) : Indifferent (pure a) := ⟨_,fun _ => yields_pure a⟩
theorem indifferent_throw (e : Failure) : Indifferent (throw e : Run α) := ⟨_,fun _ => yields_throw e⟩
theorem indifferent_ofExcept (result : Except Failure α) : Indifferent (ofExcept result) := ⟨_,fun _ => yields_ofExcept result⟩
theorem indifferent_ofFault (result : Except Fault α) : Indifferent (ofFault result) := ⟨_,fun _ => yields_ofFault result⟩
theorem indifferent_log (level : Level) (logger message : String) : Indifferent (log level logger message) :=
  ⟨_,fun _ => yields_log level logger message⟩

theorem Indifferent.bind {run : Run α} {next : α → Run β} (first : run.Indifferent) (second : ∀ a, (next a).Indifferent) :
    (run >>= next).Indifferent := by
  obtain ⟨result,yields⟩ := first
  cases result with
  | error e => exact ⟨_,fun env => (yields env).fails⟩
  | ok a =>
    obtain ⟨result,later⟩ := second a
    exact ⟨result,fun env => (yields env).bind (later env)⟩

theorem Indifferent.tryCatch {run : Run α} {handler : Failure → Run α} (body : run.Indifferent)
    (handled : ∀ e, (handler e).Indifferent) : (MonadExcept.tryCatch run handler).Indifferent := by
  obtain ⟨result,yields⟩ := body
  cases result with
  | ok a => exact ⟨_,fun env => (yields env).uncaught⟩
  | error e =>
    obtain ⟨result,later⟩ := handled e
    exact ⟨result,fun env => (yields env).caught (later env)⟩

theorem Indifferent.alike {run : Run α} (indifferent : run.Indifferent) : run.Alike := by
  obtain ⟨result,yields⟩ := indifferent
  exact ⟨_,fun env => ⟨result,yields env,rfl⟩⟩

theorem Alike.bind {run : Run α} {next : α → Run β} (first : run.Alike) (second : ∀ a, (next a).Alike) :
    (run >>= next).Alike := by
  obtain ⟨outcome,ends⟩ := first
  cases outcome with
  | error e =>
    -- Where the first run fails at all it fails everywhere, though not with one text.
    refine ⟨.error e,fun env => ?_⟩
    obtain ⟨result,yields,same⟩ := ends env
    cases result with
    | ok a => cases same
    | error d => exact ⟨.error d,yields.fails,by simpa [Except.mapError] using same⟩
  | ok a =>
    obtain ⟨outcome,later⟩ := second a
    refine ⟨outcome,fun env => ?_⟩
    obtain ⟨result,yields,same⟩ := ends env
    cases result with
    | error d => cases same
    | ok b =>
      obtain rfl : b = a := Except.ok.inj same
      obtain ⟨result,continued,alike⟩ := later env
      exact ⟨result,yields.bind continued,alike⟩

theorem Alike.step {run : Run α} (alike : run.Alike) (name logger function : String) :
    (Run.step name logger function run).Alike := by
  obtain ⟨outcome,ends⟩ := alike
  refine ⟨outcome,fun env => ?_⟩
  obtain ⟨result,yields,same⟩ := ends env
  exact ⟨result,yields.step name logger function,same⟩

/-- In any two environments a run that ends alike returns the same or fails with the same, but for texts. -/
theorem Alike.pair {run : Run α} (alike : run.Alike) (env env' : Environment) :
    (∃ a, Yields run env (.ok a) ∧ Yields run env' (.ok a)) ∨
      ∃ d e, Yields run env (.error d) ∧ Yields run env' (.error e) ∧ d.className = e.className ∧ d.plain = e.plain := by
  obtain ⟨outcome,ends⟩ := alike
  obtain ⟨first,yields,same⟩ := ends env
  obtain ⟨second,again,equal⟩ := ends env'
  rw [← equal] at same
  cases first with
  | ok a =>
    cases second with
    | ok b => exact .inl ⟨a,yields,(Except.ok.inj same).symm ▸ again⟩
    | error e => cases same
  | error d =>
    cases second with
    | ok b => cases same
    | error e =>
      have plain : d.plain = e.plain := Except.error.inj same
      exact .inr ⟨d,e,yields,again,by rw [← d.className_plain,plain,e.className_plain],plain⟩

end Run

namespace Graph
open Run (Yields Indifferent indifferent_pure indifferent_throw indifferent_ofExcept indifferent_ofFault indifferent_log)
variable (g : Graph) (key : KeyFunction)

/-! ### Sorting and validation -/

theorem orderedIds_indifferent : g.orderedIds.Indifferent := by
  refine (indifferent_ofFault g.arrangement).bind fun outcome => ?_
  split
  · exact (indifferent_log _ _ _).bind fun _ => indifferent_pure _
  · exact (indifferent_log _ _ _).bind fun _ => indifferent_throw _

theorem topologicalSort_indifferent : g.topologicalSort.Indifferent :=
  g.orderedIds_indifferent.bind fun _ => indifferent_pure _

private theorem validateAcyclic_indifferent : g.validateAcyclic.Indifferent := by
  refine (g.orderedIds_indifferent.bind fun _ => indifferent_pure _).tryCatch fun e => ?_
  split
  · exact indifferent_pure _
  · exact indifferent_throw _

private theorem validateOperations_indifferent : g.validateOperations.Indifferent := by
  refine (indifferent_ofFault (lackingOperations g.operations)).bind fun lacking => ?_
  split
  · exact indifferent_pure _
  · exact indifferent_pure _

private theorem firstFailure_indifferent {checks : List (Run (Option Failure))} (each : ∀ check ∈ checks, check.Indifferent) :
    (firstFailure checks).Indifferent := by
  induction checks with
  | nil => exact indifferent_pure _
  | cons check rest ih =>
    refine (each check (by simp)).bind fun found => ?_
    cases found with
    | none => exact ih fun other later => each other (List.mem_cons_of_mem _ later)
    | some e => exact (indifferent_log _ _ _).bind fun _ => indifferent_pure _

/-- Only dependencies that dangle are reported with a text that depends on the environment. -/
private theorem validateReferences_told : g.validateReferences.Indifferent ∨
    ∃ ds, ∀ env, Yields g.validateReferences env (.ok (some (.invalidReferences ds (isVerbose env)))) := by
  unfold validateReferences
  cases g.danglingDependencies with
  | error fault => exact .inl ⟨_,fun _ => (Run.yields_ofFault _).fails⟩
  | ok ds =>
    by_cases clear : ds.isEmpty = true
    · refine .inl ⟨.ok none,fun env => (Run.yields_ofFault _).bind ?_⟩
      rw [if_pos clear]
      exact Run.yields_pure _
    · refine .inr ⟨ds,fun env => (Run.yields_ofFault _).bind ?_⟩
      rw [if_neg clear]
      exact Yields.bind Run.yields_read (Run.yields_pure _)

theorem ensureValid_alike : g.ensureValid.Alike := by
  rcases g.validateReferences_told with indifferent | ⟨ds,told⟩
  · have each : ∀ check ∈ [g.validateReferences,g.validateAcyclic,g.validateOperations], check.Indifferent := by
      simp [indifferent,validateAcyclic_indifferent,validateOperations_indifferent]
    refine ((firstFailure_indifferent each).bind fun problem => ?_).alike
    cases problem with
    | none => exact indifferent_pure _
    | some e => exact indifferent_throw _
  · refine ⟨.error (.invalidReferences ds false),fun env => ⟨.error (.invalidReferences ds (isVerbose env)),?_,rfl⟩⟩
    have validates : Yields g.validate env (.ok (some (.invalidReferences ds (isVerbose env)))) :=
      (told env).bind (Yields.bind (Run.yields_log _ _ _) (Run.yields_pure _))
    exact ensureValid_yields validates

/-! ### Partitions -/

/-- The record of the dependencies that a partitioning drops. -/
def droppedRecord (crossing : List Dependency) (c : LogContext) : LogRecord :=
  ⟨.warning,logger,"Partitioning dropped " ++ toString crossing.length ++ " cross-partition dependencies: " ++ listed crossing,
    none,none,c⟩

theorem reportDropped_start (settings : GraphSettings) (crossing : List Dependency) (env : Environment) (s : Session) :
    (reportDropped settings crossing).start env s = (.ok (),{ s with
      records := s.records ++ if settings.droppedEdgePolicy = warnPolicy ∧ crossing ≠ [] then [droppedRecord crossing s.context]
        else [] }) := by
  unfold reportDropped GraphSettings.warnsOnDroppedEdges
  by_cases none : crossing = []
  · simp [none]
  · by_cases warns : settings.droppedEdgePolicy = warnPolicy
    · simp [none,warns,droppedRecord]
    · simp [none,warns]

/-- What is told of a partitioning: at most one warning, and then what there is to tell under all settings. The warning is there
    if the policy asks for it and dependencies cross, and lists these. -/
def Tells (g : Graph) (key : KeyFunction) (settings : Option GraphSettings) (env : Environment) (s : Session)
    (rest : List LogRecord) : Prop := ∃ warnings,
  ((g.partitionBy key settings).start env s).2.records = s.records ++ (warnings ++ rest) ∧ warnings.length ≤ 1 ∧
    ∀ r, r ∈ warnings ↔ (settings.getD (GraphSettings.load env)).droppedEdgePolicy = warnPolicy ∧
      ∃ crossing, g.crossEdges key = .ok crossing ∧ crossing ≠ [] ∧ r = droppedRecord crossing s.context

theorem partitionBy_tells (s : Session) :
    ∃ rest, (∀ r ∈ rest, r.level = .debug) ∧ ∀ settings env, g.Tells key settings env s rest := by
  unfold Tells partitionBy crossEdges
  cases g.split key with
  | error e =>
    refine ⟨[],by simp,fun settings env => ⟨[],?_,by simp,?_⟩⟩
    · simp [Run.start_bind]
    · simp [bind,Except.bind]
  | ok parts =>
    refine ⟨[⟨.debug,logger,"Partitioned " ++ toString g.operations.length ++ " operations into " ++
      toString parts.groups.size ++ " groups",none,none,s.context⟩],by simp,fun settings env => ?_⟩
    refine ⟨if (settings.getD (GraphSettings.load env)).droppedEdgePolicy = warnPolicy ∧ parts.crossing ≠ [] then
      [droppedRecord parts.crossing s.context] else [],?_,?_,?_⟩
    · simp only [Run.start_bind,Run.start_ofExcept,Run.start_read,reportDropped_start,Run.start_log,Run.start_pure,
        List.append_assoc]
    · split
      · simp
      · simp
    · intro r
      simp [bind,Except.bind,pure,Except.pure,and_assoc]

/-! ### What partitioning fails with -/

private theorem groupInto_error {t : Table Value (List Operation)} {ops : List Operation} {e : Failure}
    (failed : groupInto key t ops = .error e) : ∃ op ∈ ops, key.groupKey op = .error e := by
  induction ops generalizing t with
  | nil => cases failed
  | cons op rest ih =>
    rw [groupInto] at failed
    cases keyed : key.groupKey op with
    | error d =>
      rw [keyed] at failed
      cases failed
      exact ⟨op,by simp,keyed⟩
    | ok k =>
      rw [keyed] at failed
      obtain ⟨other,later,fails⟩ := ih failed
      exact ⟨other,List.mem_cons_of_mem _ later,fails⟩

private theorem groupKey_error {op : Operation} {e : Failure} (failed : key.groupKey op = .error e) :
    key op = .error e ∨ ∃ v, key op = .ok v ∧ v.partitionKey? = none ∧ e = .partitionKey op.id v := by
  unfold KeyFunction.groupKey at failed
  cases returned : key op with
  | error d =>
    rw [returned] at failed
    cases failed
    exact .inl rfl
  | ok v =>
    cases form : v.partitionKey? with
    | some k => simp [returned,form,bind,Except.bind,pure,Except.pure] at failed
    | none =>
      simp only [returned,form,bind,Except.bind] at failed
      cases failed
      exact .inr ⟨v,rfl,form,rfl⟩

/-- Partitioning fails with what the key function does, or with a key that cannot be made fit for a table. -/
theorem split_error (keyed : g.Keyed) {e : Failure} (failed : g.split key = .error e) :
    ∃ op ∈ g.operations, key op = .error e ∨ ∃ v, key op = .ok v ∧ v.partitionKey? = none ∧ e = .partitionKey op.id v := by
  unfold split at failed
  cases grouped : g.groups key with
  | ok groups =>
    have placed := placeAll_eq groups.values g.dependencies keyed.ends
    simp [grouped,placed,bind,Except.bind,pure,Except.pure] at failed
  | error d =>
    rw [grouped] at failed
    cases failed
    obtain ⟨op,member,fails⟩ := groupInto_error key grouped
    exact ⟨op,member,groupKey_error key fails⟩

/-! ### Key functions that look at the environment -/

/-- A key function does the same with each operation of a graph in two environments. -/
def Agrees (g : Graph) (key : EnvironmentKey) (env env' : Environment) : Prop := ∀ op ∈ g.operations, key env op = key env' op

private theorem groupInto_congr {key other : KeyFunction} {ops : List Operation} (agree : ∀ op ∈ ops, key op = other op)
    (t : Table Value (List Operation)) : groupInto key t ops = groupInto other t ops := by
  induction ops generalizing t with
  | nil => rfl
  | cons op rest ih =>
    have same : key.groupKey op = other.groupKey op := by
      rw [KeyFunction.groupKey,KeyFunction.groupKey,agree op (by simp)]
    have later : ∀ t, groupInto key t rest = groupInto other t rest := ih fun op member => agree op (List.mem_cons_of_mem _ member)
    simp only [groupInto,same,later]

theorem split_congr {key other : KeyFunction} (agree : ∀ op ∈ g.operations, key op = other op) :
    g.split key = g.split other := by
  rw [split,split,groups,groups,groupInto_congr agree]

theorem crossEdges_congr {key other : KeyFunction} (agree : ∀ op ∈ g.operations, key op = other op) :
    g.crossEdges key = g.crossEdges other := by
  rw [crossEdges,crossEdges,g.split_congr agree]

theorem partitionBy_congr {key other : KeyFunction} (agree : ∀ op ∈ g.operations, key op = other op)
    (settings : Option GraphSettings) : g.partitionBy key settings = g.partitionBy other settings := by
  rw [partitionBy,partitionBy,g.split_congr agree]

end Graph

/-! ### Plans -/

namespace Plan
open Run (Indifferent indifferent_pure indifferent_ofExcept indifferent_log)

private theorem sortAll_indifferent (graphs : List (Value × Graph)) : (sortAll graphs).Indifferent := by
  induction graphs with
  | nil => exact indifferent_pure _
  | cons e rest ih => exact e.2.topologicalSort_indifferent.bind fun _ => ih.bind fun _ => indifferent_pure _

private theorem partitioned_indifferent (g : Graph) (key : KeyFunction) : (partitioned g key).Indifferent := by
  have parts : (g.partitionBy key none).Indifferent := ⟨_,g.partitionBy_ends key none⟩
  exact (indifferent_ofExcept _).bind fun _ => parts.bind fun _ => (sortAll_indifferent _).bind fun _ =>
    (indifferent_log _ _ _).bind fun _ => indifferent_pure _

theorem make_alike (g : Graph) (key : Option KeyFunction) : (make g key).Alike := by
  refine Run.Alike.step (g.ensureValid_alike.bind fun _ => ?_) _ _ _
  cases key with
  | none => exact (g.topologicalSort_indifferent.bind fun _ => indifferent_pure _).alike
  | some key => exact (partitioned_indifferent g key).alike

theorem make_congr {g : Graph} {key other : KeyFunction} (agree : ∀ op ∈ g.operations, key op = other op) :
    make g (some key) = make g (some other) := by
  simp only [make,partitioned,g.crossEdges_congr agree,g.partitionBy_congr agree]

end Plan

/-! ### Settings -/

theorem GraphSettings.load_policy (env : Environment) : (load env).droppedEdgePolicy = warnPolicy ↔
    ∃ text, env.get? "HAR_PARTITION_DROPPED_EDGES" = some text ∧
      (Text.lower (Text.strip text) = "warn" ∨ Text.lower (Text.strip text) = "warning") := by
  have other : ignorePolicy ≠ warnPolicy := by decide
  have read (text : String) : readPolicy text = warnPolicy ↔
      Text.lower (Text.strip text) = "warn" ∨ Text.lower (Text.strip text) = "warning" := by
    simp only [readPolicy,Bool.or_eq_true,beq_iff_eq]
    by_cases word : Text.lower (Text.strip text) = "warn" ∨ Text.lower (Text.strip text) = "warning"
    · simp [word]
    · simp [word,other]
  unfold load
  cases env.get? "HAR_PARTITION_DROPPED_EDGES" with
  | none =>
    have unset : readPolicy ignorePolicy = ignorePolicy := rfl
    simp [unset,other]
  | some text => simpa using read text

/-- An environment that asks for warnings and verbose failures, in its own way, and for short summaries. -/
def outspoken : Environment :=
  ⟨[("HAR_DEBUG","1"),("HAR_PARTITION_DROPPED_EDGES"," Warning\n"),("HAR_DISPLAY_PARAM_LIMIT","1")]⟩

/-- Two operations of different types, the second of which has to wait for the first. -/
def handover : Graph :=
  .assemble [Graph.typedOperation "a" "web",Graph.typedOperation "b" "db"] [Graph.bareDependency "a" "b"] .empty

/-- The same with a dependency on something unknown. -/
def adrift : Graph := .assemble handover.operations [Graph.bareDependency "a" "b",Graph.bareDependency "ghost" "b"] .empty

theorem handover_textual : handover.Textual := ⟨by decide,by decide⟩

theorem adrift_textual : adrift.Textual := ⟨by decide,by decide⟩

/-- Without parameters there is nothing to be left out of a summary. -/
theorem handover_agrees : handover.Agrees KeyFunction.displayed .empty outspoken := by
  rintro op (_ | ⟨_,_ | ⟨_,⟨⟩⟩⟩)
  · rfl
  · rfl

/-- Two operations that differ in their second parameter. -/
def twins : Graph := .assemble [twin "x" 1,twin "y" 2] [] .empty
where
  twin (id : String) (n : Int) : Operation :=
    { Graph.typedOperation id "web" with params := ⟨[(.text "a",.int 1),(.text "b",.int n)]⟩ }

end InfraGraph
