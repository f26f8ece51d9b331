import InfraGraph.Adapter.Registry
import InfraGraph.Proofs.Run

/-!
Bodies of steps. A script says what a body does to the context and to the log, and which blocks and further steps it holds, to
any depth. Carrying it out makes records, and its chronicle tells which of these opens a step, which closes one and which is
neither. Whatever the script is, steps open and close like brackets, and none leaves its context behind.
-/
namespace InfraGraph
open Run (opened closed start_step start_within closed_fst closed_context)

namespace Run
variable {α : Type}

/-- A run that makes no record and leaves the context as it is. -/
def Quiet (run : Run α) : Prop := ∀ env s, (run.start env s).2.context = s.context ∧ (run.start env s).2.records = s.records

end Run

/-- A step as its records know it. -/
structure Call where
  name : String
  logger : String
  function : String

/-- What a body can do. Failures end it early, unless they are handled. A context that was read earlier can be put back at any
    time. -/
inductive Script : Type → Type 1
  | quiet {α : Type} (run : Run α) (still : run.Quiet) : Script α
  | set (c : LogContext) : Script Unit
  | clear : Script Unit
  | replace (c : LogContext) : Script Unit
  | note (level : Level) (logger message : String) (function : Option String) (failure : Option Failure) : Script Unit
  | bind {α β : Type} (first : Script α) (next : α → Script β) : Script β
  | handle {α : Type} (body : Script α) (handler : Failure → Script α) : Script α
  | within {α : Type} (c : LogContext) (body : Script α) : Script α
  | step {α : Type} (call : Call) (body : Script α) : Script α

/-- What a record is about, with the context in which it was made. -/
inductive Event
  | noted (record : LogRecord)
  | starting (call : Call) (context : LogContext)
  | completed (call : Call) (context : LogContext)
  | failed (call : Call) (e : Failure) (context : LogContext)

namespace Event

def record : Event → LogRecord
  | noted record => record
  | starting call context => ⟨.debug,call.logger,"Starting " ++ call.name,some call.function,none,context⟩
  | completed call context => ⟨.debug,call.logger,"Completed " ++ call.name,some call.function,none,context⟩
  | failed call e context =>
    ⟨.error,call.logger,"Failed " ++ call.name ++ ": " ++ e.message,some call.function,some e,context⟩

/-- The event that closes a step whose body ended so. -/
def ending {α : Type} (call : Call) : Except Failure α × Session → Event
  | (.ok _,s) => completed call s.context
  | (.error e,s) => failed call e s.context

end Event

/-- Every step that starts is completed or fails after all the steps that started in it, and nothing else closes. -/
inductive Balanced : List Event → Prop
  | nil : Balanced []
  | noted (record : LogRecord) {rest : List Event} : Balanced rest → Balanced (.noted record :: rest)
  | completed (call : Call) (before after : LogContext) {inner rest : List Event} : Balanced inner → Balanced rest →
      Balanced (.starting call before :: (inner ++ .completed call after :: rest))
  | failed (call : Call) (e : Failure) (before after : LogContext) {inner rest : List Event} : Balanced inner → Balanced rest →
      Balanced (.starting call before :: (inner ++ .failed call e after :: rest))

namespace Script
variable {α : Type}

def done (a : α) : Script α := .quiet (pure a) fun _ _ => ⟨rfl,rfl⟩
def fail (e : Failure) : Script α := .quiet (throw e) fun _ _ => ⟨rfl,rfl⟩

def run : {α : Type} → Script α → Run α
  | _,quiet run _ => run
  | _,set c => Run.setContext c
  | _,clear => Run.clearContext
  | _,replace c => Run.replaceContext c
  | _,note level logger message function failure => Run.record level logger message function failure
  | _,bind first next => first.run >>= fun a => (next a).run
  | _,handle body handler => tryCatch body.run fun e => (handler e).run
  | _,within c body => Run.within c body.run
  | _,step call body => Run.step call.name call.logger call.function body.run

/-- What the records are about that a script makes, in order. -/
def chronicle : {α : Type} → Script α → Environment → Session → List Event
  | _,note level logger message function failure,_,s => [.noted ⟨level,logger,message,function,failure,s.context⟩]
  | _,bind first next,env,s => first.chronicle env s ++
    match first.run.start env s with
    | (.ok a,t) => (next a).chronicle env t
    | (.error _,_) => []
  | _,handle body handler,env,s => body.chronicle env s ++
    match body.run.start env s with
    | (.ok _,_) => []
    | (.error e,t) => (handler e).chronicle env t
  | _,within c body,env,s => body.chronicle env { s with context := s.context.overlay c }
  | _,step call body,env,s =>
    let found := opened call.name call.logger call.function s
    .starting call found.context :: (body.chronicle env found ++ [.ending call (body.run.start env found)])
  | _,_,_,_ => []

end Script

theorem Balanced.append {front back : List Event} (first : Balanced front) (second : Balanced back) :
    Balanced (front ++ back) := by
  induction first with
  | nil => exact second
  | noted record _ ih => exact .noted record ih
  | completed call before after inner _ _ ih =>
    rw [List.cons_append,List.append_assoc,List.cons_append]
    exact .completed call before after inner ih
  | failed call e before after inner _ _ ih =>
    rw [List.cons_append,List.append_assoc,List.cons_append]
    exact .failed call e before after inner ih

theorem Balanced.step {inner : List Event} (balanced : Balanced inner) (call : Call) (before : LogContext) {α : Type}
    (ended : Except Failure α × Session) : Balanced (.starting call before :: (inner ++ [.ending call ended])) := by
  rcases ended with ⟨result,s⟩
  cases result with
  | ok a => exact .completed call before s.context balanced .nil
  | error e => exact .failed call e before s.context balanced .nil

theorem closed_records {α : Type} (call : Call) (found : LogContext) (ended : Except Failure α × Session) :
    (closed call.name call.logger call.function found ended).2.records =
      ended.2.records ++ [(Event.ending call ended).record] := by
  rcases ended with ⟨result,s⟩
  cases result with
  | ok a => rfl
  | error e => rfl

namespace Script
variable {α : Type}

/-- The records that a script makes are those that its chronicle tells of. -/
theorem records_run (script : Script α) (env : Environment) (s : Session) :
    (script.run.start env s).2.records = s.records ++ (script.chronicle env s).map Event.record := by
  induction script generalizing s with
  | quiet run still => simpa [Script.run,chronicle] using (still env s).2
  | set c => simp [Script.run,chronicle]
  | clear => simp [Script.run,chronicle,Run.clearContext]
  | replace c => simp [Script.run,chronicle]
  | note level logger message function failure => simp [Script.run,chronicle,Event.record]
  | bind first next head tail =>
    have front := head s
    simp only [Script.run,chronicle,Run.start_bind]
    rcases executed : first.run.start env s with ⟨result,t⟩
    rw [executed] at front
    cases result with
    | error e => simpa using front
    | ok a =>
      -- The second part goes on in the session that the first one left, failed steps and all.
      rw [tail a t,front]
      simp
  | handle body handler head tail =>
    have front := head s
    simp only [Script.run,chronicle,Run.start_tryCatch]
    rcases executed : body.run.start env s with ⟨result,t⟩
    rw [executed] at front
    cases result with
    | error e =>
      rw [tail e t,front]
      simp
    | ok a => simpa using front
  | within c body ih =>
    simp only [Script.run,chronicle,start_within]
    exact ih _
  | step call body ih =>
    simp only [Script.run,chronicle,start_step,closed_records]
    rw [ih,opened]
    simp [Event.record]

theorem balanced_chronicle (script : Script α) (env : Environment) (s : Session) : Balanced (script.chronicle env s) := by
  induction script generalizing s with
  | quiet | set | clear | replace => exact .nil
  | note => exact .noted _ .nil
  | bind first next head tail =>
    simp only [chronicle]
    refine (head s).append ?_
    rcases first.run.start env s with ⟨result,t⟩
    cases result with
    | error e => exact .nil
    | ok a => exact tail a t
  | handle body handler head tail =>
    simp only [chronicle]
    refine (head s).append ?_
    rcases body.run.start env s with ⟨result,t⟩
    cases result with
    | error e => exact tail e t
    | ok a => exact .nil
  | within c body ih => exact ih _
  | step call body ih => exact (ih _).step call _ _

/-- A step ends as its body does and leaves the context that it found. Its first record tells that it starts, its last one
    whether it was completed or with what it failed, and what starts in between ends in between. -/
theorem step_total_correct (call : Call) (body : Script α) (env : Environment) (s : Session) :
    let found := opened call.name call.logger call.function s
    ∃ result t u ending, (Run.step call.name call.logger call.function body.run).start env s = (result,t) ∧
      body.run.start env found = (result,u) ∧ t.context = s.context ∧
      t.records = s.records ++ ((step call body).chronicle env s).map Event.record ∧
      (step call body).chronicle env s = .starting call found.context :: (body.chronicle env found ++ [ending]) ∧
      ((∃ a, result = .ok a) ↔ ending = .completed call u.context) ∧
      (∀ e, result = .error e ↔ ending = .failed call e u.context) ∧
      Balanced (body.chronicle env found) ∧ Balanced ((step call body).chronicle env s) := by
  intro found
  let ended := body.run.start env found
  let left := closed call.name call.logger call.function s.context ended
  have carried : (step call body).run.start env s = left := start_step call.name call.logger call.function body.run env s
  have result : left.1 = ended.1 := closed_fst ..
  refine ⟨ended.1,left.2,ended.2,.ending call ended,carried.trans (Prod.ext result rfl),rfl,closed_context ..,?_,rfl,?_,?_,
    balanced_chronicle body env _,balanced_chronicle _ env s⟩
  · rw [← carried]
    exact (step call body).records_run env s
  · rcases ended with ⟨_ | a,u⟩
    · simp [Event.ending]
    · simp [Event.ending]
  · intro e
    rcases ended with ⟨_ | a,u⟩
    · simp [Event.ending]
    · simp [Event.ending]

/-- A step that clears the context and fails within a block of another step, past a third one that was completed. -/
example :
    let inner := Script.step ⟨"inner","log","f"⟩ (.bind .clear fun _ => fail (α := Unit) (.fault (.badValue "no")))
    let outer := Script.step ⟨"outer","log","g"⟩
      (.within { requestId := some "1" } (.bind (.step ⟨"first","log","f"⟩ (.set { sourceFormat := some "x" })) fun _ => inner))
    (outer.run.start .empty {}).2.records.map (fun r => (r.message,r.context.requestId,r.context.operation)) =
      [("Starting outer",none,some "outer"),("Starting first",some "1",some "first"),("Completed first",some "1",some "first"),
        ("Starting inner",some "1",some "inner"),("Failed inner: no",none,none),("Failed outer: no",none,some "outer")] := rfl

end Script

/-- Reading contents is a step whose body is a script, if the parser carries out one. -/
theorem Registry.parse_script (r : Registry) (format content : Value) (options : Mapping)
    (scripted : ∀ parser, r.parser format = .ok parser → ∃ script : Script Graph, parser.parse content options = script.run) :
    ∃ body : Script Graph, r.parse format content options = (Script.step ⟨"parse",logger,"parse"⟩ body).run := by
  cases looked : r.parser format with
  | error e =>
    refine ⟨.fail e,?_⟩
    rw [parse,looked]
    rfl
  | ok parser =>
    obtain ⟨script,carries⟩ := scripted parser looked
    refine ⟨.within { sourceFormat := some parser.reports.text } (script.bind fun g =>
      .bind (.note .info logger ("Parsed " ++ toString g.operations.length ++ " operations and " ++
        toString g.dependencies.length ++ " dependencies") none none) fun _ => .done g),?_⟩
    rw [parse,looked]
    simp only [Run.ofExcept,pure_bind,carries]
    rfl

end InfraGraph
