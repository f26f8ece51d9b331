import InfraGraph.Run
import Mathlib.Data.List.Forall2

/-!
Runs whose result does not depend on the session. What such runs do one after another does not depend on
it either. A named step changes nothing about the result of its body, and nothing about the context either: what
it adds are the records that open and close it.
-/
namespace InfraGraph

theorem bind_eq_ok {ε α β : Type} {result : Except ε α} {next : α → Except ε β} {b : β} :
    (result >>= next) = .ok b ↔ ∃ a, result = .ok a ∧ next a = .ok b := by
  cases result with
  | error e => simp [bind,Except.bind]
  | ok a => simp [bind,Except.bind]

namespace Run
variable {α β : Type} {env : Environment}

/-- Whatever the session is, a run ends with one result. -/
def Yields (run : Run α) (env : Environment) (result : Except Failure α) : Prop :=
  ∀ s, ∃ t, run.start env s = (result,t)

theorem yields_pure (a : α) : Yields (pure a) env (.ok a) := fun s => ⟨s,rfl⟩

theorem yields_throw (e : Failure) : Yields (throw e : Run α) env (.error e) := fun s => ⟨s,rfl⟩

theorem yields_ofExcept (result : Except Failure α) : Yields (ofExcept result) env result :=
  fun s => ⟨s,start_ofExcept env s result⟩

theorem yields_ofFault (result : Except Fault α) : Yields (ofFault result) env (result.mapError .fault) :=
  fun s => ⟨s,start_ofFault env s result⟩

theorem yields_log (level : Level) (logger message : String) : Yields (log level logger message) env (.ok ()) :=
  fun _ => ⟨_,rfl⟩

theorem yields_read : Yields read env (.ok env) := fun s => ⟨s,rfl⟩

theorem Yields.bind {run : Run α} {next : α → Run β} {a : α} {result : Except Failure β}
    (first : Yields run env (.ok a)) (second : Yields (next a) env result) : Yields (run >>= next) env result := by
  intro s
  obtain ⟨t,executed⟩ := first s
  obtain ⟨u,continued⟩ := second t
  exact ⟨u,by rw [start_bind,executed]; exact continued⟩

theorem Yields.fails {run : Run α} {next : α → Run β} {e : Failure} (first : Yields run env (.error e)) :
    Yields (run >>= next) env (.error e) := by
  intro s
  obtain ⟨t,executed⟩ := first s
  exact ⟨t,by rw [start_bind,executed]⟩

theorem Yields.uncaught {run : Run α} {handler : Failure → Run α} {a : α} (first : Yields run env (.ok a)) :
    Yields (tryCatch run handler) env (.ok a) := by
  intro s
  obtain ⟨t,executed⟩ := first s
  exact ⟨t,by rw [start_tryCatch,executed]⟩

theorem Yields.caught {run : Run α} {handler : Failure → Run α} {e : Failure} {result : Except Failure α}
    (first : Yields run env (.error e)) (second : Yields (handler e) env result) :
    Yields (tryCatch run handler) env result := by
  intro s
  obtain ⟨t,executed⟩ := first s
  obtain ⟨u,continued⟩ := second t
  exact ⟨u,by rw [start_tryCatch,executed]; exact continued⟩

theorem yields_mapM {f : α → Run β} {result : α → Except Failure β} {as : List α}
    (each : ∀ a ∈ as, Yields (f a) env (result a)) : Yields (as.mapM f) env (as.mapM result) := by
  induction as with
  | nil => exact yields_pure _
  | cons a rest ih =>
    have later := ih fun b member => each b (List.mem_cons_of_mem _ member)
    have first := each a (by simp)
    rw [List.mapM_cons,List.mapM_cons]
    cases is : result a with
    | error e => exact (is ▸ first).fails
    | ok b =>
      refine (is ▸ first).bind ?_
      cases others : rest.mapM result with
      | error e => exact (others ▸ later).fails
      | ok bs => exact (others ▸ later).bind (yields_pure _)

theorem Yields.result {run : Run α} {result : Except Failure α} (yields : Yields run env result) {s t : Session}
    {other : Except Failure α} (executed : run.start env s = (other,t)) : other = result := by
  obtain ⟨u,again⟩ := yields s
  exact (Prod.mk.inj (executed.symm.trans again)).1

theorem Yields.unique {run : Run α} {a b : Except Failure α} (first : Yields run env a) (second : Yields run env b) :
    a = b := by
  obtain ⟨t,executed⟩ := first {}
  exact second.result executed

/-! ### Runs that returned -/

theorem bind_returned {run : Run α} {next : α → Run β} {s t : Session} {b : β}
    (returned : (run >>= next).start env s = (.ok b,t)) :
    ∃ a u, run.start env s = (.ok a,u) ∧ (next a).start env u = (.ok b,t) := by
  rw [start_bind] at returned
  rcases executed : run.start env s with ⟨result,u⟩
  rw [executed] at returned
  cases result with
  | error e => cases returned
  | ok a => exact ⟨a,u,rfl,returned⟩

theorem ofFault_returned {result : Except Fault α} {s t : Session} {a : α}
    (returned : (ofFault result).start env s = (.ok a,t)) : result = .ok a := by
  cases result with
  | error fault => cases returned
  | ok b =>
    cases returned
    rfl

theorem mapM_returned {f : α → Run β} {as : List α} {bs : List β} {s t : Session}
    (returned : (as.mapM f).start env s = (.ok bs,t)) :
    List.Forall₂ (fun a b => ∃ u v, (f a).start env u = (.ok b,v)) as bs := by
  induction as generalizing s bs with
  | nil =>
    cases returned
    exact .nil
  | cons a rest ih =>
    rw [List.mapM_cons] at returned
    obtain ⟨b,u,first,others⟩ := bind_returned returned
    obtain ⟨bs',v,later,last⟩ := bind_returned others
    cases last
    exact .cons ⟨s,u,first⟩ (ih later)

/-! ### Steps -/

/-- A run in a context of its own leaves the context that it found, however it ends. -/
theorem start_within (c : LogContext) (body : Run α) (env : Environment) (s : Session) :
    (within c body).start env s =
      ((body.start env { s with context := s.context.overlay c }).1,
        { (body.start env { s with context := s.context.overlay c }).2 with context := s.context }) := by
  simp only [within,start_bind,start_context,start_setContext,start_tryCatch]
  rcases body.start env { s with context := s.context.overlay c } with ⟨result,t⟩
  cases result with
  | ok a => rfl
  | error e => rfl

/-- The session in which the body of a named step starts. -/
def opened (name logger function : String) (s : Session) : Session :=
  { s with
    context := s.context.overlay { operation := some name }
    records := s.records ++
      [⟨.debug,logger,"Starting " ++ name,some function,none,s.context.overlay { operation := some name }⟩] }

/-- The end of a named step that found a context, after the end of its body. -/
def closed (name logger function : String) (found : LogContext) :
    Except Failure α × Session → Except Failure α × Session
  | (.ok a,s) => (.ok a,{ s with
      context := found
      records := s.records ++ [⟨.debug,logger,"Completed " ++ name,some function,none,s.context⟩] })
  | (.error e,s) => (.error e,{ s with
      context := found
      records := s.records ++
        [⟨.error,logger,"Failed " ++ name ++ ": " ++ e.message,some function,some e,s.context⟩] })

theorem start_step (name logger function : String) (body : Run α) (env : Environment) (s : Session) :
    (step name logger function body).start env s =
      closed name logger function s.context (body.start env (opened name logger function s)) := by
  simp only [step,start_within,start_bind,start_record,start_tryCatch]
  unfold opened
  rcases body.start env _ with ⟨result,t⟩
  cases result with
  | ok a => rfl
  | error e => rfl

theorem closed_fst (name logger function : String) (found : LogContext) (ended : Except Failure α × Session) :
    (closed name logger function found ended).1 = ended.1 := by
  rcases ended with ⟨result,s⟩
  cases result with
  | ok a => rfl
  | error e => rfl

theorem closed_context (name logger function : String) (found : LogContext) (ended : Except Failure α × Session) :
    (closed name logger function found ended).2.context = found := by
  rcases ended with ⟨result,s⟩
  cases result with
  | ok a => rfl
  | error e => rfl

theorem Yields.step {body : Run α} {result : Except Failure α} (yields : Yields body env result)
    (name logger function : String) : Yields (step name logger function body) env result := by
  intro s
  obtain ⟨t,executed⟩ := yields (opened name logger function s)
  refine ⟨_,Prod.ext ?_ rfl⟩
  rw [start_step,closed_fst,executed]

end Run
end InfraGraph
