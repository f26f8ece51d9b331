import InfraGraph.Failure
import InfraGraph.Settings

/-!
# Runs

A run reads an environment, may fail, and changes a session: the context that log records carry,
the records made so far, and how many identifiers of its supply were issued. What a run changed
before it failed stays changed.

A *step* is a run whose beginning and end are logged under a name. A step restores the context
that it found, however its body ends.
-/

namespace InfraGraph

/-- What is being worked on, as far as it is known. -/
structure LogContext where
  requestId : Option String := none
  operation : Option String := none
  sourceFormat : Option String := none
  deriving DecidableEq, Repr, Inhabited

namespace LogContext

/-- The context with the parts that a second one knows put in place. -/
def overlay (c known : LogContext) : LogContext where
  requestId := known.requestId <|> c.requestId
  operation := known.operation <|> c.operation
  sourceFormat := known.sourceFormat <|> c.sourceFormat

end LogContext

/-- How important a log record is; higher is more so. -/
abbrev Level := Int

namespace Level

def debug : Level := 10

def info : Level := 20

def warning : Level := 30

def error : Level := 40

def critical : Level := 50

/-- The name of a level. -/
def name (level : Level) : String :=
  if level = 0 then "NOTSET"
  else if level = 10 then "DEBUG"
  else if level = 20 then "INFO"
  else if level = 30 then "WARNING"
  else if level = 40 then "ERROR"
  else if level = 50 then "CRITICAL"
  else "Level " ++ toString level

end Level

/-- A record of the log, with the context in which it was made. -/
structure LogRecord where
  level : Level
  logger : String
  message : String
  function : Option String
  failure : Option Failure
  context : LogContext
  deriving Inhabited

/-- The identifier with a given number, in the form of those that are generated. -/
def numberedIdentifier (n : Nat) : String :=
  "00000000-0000-4000-8000-" ++ String.ofList (Text.hexadecimal 12 n)

/-- What runs change, and the supply from which they take new identifiers one after another. The
supply may be any sequence of texts, also one with repetitions. -/
structure Session where
  context : LogContext := {}
  records : List LogRecord := []
  issued : Nat := 0
  supply : Nat → String := numberedIdentifier
  deriving Inhabited

/-- A computation that reads the environment, changes the session and may fail. -/
abbrev Run := ReaderT Environment (ExceptT Failure (StateM Session))

namespace Run

variable {α : Type}

/-- Carry a run out. -/
def start (run : Run α) (env : Environment) (s : Session) : Except Failure α × Session :=
  (run.run env).run.run s

/-- The result of a check as a run. -/
def ofExcept (result : Except Failure α) : Run α :=
  match result with
  | .ok a => pure a
  | .error e => throw e

/-- The result of a check that ends in a general fault. -/
def ofFault (result : Except Fault α) : Run α :=
  match result with
  | .ok a => pure a
  | .error f => throw (.fault f)

/-- Make a log record that may name a function and the failure that it tells about. -/
def record (level : Level) (logger message : String) (function : Option String)
    (failure : Option Failure) : Run Unit :=
  modify fun s =>
    { s with records := s.records ++ [⟨level,logger,message,function,failure,s.context⟩] }

def log (level : Level) (logger message : String) : Run Unit :=
  record level logger message none none

def context : Run LogContext := do return (← get).context

def replaceContext (c : LogContext) : Run Unit := modify fun s => { s with context := c }

/-- Put the known parts of a context in place. -/
def setContext (c : LogContext) : Run Unit :=
  modify fun s => { s with context := s.context.overlay c }

def clearContext : Run Unit := replaceContext {}

/-- Carry a body out in a context of its own. However it ends, the context is then what it was
before. -/
def within (c : LogContext) (body : Run α) : Run α := do
  let before ← context
  setContext c
  let a ← tryCatch body fun e => do
    replaceContext before
    throw e
  replaceContext before
  return a

/-- Carry a body out as a named step: one record before it, and one after it that tells how it
ended. -/
def step (name logger function : String) (body : Run α) : Run α :=
  within { operation := some name } do
    record .debug logger ("Starting " ++ name) (some function) none
    let a ← tryCatch body fun e => do
      record .error logger ("Failed " ++ name ++ ": " ++ e.message) (some function) (some e)
      throw e
    record .debug logger ("Completed " ++ name) (some function) none
    return a

/-- The next identifier of the supply. -/
def newIdentifier : Run String := do
  let s ← get
  set { s with issued := s.issued + 1 }
  return s.supply (s.issued + 1)

section Equations

variable {β : Type} (env : Environment) (s : Session)

@[simp] theorem start_pure (a : α) : (pure a : Run α).start env s = (.ok a,s) := rfl

@[simp] theorem start_throw (e : Failure) : (throw e : Run α).start env s = (.error e,s) := rfl

/-- The second run starts from the session that the first one leaves, unless that failed. -/
theorem start_bind (run : Run α) (next : α → Run β) :
    (run >>= next).start env s =
      match run.start env s with
      | (.ok a,t) => (next a).start env t
      | (.error e,t) => (.error e,t) := by
  simp only [start,bind,ReaderT.bind,ReaderT.run,ExceptT.run,ExceptT.bind,ExceptT.mk,
    StateT.run,StateT.bind]
  rcases run env s with ⟨result,t⟩
  cases result <;> rfl

/-- The handler starts from the session that the failed run leaves. -/
theorem start_tryCatch (run : Run α) (handler : Failure → Run α) :
    (tryCatch run handler).start env s =
      match run.start env s with
      | (.ok a,t) => (.ok a,t)
      | (.error e,t) => (handler e).start env t := by
  simp only [start,tryCatch,tryCatchThe,MonadExceptOf.tryCatch,ExceptT.tryCatch,ReaderT.run,
    ExceptT.run,ExceptT.mk,StateT.run,bind,StateT.bind]
  rcases run env s with ⟨result,t⟩
  cases result <;> rfl

@[simp] theorem start_read : (read : Run Environment).start env s = (.ok env,s) := rfl

@[simp] theorem start_context : context.start env s = (.ok s.context,s) := rfl

@[simp] theorem start_replaceContext (c : LogContext) :
    (replaceContext c).start env s = (.ok (),{ s with context := c }) := rfl

@[simp] theorem start_setContext (c : LogContext) :
    (setContext c).start env s = (.ok (),{ s with context := s.context.overlay c }) := rfl

/-- A record is added to the log, with the context of the moment. -/
@[simp] theorem start_record (level : Level) (logger message : String) (function : Option String)
    (failure : Option Failure) :
    (record level logger message function failure).start env s =
      (.ok (),{ s with
        records := s.records ++ [⟨level,logger,message,function,failure,s.context⟩] }) := rfl

/-- A record that names neither a function nor a failure. -/
@[simp] theorem start_log (level : Level) (logger message : String) :
    (log level logger message).start env s =
      (.ok (),{ s with records := s.records ++ [⟨level,logger,message,none,none,s.context⟩] }) :=
  rfl

/-- The result of a check is the result of its run, which changes nothing. -/
@[simp] theorem start_ofExcept (result : Except Failure α) :
    (ofExcept result).start env s = (result,s) := by cases result <;> rfl

/-- A general fault becomes a failure, and nothing changes. -/
@[simp] theorem start_ofFault (result : Except Fault α) :
    (ofFault result).start env s = (result.mapError .fault,s) := by cases result <;> rfl

end Equations

end Run

end InfraGraph
