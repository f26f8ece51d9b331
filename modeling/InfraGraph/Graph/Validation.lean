import InfraGraph.Graph.Basic
import InfraGraph.Order
import InfraGraph.Run

/-!
# Validation and order of graphs

A graph is sound when its dependencies name its operations, do not form a cycle, and no operation
lacks a parameter. Validation looks at these in turn and reports the first that fails.

The order of a graph puts every operation after its prerequisites and is otherwise as close to
the given order as the queue of `Order.arrange` makes it. Dependencies that name unknown
operations do not count there.
-/

namespace InfraGraph.Graph

def logger : String := "har.ir.graph"

def ends (d : Dependency) : Value × Value := (d.prerequisite,d.dependent)

/-- The identifiers in order, and those that cannot be ordered. -/
def arrangement (g : Graph) : Except Fault (Order.Outcome Value) := do
  return Order.arrange g.ids ((← g.liveDependencies).map ends)

/-- The identifiers in order. A cycle is logged and reported. -/
def orderedIds (g : Graph) : Run (List Value) := do
  let outcome ← Run.ofFault g.arrangement
  if outcome.unresolved.isEmpty then
    Run.log .debug logger ("Ordered " ++ toString outcome.order.length ++ " operations across " ++
      toString g.dependencies.length ++ " dependencies")
    return outcome.order
  else
    Run.log .warning logger ("Circular dependency leaves " ++ toString outcome.unresolved.length ++
      " operations unordered")
    throw (.ofUnresolved outcome.unresolved)

/-- The operations in order, one for each identifier. -/
def topologicalSort (g : Graph) : Run (List Operation) := do
  return (← g.orderedIds).filterMap g.index.get?

/-- The dependencies that name unknown operations, as a failure. In an environment that asks for
verbose failures its text shows them as literals too: the failure notes that it does, and
`Failure.suggestion` writes the literals later. Left out is that they are written at once, so that
validation itself fails where an interpreter refuses to write a literal (see `Value.literal`). -/
def validateReferences (g : Graph) : Run (Option Failure) := do
  let dangling ← Run.ofFault g.danglingDependencies
  if dangling.isEmpty then return none
  else return some (.invalidReferences dangling (isVerbose (← read)))

/-- The cycle that ordering the graph meets, as a failure. Other failures are not caught. -/
def validateAcyclic (g : Graph) : Run (Option Failure) :=
  tryCatch (do let _ ← g.orderedIds; return none) fun e =>
    match e with
    | .circularDependency _ => return some e
    | _ => throw e

/-- The operations that lack a parameter, each with what it lacks. -/
def lackingOperations : List Operation → Except Fault (List (Operation × MissingParameter))
  | [] => .ok []
  | op :: rest => do
    let missing ← op.validate
    let others ← lackingOperations rest
    return match missing with
      | some m => (op,m) :: others
      | none => others

/-- The operations that lack a parameter, as a failure. -/
def validateOperations (g : Graph) : Run (Option Failure) := do
  let lacking ← Run.ofFault (lackingOperations g.operations)
  if lacking.isEmpty then return none else return some (.invalidOperations lacking)

/-- The first failure of a list of checks, which is logged by its kind. -/
def firstFailure : List (Run (Option Failure)) → Run (Option Failure)
  | [] => return none
  | check :: rest => do
    match ← check with
    | some e =>
      Run.log .debug logger ("Graph validation failed: " ++ e.kind?.getD "")
      return some e
    | none => firstFailure rest

/-- What is wrong with a graph, if anything. -/
def validate (g : Graph) : Run (Option Failure) :=
  firstFailure [g.validateReferences,g.validateAcyclic,g.validateOperations]

/-- Fail with what is wrong with a graph, if anything. -/
def ensureValid (g : Graph) : Run Unit := do
  match ← g.validate with
  | some e => throw e
  | none => return ()

end InfraGraph.Graph
