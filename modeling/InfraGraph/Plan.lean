import InfraGraph.Graph.Partition

/-!
# Execution plans

A plan tells, for each partition of a graph, which operations are to be carried out and in which
order. Without a key function the whole graph is one partition, under the key null. Only sound
graphs are planned.
-/

namespace InfraGraph

/-- The operations of each partition in order, and the dependencies between partitions, which the
plan does not keep. -/
structure Plan where
  steps : Table Value (List Operation)
  dropped : List Dependency
  deriving Inhabited

namespace Plan

def logger : String := "har.ir.plan"

def operationCount (p : Plan) : Nat := p.steps.values.flatten.length

/-- The operations of each graph in order. -/
def sortAll : List (Value × Graph) → Run (List (Value × List Operation))
  | [] => return []
  | (key,g) :: rest => do
    let ops ← g.topologicalSort
    return (key,ops) :: (← sortAll rest)

/-- Plan the partitions of a graph. -/
def partitioned (g : Graph) (key : KeyFunction) : Run Plan := do
  let dropped ← Run.ofExcept (g.crossEdges key)
  let partitions ← g.partitionBy key none
  let steps ← sortAll partitions.entries
  Run.log .info logger ("Planned " ++ toString g.operations.length ++ " operations across " ++
    toString steps.length ++ " partitions")
  return { steps := ⟨steps⟩, dropped }

/-- Plan a graph, by the partitions of a key function or as a whole. -/
def make (g : Graph) (key : Option KeyFunction) : Run Plan :=
  Run.step "plan_execution" logger "plan_execution" do
    g.ensureValid
    match key with
    | none => return { steps := ⟨[(.null,← g.topologicalSort)]⟩, dropped := [] }
    | some key => partitioned g key

end Plan

end InfraGraph
