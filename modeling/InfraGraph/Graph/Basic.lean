import InfraGraph.Dependency
import InfraGraph.Operation

/-!
# Graphs

A graph holds operations, the dependencies between them, and metadata. It keeps the order in which
operations and dependencies were added. Several operations may share an identifier, and
dependencies may name operations that are not there; looking an identifier up finds the first
operation that has it.

Building a graph requires that every identifier can be a key. Looking up an identifier that cannot
be one is a fault.
-/

namespace InfraGraph

/-- The first operation of each identifier, in the order of the first occurrences. -/
def Graph.indexOf (operations : List Operation) : Table Value Operation :=
  operations.foldl (fun t op => t.insertNew op.id op) Table.empty

/-- Operations and the dependencies between them. The index holds the first operation of each
identifier, so that an identifier need not be sought among the operations. -/
structure Graph where
  operations : List Operation
  dependencies : List Dependency
  metadata : Mapping
  index : Table Value Operation
  index_eq : index = Graph.indexOf operations

namespace Graph

/-- The graph with given parts. The identifiers should be hashable. -/
def assemble (operations : List Operation) (dependencies : List Dependency)
    (metadata : Mapping) : Graph :=
  { operations, dependencies, metadata, index := indexOf operations, index_eq := rfl }

instance : Inhabited Graph := ⟨assemble [] [] .empty⟩

/-- Require that the identifiers of operations can be keys. -/
def requireIds : List Operation → Except Fault Unit
  | [] => .ok ()
  | op :: rest => do
    op.id.requireHashable
    requireIds rest

/-- Build a graph. -/
def create (operations : List Operation) (dependencies : List Dependency)
    (metadata : Mapping) : Except Fault Graph := do
  requireIds operations
  return assemble operations dependencies metadata

/-- Graphs are equal when their parts are, in order. -/
instance : BEq Graph where
  beq a b :=
    a.operations == b.operations && a.dependencies == b.dependencies && a.metadata == b.metadata

def addOperation (g : Graph) (op : Operation) : Except Fault Graph :=
  create (g.operations ++ [op]) g.dependencies g.metadata

def addDependency (g : Graph) (d : Dependency) : Except Fault Graph :=
  create g.operations (g.dependencies ++ [d]) g.metadata

def isEmpty (g : Graph) : Bool := g.operations.isEmpty

/-- The identifiers, each once, in the order of their first occurrence. -/
def ids (g : Graph) : List Value := g.index.keys

/-- The operation that an identifier names: the first one that has it. -/
def find? (g : Graph) (id : Value) : Except Fault (Option Operation) := do
  id.requireHashable
  return g.index.get? id

/-- Whether an identifier names an operation. -/
def knows (g : Graph) (id : Value) : Except Fault Bool := do
  id.requireHashable
  return g.index.contains id

def ofType (g : Graph) (type : Value) : List Operation :=
  g.operations.filter fun op => op.typeValue.comparesEqual type

/-- The dependencies that lead to an operation: its prerequisites. -/
def prerequisitesOf (g : Graph) (id : Value) : List Dependency :=
  g.dependencies.filter fun d => d.dependent.comparesEqual id

/-- The dependencies that leave an operation: what waits for it. -/
def dependentsOf (g : Graph) (id : Value) : List Dependency :=
  g.dependencies.filter fun d => d.prerequisite.comparesEqual id

/-- Whether a dependency is live: both its ends name operations. The second end is not looked up
when the first one names none. -/
def isLive (g : Graph) (d : Dependency) : Except Fault Bool := do
  if ← g.knows d.prerequisite then g.knows d.dependent else return false

/-- The live dependencies and the others, each in order. -/
def sortOut (g : Graph) : List Dependency → Except Fault (List Dependency × List Dependency)
  | [] => .ok ([],[])
  | d :: rest => do
    let live ← g.isLive d
    let (lives,danglings) ← g.sortOut rest
    return if live then (d :: lives,danglings) else (lives,d :: danglings)

/-- The dependencies whose ends both name operations. -/
def liveDependencies (g : Graph) : Except Fault (List Dependency) := do
  return (← g.sortOut g.dependencies).1

/-- The dependencies that name an unknown operation. -/
def danglingDependencies (g : Graph) : Except Fault (List Dependency) := do
  return (← g.sortOut g.dependencies).2

end Graph

end InfraGraph
