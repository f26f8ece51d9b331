import InfraGraph.Graph.Validation
import InfraGraph.KeyFunction

/-!
# Partitions of graphs

A key function sorts the operations of a graph into groups. Every group becomes a graph of its
own, with the dependencies whose ends both lie in the group. The other live dependencies cross
groups; a partitioning drops them, and logs them if the settings say so.
-/

namespace InfraGraph.Graph

/-- Put operations into their groups, one after another. -/
def groupInto (key : KeyFunction) :
    Table Value (List Operation) → List Operation → Except Failure (Table Value (List Operation))
  | groups, [] => .ok groups
  | groups, op :: rest => do
    groupInto key (groups.update (← key.groupKey op) [] (· ++ [op])) rest

/-- The operations of each group, in the order of the groups' first operations. -/
def groups (g : Graph) (key : KeyFunction) : Except Failure (Table Value (List Operation)) :=
  groupInto key .empty g.operations

/-- Where a dependency lies with respect to groups, which are told by their positions. -/
inductive Placement where
  /-- An end names no operation. -/
  | dangling
  | inside (group : Nat)
  | crossing
  deriving DecidableEq, Repr, Inhabited

/-- The position of the group that holds each identifier, counted from `position`. Of several
groups that hold an identifier the first one counts. -/
def groupPositions : (position : Nat) → Table Value Nat → List (List Operation) → Table Value Nat
  | _, t, [] => t
  | position, t, ops :: rest =>
    groupPositions (position + 1) (ops.foldl (fun t op => t.insertNew op.id position) t) rest

/-- Where a dependency lies. The second end is not looked up when the first one is unknown. -/
def place (positions : Table Value Nat) (d : Dependency) : Except Fault Placement := do
  d.prerequisite.requireHashable
  match positions.get? d.prerequisite with
  | none => return .dangling
  | some first =>
    d.dependent.requireHashable
    match positions.get? d.dependent with
    | none => return .dangling
    | some second => return if first = second then .inside first else .crossing

/-- Dependencies with the places where they lie. -/
def placeAll (positions : Table Value Nat) :
    List Dependency → Except Fault (List (Placement × Dependency))
  | [] => .ok []
  | d :: rest => do
    let placement ← place positions d
    let others ← placeAll positions rest
    return (placement,d) :: others

def placedAt (placement : Placement) (placed : List (Placement × Dependency)) : List Dependency :=
  (placed.filter fun p => p.1 == placement).map (·.2)

/-- The groups of a graph, and its dependencies with the places where they lie. -/
structure Split where
  groups : Table Value (List Operation)
  placed : List (Placement × Dependency)
  deriving Inhabited

/-- Split a graph into groups. -/
def split (g : Graph) (key : KeyFunction) : Except Failure Split := do
  let groups ← g.groups key
  match placeAll (groupPositions 0 .empty groups.values) g.dependencies with
  | .ok placed => return ⟨groups,placed⟩
  | .error f => throw (.fault f)

/-- The name under which a partition's metadata holds its key. -/
def partitionKeyName : String := "partition_key"

/-- The graph of each group, counted from `position`. -/
def subgraphs (placed : List (Placement × Dependency)) :
    (position : Nat) → List (Value × List Operation) → List (Value × Graph)
  | _, [] => []
  | position, (key,ops) :: rest =>
    (key,assemble ops (placedAt (.inside position) placed) (Mapping.single partitionKeyName key)) ::
      subgraphs placed (position + 1) rest

def Split.partitions (s : Split) : Table Value Graph := ⟨subgraphs s.placed 0 s.groups.entries⟩

def Split.crossing (s : Split) : List Dependency := placedAt .crossing s.placed

def listed (ds : List Dependency) : String := Value.commaSeparated (ds.map Dependency.text)

/-- Log the dependencies that a partitioning drops, if there are any and the settings say so. -/
def reportDropped (settings : GraphSettings) (crossing : List Dependency) : Run Unit :=
  if !crossing.isEmpty && settings.warnsOnDroppedEdges then
    Run.log .warning logger ("Partitioning dropped " ++ toString crossing.length ++
      " cross-partition dependencies: " ++ listed crossing)
  else return ()

/-- Split a graph into the graphs of its groups. The settings decide whether the dropped
dependencies are logged; without settings those of the environment do. -/
def partitionBy (g : Graph) (key : KeyFunction) (settings : Option GraphSettings) :
    Run (Table Value Graph) := do
  let s ← Run.ofExcept (g.split key)
  reportDropped (settings.getD (GraphSettings.load (← read))) s.crossing
  Run.log .debug logger ("Partitioned " ++ toString g.operations.length ++ " operations into " ++
    toString s.groups.size ++ " groups")
  return s.partitions

def crossEdges (g : Graph) (key : KeyFunction) : Except Failure (List Dependency) := do
  return (← g.split key).crossing

end InfraGraph.Graph
