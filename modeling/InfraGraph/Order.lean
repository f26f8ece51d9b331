import InfraGraph.Table

/-!
# Ordering by degrees

The vertices of a directed graph in an order in which every edge points forward. Vertices without
incoming edges come first, as they were given. Taking a vertex releases the vertices that it
points to, in the order of the edges: the release that brings the count of a vertex's remaining
incoming edges to zero puts it into the queue.

Vertices on a cycle, and those that a cycle leads to, keep a positive count and are never taken.
Parallel edges count as often as they occur. The run is given one step per vertex, which is
enough, since no vertex is taken twice.

The vertices are of any type and are compared by `==`. Edges are pairs; both ends of each should
be vertices.
-/

namespace InfraGraph.Order

variable {α : Type}

/-- Where a run stands: how many incoming edges each vertex still waits for, the vertices that
wait for none and are not taken yet, and those that are taken. -/
structure Progress (α : Type) where
  degrees : Table α Int
  queue : List α
  order : List α
  deriving Inhabited

/-- The outcome of a run: the vertices in order, and those that could not be ordered. -/
structure Outcome (α : Type) where
  order : List α
  unresolved : List α
  deriving Inhabited

variable [BEq α]

def degrees (vertices : List α) (edges : List (α × α)) : Table α Int :=
  edges.foldl (fun t e => t.update e.2 0 (· + 1)) ⟨vertices.map fun v => (v,0)⟩

/-- The keys of a table that hold numbers of a kind. -/
def keysWhere (holds : Int → Bool) (t : Table α Int) : List α :=
  (t.entries.filter fun e => holds e.2).map (·.1)

/-- The beginning of a run: vertices without incoming edges wait in the queue. -/
def start (vertices : List α) (edges : List (α × α)) : Progress α where
  degrees := degrees vertices edges
  queue := keysWhere (· == 0) (degrees vertices edges)
  order := []

/-- The vertices that a vertex points to, one for each edge. -/
def successors (edges : List (α × α)) (v : α) : List α :=
  (edges.filter fun e => e.1 == v).map (·.2)

/-- One incoming edge of a vertex is done; the last one puts the vertex into the queue. -/
def release (p : Progress α) (v : α) : Progress α :=
  let degrees := p.degrees.update v 0 (· - 1)
  { p with degrees, queue := if degrees.get? v == some 0 then p.queue ++ [v] else p.queue }

/-- Take the first vertex of the queue and release the vertices that it points to. -/
def step (edges : List (α × α)) (p : Progress α) : Progress α :=
  match p.queue with
  | [] => p
  | v :: rest => (successors edges v).foldl release { p with queue := rest, order := p.order ++ [v] }

/-- At most a number of steps. -/
def run (edges : List (α × α)) : Nat → Progress α → Progress α
  | 0, p => p
  | steps + 1, p => run edges steps (step edges p)

/-- The outcome of the run over a graph. -/
def arrange (vertices : List α) (edges : List (α × α)) : Outcome α :=
  let p := run edges vertices.length (start vertices edges)
  { order := p.order, unresolved := keysWhere (fun n => 0 < n) p.degrees }

end InfraGraph.Order
