import InfraGraph.Graph.Validation

/-!
# Merging graphs

Several graphs become one: of operations with the same identifier the first one stays, and of
equal dependencies the first one stays. The metadata of the graphs is kept side by side. The
merged graph is not validated.
-/

namespace InfraGraph.Graph

/-- The name under which the metadata of merged graphs is kept. -/
def mergedFromName : String := "merged_from"

/-- Add dependencies that repeat none of those kept so far. The identity key of each must be
hashable. -/
def keepNew : List Dependency → List Dependency → Except Fault (List Dependency)
  | kept, [] => .ok kept
  | kept, d :: rest => do
    d.identityKey.requireHashable
    keepNew (if kept.any (·.repeats d) then kept else kept ++ [d]) rest

def mergedMetadata (graphs : List Graph) : Mapping :=
  Mapping.single mergedFromName (.list (graphs.map fun g => g.metadata.toValue))

/-- The first operation of each identifier over several graphs. -/
def mergedOperations (graphs : List Graph) : List Operation :=
  (indexOf (graphs.flatMap (·.operations))).values

/-- The dependencies of several graphs without repetitions. -/
def mergedDependencies (graphs : List Graph) : Except Fault (List Dependency) :=
  keepNew [] (graphs.flatMap (·.dependencies))

/-- Merge graphs. -/
def merge (graphs : List Graph) : Run Graph := do
  let operations := mergedOperations graphs
  let dependencies ← Run.ofFault (mergedDependencies graphs)
  Run.log .debug logger ("Merged " ++ toString graphs.length ++ " graphs into " ++
    toString operations.length ++ " operations and " ++ toString dependencies.length ++
    " dependencies")
  return assemble operations dependencies (mergedMetadata graphs)

end InfraGraph.Graph
