import InfraGraph.Version

/-!
# Catalogue

What the package says about itself: its own version, and the names that it offers, grouped by
the part of the package that offers them.
-/

namespace InfraGraph.Catalogue

def packageVersion : String := "0.1.0"

/-- The names that the package offers at its top. -/
def topNames : List String :=
  ["Operation","OperationType","Dependency","DependencyType","Graph","plan_execution",
   "HarError","MissingParameterError","GraphValidationError","InvalidReferencesError",
   "CircularDependencyError","InvalidOperationsError"]

/-- The names of settings and failures. -/
def coreNames : List String :=
  ["GraphSettings","LoggingSettings","load_graph_settings","load_logging_settings","HarError",
   "MissingParameterError","GraphValidationError","InvalidReferencesError",
   "CircularDependencyError","InvalidOperationsError","PartitionKeyError",
   "UnsupportedFormatError","IRSchemaError","format_error_with_context"]

/-- The names of the representation. -/
def representationNames : List String :=
  ["Operation","OperationType","generate_operation_id","Dependency","DependencyType","Graph",
   "IRVersion","CURRENT_IR_VERSION","SourceFormat","TargetFormat","SourceParser",
   "TargetTransformer","SecurityManager","ContentStore","content_id","AdapterRegistry",
   "get_adapter_registry","ExecutionPlan","by_target","plan_execution"]

/-- The parts of the package with the names that they offer. -/
def exports : List (String × List String) :=
  [("har",topNames),("har.core",coreNames),("har.ir",representationNames)]

end InfraGraph.Catalogue
