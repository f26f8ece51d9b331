import InfraGraph.Dependency
import InfraGraph.Operation
import InfraGraph.Version

/-!
# Failures

Everything that can go wrong, by cause: what is wrong with a graph, with a record, with a
partition key or with a format, and general faults. Each cause has a one-line summary and most
have a suggestion, which the full message appends.
-/

namespace InfraGraph

/-- What is wrong with a record. -/
inductive RecordFault where
  | operationWithoutType
  | operationTypeNotText
  | operationIdNotText
  | operationFieldNotMapping (field : String)
  | dependencyWithoutEnds
  | dependencyEndsNotTexts
  | dependencyTypeNotText
  | dependencyMetadataNotMapping
  | graphNotMapping
  | versionUnreadable (text : String)
  | versionIncompatible (version : Version)
  | recordsNotLists
  | graphMetadataNotMapping
  | reported (reason : String)
  deriving DecidableEq, Repr, Inhabited

/-- The reason that a faulty record is refused. -/
def RecordFault.reason : RecordFault → String
  | operationWithoutType => "operation record requires a 'type'"
  | operationTypeNotText => "operation 'type' must be a non-empty string"
  | operationIdNotText => "operation 'id' must be a string"
  | operationFieldNotMapping field => "operation '" ++ field ++ "' must be a mapping"
  | dependencyWithoutEnds => "dependency record requires 'from' and 'to'"
  | dependencyEndsNotTexts => "dependency 'from' and 'to' must be strings"
  | dependencyTypeNotText => "dependency 'type' must be a string"
  | dependencyMetadataNotMapping => "dependency 'metadata' must be a mapping"
  | graphNotMapping => "graph data must be a mapping"
  | versionUnreadable text => Version.unreadable text
  | versionIncompatible version =>
    "schema version " ++ version.text ++ " is not compatible with " ++ Version.current.text
  | recordsNotLists => "'operations' and 'dependencies' must be lists"
  | graphMetadataNotMapping => "graph 'metadata' must be a mapping"
  | reported reason => reason

/-- What can go wrong, by cause. -/
inductive Failure where
  /-- A failure without a cause of its own. -/
  | reported (summary suggestion : Value)
  /-- An unsound graph without a cause of its own. -/
  | unsoundGraph (summary suggestion : Value)
  | missingParameter (missing : MissingParameter)
  /-- Dependencies that name no operation; `verbose` shows them in the suggestion too. -/
  | invalidReferences (dependencies : List Dependency) (verbose : Bool)
  /-- Operations on a cycle or downstream of one. -/
  | circularDependency (unresolved : List Value)
  | invalidOperations (failures : List (Operation × MissingParameter))
  | partitionKey (operation key : Value)
  | unsupportedFormat (adapterKind : Value) (name : String)
  | invalidRecord (fault : RecordFault)
  | fault (f : Fault)
  deriving Inhabited

namespace Failure

/-- The number of items that a preview shows. -/
def previewLimit : Nat := 5

/-- The first items with commas between them, and how many more there are. -/
def preview (items : List String) : String :=
  let shown := Value.commaSeparated (items.take previewLimit)
  if previewLimit < items.length then
    shown ++ ", ... (" ++ toString (items.length - previewLimit) ++ " more)"
  else shown

/-- Each operation with the parameter that it lacks. -/
def lacking (failures : List (Operation × MissingParameter)) : List String :=
  failures.map fun f => f.1.id.plain ++ " (" ++ f.2.field.plain ++ ")"

/-- The texts of values, where a value that is no text shows nothing. -/
def textsOf (values : List Value) : List String := values.map fun v => v.text?.getD ""

/-- The summary of a failure as a value. -/
def summary : Failure → Value
  | reported summary _ => summary
  | unsoundGraph summary _ => summary
  | missingParameter m =>
    .text ("Operation '" ++ m.operationType ++ "' is missing parameter '" ++ m.field.plain ++ "'")
  | invalidReferences ds _ =>
    .text (toString ds.length ++ " dependencies reference unknown operations: " ++
      preview (ds.map Dependency.arrow))
  | circularDependency ids =>
    .text ("Circular dependency detected involving: " ++ preview (textsOf ids))
  | invalidOperations fs =>
    .text (toString fs.length ++ " operations failed validation: " ++ preview (lacking fs))
  | partitionKey operation key =>
    .text ("Partition key for operation '" ++ operation.plain ++ "' is not hashable: " ++
      key.kindName)
  | unsupportedFormat adapterKind name =>
    .text ("Unsupported " ++ adapterKind.plain ++ " format: " ++ name)
  | invalidRecord f => .text ("Invalid IR data: " ++ f.reason)
  | fault f => .text f.message

def dependencyTuple (ds : List Dependency) : String :=
  "(" ++ Value.commaSeparated (ds.map Dependency.literal) ++ (if ds.length = 1 then ",)" else ")")

/-- What to do about a failure, as a value; null where nothing is suggested. -/
def suggestion : Failure → Value
  | reported _ suggestion => suggestion
  | unsoundGraph _ suggestion => suggestion
  | missingParameter _ =>
    .text "Check the source adapter populates this parameter when building the operation."
  | invalidReferences ds verbose =>
    .text ("Every dependency must connect two operations present in the graph. " ++
      "Add the missing operations or drop the dangling edges." ++
      (if verbose then "\n\nDebug: " ++ dependencyTuple ds else ""))
  | circularDependency _ =>
    .text ("Break the cycle by removing or reversing one of the dependencies between the " ++
      "listed operations.")
  | invalidOperations _ => .text "Supply the missing parameters listed for each operation."
  | partitionKey _ _ =>
    .text ("Return strings, numbers, or lists, tuples, sets and mappings of them from the " ++
      "partition key function.")
  | unsupportedFormat adapterKind name =>
    .text ("Register a " ++ adapterKind.plain ++ " adapter for '" ++ name ++ "' before using it.")
  | invalidRecord _ => .text "Regenerate the IR with a compatible HAR version."
  | fault _ => .null

/-- The full message: the summary, and the suggestion behind it if there is one. -/
def message (e : Failure) : String :=
  if e.suggestion.isTruthy then
    e.summary.plain ++ "\n\nSuggestion: " ++ e.suggestion.plain
  else e.summary.plain

/-- The class under which a failure is reported. -/
def className : Failure → String
  | reported _ _ => "HarError"
  | unsoundGraph _ _ => "GraphValidationError"
  | missingParameter _ => "MissingParameterError"
  | invalidReferences _ _ => "InvalidReferencesError"
  | circularDependency _ => "CircularDependencyError"
  | invalidOperations _ => "InvalidOperationsError"
  | partitionKey _ _ => "PartitionKeyError"
  | unsupportedFormat _ _ => "UnsupportedFormatError"
  | invalidRecord _ => "IRSchemaError"
  | fault f => f.kind.name

/-- Whether a failure is one of the library's own, and not a general fault. -/
def isOwn : Failure → Bool
  | fault _ => false
  | _ => true

/-- The class with its place, as logs show it. -/
def qualifiedName (e : Failure) : String :=
  if e.isOwn then "har.core.errors." ++ e.className else e.className

/-- The short name of the cause. -/
def kind? : Failure → Option String
  | reported _ _ => none
  | unsoundGraph _ _ => some "invalid_graph"
  | missingParameter _ => some "missing_parameter"
  | invalidReferences _ _ => some "invalid_references"
  | circularDependency _ => some "circular_dependency"
  | invalidOperations _ => some "invalid_operations"
  | partitionKey _ _ => some "invalid_partition_key"
  | unsupportedFormat _ _ => some "unsupported_format"
  | invalidRecord _ => some "invalid_schema"
  | fault _ => none

/-- The first of some values, counted from `position`, that is no text. -/
def firstNonText? : (position : Nat) → List Value → Option (Nat × Value)
  | _, [] => none
  | position, v :: rest => if v.isText then firstNonText? (position + 1) rest else some (position,v)

/-- The failure that reports a cycle. Its preview joins texts, so it becomes a fault when one of
the identifiers to be shown is no text. -/
def ofUnresolved (unresolved : List Value) : Failure :=
  match firstNonText? 0 (unresolved.take previewLimit) with
  | none => circularDependency unresolved
  | some (position,v) =>
    fault (.badType ("sequence item " ++ toString position ++ ": expected str instance, " ++
      v.kindName ++ " found"))

/-- A report on a failure during an activity. The library's own failures speak for themselves;
`verbose` adds the literal of any fault that is not about a value or its kind. -/
def report (verbose : Bool) (activity : String) (e : Failure) : String :=
  match e with
  | fault f =>
    let context := "Error during " ++ activity ++ ": " ++ f.message ++ "\n\nSuggestion: "
    if f.kind = .badValue ∨ f.kind = .badType then
      context ++ "Check that input values are in the correct format and type."
    else
      context ++ "If this error persists, report it with the full error message." ++
        (if verbose then "\n\nDebug: " ++ f.literal else "")
  | own => own.message

end Failure

end InfraGraph
