import InfraGraph.Graph.Validation

/-!
# Adapters

Parsers read the configuration of a tool into a graph, transformers write operations in order as
the configuration of a tool. A registry holds at most one class of parsers and one of transformers
for each format; the first that is registered stays. A class constructs an adapter each time one is
asked for. Only sound graphs reach a transformer.
-/

namespace InfraGraph

/-- The format that a value names: a word of either vocabulary of formats, or the text of one. -/
def Format.ofValue? (v : Value) : Option Format := v.text?.bind Vocabulary.read?

/-- An adapter that reads contents, with options. -/
structure SourceParser where
  reports : Format
  parse : Value → Mapping → Run Graph

/-- An adapter that writes operations, with options. -/
structure TargetTransformer where
  reports : Format
  transform : List Operation → Mapping → Run String

/-- A class of adapters. Constructing an adapter may fail. -/
structure AdapterClass (α : Type) where
  construct : Except Failure α

/-- An adapter stands for the class that constructs it and never fails. -/
instance {α : Type} : Coe α (AdapterClass α) := ⟨fun adapter => ⟨.ok adapter⟩⟩

/-- The classes of parsers and of transformers, by format. -/
structure Registry where
  parsers : Table Format (AdapterClass SourceParser)
  transformers : Table Format (AdapterClass TargetTransformer)

namespace Registry

def logger : String := "har.ir.plugin"

def empty : Registry := ⟨.empty,.empty⟩

instance : Inhabited Registry := ⟨empty⟩

/-- The format that a value has to name, which must be one of the family. -/
def requireFormat (family : String) (v : Value) : Except Fault Format :=
  match Format.ofValue? v with
  | some format => .ok format
  | none => .error (.badValue (v.literal ++ " is not a valid " ++ family))

/-- The table with a class more. The value has to name a format of the family, and one that has no
class in the role. -/
def enter {α : Type} (role family : String) (table : Table Format (AdapterClass α)) (v : Value)
    (made : AdapterClass α) : Except Fault (Table Format (AdapterClass α)) := do
  let format ← requireFormat family v
  if table.contains format then
    .error (.badValue (role ++ " for " ++ format.text ++ " already registered"))
  else .ok (table.insertNew format made)

def registerParser (r : Registry) (v : Value) (made : AdapterClass SourceParser) :
    Except Fault Registry := do
  return { r with parsers := ← enter "Parser" "SourceFormat" r.parsers v made }

/-- Register a class of transformers for a format. -/
def registerTransformer (r : Registry) (v : Value) (made : AdapterClass TargetTransformer) :
    Except Fault Registry := do
  return { r with transformers := ← enter "Transformer" "TargetFormat" r.transformers v made }

/-- The class for the format that a value names. -/
def lookUp {α : Type} (adapterKind : String) (table : Table Format (AdapterClass α)) (v : Value) :
    Except Failure (AdapterClass α) :=
  match (Format.ofValue? v).bind table.get? with
  | some made => .ok made
  | none => .error (.unsupportedFormat (.text adapterKind) v.tagName)

/-- A new parser for the format that a value names. -/
def parser (r : Registry) (v : Value) : Except Failure SourceParser := do
  (← lookUp "source" r.parsers v).construct

def transformer (r : Registry) (v : Value) : Except Failure TargetTransformer := do
  (← lookUp "target" r.transformers v).construct

def parserFormats (r : Registry) : List Format := r.parsers.keys

def transformerFormats (r : Registry) : List Format := r.transformers.keys

/-- Read contents with the parser for a format. -/
def parse (r : Registry) (format content : Value) (options : Mapping) : Run Graph :=
  Run.step "parse" logger "parse" do
    let parser ← Run.ofExcept (r.parser format)
    Run.within { sourceFormat := some parser.reports.text } do
      let g ← parser.parse content options
      Run.log .info logger ("Parsed " ++ toString g.operations.length ++ " operations and " ++
        toString g.dependencies.length ++ " dependencies")
      return g

/-- Write a graph with the transformer for a format. The graph is validated and ordered
before. -/
def transform (r : Registry) (g : Graph) (format : Value) (options : Mapping) : Run String :=
  Run.step "transform" logger "transform" do
    let transformer ← Run.ofExcept (r.transformer format)
    g.ensureValid
    let operations ← g.topologicalSort
    Run.log .info logger ("Transforming " ++ toString operations.length ++ " operations to " ++
      transformer.reports.text)
    transformer.transform operations options

end Registry

end InfraGraph
