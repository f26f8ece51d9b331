import InfraGraph.Adapter.Registry
import InfraGraph.Graph.Record

/-!
# Plain adapters

A parser that takes contents to be the record of a graph, a transformer that writes one line for
each operation, and adapters that always fail.
-/

namespace InfraGraph

namespace SourceParser

/-- Read the record of a graph and add the options to its metadata. -/
def records (reports : Format) : SourceParser where
  reports := reports
  parse content options := do
    let g ← Graph.load content
    Run.ofFault (Graph.create g.operations g.dependencies (g.metadata.union options))

/-- Read nothing. -/
def failing (reports : Format) : SourceParser where
  reports := reports
  parse _ _ := throw (.fault (.badValue "cannot parse"))

end SourceParser

namespace TargetTransformer

/-- The line of an operation: its type and its identifier. -/
def line (op : Operation) : String := op.typeName ++ " " ++ op.id.plain

/-- Lines with a value between them, which has to be text. Byte strings join byte strings only. -/
def joined (between : Value) (texts : List String) : Except Fault String :=
  match between, texts with
  | .bytes _, [] | .buffer _, [] => .ok ""
  | .bytes _, _ | .buffer _, _ =>
    .error (.badType "sequence item 0: expected a bytes-like object, str found")
  | v, texts =>
    match v.text? with
    | some s => .ok (s.intercalate texts)
    | none =>
      .error ⟨.missingAttribute,[.text ("'" ++ v.kindName ++ "' object has no attribute 'join'")]⟩

/-- Write the line of each operation. What stands between two lines is an option, or else a line
break. -/
def lines (reports : Format) : TargetTransformer where
  reports := reports
  transform operations options :=
    Run.ofFault
      (joined ((options.get? (.text "separator")).getD (.text "\n")) (operations.map line))

/-- Write nothing. -/
def failing (reports : Format) : TargetTransformer where
  reports := reports
  transform _ _ := throw (.fault ⟨.runtime,[.text "cannot render"]⟩)

end TargetTransformer

end InfraGraph
