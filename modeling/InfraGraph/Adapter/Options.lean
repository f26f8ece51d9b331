import InfraGraph.Adapter.Registry

/-!
# Options by name

Options reach an adapter by name. Every key has to be a text, and none may be a name under which
the step already has a value of its own. A clash is a failure of the step.
-/

namespace InfraGraph

namespace Registry

def requireNames (options : Mapping) : Run Unit :=
  Run.ofFault (options.requireTextKeys fun _ => .badType "keywords must be strings")

/-- The first option that has one of some names. -/
def clash? (taken : List String) (options : Mapping) : Option String :=
  options.keys.findSome? fun key => key.text?.filter taken.contains

/-- What is said of a name with two values. -/
def givenTwice (step name : String) : Fault :=
  .badType ("AdapterRegistry." ++ step ++ "() got multiple values for argument '" ++ name ++ "'")

/-- Carry a body out with options by name, which the names in `taken` must not clash with. -/
def withNames {α : Type} (step : String) (taken : List String) (options : Mapping) (body : Run α) :
    Run α := do
  requireNames options
  match clash? taken options with
  | some name => Run.step step logger step (throw (.fault (givenTwice step name)))
  | none => body

/-- Read contents with options by name. -/
def parseNamed (r : Registry) (format content : Value) (options : Mapping) : Run Graph :=
  withNames "parse" ["self","source_format","content"] options (r.parse format content options)

/-- Write a graph with options by name. -/
def transformNamed (r : Registry) (g : Graph) (format : Value) (options : Mapping) : Run String :=
  withNames "transform" ["self","graph","target_format"] options (r.transform g format options)

end Registry

end InfraGraph
