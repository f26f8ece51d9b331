import InfraGraph.Failure

/-!
# Failures by name

A failure is made from the name of its class and a list of arguments, which has to be as long as
the class asks for.
-/

namespace InfraGraph

/-- The parameters that a class asks for, and how many it takes besides. -/
structure Signature where
  owner : String
  required : List String
  optional : Nat := 0
  deriving DecidableEq, Repr, Inhabited

namespace Signature

/-- Names in quotes, the last one behind `and`. -/
def enumerated (names : List String) : String :=
  let quoted := names.map fun name => "'" ++ name ++ "'"
  match quoted with
  | [] => ""
  | [only] => only
  | [first,second] => first ++ " and " ++ second
  | many => Value.commaSeparated many.dropLast ++ ", and " ++ many.getLastD ""

/-- What is said of a list of arguments that lacks the last parameters. -/
def missing (s : Signature) (names : List String) : Fault :=
  .badType (s.owner ++ ".__init__() missing " ++ toString names.length ++
    " required positional argument" ++ (if names.length = 1 then "" else "s") ++ ": " ++
    enumerated names)

/-- What is said of a list of so many arguments if it is too long. The object itself counts as
one. -/
def tooMany (s : Signature) (count : Nat) : Fault :=
  let least := s.required.length + 1
  let taken :=
    if s.optional = 0 then toString least
    else "from " ++ toString least ++ " to " ++ toString (least + s.optional)
  .badType (s.owner ++ ".__init__() takes " ++ taken ++ " positional arguments but " ++
    toString (count + 1) ++ " were given")

/-- Require a list of arguments to fit. -/
def check (s : Signature) (args : List Value) : Except Fault Unit :=
  if s.required.length + s.optional < args.length then .error (s.tooMany args.length)
  else if args.length < s.required.length then .error (s.missing (s.required.drop args.length))
  else .ok ()

end Signature

namespace Failure

/-- The signature of the classes that only have a summary and perhaps a suggestion. -/
def reportSignature : Signature := ⟨"HarError",["message"],1⟩

/-- The failure that reports identifiers, which may have no items to report. -/
def ofIdentifiers (ids : Value) : Except Fault Failure := do
  match ofUnresolved (← ids.items) with
  | .fault f => .error f
  | e => return e

/-- The failure of a class with arguments. A class that is unknown here, or that is not made from
values, has none. -/
def ofArguments? (className : String) (args : List Value) : Option (Except Fault Failure) :=
  let arg := fun (i : Nat) => args.getD i .null
  let make := fun (s : Signature) (e : Except Fault Failure) =>
    some ((s.check args).bind fun _ => e)
  match className with
  | "HarError" => make reportSignature (.ok (reported (arg 0) (arg 1)))
  | "GraphValidationError" => make reportSignature (.ok (unsoundGraph (arg 0) (arg 1)))
  | "MissingParameterError" =>
    make ⟨className,["operation_type","field"],0⟩
      (.ok (missingParameter ⟨(arg 0).plain,arg 1⟩))
  | "CircularDependencyError" => make ⟨className,["unresolved"],0⟩ (ofIdentifiers (arg 0))
  | "PartitionKeyError" =>
    make ⟨className,["operation_id","key"],0⟩ (.ok (partitionKey (arg 0) (arg 1)))
  | "UnsupportedFormatError" =>
    make ⟨className,["adapter_kind","name"],0⟩
      (.ok (unsupportedFormat (arg 0) (arg 1).plain))
  | "IRSchemaError" =>
    make ⟨className,["reason"],0⟩ (.ok (invalidRecord (.reported (arg 0).plain)))
  | _ => (FaultKind.ofName? className).map fun kind => .ok (fault ⟨kind,args⟩)

end Failure

end InfraGraph
