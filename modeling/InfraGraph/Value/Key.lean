import InfraGraph.Value.Literal

/-!
# Keys

Which values can be keys, and two conversions into such values. The hashable form stands in for
a partition key: lists become tuples, mappings and sets become frozen sets. The frozen form
stands in for metadata in a dependency's identity: every container carries the name of its kind,
so that values of different kinds get different forms.
-/

namespace InfraGraph

/-- Keep the first of the values that are the same as one another. -/
def distinct (values : List Value) : List Value :=
  values.foldl (fun kept v => if kept.any (· == v) then kept else kept ++ [v]) []

namespace Value

mutual

/-- The name of the kind that keeps a value from being a key: the innermost one, read from the
left. -/
def unhashable? : Value → Option String
  | buffer _ => some "bytearray"
  | list _ => some "list"
  | mapping _ => some "dict"
  | set _ => some "set"
  | tuple items => firstUnhashable? items
  | frozenset members => firstUnhashable? members
  | _ => none
termination_by structural v => v

/-- The first kind in a list of values that keeps them from being keys. -/
def firstUnhashable? : List Value → Option String
  | [] => none
  | v :: rest =>
    match unhashable? v with
    | some kind => some kind
    | none => firstUnhashable? rest
termination_by structural vs => vs

end

/-- Whether a value can be a key as it is. -/
def isHashable (v : Value) : Bool := v.unhashable?.isNone

mutual

/-- The hashable form of a value. Byte buffers have none. -/
def hashableForm? : Value → Option Value
  | buffer _ => none
  | list items => (hashableForms? items).map tuple
  | tuple items => (hashableForms? items).map tuple
  | mapping entries => (hashableEntries? entries).map fun pairs => frozenset (distinct pairs)
  | set members => (hashableForms? members).map fun forms => frozenset (distinct forms)
  | frozenset members => (hashableForms? members).map fun forms => frozenset (distinct forms)
  | v => some v
termination_by structural v => v

/-- The hashable forms of a list of values. -/
def hashableForms? : List Value → Option (List Value)
  | [] => some []
  | v :: rest =>
    match hashableForm? v, hashableForms? rest with
    | some form, some forms => some (form :: forms)
    | _, _ => none
termination_by structural vs => vs

/-- The entries of a mapping as pairs of hashable forms. -/
def hashableEntries? : List (Value × Value) → Option (List Value)
  | [] => some []
  | e :: rest =>
    match hashableEntry? e, hashableEntries? rest with
    | some pair, some pairs => some (pair :: pairs)
    | _, _ => none
termination_by structural es => es

/-- An entry as a pair of hashable forms. -/
def hashableEntry? : Value × Value → Option Value
  | (key,held) =>
    match hashableForm? key, hashableForm? held with
    | some first, some second => some (tuple [first,second])
    | _, _ => none
termination_by structural e => e

end

/-- A value as a partition key: itself if it can be a key, else its hashable form. -/
def partitionKey? (v : Value) : Option Value := if v.isHashable then some v else v.hashableForm?

mutual

/-- The frozen form of a value: a pair of the kind's name and frozen contents. -/
def frozen : Value → Value
  | mapping entries => tuple [text "map",frozenset (distinct (frozenEntries entries))]
  | list items => tuple [text "list",tuple (frozenItems items)]
  | tuple items => tuple [text "tuple",tuple (frozenItems items)]
  | set members => tuple [text "set",frozenset (distinct (frozenItems members))]
  | frozenset members => tuple [text "set",frozenset (distinct (frozenItems members))]
  | buffer content => tuple [text "repr",text (Text.quotedBuffer content)]
  | v => tuple [text "value",v]
termination_by structural v => v

/-- The frozen forms of a list of values. -/
def frozenItems : List Value → List Value
  | [] => []
  | v :: rest => frozen v :: frozenItems rest
termination_by structural vs => vs

/-- The entries of a mapping as pairs of a key and a frozen form. -/
def frozenEntries : List (Value × Value) → List Value
  | [] => []
  | e :: rest => frozenEntry e :: frozenEntries rest
termination_by structural es => es

/-- An entry as a pair of its key and a frozen form. -/
def frozenEntry : Value × Value → Value
  | (key,held) => tuple [key,frozen held]
termination_by structural e => e

end

end Value

end InfraGraph
