import InfraGraph.Number.Binary64
import InfraGraph.Table
import InfraGraph.Vocabulary

/-!
# Values

Identifiers, parameters, targets, metadata and partition keys are dynamic values. Two values are
the same when they stand for the same thing: numbers by their exact value whatever their kind,
words by their text, sequences item by item, mappings and sets by mutual inclusion. A
not-a-number is the same as itself only, which its label tells.
-/

namespace InfraGraph

open Number (Binary64)

/-- A piece of data. The items of sets and the keys of mappings are hashable and pairwise
different in every value that the library builds. -/
inductive Value where
  | null
  | bool (b : Bool)
  | int (n : Int)
  | float (x : Binary64)
  | nan (label : Nat)
  | text (s : String)
  | bytes (content : List UInt8)
  | buffer (content : List UInt8)
  | tag (t : Tag)
  | list (items : List Value)
  | tuple (items : List Value)
  | mapping (entries : List (Value × Value))
  | set (members : List Value)
  | frozenset (members : List Value)
  deriving Inhabited

/-- A mapping between values, as parameters, targets and metadata are. -/
abbrev Mapping := Table Value Value

/-- What a value without parts stands for. -/
inductive Atom where
  | null
  | number (q : Rat)
  | infinity (negative : Bool)
  | nan (label : Nat)
  | text (s : String)
  | bytes (content : List UInt8)
  deriving DecidableEq, Inhabited

/-- What a binary floating-point number stands for. -/
def Number.Binary64.atom : Binary64 → Atom
  | .infinite negative => .infinity negative
  | .finite negative m e => .number (Binary64.rational negative m e)

namespace Value

/-- What a value stands for, if it has no parts. -/
def atom? : Value → Option Atom
  | null => some .null
  | bool b => some (.number (if b then 1 else 0))
  | int n => some (.number n)
  | float x => some x.atom
  | nan label => some (.nan label)
  | text s => some (.text s)
  | bytes content => some (.bytes content)
  | buffer content => some (.bytes content)
  | tag t => some (.text t.text)
  | list _ | tuple _ | mapping _ | set _ | frozenset _ => none

/-- The members of a set of either kind. -/
def members? : Value → Option (List Value)
  | set members => some members
  | frozenset members => some members
  | _ => none

/-- The text of a value that is text: a text, or a word of a vocabulary. -/
def text? : Value → Option String
  | text s => some s
  | tag t => some t.text
  | _ => none

def isText (v : Value) : Bool := v.text?.isSome

/-- The entries of a mapping. -/
def mapping? : Value → Option Mapping
  | mapping entries => some ⟨entries⟩
  | _ => none

/-- Add each entry of a row to the totals below it. -/
def addRow (row totals : List Bool) : List Bool := List.zipWith (· || ·) row totals

/-- The first list has a counterpart for each of `columns` members of the second, and the other
way round, where a table tells which are counterparts. -/
def matchesBothWays (columns : Nat) (table : List (List Bool)) : Bool :=
  table.all (fun row => row.any id) &&
    (table.foldr addRow (List.replicate columns false)).all id

mutual

/-- Whether two values stand for the same thing. -/
def same : Value → Value → Bool
  | list xs, b =>
    match b with
    | list ys => sameItems xs ys
    | _ => false
  | tuple xs, b =>
    match b with
    | tuple ys => sameItems xs ys
    | _ => false
  | mapping es, b =>
    match b with
    | mapping fs => matchesBothWays fs.length (entryTable es fs)
    | _ => false
  | set xs, b =>
    match b.members? with
    | some ys => matchesBothWays ys.length (memberTable xs ys)
    | none => false
  | frozenset xs, b =>
    match b.members? with
    | some ys => matchesBothWays ys.length (memberTable xs ys)
    | none => false
  | a, b =>
    match a.atom?, b.atom? with
    | some x, some y => x == y
    | _, _ => false
termination_by structural a => a

/-- Sequences of one length whose items are the same in turn. -/
def sameItems : List Value → List Value → Bool
  | [], ys => ys.isEmpty
  | x :: xs, ys =>
    match ys with
    | [] => false
    | y :: ys => same x y && sameItems xs ys
termination_by structural xs => xs

/-- Which members of two lists are the same: a row for each of the first. -/
def memberTable : List Value → List Value → List (List Bool)
  | [], _ => []
  | x :: xs, ys => ys.map (fun y => same x y) :: memberTable xs ys
termination_by structural xs => xs

/-- Which entries of two lists are the same: a row for each of the first. -/
def entryTable : List (Value × Value) → List (Value × Value) → List (List Bool)
  | [], _ => []
  | e :: es, fs => fs.map (fun f => sameEntry e f) :: entryTable es fs
termination_by structural es => es

/-- Entries with the same key that hold the same. -/
def sameEntry : Value × Value → Value × Value → Bool
  | (key,held), f => same key f.1 && same held f.2
termination_by structural e => e

end

instance : BEq Value := ⟨same⟩

/-- Whether two values compare equal where neither is inside a container: there a not-a-number
differs from itself. -/
def comparesEqual : Value → Value → Bool
  | nan _, _ => false
  | a, b => same a b

/-- Whether a value counts as true: it is neither empty nor zero nor null. -/
def isTruthy : Value → Bool
  | null => false
  | bool b => b
  | int n => n != 0
  | float x => x.isNonzero
  | nan _ => true
  | text s => !s.isEmpty
  | bytes content => !content.isEmpty
  | buffer content => !content.isEmpty
  | tag t => !t.text.isEmpty
  | list items => !items.isEmpty
  | tuple items => !items.isEmpty
  | mapping entries => !entries.isEmpty
  | set members => !members.isEmpty
  | frozenset members => !members.isEmpty

/-- The name of a value's kind. -/
def kindName : Value → String
  | null => "NoneType"
  | bool _ => "bool"
  | int _ => "int"
  | float _ => "float"
  | nan _ => "float"
  | text _ => "str"
  | bytes _ => "bytes"
  | buffer _ => "bytearray"
  | tag t => t.family
  | list _ => "list"
  | tuple _ => "tuple"
  | mapping _ => "dict"
  | set _ => "set"
  | frozenset _ => "frozenset"

end Value

namespace Mapping

def toValue (m : Mapping) : Value := .mapping m.entries

def single (key : String) (held : Value) : Mapping := ⟨[(.text key,held)]⟩

end Mapping

instance : BEq Mapping := ⟨fun a b => a.toValue == b.toValue⟩

end InfraGraph
