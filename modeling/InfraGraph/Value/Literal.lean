import InfraGraph.Number.Shortest
import InfraGraph.Text.Quoted
import InfraGraph.Value.Basic

/-!
# Values as text

A value has two texts. Its literal shows its kind and quotes text; its plain text is the same
except that a text stands for itself and a word of a vocabulary shows its qualified name.

Integers are written whatever their length. `Text.digitLimit` holds for reading, where it decides
which texts are versions and settings. It is left out for writing: an interpreter that refuses to
write an integer with more digits fails where this gives a text, and with it every text that shows
a value, messages and log records among them, would be partial.
-/

namespace InfraGraph.Value

/-- Texts with a comma between them. -/
def commaSeparated (parts : List String) : String := ", ".intercalate parts

/-- A word as a literal: its qualified name and its quoted text. -/
def tagLiteral (t : Tag) : String :=
  "<" ++ t.qualifiedName ++ ": " ++ Text.quoted t.text ++ ">"

mutual

/-- The literal of a value. An integer of any length has one. A tuple of one item ends in a comma; an
empty set of either kind shows the name of its kind, since empty braces are an empty mapping. -/
def literal : Value → String
  | null => "None"
  | bool b => if b then "True" else "False"
  | int n => toString n
  | float x => x.text
  | nan _ => "nan"
  | text s => Text.quoted s
  | bytes content => Text.quotedBytes content
  | buffer content => Text.quotedBuffer content
  | tag t => tagLiteral t
  | list items => "[" ++ commaSeparated (literals items) ++ "]"
  | tuple items =>
    "(" ++ commaSeparated (literals items) ++ (if items.length = 1 then ",)" else ")")
  | mapping entries => "\x7b" ++ commaSeparated (entryLiterals entries) ++ "\x7d"
  | set members =>
    if members.isEmpty then "set()"
    else "\x7b" ++ commaSeparated (literals members) ++ "\x7d"
  | frozenset members =>
    if members.isEmpty then "frozenset()"
    else "frozenset(\x7b" ++ commaSeparated (literals members) ++ "\x7d)"
termination_by structural v => v

/-- The literals of a list of values. -/
def literals : List Value → List String
  | [] => []
  | v :: rest => literal v :: literals rest
termination_by structural vs => vs

/-- The entries of a mapping, a colon between key and held value. -/
def entryLiterals : List (Value × Value) → List String
  | [] => []
  | e :: rest => entryLiteral e :: entryLiterals rest
termination_by structural es => es

/-- An entry of a mapping. -/
def entryLiteral : Value × Value → String
  | (key,held) => literal key ++ ": " ++ literal held
termination_by structural e => e

end

/-- The plain text of a value. -/
def plain : Value → String
  | text s => s
  | tag t => t.qualifiedName
  | v => literal v

/-- The name that a value gives as a tag: a word gives its text, any other value its plain
text. -/
def tagName : Value → String
  | tag t => t.text
  | v => plain v

end InfraGraph.Value
