import InfraGraph.Fault

/-!
# Values as JSON

A value as one line of JSON in ASCII. Tuples are arrays like lists, words of vocabularies are
strings, and a value of a kind that JSON does not have is the string of its literal. Numbers that
are not finite stand for themselves, outside the standard. Keys have to be texts, numbers, truth
values or null, and are not compared after they have become texts.
-/

namespace InfraGraph.Value

/-- A character of a JSON string by its number, in two halves above sixteen bits. -/
def unicodeEscape (n : Nat) : List Char :=
  let unit := fun u => '\\' :: 'u' :: Text.hexadecimal 4 u
  if n < 0x10000 then unit n
  else unit (0xD800 + (n - 0x10000) / 0x400) ++ unit (0xDC00 + (n - 0x10000) % 0x400)

/-- A character of a JSON string. -/
def jsonChar (c : Char) : List Char :=
  if c == '"' then ['\\','"']
  else if c == '\\' then ['\\','\\']
  else if c == '\n' then ['\\','n']
  else if c == '\r' then ['\\','r']
  else if c == '\t' then ['\\','t']
  else if c.toNat = 8 then ['\\','b']
  else if c.toNat = 12 then ['\\','f']
  else if 0x20 ≤ c.toNat && c.toNat < 0x7F then [c]
  else unicodeEscape c.toNat

/-- A text as a JSON string. -/
def jsonString (s : String) : String :=
  String.ofList ('"' :: s.toList.flatMap jsonChar ++ ['"'])

/-- A floating-point number in JSON. -/
def jsonFloat : Number.Binary64 → String
  | .infinite negative => if negative then "-Infinity" else "Infinity"
  | x => x.text

/-- The name that a key gives a member of a JSON object. -/
def jsonKey : Value → Except Fault String
  | text s => .ok s
  | tag t => .ok t.text
  | float x => .ok (jsonFloat x)
  | nan _ => .ok "NaN"
  | bool b => .ok (if b then "true" else "false")
  | null => .ok "null"
  | int n => .ok (toString n)
  | v => .error (.badType ("keys must be str, int, float, bool or None, not " ++ v.kindName))

mutual

/-- A value as JSON. -/
def json : Value → Except Fault String
  | null => .ok "null"
  | bool b => .ok (if b then "true" else "false")
  | int n => .ok (toString n)
  | float x => .ok (jsonFloat x)
  | nan _ => .ok "NaN"
  | text s => .ok (jsonString s)
  | tag t => .ok (jsonString t.text)
  | list items => do return "[" ++ commaSeparated (← jsonItems items) ++ "]"
  | tuple items => do return "[" ++ commaSeparated (← jsonItems items) ++ "]"
  | mapping entries => do return "\x7b" ++ commaSeparated (← jsonEntries entries) ++ "\x7d"
  | bytes content => .ok (jsonString (Text.quotedBytes content))
  | buffer content => .ok (jsonString (Text.quotedBuffer content))
  | set members => .ok (jsonString (set members).literal)
  | frozenset members => .ok (jsonString (frozenset members).literal)
termination_by structural v => v

/-- The items of an array. -/
def jsonItems : List Value → Except Fault (List String)
  | [] => .ok []
  | v :: rest => do
    let first ← json v
    return first :: (← jsonItems rest)
termination_by structural vs => vs

/-- The members of an object. -/
def jsonEntries : List (Value × Value) → Except Fault (List String)
  | [] => .ok []
  | e :: rest => do
    let first ← jsonEntry e
    return first :: (← jsonEntries rest)
termination_by structural es => es

/-- A member of an object. -/
def jsonEntry : Value × Value → Except Fault String
  | (key,held) => do
    let name ← jsonKey key
    return jsonString name ++ ": " ++ (← json held)
termination_by structural e => e

end

end InfraGraph.Value
