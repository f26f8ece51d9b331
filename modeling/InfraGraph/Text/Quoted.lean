import InfraGraph.Text.Printable

/-!
# Quoted text

How a text and a byte string are written as literals. A literal is enclosed in single quotes,
or in double quotes when it contains a single quote and no double quote. Inside, the enclosing
quote and the backslash are escaped by a backslash, and whatever cannot be printed is written
by its number.
-/

namespace InfraGraph.Text

/-- The lower-case hexadecimal digits of a number, at least `width` of them. -/
def hexadecimal (width n : Nat) : List Char :=
  let digits := Nat.toDigits 16 n
  List.replicate (width - digits.length) '0' ++ digits

/-- A character written by its number, in the shortest of three widths. -/
def numberEscape (c : Char) : List Char :=
  let n := c.toNat
  if n < 0x100 then '\\' :: 'x' :: hexadecimal 2 n
  else if n < 0x10000 then '\\' :: 'u' :: hexadecimal 4 n
  else '\\' :: 'U' :: hexadecimal 8 n

/-- One character of a literal. `guarded` are the characters that take a backslash, `plain`
those that stand for themselves. -/
def literalChar (guarded plain : Char → Bool) (c : Char) : List Char :=
  if guarded c then ['\\',c]
  else if c == '\n' then ['\\','n']
  else if c == '\r' then ['\\','r']
  else if c == '\t' then ['\\','t']
  else if plain c then [c]
  else numberEscape c

/-- The quote that encloses a literal of these characters. -/
def enclosingQuote (cs : List Char) : Char :=
  if cs.contains '\'' && !cs.contains '"' then '"' else '\''

/-- A text as a literal. -/
def quoted (s : String) : String :=
  let cs := s.toList
  let quote := enclosingQuote cs
  let guarded := fun c => c == quote || c == '\\'
  String.ofList (quote :: cs.flatMap (literalChar guarded isPrintable) ++ [quote])

/-- The characters that a byte string shows in place of its bytes. -/
def byteChars (bytes : List UInt8) : List Char := bytes.map fun b => Char.ofNat b.toNat

/-- Bytes show themselves when they are printable ASCII. -/
def isPlainByte (c : Char) : Bool := 0x20 ≤ c.toNat && c.toNat < 0x7F

/-- A constant byte string as a literal. -/
def quotedBytes (bytes : List UInt8) : String :=
  let cs := byteChars bytes
  let quote := enclosingQuote cs
  let guarded := fun c => c == quote || c == '\\'
  String.ofList ('b' :: quote :: cs.flatMap (literalChar guarded isPlainByte) ++ [quote])

/-- A mutable byte string as a literal. Its single quotes are escaped whatever encloses it, and
its double quotes never. -/
def quotedBuffer (bytes : List UInt8) : String :=
  let cs := byteChars bytes
  let quote := enclosingQuote cs
  let guarded := fun c => c == '\'' || c == '\\'
  "bytearray(" ++
    String.ofList ('b' :: quote :: cs.flatMap (literalChar guarded isPlainByte) ++ [quote]) ++ ")"

end InfraGraph.Text
