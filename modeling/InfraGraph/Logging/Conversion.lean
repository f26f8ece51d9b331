import InfraGraph.Value.Number

/-!
# Conversions

A conversion shows a value by a letter: as its plain text or its literal, as a whole number in one
of three bases, as a floating-point number, or as a character. Flags choose the sign of numbers
that are not negative, what fills up to the least width, and on which side.
-/

namespace InfraGraph.Logging

/-- How a value is shown, the letter apart. -/
structure Conversion where
  left : Bool := false
  plus : Bool := false
  blank : Bool := false
  alternate : Bool := false
  zeros : Bool := false
  width : Nat := 0
  precision : Option Nat := none
  deriving DecidableEq, Repr, Inhabited

/-- The first width for which there is no room. -/
def roomLimit : Nat := 10000000000

def requireRoom (width : Nat) : Except Fault Unit :=
  if width < roomLimit then .ok () else .error ⟨.memory,[]⟩

namespace Conversion

/-- A text filled up with blanks. -/
def filled (cv : Conversion) (cs : List Char) : String :=
  let blanks := List.replicate (cv.width - cs.length) ' '
  String.ofList (if cv.left then cs ++ blanks else blanks ++ cs)

/-- A text as long as the precision allows, filled up. -/
def text (cv : Conversion) (s : String) : String :=
  cv.filled (match cv.precision with
    | some count => s.toList.take count
    | none => s.toList)

def sign (cv : Conversion) (negative : Bool) : List Char :=
  if negative then ['-'] else if cv.plus then ['+'] else if cv.blank then [' '] else []

/-- A number of a sign, a mark of its base and digits, filled up; zeros go before the digits. -/
def number (cv : Conversion) (negative : Bool) (mark digits : List Char) : String :=
  let front := cv.sign negative ++ mark
  let zeros := if cv.zeros && !cv.left then cv.width - front.length - digits.length else 0
  cv.filled (front ++ List.replicate zeros '0' ++ digits)

/-- A whole number in a base. The precision is its least number of digits. -/
def whole (cv : Conversion) (base : Nat) (mark : String) (n : Int) : String :=
  cv.number (decide (n < 0)) (if cv.alternate then mark.toList else [])
    (let digits := Nat.toDigits base n.natAbs
     List.replicate (cv.precision.getD 0 - digits.length) '0' ++ digits)

/-- The base that a letter asks for and the mark of that base. -/
def base? : Char → Option (Nat × String)
  | 'o' => some (8,"0o")
  | 'x' => some (16,"0x")
  | 'X' => some (16,"0X")
  | _ => none

/-- The form of a floating-point number that a letter asks for. -/
def form? (letter : Char) : Option Number.PlaceForm :=
  match letter.toLower with
  | 'f' => some .fixed
  | 'e' => some .exponent
  | 'g' => some (.significant false)
  | _ => none

/-- Characters in capitals if a letter is one. -/
def cased (letter : Char) (s : String) : String :=
  if letter.isUpper then String.ofList (s.toList.map Char.toUpper) else s

/-- A floating-point number, to six places if nothing else is asked for. -/
def real (cv : Conversion) (letter : Char) (form : Number.PlaceForm)
    (x : Option Number.Binary64) : String :=
  cv.number (Value.hasMinus x) []
    (cased letter (Value.placed ⟨form,cv.precision.getD 6,cv.alternate⟩ x)).toList

/-- What is said of a value that is no number of the wanted sort. -/
def notANumber (letter : Char) (sort : String) (v : Value) : Fault :=
  .badType ("%" ++ String.singleton letter ++ " format: " ++ sort ++ " is required, not " ++
    v.kindName)

/-- A value as a decimal whole number, cut to its whole part. -/
def decimal (cv : Conversion) (letter : Char) (v : Value) : Except Fault String :=
  match v.truncated? with
  | some result => result.map (cv.whole 10 "")
  | none => .error (notANumber letter "a real number" v)

/-- The first number that no character has. -/
def characterLimit : Int := 1114112

/-- The character that a value is or counts. -/
def character (v : Value) : Except Fault String :=
  match v.text?, v.whole? with
  | some s, _ =>
    if s.length = 1 then .ok s else .error (.badType "%c requires int or char")
  | none, some n =>
    if 0 ≤ n ∧ n < characterLimit then .ok (String.singleton (Char.ofNat n.toNat))
    else .error ⟨.overflow,[.text "%c arg not in range(0x110000)"]⟩
  | none, none => .error (.badType "%c requires int or char")

/-- The literal of a value with every character outside ASCII written by its number. -/
def asciiLiteral (v : Value) : String :=
  String.ofList (v.literal.toList.flatMap fun c => if c.toNat < 0x80 then [c] else Text.numberEscape c)

/-- What is said of a letter that is no conversion. -/
def unsupportedLetter (letter : Char) (position : Nat) : Fault :=
  let shown := if 31 ≤ letter.toNat ∧ letter.toNat ≤ 126 then letter else '?'
  .badValue ("unsupported format character '" ++ String.singleton shown ++ "' (0x" ++
    String.ofList (Nat.toDigits 16 letter.toNat) ++ ") at index " ++ toString position)

/-- A value in a base, which has to be a whole number. -/
def inBase (cv : Conversion) (letter : Char) (base : Nat × String) (v : Value) :
    Except Fault String :=
  match v.whole? with
  | some n => .ok (cased letter (cv.whole base.1 base.2 n))
  | none => .error (notANumber letter "an integer" v)

/-- The text of a value by a letter that stands at a position. -/
def shown (cv : Conversion) (letter : Char) (position : Nat) (v : Value) : Except Fault String :=
  match letter with
  | 's' => .ok (cv.text v.plain)
  | 'r' => .ok (cv.text v.literal)
  | 'a' => .ok (cv.text (asciiLiteral v))
  | 'd' | 'i' | 'u' => cv.decimal letter v
  | 'c' => do return cv.filled (← character v).toList
  | _ =>
    match base? letter, form? letter with
    | some base, _ => cv.inBase letter base v
    | none, some form => do return cv.real letter form (← v.real)
    | none, none => .error (unsupportedLetter letter position)

/-- Show a value by a letter that stands at a position, if there is room for the width. -/
def apply (cv : Conversion) (letter : Char) (position : Nat) (v : Value) : Except Fault String := do
  requireRoom cv.width
  cv.shown letter position v

end Conversion

end InfraGraph.Logging
