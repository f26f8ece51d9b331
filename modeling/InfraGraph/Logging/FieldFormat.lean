import InfraGraph.Logging.Conversion
import InfraGraph.Text.Digit

/-!
# Formats of fields

A field of a template in braces may say how its value is shown: what fills it up and on which
side, the sign of numbers that are not negative, a least width, a sign between groups of digits, a
precision, and a letter for the kind of number.
-/

namespace InfraGraph.Logging

/-- How the value of a field is shown. -/
structure FieldFormat where
  fill : Char
  align : Char
  sign : Option Char
  alternate : Bool
  width : Nat
  group : Option Char
  precision : Option Nat
  letter : Option Char
  deriving DecidableEq, Repr, Inhabited

namespace FieldFormat

/-- The marks that say on which side to fill up: on the right, on the left, on both, or between the
sign and the digits. -/
def isAlignment (c : Char) : Bool := c == '<' || c == '>' || c == '^' || c == '='

/-- The filling character and the alignment at the beginning of a format. -/
def readAlignment : List Char → (Option Char × Option Char) × List Char
  | c :: d :: rest =>
    if isAlignment d then ((some c,some d),rest)
    else if isAlignment c then ((none,some c),d :: rest)
    else ((none,none),c :: d :: rest)
  | [c] => if isAlignment c then ((none,some c),[]) else ((none,none),[c])
  | [] => ((none,none),[])

/-- A character at the beginning of a format if it is one of some marks. -/
def readMark (marks : List Char) : List Char → Option Char × List Char
  | c :: rest => if marks.contains c then (some c,rest) else (none,c :: rest)
  | [] => (none,[])

/-- The digits, of any script, at the beginning of a format. -/
def readDigits : List Char → List Nat × List Char
  | c :: rest =>
    match Text.digitValue? c with
    | some d => let (more,rest) := readDigits rest; (d :: more,rest)
    | none => ([],c :: rest)
  | [] => ([],[])

/-- The first number with too many digits. -/
def countLimit : Nat := 9223372036854775808

/-- The number at the beginning of a format, if there is one. -/
def readCount (cs : List Char) : Except Fault (Option Nat × List Char) :=
  let (digits,rest) := readDigits cs
  let n := digits.foldl (fun n d => 10 * n + d) 0
  if digits.isEmpty then .ok (none,rest)
  else if n < countLimit then .ok (some n,rest)
  else .error (.badValue "Too many decimal digits in format string")

/-- The sign between groups of digits. There is one at most. -/
def readGroup (cs : List Char) : Except Fault (Option Char × List Char) :=
  match cs with
  | ',' :: '_' :: _ | '_' :: ',' :: _ => .error (.badValue "Cannot specify both ',' and '_'.")
  | _ => .ok (readMark [',','_'] cs)

/-- The precision behind a point. -/
def readPrecision : List Char → Except Fault (Option Nat × List Char)
  | '.' :: rest => do
    let (count,rest) ← readCount rest
    match count with
    | some n => return (some n,rest)
    | none => .error (.badValue "Format specifier missing precision")
  | cs => .ok (none,cs)

/-- A letter as faults show it. -/
def shownLetter (letter : Char) : String :=
  if 32 < letter.toNat ∧ letter.toNat < 128 then String.singleton letter
  else "\\x" ++ String.ofList (Nat.toDigits 16 letter.toNat)

/-- The letters with which digits are grouped, and those with which only one sign groups them. -/
def takesGroup (group letter : Char) : Bool :=
  "defgEG%F".toList.contains letter || (group == '_' && "boxX".toList.contains letter)

/-- Require that digits are grouped only where there are digits. -/
def checkGroup (group letter : Option Char) : Except Fault Unit :=
  match group, letter with
  | some sign, some letter =>
    if takesGroup sign letter then .ok ()
    else
      .error (.badValue ("Cannot specify '" ++ String.singleton sign ++ "' with '" ++
        shownLetter letter ++ "'."))
  | _, _ => .ok ()

/-- Read the format for a value of a kind, with the alignment and the letter that hold if no
others are given. Zeros before the width fill up, between sign and digits where numbers stand on
the right. -/
def read (kindName : String) (align : Char) (letter : Option Char) (cs : List Char) :
    Except Fault FieldFormat := do
  let ((fill,alignment),afterAlignment) := readAlignment cs
  let (sign,afterSign) := readMark ['+','-',' '] afterAlignment
  let (alternate,afterAlternate) := readMark ['#'] afterSign
  let (zero,afterZero) := readMark (if fill.isSome then [] else ['0']) afterAlternate
  let (width,afterWidth) ← readCount afterZero
  let (group,afterGroup) ← readGroup afterWidth
  let (precision,afterPrecision) ← readPrecision afterGroup
  let standing := alignment.getD (if zero.isSome && align == '>' then '=' else align)
  match afterPrecision with
  | _ :: _ :: _ =>
    .error (.badValue ("Invalid format specifier '" ++ String.ofList cs ++
      "' for object of type '" ++ kindName ++ "'"))
  | last =>
    let letter := last.head? <|> letter
    checkGroup group letter
    requireRoom (width.getD 0)
    return {
      fill := fill.getD (if zero.isSome then '0' else ' ')
      align := standing, sign, alternate := alternate.isSome, width := width.getD 0
      group, precision, letter }

/-- Characters filled up. A text has no sign behind which to fill up. -/
def padded (f : FieldFormat) (front body : List Char) : String :=
  let missing := f.width - front.length - body.length
  let filling := fun count => List.replicate count f.fill
  String.ofList
    (match f.align with
      | '<' => front ++ body ++ filling missing
      | '^' => filling (missing / 2) ++ front ++ body ++ filling (missing - missing / 2)
      | '=' => front ++ filling missing ++ body
      | _ => filling missing ++ front ++ body)

/-- A text. -/
def text (f : FieldFormat) (s : String) : Except Fault String :=
  if f.sign = some ' ' then .error (.badValue "Space not allowed in string format specifier")
  else if f.sign.isSome then .error (.badValue "Sign not allowed in string format specifier")
  else if f.alternate then
    .error (.badValue "Alternate form (#) not allowed in string format specifier")
  else if f.align = '=' then
    .error (.badValue "'=' alignment not allowed in string format specifier")
  else
    .ok (f.padded [] (match f.precision with
      | some count => s.toList.take count
      | none => s.toList))

/-- Digits in groups from the right, all of them backwards. Zeros come before them until the whole
is at least so long, and a group never begins with the sign. -/
def grouped (every : Nat) (sign : Char) : (fuel : Nat) → (reversed : List Char) → (least : Int) →
    List Char
  | 0, _, _ => []
  | fuel + 1, reversed, least =>
    let size := min every (max (max reversed.length least.toNat) 1)
    let taken := reversed.take size
    let group := taken ++ List.replicate (size - taken.length) '0'
    let rest := reversed.drop size
    if rest.isEmpty ∧ least ≤ size then group
    else group ++ sign :: grouped every sign fuel rest (least - size - 1)

/-- The digits of a number: in groups on demand, and zeros before them until they are so long. -/
def digits (f : FieldFormat) (cs : List Char) (least : Nat) : List Char :=
  match f.group with
  | none => List.replicate (least - cs.length) '0' ++ cs
  | some sign =>
    let every := if f.letter.any ("boxX".toList.contains ·) then 4 else 3
    (grouped every sign (cs.length + least + 1) cs.reverse least).reverse

/-- A number of a mark of its base, whole digits and what follows them. -/
def number (f : FieldFormat) (negative : Bool) (mark whole rest : List Char) : String :=
  let sign := if negative then ['-']
    else match f.sign with
      | some '+' => ['+']
      | some ' ' => [' ']
      | _ => []
  let front := sign ++ mark
  let least := if f.fill = '0' ∧ f.align = '=' then f.width - front.length - rest.length else 0
  f.padded front ((if whole.isEmpty then [] else f.digits whole least) ++ rest)

/-- The base of a letter and the mark of that base. -/
def base (letter : Char) : Nat × String :=
  match letter with
  | 'b' => (2,"0b")
  | 'o' => (8,"0o")
  | 'x' => (16,"0x")
  | 'X' => (16,"0X")
  | _ => (10,"")

/-- The character that a number counts. -/
def character (f : FieldFormat) (n : Int) : Except Fault String :=
  if f.sign.isSome then .error (.badValue "Sign not allowed with integer format specifier 'c'")
  else if f.alternate then
    .error (.badValue "Alternate form (#) not allowed with integer format specifier 'c'")
  else if n < -(countLimit : Int) ∨ (countLimit : Int) ≤ n then
    .error ⟨.overflow,[.text "Python int too large to convert to C long"]⟩
  else if 0 ≤ n ∧ n < Conversion.characterLimit then
    .ok (f.number false [] [] [Char.ofNat n.toNat])
  else .error ⟨.overflow,[.text "%c arg not in range(0x110000)"]⟩

/-- A whole number by a letter for whole numbers. -/
def whole (f : FieldFormat) (letter : Char) (n : Int) : Except Fault String :=
  if f.precision.isSome then
    .error (.badValue "Precision not allowed in integer format specifier")
  else if letter = 'c' then f.character n
  else
    let (base,mark) := base letter
    .ok (f.number (decide (n < 0)) (if f.alternate then mark.toList else [])
      (Conversion.cased letter (String.ofList (Nat.toDigits base n.natAbs))).toList [])

/-- The shortest text of a number, with a point on demand. -/
def shortest (alternate : Bool) (x : Option Number.Binary64) : String :=
  match x with
  | some (.finite _ m e) =>
    let s := (Number.Binary64.finite false m e).text
    if alternate && !s.toList.contains '.' then
      let mantissa := s.toList.takeWhile (· != 'e')
      String.ofList (mantissa ++ '.' :: s.toList.drop mantissa.length)
    else s
  | some (.infinite _) => "inf"
  | none => "nan"

/-- A number a hundred times as great. -/
def hundredfold : Number.Binary64 → Number.Binary64
  | .finite negative m e =>
    let p := Number.Binary64.powerRatio 2 e
    .nearest negative (100 * m * p.1) p.2
  | x => x

/-- A floating-point number without its sign, by a letter or by none. -/
def magnitude (f : FieldFormat) (x : Option Number.Binary64) : String :=
  let placed := fun (form : Number.PlaceForm) (places : Nat) =>
    Value.placed ⟨form,places,f.alternate⟩
  match f.letter, f.precision with
  | none, none => shortest f.alternate x
  | none, some places => placed (.significant true) places x
  | some '%', places => placed .fixed (places.getD 6) (x.map hundredfold) ++ "%"
  | some letter, places =>
    Conversion.cased letter
      (placed ((Conversion.form? letter).getD (.significant false)) (places.getD 6) x)

/-- A floating-point number. Its digits end at the point, or where there are none. -/
def real (f : FieldFormat) (x : Option Number.Binary64) : String :=
  let shown := (f.magnitude x).toList
  let whole := shown.takeWhile Char.isDigit
  f.number (Value.hasMinus x) [] whole (shown.drop whole.length)

/-- What is said of a letter that is no kind of a value. -/
def unknownLetter (kindName : String) (letter : Char) : Fault :=
  .badValue ("Unknown format code '" ++ shownLetter letter ++ "' for object of type '" ++
    kindName ++ "'")

/-- A whole number by any letter for numbers. -/
def ofWhole (kindName : String) (cs : List Char) (n : Int) : Except Fault String := do
  let f ← read kindName '>' (some 'd') cs
  let letter := f.letter.getD 'd'
  if "bcdoxXn".toList.contains letter then f.whole letter n
  else if "eEfFgG%".toList.contains letter then do return f.real (← (Value.int n).real)
  else .error (unknownLetter kindName letter)

/-- A floating-point number by a letter for such numbers. -/
def ofReal (cs : List Char) (x : Option Number.Binary64) : Except Fault String := do
  let f ← read "float" '>' none cs
  match f.letter with
  | none => return f.real x
  | some letter =>
    if "eEfFgGn%".toList.contains letter then return f.real x
    else .error (unknownLetter "float" letter)

/-- A text by a format. -/
def ofText (cs : List Char) (s : String) : Except Fault String := do
  let f ← read "str" '<' (some 's') cs
  if f.letter = some 's' then f.text s
  else .error (unknownLetter "str" (f.letter.getD 's'))

/-- A value by a format. The empty one shows the plain text, and only texts and numbers have
others. -/
def apply (cs : List Char) (v : Value) : Except Fault String :=
  if cs.isEmpty then .ok v.plain
  else
    match v with
    | .text s => ofText cs s
    | .tag t => ofText cs t.qualifiedName
    | .int n => ofWhole "int" cs n
    | .bool b => ofWhole "bool" cs (if b then 1 else 0)
    | .float x => ofReal cs (some x)
    | .nan _ => ofReal cs none
    | v =>
      .error (.badType ("unsupported format string passed to " ++ v.kindName ++ ".__format__"))

end FieldFormat

end InfraGraph.Logging
