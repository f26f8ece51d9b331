import InfraGraph.Number.Binary64

/-!
# Shortest decimals

A `Binary64` is written with the fewest digits that read back as the same number; among those
the nearest to it is taken, and of two equally near the even one. For one digit, two digits and
so on up to seventeen, the two neighbours of the number on that decimal grid are tested in exact
arithmetic.
-/

namespace InfraGraph.Number

/-- A whole number of units, each a power of ten. -/
structure Decimal where
  digits : Nat
  exponent : Int
  deriving DecidableEq, Repr, Inhabited

namespace Binary64

/-- The reals that round to `m * 2 ^ e`, in quarters of `2 ^ e`: the two ends. Below a full power
of two the numbers lie twice as dense. -/
def roundingEnds (m : Nat) (e : Int) : Nat × Nat :=
  let lower := if m = fullSignificand && leastExponent < e then 4 * m - 1 else 4 * m - 2
  (lower,4 * m + 2)

/-- Raise a guess of the decimal logarithm while the next power of ten is not above the value
`num / den`. -/
def raiseLog (num den : Nat) : (steps : Nat) → Int → Int
  | 0, guess => guess
  | steps + 1, guess =>
    let p := powerRatio 10 (guess + 1)
    if p.1 * den ≤ num * p.2 then raiseLog num den steps (guess + 1) else guess

/-- The exponent of the greatest power of ten that is at most `m * 2 ^ e`. -/
def decimalLog (m : Nat) (e : Int) : Int :=
  let p := powerRatio 2 e
  raiseLog (m * p.1) p.2 3 (Int.fdiv (((m.log2 : Int) + e) * 30103) 100000 - 1)

/-- The better of the two neighbours of `m * 2 ^ e` on the grid of `10 ^ unit`, if one of them
rounds to it. -/
def onGrid? (m : Nat) (e unit : Int) : Option Decimal :=
  let two := powerRatio 2 (e - 2)
  let ten := powerRatio 10 unit
  let binary := two.1 * ten.2
  let decimal := ten.1 * two.2
  let exact := 4 * m * binary
  let (lower,upper) := roundingEnds m e
  let within := fun (c : Nat) =>
    if m % 2 = 0 then lower * binary ≤ c * decimal && c * decimal ≤ upper * binary
    else lower * binary < c * decimal && c * decimal < upper * binary
  let below := exact / decimal
  let above := below + 1
  let toBelow := exact - below * decimal
  let toAbove := above * decimal - exact
  match within below, within above with
  | true, true =>
    some ⟨if toBelow < toAbove || (toBelow == toAbove && below % 2 == 0) then below else above,unit⟩
  | true, false => some ⟨below,unit⟩
  | false, true => some ⟨above,unit⟩
  | false, false => none

/-- Try grids of `count`, `count + 1`, … digits. -/
def searchGrids (m : Nat) (e log : Int) : (fuel : Nat) → (count : Nat) → Option Decimal
  | 0, _ => none
  | fuel + 1, count =>
    match onGrid? m e (log - count + 1) with
    | some d => some d
    | none => searchGrids m e log fuel (count + 1)

/-- Seventeen digits tell all numbers of this precision apart. -/
def sufficientDigits : Nat := 17

/-- Take up to `fuel` final zeros off. -/
def dropZeros : (fuel : Nat) → Decimal → Decimal
  | 0, d => d
  | fuel + 1, d =>
    if d.digits % 10 = 0 && d.digits != 0 then dropZeros fuel ⟨d.digits / 10,d.exponent + 1⟩ else d

/-- The shortest decimal that rounds to `m * 2 ^ e`. -/
def shortest (m : Nat) (e : Int) : Decimal :=
  if m = 0 then ⟨0,0⟩
  else
    match searchGrids m e (decimalLog m e) sufficientDigits 1 with
    | some d => dropZeros sufficientDigits d
    | none => ⟨0,0⟩

/-- Places of the point, counted from the left end of the digits, at which a decimal is written
without an exponent. -/
def isPositional (point : Int) : Bool := -4 < point && point ≤ 16

/-- Digits with the point after the first `point` of them. -/
def positional (digits : String) (point : Int) : String :=
  let count : Int := digits.length
  if point ≤ 0 then "0." ++ String.ofList (List.replicate (-point).toNat '0') ++ digits
  else if count ≤ point then
    digits ++ String.ofList (List.replicate (point - count).toNat '0') ++ ".0"
  else
    String.ofList (digits.toList.take point.toNat) ++ "." ++
      String.ofList (digits.toList.drop point.toNat)

/-- One digit, the other digits after a point, and an exponent of at least two digits. -/
def scientific (digits : String) (point : Int) : String :=
  let exponent := point - 1
  let size := toString exponent.natAbs
  let fraction := digits.toList.drop 1
  String.ofList (digits.toList.take 1) ++
    (if fraction.isEmpty then "" else "." ++ String.ofList fraction) ++
    "e" ++ (if exponent < 0 then "-" else "+") ++ (if size.length < 2 then "0" else "") ++ size

/-- The text of a number: shortest digits, `inf` for an infinity, a minus sign also before a
zero that has one. -/
def text : Binary64 → String
  | infinite negative => if negative then "-inf" else "inf"
  | finite negative m e =>
    let d := shortest m e
    let digits := toString d.digits
    let point := (digits.length : Int) + d.exponent
    let magnitude :=
      if m = 0 then "0.0"
      else if isPositional point then positional digits point else scientific digits point
    if negative then "-" ++ magnitude else magnitude

end Binary64

end InfraGraph.Number
