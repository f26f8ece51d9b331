import InfraGraph.Number.Shortest

/-!
# Numbers to given places

A `Binary64` is written to a given number of decimal places behind the point, to a given number of
places behind the first digit with an exponent, or to a given number of digits in the shorter of
the two ways. Its exact value is rounded once, a tie to the even neighbour.
-/

namespace InfraGraph.Number

/-- How a number is written: with all its whole digits, with an exponent, or with the digits that
count, in either way. The last may insist on a digit behind the point. -/
inductive PlaceForm where
  | fixed
  | exponent
  | significant (pointed : Bool)
  deriving DecidableEq, Repr, Inhabited

/-- How a number is written, to how many places, and whether a point and final zeros are kept that
could be left out. -/
structure PlaceStyle where
  form : PlaceForm
  places : Nat
  alternate : Bool
  deriving DecidableEq, Repr, Inhabited

/-- The digits of a number behind as many zeros as make up `width`. -/
def zeroPadded (width n : Nat) : List Char :=
  let digits := Nat.toDigits 10 n
  List.replicate (width - digits.length) '0' ++ digits

def withoutFinalZeros (digits : List Char) : List Char :=
  (digits.reverse.dropWhile (· == '0')).reverse

/-- Whole digits and digits behind the point, which stands alone on demand. -/
def pointed (alternate : Bool) (whole fraction : List Char) : String :=
  String.ofList (whole ++ (if fraction.isEmpty && !alternate then [] else '.' :: fraction))

/-- An exponent of at least two digits with its sign. -/
def exponentMark (exponent : Int) : String :=
  "e" ++ (if exponent < 0 then "-" else "+") ++ String.ofList (zeroPadded 2 exponent.natAbs)

namespace Binary64

/-- `m * 2 ^ e` to the nearest multiple of the given place. -/
def roundedAt (m : Nat) (e : Int) (place : Int) : Nat :=
  let two := powerRatio 2 e
  let ten := powerRatio 10 place
  roundDiv (m * two.1 * ten.2) (two.2 * ten.1)

/-- The first digits of `m * 2 ^ e`, one and so many more, and the exponent of the first. -/
def firstDigits (m : Nat) (e : Int) (more : Nat) : List Char × Int :=
  if m = 0 then (List.replicate (more + 1) '0',0)
  else
    let log := decimalLog m e
    let n := roundedAt m e (log - more)
    if n = Nat.pow 10 (more + 1) then (Nat.toDigits 10 (n / 10),log + 1)
    else (Nat.toDigits 10 n,log)

/-- `m * 2 ^ e` with all its whole digits. -/
def fixedText (alternate : Bool) (places m : Nat) (e : Int) : String :=
  let digits := zeroPadded (places + 1) (roundedAt m e (-places))
  let whole := digits.length - places
  Number.pointed alternate (digits.take whole) (digits.drop whole)

/-- `m * 2 ^ e` with an exponent. -/
def exponentText (alternate : Bool) (places m : Nat) (e : Int) : String :=
  let (digits,exponent) := firstDigits m e places
  Number.pointed alternate (digits.take 1) (digits.drop 1) ++ exponentMark exponent

/-- `m * 2 ^ e` with so many digits, and with an exponent if the point would stand far from
them. -/
def significantText (style : PlaceStyle) (insists : Bool) (m : Nat) (e : Int) : String :=
  let count := max style.places 1
  let (digits,exponent) := firstDigits m e (count - 1)
  let kept := if style.alternate then digits else withoutFinalZeros digits
  let last : Int := if insists then (count : Int) - 1 else count
  if exponent < -4 ∨ last ≤ exponent then
    Number.pointed style.alternate (digits.take 1) (kept.drop 1) ++ exponentMark exponent
  else
    let before := List.replicate (-exponent).toNat '0'
    let whole := exponent.toNat + 1
    let fraction := (before ++ kept).drop whole
    Number.pointed style.alternate ((before ++ digits).take whole)
      (if insists && fraction.isEmpty then ['0'] else fraction)

/-- The text of a number without its sign. -/
def placed (style : PlaceStyle) : Binary64 → String
  | infinite _ => "inf"
  | finite _ m e =>
    match style.form with
    | .fixed => fixedText style.alternate style.places m e
    | .exponent => exponentText style.alternate style.places m e
    | .significant insists => significantText style insists m e

/-- Whether a number has a minus sign, as one of the zeros has. -/
def isNegative : Binary64 → Bool
  | finite negative _ _ => negative
  | infinite negative => negative

def ofInt (n : Int) : Binary64 := nearest (decide (n < 0)) n.natAbs 1

end Binary64

end InfraGraph.Number
