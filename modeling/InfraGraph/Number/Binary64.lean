/-!
# Binary floating-point numbers

A `Binary64` is what a 64-bit binary floating-point number denotes, the not-a-numbers left out:
a sign and a whole multiple of a power of two, or an infinity. Both zeros are kept. Reading a
decimal numeral rounds to the nearest such number, ties to the even significand.
-/

namespace InfraGraph.Number

/-- `finite negative m e` stands for `m * 2 ^ e` with its sign. -/
inductive Binary64 where
  | finite (negative : Bool) (significand : Nat) (exponent : Int)
  | infinite (negative : Bool)
  deriving DecidableEq, Repr, Inhabited

namespace Binary64

/-- Significands have at most this many bits. -/
def precision : Nat := 53

/-- The first number that is too long for a significand. -/
def significandLimit : Nat := Nat.pow 2 precision

/-- The least significand that has all its bits. -/
def fullSignificand : Nat := Nat.pow 2 (precision - 1)

/-- The exponent of the finest numbers. -/
def leastExponent : Int := -1074

/-- The exponent of the coarsest numbers. -/
def greatestExponent : Int := 971

/-- `base ^ exponent` as a numerator and a denominator. -/
def powerRatio (base : Nat) (exponent : Int) : Nat × Nat :=
  if 0 ≤ exponent then (Nat.pow base exponent.toNat,1) else (1,Nat.pow base (-exponent).toNat)

/-- The nearest whole number to `num / den`, ties to the even one. -/
def roundDiv (num den : Nat) : Nat :=
  let quotient := num / den
  let rest := 2 * (num % den)
  if rest < den || (rest == den && quotient % 2 == 0) then quotient else quotient + 1

/-- The exponent at which `num / den` fills a significand, or the least one. The two logarithms
leave two candidates. -/
def exponentOf (num den : Nat) : Int :=
  let guess : Int := (num.log2 : Int) - den.log2 - precision
  let p := powerRatio 2 guess
  let fits := num * p.2 / (den * p.1) < significandLimit
  max leastExponent (if fits then guess else guess + 1)

/-- The number nearest to `num / den`. -/
def nearest (negative : Bool) (num den : Nat) : Binary64 :=
  if num = 0 then finite negative 0 0
  else
    let e := exponentOf num den
    let p := powerRatio 2 e
    let m := roundDiv (num * p.2) (den * p.1)
    let (m,e) := if m = significandLimit then (fullSignificand,e + 1) else (m,e)
    if m = 0 then finite negative 0 0
    else if e > greatestExponent then infinite negative
    else finite negative m e

/-- The number nearest to `digits * 10 ^ exponent`. -/
def ofDecimal (negative : Bool) (digits : Nat) (exponent : Int) : Binary64 :=
  let p := powerRatio 10 exponent
  nearest negative (digits * p.1) p.2

/-- The rational number `m * 2 ^ e`, negated on demand. -/
def rational (negative : Bool) (m : Nat) (e : Int) : Rat :=
  let p := powerRatio 2 e
  let magnitude := mkRat (m * p.1 : Nat) p.2
  if negative then -magnitude else magnitude

/-- The whole part of a finite number, toward zero. -/
def truncate? : Binary64 → Option Int
  | finite negative m e =>
    let p := powerRatio 2 e
    let magnitude : Int := (m * p.1 / p.2 : Nat)
    some (if negative then -magnitude else magnitude)
  | infinite _ => none

/-- Neither of the two zeros. -/
def isNonzero : Binary64 → Bool
  | finite _ m _ => m != 0
  | infinite _ => true

end Binary64

end InfraGraph.Number
