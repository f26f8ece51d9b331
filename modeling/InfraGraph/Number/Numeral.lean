import InfraGraph.Number.Binary64

/-!
# Decimal numerals

Reads the text of a binary floating-point number: a sign, digits with an optional point, an
optional exponent; or `inf`.
-/

namespace InfraGraph.Number

/-- The value of ASCII digits, none of them required. -/
def asciiNatural? (cs : List Char) : Option Nat :=
  cs.foldl (fun value c => value.bind fun n =>
    if c.isDigit then some (10 * n + (c.toNat - 48)) else none) (some 0)

/-- An exponent: an optional sign and at least one digit. -/
def exponent? : List Char → Option Int
  | '-' :: c :: rest => (asciiNatural? (c :: rest)).map fun n => -(n : Int)
  | '+' :: c :: rest => (asciiNatural? (c :: rest)).map fun n => (n : Int)
  | c :: rest => (asciiNatural? (c :: rest)).map fun n => (n : Int)
  | [] => none

/-- A numeral without its sign. -/
def unsigned? (negative : Bool) (cs : List Char) : Option Binary64 :=
  if cs == ['i','n','f'] then some (.infinite negative)
  else
    let mantissa := cs.takeWhile (· != 'e')
    let exponent := if mantissa.length = cs.length then some 0 else exponent? (cs.drop (mantissa.length + 1))
    let whole := mantissa.takeWhile (· != '.')
    let fraction := mantissa.drop (whole.length + 1)
    if whole.isEmpty && fraction.isEmpty then none
    else
      match asciiNatural? (whole ++ fraction), exponent with
      | some digits, some e => some (.ofDecimal negative digits (e - fraction.length))
      | _, _ => none

/-- The number nearest to a decimal numeral. -/
def Binary64.read? (s : String) : Option Binary64 :=
  match s.toList with
  | '-' :: rest => unsigned? true rest
  | cs => unsigned? false cs

end InfraGraph.Number
