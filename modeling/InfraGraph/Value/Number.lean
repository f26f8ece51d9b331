import InfraGraph.Fault
import InfraGraph.Number.Places

/-!
# Values as numbers

What a value counts: a whole number, or a floating-point number, which may be none. Truth values
count one and zero.
-/

namespace InfraGraph.Value

open Number (Binary64)

/-- The whole number that a value is. -/
def whole? : Value → Option Int
  | int n => some n
  | bool b => some (if b then 1 else 0)
  | _ => none

/-- A value that has to be a floating-point number or a whole number near to one; there is no
number in what is none. -/
def real : Value → Except Fault (Option Binary64)
  | float x => .ok (some x)
  | nan _ => .ok none
  | v =>
    match v.whole? with
    | none => .error (.badType ("must be real number, not " ++ v.kindName))
    | some n =>
      match Binary64.ofInt n with
      | .infinite _ => .error ⟨.overflow,[.text "int too large to convert to float"]⟩
      | x => .ok (some x)

/-- The whole part of a number that a value is, if it is one. -/
def truncated? : Value → Option (Except Fault Int)
  | float x =>
    match x.truncate? with
    | some n => some (.ok n)
    | none => some (.error ⟨.overflow,[.text "cannot convert float infinity to integer"]⟩)
  | nan _ => some (.error (.badValue "cannot convert float NaN to integer"))
  | v => v.whole?.map .ok

/-- A number without its sign, or the word for what is none. -/
def placed (style : Number.PlaceStyle) : Option Binary64 → String
  | some x => x.placed style
  | none => "nan"

/-- Whether a number has a minus sign. -/
def hasMinus : Option Binary64 → Bool
  | some x => x.isNegative
  | none => false

end InfraGraph.Value
