import InfraGraph.Calendar
import InfraGraph.Fault

/-!
# Timestamps

A value counts a moment in seconds if it is a number. The clock has 64 bits, and the calendar has
years of 32 bits, once counted from 1900 and once from the beginning of the era.
-/

namespace InfraGraph.Calendar

/-- The first count that the clock does not have. -/
def clockLimit : Int := 9223372036854775808

/-- The first year that the calendar does not have. -/
def yearLimit : Int := 2147483648

/-- The year from which the calendar counts. -/
def baseYear : Int := 1900

/-- The whole seconds that a value counts, counted down from between two. -/
def secondsOf : Value → Except Fault Int
  | .int n => .ok n
  | .bool b => .ok (if b then 1 else 0)
  | .float (.finite negative m e) => .ok (Number.Binary64.rational negative m e).floor
  | .float (.infinite _) => .ok clockLimit
  | .nan _ => .error (.badValue "Invalid value NaN (not a number)")
  | v => .error (.badType ("'" ++ v.kindName ++ "' object cannot be interpreted as an integer"))

/-- The moment that so many seconds count. -/
def momentOf (seconds : Int) : Except Fault Moment :=
  if clockLimit ≤ seconds ∨ seconds < -clockLimit then
    .error ⟨.overflow,[.text "timestamp out of range for platform time_t"]⟩
  else
    let m := moment seconds
    if yearLimit ≤ m.year - baseYear ∨ m.year - baseYear < -yearLimit then
      .error ⟨.system,[.int 75,.text "Value too large for defined data type"]⟩
    else if yearLimit ≤ m.year then
      .error ⟨.overflow,[.text "signed integer is greater than maximum"]⟩
    else .ok m

end InfraGraph.Calendar
