import InfraGraph.Text.Blank
import InfraGraph.Text.Digit

/-!
# Written integers

An integer is written as white space, an optional sign, decimal digits of any script with
single underscores between them, and white space. At most `digitLimit` digits are read.
-/

namespace InfraGraph.Text

/-- The largest number of digits that is read as an integer. -/
def digitLimit : Nat := 4300

/-- The digits of a run in which single underscores stand between digits only.
`afterDigit` says whether the character before was a digit. -/
def digitRun? : (afterDigit : Bool) → List Char → Option (List Nat)
  | afterDigit, [] => if afterDigit then some [] else none
  | afterDigit, c :: rest =>
    match digitValue? c with
    | some d => (digitRun? true rest).map (d :: ·)
    | none => if afterDigit && c == '_' then digitRun? false rest else none

/-- The number that a row of digits stands for. -/
def numeral (digits : List Nat) : Nat := digits.foldl (fun value d => 10 * value + d) 0

/-- Digits, underscores between them, and no more than `digitLimit` of them. -/
def readNatural? (cs : List Char) : Option Nat :=
  match digitRun? false cs with
  | some digits => if digits.length ≤ digitLimit then some (numeral digits) else none
  | none => none

/-- A sign and a natural number. -/
def readSigned? : List Char → Option Int
  | '-' :: rest => (readNatural? rest).map fun n => -(n : Int)
  | '+' :: rest => (readNatural? rest).map fun n => (n : Int)
  | cs => (readNatural? cs).map fun n => (n : Int)

/-- The integer that a text writes, if it writes one. -/
def readInteger? (cs : List Char) : Option Int := readSigned? (trim isNumberBlank cs)

end InfraGraph.Text
