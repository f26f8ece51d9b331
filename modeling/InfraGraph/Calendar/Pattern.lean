import InfraGraph.Calendar

/-!
# Patterns for moments

A pattern shows a moment by directives: a percent sign and a letter, with flags, a least width and
a mark for a variant between them. The flags choose what fills a number up and change the case of
words. A directive that stands for nothing shows itself.
-/

namespace InfraGraph.Calendar

/-- What stands between the percent sign and the letter of a directive. -/
structure Modifiers where
  /-- The flag that says how to fill up: with blanks, with zeros, or not at all. -/
  filling : Option Char := none
  capitals : Bool := false
  swapped : Bool := false
  width : Option Nat := none
  variant : Option Char := none
  deriving DecidableEq, Repr, Inhabited

namespace Modifiers

/-- The modifiers with one character more, if it is no letter yet. They come in order: flags, the
digits of a width, and one mark of a variant. -/
def add? (f : Modifiers) (c : Char) : Option Modifiers :=
  if f.variant.isSome then none
  else if c = 'E' ∨ c = 'O' then some { f with variant := some c }
  else if c.isDigit ∧ (f.width.isSome ∨ c ≠ '0') then
    some { f with width := some (10 * f.width.getD 0 + (c.toNat - 48)) }
  else if f.width.isSome then none
  else if c = '_' ∨ c = '-' ∨ c = '0' then some { f with filling := some c }
  else if c = '^' then some { f with capitals := true }
  else if c = '#' then some { f with swapped := true }
  else none

/-- Characters behind blanks, or behind zeros if they fill up, to the least width. Widths beyond
`limit` are cut down to it. -/
def fillUp (f : Modifiers) (limit : Nat) (cs : List Char) : List Char :=
  let filler := if f.filling = some '0' then '0' else ' '
  List.replicate (min (f.width.getD 0) limit - cs.length) filler ++ cs

end Modifiers

/-- What a directive stands for. -/
inductive Shown where
  /-- A number of at least so many places, filled up with blanks if nothing else is asked for. -/
  | number (places : Nat) (blank : Bool) (n : Int)
  /-- A number of any size. -/
  | count (n : Int)
  /-- A word, and whether the flag for other letters makes them small and not great. -/
  | word (s : String) (lowers : Bool)
  /-- A word in small letters, whatever the flags say. -/
  | small (s : String)
  /-- A text of parts, which has no other letters. -/
  | phrase (s : String)
  /-- A blank character or a sign, which has no case. -/
  | sign (c : Char)
  /-- The distance of the clock from universal time, which is none. -/
  | offset
  deriving DecidableEq, Repr, Inhabited

/-- A number in decimal digits, at least `width` of them, behind a sign if it is negative. -/
def padded (width : Nat) (n : Int) : String :=
  let digits := Nat.toDigits 10 n.natAbs
  let sign := if n < 0 then ['-'] else []
  String.ofList (sign ++ List.replicate (width - sign.length - digits.length) '0' ++ digits)

/-- A number in decimal digits, filled up with blanks to two characters. -/
def blankPadded (n : Nat) : String := if n < 10 then " " ++ toString n else toString n

namespace Moment

def clockToMinute (m : Moment) : String := padded 2 m.hour ++ ":" ++ padded 2 m.minute

def clock (m : Moment) : String := m.clockToMinute ++ ":" ++ padded 2 m.second

def halfDayClock (m : Moment) : String :=
  padded 2 m.halfDayHour ++ ":" ++ padded 2 m.minute ++ ":" ++ padded 2 m.second ++ " " ++ m.halfDay

def date (m : Moment) : String :=
  toString m.year ++ "-" ++ padded 2 m.month ++ "-" ++ padded 2 m.day

def shortDate (m : Moment) : String :=
  padded 2 m.month ++ "/" ++ padded 2 m.day ++ "/" ++ padded 2 (m.year % 100)

/-- The day, the clock and the year. -/
def full (m : Moment) : String :=
  abbreviated m.dayName ++ " " ++ abbreviated m.monthName ++ " " ++ blankPadded m.day ++ " " ++
    m.clock ++ " " ++ toString m.year

/-- What a letter stands for at the moment that so many seconds count. -/
def shown? (m : Moment) (seconds : Int) : Char → Option Shown
  | 'Y' => some (.number 1 false m.year)
  | 'C' => some (.number 1 false (m.year / 100))
  | 'y' => some (.number 2 false (m.year % 100))
  | 'G' => some (.number 1 false m.weekYear.1)
  | 'g' => some (.number 2 false (m.weekYear.1 % 100))
  | 'V' => some (.number 2 false m.weekYear.2)
  | 'U' => some (.number 2 false m.weekFromSunday)
  | 'W' => some (.number 2 false m.weekFromMonday)
  | 'm' => some (.number 2 false m.month)
  | 'd' => some (.number 2 false m.day)
  | 'e' => some (.number 2 true m.day)
  | 'j' => some (.number 3 false (m.yearDay + 1))
  | 'u' => some (.number 1 false (m.dayFromMonday + 1))
  | 'w' => some (.number 1 false m.weekday)
  | 'H' => some (.number 2 false m.hour)
  | 'k' => some (.number 2 true m.hour)
  | 'I' => some (.number 2 false m.halfDayHour)
  | 'l' => some (.number 2 true m.halfDayHour)
  | 'M' => some (.number 2 false m.minute)
  | 'S' => some (.number 2 false m.second)
  | 's' => some (.count seconds)
  | 'a' => some (.word (abbreviated m.dayName) false)
  | 'A' => some (.word m.dayName false)
  | 'b' => some (.word (abbreviated m.monthName) false)
  | 'h' => some (.word (abbreviated m.monthName) false)
  | 'B' => some (.word m.monthName false)
  | 'p' => some (.word m.halfDay true)
  | 'P' => some (.small m.halfDay)
  | 'Z' => some (.word "UTC" true)
  | 'F' => some (.phrase m.date)
  | 'D' => some (.phrase m.shortDate)
  | 'x' => some (.phrase m.shortDate)
  | 'T' => some (.phrase m.clock)
  | 'X' => some (.phrase m.clock)
  | 'R' => some (.phrase m.clockToMinute)
  | 'r' => some (.phrase m.halfDayClock)
  | 'c' => some (.phrase m.full)
  | 'z' => some .offset
  | 'n' => some (.sign '\n')
  | 't' => some (.sign '\t')
  | '%' => some (.sign '%')
  | _ => none

end Moment

/-- Whether a letter takes the mark of a variant. There are no variants to show. -/
def takesVariant (letter : Char) : Option Char → Bool
  | some 'E' => !"aAbBhdeDFHIjklmMSUVWGgw".toList.contains letter
  | some 'O' => !"aAcDFxX".toList.contains letter && letter != 'Y'
  | _ => true

/-- The letters for names of months, which turn to capitals before their variant is looked at. -/
def namesMonth (letter : Char) : Bool := letter == 'b' || letter == 'B' || letter == 'h'

/-- Characters in capitals on demand. -/
def capitalized (wanted : Bool) (cs : List Char) : List Char :=
  if wanted then cs.map Char.toUpper else cs

namespace Modifiers

/-- A number of at least so many places. The width asks for more places, unless nothing is to be
filled up. -/
def number (f : Modifiers) (limit places : Nat) (blank : Bool) (n : Int) : List Char :=
  let digits := Nat.toDigits 10 n.natAbs
  let sign := if n < 0 then ['-'] else []
  let missing := max places (min (f.width.getD 0) limit) - sign.length - digits.length
  if f.filling = some '-' then f.fillUp limit (sign ++ digits)
  else if f.filling = some '_' ∨ (blank ∧ f.filling ≠ some '0') then
    List.replicate missing ' ' ++ sign ++ digits
  else sign ++ List.replicate missing '0' ++ digits

/-- The characters of what a directive stands for. -/
def render (f : Modifiers) (limit : Nat) : Shown → List Char
  | .number places blank n => f.number limit places blank n
  | .count n => f.fillUp limit (toString n).toList
  | .word s true =>
    f.fillUp limit (if f.swapped then s.toList.map Char.toLower else capitalized f.capitals s.toList)
  | .word s false => f.fillUp limit (capitalized (f.capitals || f.swapped) s.toList)
  | .small s => f.fillUp limit (s.toList.map Char.toLower)
  | .phrase s => f.fillUp limit (capitalized f.capitals s.toList)
  | .sign c => f.fillUp limit [c]
  | .offset => f.fillUp limit ['+'] ++ f.number limit 4 false 0

end Modifiers

/-- Where the reading of a pattern stands: outside of a directive, or inside of one of which so
much has been read, kept backwards. -/
inductive PatternStage where
  | outside
  | inside (read : List Char) (f : Modifiers)
  deriving DecidableEq, Repr, Inhabited

namespace Moment

/-- Fill a pattern in. Widths beyond `limit` are cut down to it. -/
def fill (m : Moment) (seconds : Int) (limit : Nat) : PatternStage → List Char → List Char
  | .outside, [] => []
  | .inside read f, [] => f.fillUp limit (capitalized f.capitals read.reverse)
  | .outside, c :: rest =>
    if c = '%' then m.fill seconds limit (.inside ['%'] {}) rest
    else c :: m.fill seconds limit .outside rest
  | .inside read f, c :: rest =>
    match f.add? c with
    | some g => m.fill seconds limit (.inside (c :: read) g) rest
    | none =>
      let shown := (m.shown? seconds c).filter fun _ => takesVariant c f.variant
      let text := match shown with
        | some s => f.render limit s
        | none =>
          f.fillUp limit
            (capitalized (f.capitals || (f.swapped && namesMonth c)) (c :: read).reverse)
      text ++ m.fill seconds limit .outside rest

end Moment

/-- Double a size until it is at least `least`, at most `fuel` times. -/
def doubleUntil (least : Nat) : (fuel : Nat) → Nat → Nat
  | 0, size => size
  | fuel + 1, size => if least ≤ size then size else doubleUntil least fuel (2 * size)

/-- The length that no result of a pattern of so many characters reaches. -/
def lengthLimit (count : Nat) : Nat := doubleUntil (256 * count) count 1024

/-- The moment that so many seconds count by a pattern. A result that is far longer than its
pattern is given up and empty. -/
def format (pattern : String) (seconds : Int) (m : Moment) : String :=
  let cs := pattern.toList
  let limit := lengthLimit cs.length
  let filled := m.fill seconds limit .outside cs
  if filled.length < limit then String.ofList filled else ""

end InfraGraph.Calendar
