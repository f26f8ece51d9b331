import InfraGraph.Logging.Conversion
import InfraGraph.Value.Item

/-!
# Directives

A text with directives, each a percent sign and a letter with a conversion between them, is filled
in from values: those that wait in turn, or those that a directive names in parentheses. Two
percent signs are one.
-/

namespace InfraGraph.Logging

/-- A width or a precision: left open, given by digits, or taken from the values that wait. -/
inductive Extent where
  | absent
  | given (n : Nat)
  | waiting
  deriving DecidableEq, Repr, Inhabited

/-- The extent with one digit more. -/
def Extent.add (extent : Extent) (digit : Char) : Extent :=
  match extent with
  | .given n => .given (10 * n + (digit.toNat - 48))
  | _ => .given (digit.toNat - 48)

/-- What stands before the letter of a directive. -/
structure Specification where
  name : Option String := none
  flags : Conversion := {}
  width : Extent := .absent
  precision : Extent := .absent
  deriving DecidableEq, Repr, Inhabited

/-- The parts of a text with directives. A directive knows the position of its letter, and has
none if the text breaks off. -/
inductive Piece where
  | char (c : Char)
  | directive (spec : Specification) (letter : Option (Char × Nat))
  | nameBrokenOff
  deriving DecidableEq, Repr, Inhabited

/-- Which part of a directive comes next: a flag, a digit of the width or what is behind it, a
star or a first digit of the precision, a further one or what is behind it, or the letter. -/
inductive Part where
  | flags | width | afterWidth | point | precision | afterPrecision | letter
  deriving DecidableEq, Repr, Inhabited

namespace Specification

/-- The specification with a further flag, if a character is one. -/
def flag? (s : Specification) : Char → Option Specification
  | '-' => some { s with flags := { s.flags with left := true } }
  | '+' => some { s with flags := { s.flags with plus := true } }
  | ' ' => some { s with flags := { s.flags with blank := true } }
  | '#' => some { s with flags := { s.flags with alternate := true } }
  | '0' => some { s with flags := { s.flags with zeros := true } }
  | _ => none

/-- Read a mark of size before the letter, which says nothing. -/
def size? (s : Specification) (c : Char) : Option (Part × Specification) :=
  if c = 'h' ∨ c = 'l' ∨ c = 'L' then some (.letter,s) else none

/-- Read what follows the width. -/
def afterWidth? (s : Specification) (c : Char) : Option (Part × Specification) :=
  if c = '.' then some (.point,{ s with precision := .given 0 }) else s.size? c

/-- Read one character of a directive, if it is not the letter. -/
def read? (s : Specification) (part : Part) (c : Char) : Option (Part × Specification) :=
  match part with
  | .flags =>
    match s.flag? c with
    | some t => some (.flags,t)
    | none =>
      if c = '*' then some (.afterWidth,{ s with width := .waiting })
      else if c.isDigit then some (.width,{ s with width := s.width.add c })
      else s.afterWidth? c
  | .width =>
    if c.isDigit then some (.width,{ s with width := s.width.add c }) else s.afterWidth? c
  | .afterWidth => s.afterWidth? c
  | .point =>
    if c = '*' then some (.afterPrecision,{ s with precision := .waiting })
    else if c.isDigit then some (.precision,{ s with precision := s.precision.add c })
    else s.size? c
  | .precision =>
    if c.isDigit then some (.precision,{ s with precision := s.precision.add c }) else s.size? c
  | .afterPrecision => s.size? c
  | .letter => none

end Specification

/-- Where the reading of a text with directives stands: outside of any, right behind the percent
sign, inside a name, which is kept backwards and in which so many parentheses are open, or inside
a directive. -/
inductive Stage where
  | outside
  | opened
  | named (reversed : List Char) (depth : Nat)
  | inside (part : Part) (spec : Specification)
  deriving DecidableEq, Repr, Inhabited

/-- Take a text with directives apart, from a position on. -/
def pieces : Stage → (position : Nat) → List Char → List Piece
  | .outside, _, [] => []
  | .opened, _, [] => [.directive {} none]
  | .named _ _, _, [] => [.nameBrokenOff]
  | .inside _ spec, _, [] => [.directive spec none]
  | .outside, i, c :: rest =>
    if c = '%' then pieces .opened (i + 1) rest else .char c :: pieces .outside (i + 1) rest
  | .opened, i, c :: rest =>
    if c = '%' then .char c :: pieces .outside (i + 1) rest
    else if c = '(' then pieces (.named [] 0) (i + 1) rest
    else
      match Specification.read? {} .flags c with
      | some (part,spec) => pieces (.inside part spec) (i + 1) rest
      | none => .directive {} (some (c,i)) :: pieces .outside (i + 1) rest
  | .named reversed depth, i, c :: rest =>
    if c = ')' ∧ depth = 0 then
      pieces (.inside .flags { name := some (String.ofList reversed.reverse) }) (i + 1) rest
    else
      let depth := if c = '(' then depth + 1 else if c = ')' then depth - 1 else depth
      pieces (.named (c :: reversed) depth) (i + 1) rest
  | .inside part spec, i, c :: rest =>
    match spec.read? part c with
    | some (part,spec) => pieces (.inside part spec) (i + 1) rest
    | none => .directive spec (some (c,i)) :: pieces .outside (i + 1) rest

/-- What fills a text in: a value that holds others, and values that wait in turn. -/
structure Supply where
  holder : Option Value
  waiting : List Value
  deriving Inhabited

namespace Supply

/-- The supply that arguments give: a tuple has its items wait, and any other value waits alone.
A value that has its items by keys or by positions holds them besides. -/
def ofArguments : Value → Supply
  | .tuple items => ⟨none,items⟩
  | .mapping entries => ⟨some (.mapping entries),[.mapping entries]⟩
  | .list items => ⟨some (.list items),[.list items]⟩
  | .bytes content => ⟨some (.bytes content),[.bytes content]⟩
  | .buffer content => ⟨some (.buffer content),[.buffer content]⟩
  | v => ⟨none,[v]⟩

/-- Put the value that a directive names before all others. -/
def select (s : Supply) : Option String → Except Fault Supply
  | none => .ok s
  | some name =>
    match s.holder with
    | none => .error (.badType "format requires a mapping")
    | some v => do return ⟨s.holder,[← v.itemNamed name]⟩

/-- Take the value that waits longest. -/
def next (s : Supply) : Except Fault (Value × Supply) :=
  match s.waiting with
  | [] => .error (.badType "not enough arguments for format string")
  | v :: rest => .ok (v,{ s with waiting := rest })

/-- The number that an extent is, which must be less than a limit on either side of zero. -/
def extent (s : Supply) (limit : Int) (noun machine : String) :
    Extent → Except Fault (Option Int × Supply)
  | .absent => .ok (none,s)
  | .given n => if n < limit then .ok (some n,s) else .error (.badValue (noun ++ " too big"))
  | .waiting => do
    let (v,s) ← s.next
    match v.whole? with
    | none => .error (.badType "* wants int")
    | some n =>
      if -limit ≤ n ∧ n < limit then .ok (some n,s)
      else
        .error ⟨.overflow,[.text ("Python int too large to convert to C " ++ machine)]⟩

end Supply

/-- The first width that is too big. -/
def widthLimit : Int := 9223372036854775808

/-- The first precision that is too big. -/
def precisionLimit : Int := 2147483648

namespace Specification

/-- The conversion that a specification asks for, where a negative width fills up on the right and
a negative precision is none at all. -/
def conversion (s : Specification) (width precision : Option Int) : Conversion :=
  { s.flags with
    left := s.flags.left || width.any (· < 0)
    width := (width.getD 0).natAbs
    precision := precision.map Int.toNat }

end Specification

/-- Fill a directive in. -/
def fillDirective (s : Supply) (spec : Specification) (letter : Option (Char × Nat)) :
    Except Fault (String × Supply) := do
  let s ← s.select spec.name
  let (width,s) ← s.extent widthLimit "width" "ssize_t" spec.width
  let (precision,s) ← s.extent precisionLimit "precision" "int" spec.precision
  match letter with
  | none => .error (.badValue "incomplete format")
  | some (c,position) =>
    let (v,s) ← s.next
    return (← (spec.conversion width precision).apply c position v,s)

/-- Fill pieces in. Values that wait in vain are a fault, unless some value holds others. -/
def fillPieces : Supply → List Piece → Except Fault String
  | s, [] =>
    if s.waiting.isEmpty || s.holder.isSome then .ok ""
    else .error (.badType "not all arguments converted during string formatting")
  | s, .char c :: rest => do return String.singleton c ++ (← fillPieces s rest)
  | s, .nameBrokenOff :: _ =>
    .error (if s.holder.isSome then .badValue "incomplete format key"
      else .badType "format requires a mapping")
  | s, .directive spec letter :: rest => do
    let (shown,s) ← fillDirective s spec letter
    return shown ++ (← fillPieces s rest)

/-- Fill a text with directives in from arguments. -/
def fill (text : String) (arguments : Value) : Except Fault String :=
  fillPieces (.ofArguments arguments) (pieces .outside 0 text.toList)

end InfraGraph.Logging
