import InfraGraph.Logging.FieldFormat
import InfraGraph.Text.Integer
import InfraGraph.Text.Word
import InfraGraph.Value.Item

/-!
# Fields in braces

A text with fields in braces is filled in from named values. A field has a name, which may lead
into a value by attributes and items, a mark that asks for a literal, and a format, in which
further fields may stand for the width and the precision. Doubled braces stand for themselves.
-/

namespace InfraGraph.Logging

/-- A field: its whole name, its mark, and its format. -/
structure BraceField where
  name : List Char
  mark : Option Char := none
  format : List Char := []
  deriving DecidableEq, Repr, Inhabited

/-- The parts of a text with fields. A text that is not well formed ends in what is wrong with
it. -/
inductive BracePart where
  | char (c : Char)
  | field (f : BraceField)
  | broken (reason : String)
  deriving DecidableEq, Repr, Inhabited

/-- Where the reading of a text with fields stands: outside of any, right behind a brace, in a name
or in an item inside of it, right behind the sign for a mark or behind the mark, or in a format in
which so many braces are open. Names and formats are kept backwards. -/
inductive BraceStage where
  | outside
  | opened
  | closed
  | name (reversed : List Char)
  | item (reversed : List Char)
  | marking (f : BraceField)
  | marked (f : BraceField)
  | format (f : BraceField) (reversed : List Char) (depth : Nat)
  deriving DecidableEq, Repr, Inhabited

/-- What is said of a text that ends inside of a field. -/
def unclosed : BraceStage → List BracePart
  | .outside => []
  | .opened => [.broken "Single '\x7b' encountered in format string"]
  | .closed => [.broken "Single '\x7d' encountered in format string"]
  | .name _ | .item _ => [.broken "expected '\x7d' before end of string"]
  | .marking _ => [.broken "end of string while looking for conversion specifier"]
  | .marked _ | .format _ _ _ => [.broken "unmatched '\x7b' in format spec"]

/-- What one character makes of the reading of a name: a part that is complete, if there is one, and
the stage that follows, unless the text is broken. -/
def nameStep (reversed : List Char) (c : Char) : Option BracePart × Option BraceStage :=
  if c = '\x7b' then (some (.broken "unexpected '\x7b' in field name"),none)
  else if c = '\x7d' then (some (.field ⟨reversed.reverse,none,[]⟩),some .outside)
  else if c = '[' then (none,some (.item (c :: reversed)))
  else if c = '!' then (none,some (.marking ⟨reversed.reverse,none,[]⟩))
  else if c = ':' then (none,some (.format ⟨reversed.reverse,none,[]⟩ [] 0))
  else (none,some (.name (c :: reversed)))

/-- What one character makes of the reading. -/
def BraceStage.step : BraceStage → Char → Option BracePart × Option BraceStage
  | .outside, c =>
    if c = '\x7b' then (none,some .opened)
    else if c = '\x7d' then (none,some .closed)
    else (some (.char c),some .outside)
  | .closed, c =>
    if c = '\x7d' then (some (.char c),some .outside)
    else (some (.broken "Single '\x7d' encountered in format string"),none)
  | .opened, c =>
    if c = '\x7b' then (some (.char c),some .outside) else nameStep [] c
  | .name reversed, c => nameStep reversed c
  | .item reversed, c =>
    if c = ']' then (none,some (.name (c :: reversed))) else (none,some (.item (c :: reversed)))
  | .marking f, c => (none,some (.marked { f with mark := some c }))
  | .marked f, c =>
    if c = '\x7d' then (some (.field f),some .outside)
    else if c = ':' then (none,some (.format f [] 0))
    else (some (.broken "expected ':' after conversion specifier"),none)
  | .format f reversed depth, c =>
    if c = '\x7d' ∧ depth = 0 then
      (some (.field { f with format := reversed.reverse }),some .outside)
    else
      let depth := if c = '\x7b' then depth + 1 else if c = '\x7d' then depth - 1 else depth
      (none,some (.format f (c :: reversed) depth))

/-- Take a text with fields apart. -/
def braceParts : BraceStage → List Char → List BracePart
  | stage, [] => unclosed stage
  | stage, c :: rest =>
    match stage.step c with
    | (part,some next) => part.toList ++ braceParts next rest
    | (part,none) => part.toList

/-- Which part of the name of a field comes next: its first character, a character of a word, the
first one behind a point or in brackets, a further one in brackets, or what is behind them. -/
inductive NamePart where
  | first | word | pointed | bracket | bracketed | behind
  deriving DecidableEq, Repr, Inhabited

/-- Whether the name of a field goes on well: words, then words behind points and items in
brackets, and perhaps a line break at the end. -/
def isFieldName : NamePart → List Char → Bool
  | part, [] => part == .word || part == .behind
  | .first, c :: rest => Text.isWordChar c && isFieldName .word rest
  | .pointed, c :: rest => Text.isWordChar c && isFieldName .word rest
  | .word, c :: rest =>
    if Text.isWordChar c then isFieldName .word rest
    else if c = '.' then isFieldName .pointed rest
    else if c = '[' then isFieldName .bracket rest
    else c == '\n' && rest.isEmpty
  | .bracket, c :: rest => c != ']' && isFieldName .bracketed rest
  | .bracketed, c :: rest =>
    if c = ']' then isFieldName .behind rest else isFieldName .bracketed rest
  | .behind, c :: rest =>
    if c = '.' then isFieldName .pointed rest
    else if c = '[' then isFieldName .bracket rest
    else c == '\n' && rest.isEmpty

/-- Take digits, or a field in braces, off the beginning of a format. Nothing is taken where there
is neither. -/
def dropCount (cs : List Char) : List Char :=
  match cs with
  | '\x7b' :: rest =>
    match rest.span Text.isWordChar with
    | (_ :: _,'\x7d' :: after) => after
    | _ => cs
  | _ => cs.dropWhile fun c => (Text.digitValue? c).isSome

/-- Take a point with digits or a field behind it off the beginning of a format. -/
def dropPrecision (cs : List Char) : List Char :=
  match cs with
  | '.' :: rest => if (dropCount rest).length < rest.length then dropCount rest else cs
  | _ => cs

/-- Whether a letter is one of some, in either case. The long s counts as an s. -/
def isOneOf (letters : String) (c : Char) : Bool :=
  letters.toList.contains c.toLower || (c == 'ſ' && letters.toList.contains 's')

/-- Whether the format of a field is well formed. A line break fills nothing up, but may stand at
the end. -/
def isFieldFormat (cs : List Char) : Bool :=
  let unaligned :=
    match cs with
    | '\n' :: _ => cs
    | _ => (FieldFormat.readAlignment cs).2
  let unsigned := (FieldFormat.readMark ['+',' ','-'] unaligned).2
  let bare := (FieldFormat.readMark ['0'] (FieldFormat.readMark ['#'] unsigned).2).2
  match dropPrecision (FieldFormat.readMark [',','_'] (dropCount bare)).2 with
  | [] | ['\n'] => true
  | [c] | [c,'\n'] => isOneOf "bcdefgnosx%" c
  | _ => false

namespace BraceField

/-- What is wrong with a field. -/
def fault? (f : BraceField) : Option String :=
  if !f.name.isEmpty && !isFieldName .first f.name then
    some ("invalid field name/expression: " ++ Text.quoted (String.ofList f.name))
  else if f.mark.any fun c => !(['r','s','a'].contains c) then
    some ("invalid conversion: " ++ Text.quoted (String.ofList f.mark.toList))
  else if !f.format.isEmpty && !isFieldFormat f.format then
    some ("bad specifier: " ++ Text.quoted (String.ofList f.format))
  else none

end BraceField

/-- What is wrong with the parts of a text: the first of what is wrong with any. -/
def braceFault? : List BracePart → Option String
  | [] => none
  | .char _ :: rest => braceFault? rest
  | .broken reason :: _ => some reason
  | .field f :: rest => f.fault? <|> braceFault? rest

/-- A step from a value into it. -/
inductive Access where
  | member (name : String)
  | position (n : Nat)
  | item (name : String)
  deriving DecidableEq, Repr, Inhabited

/-- The number that digits of any script write, if there are only digits. -/
def positionIn? (cs : List Char) : Option Nat :=
  match FieldFormat.readDigits cs with
  | (digits,[]) => if digits.isEmpty then none else some (Text.numeral digits)
  | _ => none

/-- The steps that the name of a field takes. An open name or item is kept backwards. -/
def accesses : (item : Bool) → (reversed : List Char) → List Char → List Access
  | item, reversed, [] => if item || reversed.isEmpty then [] else [memberOf reversed]
  | true, reversed, c :: rest =>
    if c = ']' then itemOf reversed :: accesses false [] rest
    else accesses true (c :: reversed) rest
  | false, reversed, c :: rest =>
    let before := if reversed.isEmpty then [] else [memberOf reversed]
    if c = '.' then before ++ accesses false [] rest
    else if c = '[' then before ++ accesses true [] rest
    else accesses false (c :: reversed) rest
where
  /-- The member of a name that is kept backwards. -/
  memberOf (reversed : List Char) : Access := .member (String.ofList reversed.reverse)
  /-- The item of a name or a number that is kept backwards. -/
  itemOf (reversed : List Char) : Access :=
    match positionIn? reversed.reverse with
    | some n => .position n
    | none => .item (String.ofList reversed.reverse)

/-- Step into a value. Values have no members. -/
def Access.follow (v : Value) : Access → Except Fault Value
  | .position n => v.itemAt n
  | .item name => v.itemNamed name
  | .member name =>
    .error ⟨.missingAttribute,[.text ("'" ++ v.kindName ++ "' object has no attribute " ++
      Text.quoted name)]⟩

/-- What is said of a field that counts its value. No values wait in turn. -/
def noPosition (n : Nat) : Fault :=
  ⟨.badIndex,[.text ("Replacement index " ++ toString n ++
    " out of range for positional args tuple")]⟩

/-- The value of the name of a field. -/
def valueNamed (named : Mapping) (name : List Char) : Except Fault Value :=
  let first := name.takeWhile fun c => c != '.' && c != '['
  match positionIn? first, first with
  | some n, _ => .error (noPosition n)
  | none, [] => .error (noPosition 0)
  | none, first =>
    match named.get? (.text (String.ofList first)) with
    | none => .error ⟨.missingKey,[.text (String.ofList first)]⟩
    | some v => (accesses false [] (name.drop first.length)).foldlM Access.follow v

/-- Fill the fields of a format in, each with the plain text of its value. The name of an open
field is kept backwards. -/
def fillFormat (named : Mapping) : (name : Option (List Char)) → List Char →
    Except Fault (List Char)
  | _, [] => .ok []
  | none, c :: rest =>
    if c = '\x7b' then fillFormat named (some []) rest
    else do return c :: (← fillFormat named none rest)
  | some reversed, c :: rest =>
    if c = '\x7d' then do
      let v ← valueNamed named reversed.reverse
      return v.plain.toList ++ (← fillFormat named none rest)
    else fillFormat named (some (c :: reversed)) rest

/-- A value as the mark of a field asks for it. -/
def marked (v : Value) : Option Char → Value
  | some 'r' => .text v.literal
  | some 's' => .text v.plain
  | some 'a' => .text (Conversion.asciiLiteral v)
  | _ => v

/-- The text of a field. -/
def BraceField.fill (named : Mapping) (f : BraceField) : Except Fault String := do
  let v ← valueNamed named f.name
  let format ← fillFormat named none f.format
  FieldFormat.apply format (marked v f.mark)

/-- The text of the parts of a text with fields. -/
def fillBraces (named : Mapping) : List BracePart → Except Fault String
  | [] => .ok ""
  | .char c :: rest => do return String.singleton c ++ (← fillBraces named rest)
  | .broken reason :: _ => .error (.badValue reason)
  | .field f :: rest => do
    let first ← f.fill named
    return first ++ (← fillBraces named rest)

end InfraGraph.Logging
