import InfraGraph.Logging.Braces
import InfraGraph.Logging.Directive

/-!
# Templates

A template is a text with fields that are filled in from the attributes of a log record. It is
written in one of three styles: directives with names in parentheses, names in braces, or names
behind a dollar sign. A template that names no field is refused when it is made, and one that
names an unknown field when it is filled in.
-/

namespace InfraGraph.Logging

/-- How a template marks its fields. -/
inductive Style where
  | percent | brace | dollar
  deriving DecidableEq, Repr, Inhabited

namespace Style

/-- The style with a given mark. -/
def ofMark? : String → Option Style
  | "%" => some percent
  | "\x7b" => some brace
  | "$" => some dollar
  | _ => none

/-- The template that shows the message alone. -/
def messageAlone : Style → String
  | percent => "%(message)s"
  | brace => "\x7bmessage\x7d"
  | dollar => "$\x7bmessage\x7d"

end Style

/-- Whether a text contains another one. -/
def containsText (text part : String) : Bool :=
  let cs := text.toList
  (List.range (cs.length + 1)).any fun i => part.toList.isPrefixOf (cs.drop i)

/-- A character of a name in the dollar style. -/
def isNameChar (c : Char) : Bool := c.isAlphanum || c == '_'

/-- A character that a name in the dollar style begins with. -/
def isNameStart (c : Char) : Bool := c.isAlpha || c == '_'

/-- A number or a star at the beginning of a text is left out. -/
def dropExtent (cs : List Char) : List Char :=
  match cs with
  | '*' :: rest => rest
  | _ => cs.dropWhile fun c => (Text.digitValue? c).isSome

/-- Whether a text goes on with flags, a width, a precision and a letter of a directive. -/
def isDirectiveEnd (cs : List Char) : Bool :=
  let unflagged := dropExtent (cs.dropWhile fun c => ['#','0','+',' ','-'].contains c)
  let bare := match unflagged with
    | '.' :: rest =>
      let after := dropExtent rest
      if after.length < rest.length then after else unflagged
    | _ => unflagged
  match bare with
  | c :: _ => isOneOf "diouxefgcrsa%" c || c == 'ı' || c == 'İ'
  | [] => false

/-- Whether a text begins with a directive that has a name. -/
def beginsNamedDirective : List Char → Bool
  | '%' :: '(' :: rest =>
    match rest.span Text.isWordChar with
    | (_ :: _,')' :: after) => isDirectiveEnd after
    | _ => false
  | _ => false

/-- Whether a text contains a directive that has a name. -/
def hasNamedDirective : List Char → Bool
  | [] => false
  | c :: rest => beginsNamedDirective (c :: rest) || hasNamedDirective rest

/-- A part of a template with dollar signs: a character, a field, or a sign that stands for
nothing. -/
inductive Slot where
  | char (c : Char)
  | field (name : String)
  | bare
  deriving DecidableEq, Repr, Inhabited

/-- How far the reading behind a dollar sign has come: outside, right behind the sign, in a name,
or in a name in braces. Names are kept backwards. -/
inductive DollarStage where
  | outside
  | sign
  | reading (reversed : List Char)
  | braced (reversed : List Char)
  deriving DecidableEq, Repr, Inhabited

/-- A name that is read, or the sign alone where there is no name. -/
def namedSlot (reversed : List Char) : Slot := .field (String.ofList reversed.reverse)

/-- Take a template with dollar signs apart. A doubled sign stands for itself. -/
def dollarSlots : DollarStage → List Char → List Slot
  | .outside, [] => []
  | .sign, [] => [.bare]
  | .reading name, [] => [namedSlot name]
  | .braced _, [] => [.bare]
  | .outside, c :: rest =>
    if c = '$' then dollarSlots .sign rest else .char c :: dollarSlots .outside rest
  | .sign, c :: rest =>
    if c = '$' then .char c :: dollarSlots .outside rest
    else if c = '\x7b' then dollarSlots (.braced []) rest
    else if isNameStart c then dollarSlots (.reading [c]) rest
    else .bare :: .char c :: dollarSlots .outside rest
  | .reading name, c :: rest =>
    if isNameChar c then dollarSlots (.reading (c :: name)) rest
    else if c = '$' then namedSlot name :: dollarSlots .sign rest
    else namedSlot name :: .char c :: dollarSlots .outside rest
  | .braced name, c :: rest =>
    if c = '\x7d' && !name.isEmpty then namedSlot name :: dollarSlots .outside rest
    else if isNameChar c && (!name.isEmpty || isNameStart c) then
      dollarSlots (.braced (c :: name)) rest
    else .bare :: dollarSlots .outside rest

/-- A template that is well formed in its style. -/
structure Template where
  style : Style
  text : String
  deriving DecidableEq, Repr, Inhabited

namespace Template

/-- Whether a part of a template with dollar signs is a field. -/
def isField : Slot → Bool
  | .field _ => true
  | _ => false

/-- Whether a part of a template in braces is a field with a name. -/
def isNamed : BracePart → Bool
  | .field f => !f.name.isEmpty
  | _ => false

def noFields : Fault := .badValue "invalid format: no fields"

/-- Require that a template is well formed. -/
def check (style : Style) (text : String) : Except Fault Unit :=
  match style with
  | .percent =>
    if hasNamedDirective text.toList then .ok ()
    else .error (.badValue ("Invalid format '" ++ text ++ "' for '%' style"))
  | .brace =>
    let parts := braceParts .outside text.toList
    match braceFault? parts with
    | some reason => .error (.badValue ("invalid format: " ++ reason))
    | none => if parts.any isNamed then .ok () else .error noFields
  | .dollar =>
    let slots := dollarSlots .outside text.toList
    if slots.contains .bare then .error (.badValue "invalid format: bare '$' not allowed")
    else if slots.any isField then .ok ()
    else .error noFields

/-- Make a template of a text, which shows the message alone if it is empty. -/
def make (style : Style) (text : String) : Except Fault Template := do
  let text := if text.isEmpty then style.messageAlone else text
  check style text
  return ⟨style,text⟩

/-- Whether a template shows the time. -/
def showsTime (t : Template) : Bool :=
  match t.style with
  | .percent => containsText t.text "%(asctime)"
  | .brace => containsText t.text "\x7basctime"
  | .dollar => containsText t.text "$asctime" || containsText t.text "$\x7basctime\x7d"

/-- The text of a part of a template with dollar signs. -/
def fillSlot (attributes : Mapping) : Slot → Except Fault String
  | .char c => .ok (String.singleton c)
  | .bare => .ok "$"
  | .field name =>
    match attributes.get? (.text name) with
    | some v => .ok v.plain
    | none => .error ⟨.missingKey,[.text name]⟩

/-- The text of the parts of a template with dollar signs. -/
def fillSlots (attributes : Mapping) : List Slot → Except Fault String
  | [] => .ok ""
  | slot :: rest => do
    let first ← fillSlot attributes slot
    return first ++ (← fillSlots attributes rest)

/-- Fill a template in by the rules of its style. -/
def fillIn (t : Template) (attributes : Mapping) : Except Fault String :=
  match t.style with
  | .percent => Logging.fill t.text attributes.toValue
  | .brace => fillBraces attributes (braceParts .outside t.text.toList)
  | .dollar => fillSlots attributes (dollarSlots .outside t.text.toList)

/-- Fill a template in. A record that lacks a field does not fit the template. -/
def fill (t : Template) (attributes : Mapping) : Except Fault String :=
  match t.fillIn attributes with
  | .ok s => .ok s
  | .error f =>
    .error (if f.kind = .missingKey then
      .badValue ("Formatting field not found in record: " ++ f.message) else f)

end Template

end InfraGraph.Logging
