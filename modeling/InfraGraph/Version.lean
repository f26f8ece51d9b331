import InfraGraph.Fault
import InfraGraph.Text.Integer

/-!
# Schema versions

A version is written as two or three integers with points between them; a missing patch is zero.
Versions are ordered by their numbers, and data is readable across versions of one major number.
-/

namespace InfraGraph

/-- A schema version. -/
structure Version where
  major : Int
  minor : Int
  patch : Int := 0
  deriving DecidableEq, Repr, Inhabited

namespace Version

/-- The parts of a text between the occurrences of a separator. -/
def splitAt (separator : Char) : List Char → List (List Char)
  | [] => [[]]
  | c :: rest =>
    if c = separator then [] :: splitAt separator rest
    else
      match splitAt separator rest with
      | [] => [[c]]
      | part :: parts => (c :: part) :: parts

/-- A number of a version: an integer that is not negative. -/
def component? (cs : List Char) : Option Int :=
  match Text.readInteger? cs with
  | some n => if 0 ≤ n then some n else none
  | none => none

/-- The version that a text writes, if it writes one. -/
def read? (cs : List Char) : Option Version :=
  match splitAt '.' cs with
  | [major,minor] =>
    match component? major, component? minor with
    | some major, some minor => some ⟨major,minor,0⟩
    | _, _ => none
  | [major,minor,patch] =>
    match component? major, component? minor, component? patch with
    | some major, some minor, some patch => some ⟨major,minor,patch⟩
    | _, _, _ => none
  | _ => none

/-- What is said of a text that writes no version. -/
def unreadable (text : String) : String := "Invalid version format: " ++ text

/-- The version that the plain text of a value writes. -/
def parse (v : Value) : Except Fault Version :=
  match read? v.plain.toList with
  | some version => .ok version
  | none => .error (.badValue (unreadable v.plain))

def text (v : Version) : String :=
  toString v.major ++ "." ++ toString v.minor ++ "." ++ toString v.patch

/-- The order by major, minor and patch number. -/
def lt (a b : Version) : Bool :=
  a.major < b.major || (a.major == b.major &&
    (a.minor < b.minor || (a.minor == b.minor && a.patch < b.patch)))

def le (a b : Version) : Bool := a.lt b || a == b

def gt (a b : Version) : Bool := !a.lt b && a != b

def ge (a b : Version) : Bool := !a.lt b

/-- The fault of an order between a version and a value that is none. -/
def notOrdered (v : Value) : Fault :=
  .badType ("'<' not supported between instances of 'IRVersion' and '" ++ v.kindName ++ "'")

/-- Whether data of the second version can be read at the first. -/
def reads (v other : Version) : Bool := v.major == other.major

/-- The version of the records that the library writes. -/
def current : Version := ⟨1,0,0⟩

/-- Versions in order, equal ones as they stood. -/
def sort (versions : List Version) : List Version := versions.mergeSort fun a b => !b.lt a

end Version

end InfraGraph
