/-!
# Capitals and small letters for matching words

Settings are matched against ASCII words after a change of case. Outside ASCII only the
characters below have an ASCII word as their other form; every other character stays itself,
since no word that is matched contains it in either case.
-/

namespace InfraGraph.Text

/-- The characters outside ASCII whose capital form is made of ASCII letters. -/
def foreignCapitals : List (Nat × String) :=
  [(0xDF,"SS"),(0x131,"I"),(0x17F,"S"),(0xFB00,"FF"),(0xFB01,"FI"),(0xFB02,"FL"),
   (0xFB03,"FFI"),(0xFB04,"FFL"),(0xFB05,"ST"),(0xFB06,"ST")]

/-- The capital form of a character, exact wherever it is made of ASCII letters. -/
def capital (c : Char) : List Char :=
  match foreignCapitals.lookup c.toNat with
  | some s => s.toList
  | none => [c.toUpper]

/-- The small form of a character, exact wherever it is an ASCII letter: beside the ASCII
capitals that is the sign for kelvin. -/
def small (c : Char) : Char :=
  if c.toNat = 0x212A then 'k' else c.toLower

/-- A text in capitals, as far as ASCII words are concerned. -/
def upper (s : String) : String := String.ofList (s.toList.flatMap capital)

/-- A text in small letters, as far as ASCII words are concerned. -/
def lower (s : String) : String := String.ofList (s.toList.map small)

end InfraGraph.Text
