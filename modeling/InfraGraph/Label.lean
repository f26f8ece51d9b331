import InfraGraph.Fault

/-!
# Labels

Operations and dependencies carry a label: a word of their vocabulary, or any other value, which
is kept as it is.
-/

namespace InfraGraph

/-- A word of a vocabulary or some other value. -/
inductive Label (κ : Type) where
  | known (word : κ)
  | other (v : Value)
  deriving Inhabited

namespace Label

variable {κ : Type} [Vocabulary κ]

/-- The label that a value gives: the word with its text, if it is the text of a word. -/
def ofValue (v : Value) : Label κ :=
  match v.text?.bind Vocabulary.read? with
  | some word => known word
  | none => other v

/-- The label as plain text. -/
def name : Label κ → String
  | known word => Vocabulary.text word
  | other v => v.tagName

/-- The label as a value, words as tags. -/
def toValue (tag : κ → Tag) : Label κ → Value
  | known word => .tag (tag word)
  | other v => v

/-- Whether the label is a word of the vocabulary. -/
def isKnown : Label κ → Bool
  | known _ => true
  | other _ => false

end Label

end InfraGraph
