import InfraGraph.Label
import InfraGraph.Proofs.Value.Sameness

/-!
Labels and their texts. Every word is read back from its text. A label that is text has the text of the value that gave
it, and is a word wherever that is the text of one.
-/
namespace InfraGraph

/-- Every word is read back from its text. -/
class LawfulVocabulary (κ : Type) [Vocabulary κ] : Prop where
  read?_text (word : κ) : Vocabulary.read? (Vocabulary.text word) = some word

instance : LawfulVocabulary Action := ⟨fun word => by cases word <;> rfl⟩

instance : LawfulVocabulary Relation := ⟨fun word => by cases word <;> rfl⟩

instance : LawfulVocabulary Format := ⟨fun word => by cases word <;> rfl⟩

variable {κ : Type} [Vocabulary κ]

theorem Vocabulary.read?_eq_some [LawfulVocabulary κ] {s : String} {word : κ} :
    Vocabulary.read? s = some word ↔ Vocabulary.text word = s := by
  constructor
  · intro found
    simpa using List.find?_some found
  · rintro rfl
    exact LawfulVocabulary.read?_text word

namespace Label

/-- A label with plain text in place of a value that is no word. -/
def spelled : Label κ → Label κ
  | known word => known word
  | other v => other (.text v.tagName)

variable {tag : κ → Tag} (faithful : ∀ word, (tag word).text = Vocabulary.text word)
include faithful

/-- The name of a label is its text, where it is one. -/
theorem text_of_isText {label : Label κ} (text : (label.toValue tag).isText = true) :
    (label.toValue tag).text? = some label.name := by
  cases label with
  | known word => exact congrArg some (faithful word)
  | other v =>
    cases v with
    | text s => rfl
    | tag t => rfl
    | _ => cases text

theorem spelled_same {label : Label κ} (text : (label.toValue tag).isText = true) :
    (label.spelled.toValue tag == label.toValue tag) = true := by
  cases label with
  | known word => exact BEq.rfl
  | other v => exact Value.same_of_text rfl (text_of_isText faithful text)

variable [LawfulVocabulary κ]

theorem text_ofValue {v : Value} {s : String} (text : v.text? = some s) :
    ((ofValue v : Label κ).toValue tag).text? = some s := by
  unfold ofValue
  rw [text,Option.bind_some]
  cases word : (Vocabulary.read? s : Option κ) with
  | none => exact text
  | some word' => exact congrArg some ((faithful word').trans (Vocabulary.read?_eq_some.mp word))

theorem isText_ofValue {v : Value} (text : v.isText = true) : ((ofValue v : Label κ).toValue tag).isText = true := by
  obtain ⟨s,is⟩ := Option.isSome_iff_exists.mp text
  exact Option.isSome_iff_exists.mpr ⟨s,text_ofValue faithful is⟩

omit faithful in
theorem ofValue_of_text {v : Value} {word : κ} (text : v.text? = some (Vocabulary.text word)) :
    ofValue v = known word := by
  rw [ofValue,text,Option.bind_some,LawfulVocabulary.read?_text]

/-- A label gives itself again, whatever value gave it. -/
theorem ofValue_toValue (v : Value) : ofValue ((ofValue v : Label κ).toValue tag) = (ofValue v : Label κ) := by
  cases word : v.text?.bind (Vocabulary.read? : String → Option κ) with
  | none =>
    have same : (ofValue v : Label κ) = other v := by rw [ofValue,word]
    rw [same]
    exact same
  | some word' =>
    have same : (ofValue v : Label κ) = known word' := by rw [ofValue,word]
    rw [same]
    exact ofValue_of_text (congrArg some (faithful word'))

theorem name_ofValue {v : Value} {s : String} (text : v.text? = some s) : (ofValue v : Label κ).name = s := by
  have given := text_ofValue faithful text
  rw [text_of_isText faithful (Option.isSome_iff_exists.mpr ⟨s,given⟩)] at given
  exact Option.some.inj given

/-- The text of a label gives the label again, words as words. -/
theorem ofValue_name {label : Label κ} (text : (label.toValue tag).isText = true)
    (settled : ofValue (label.toValue tag) = label) : ofValue (.text label.name) = label.spelled := by
  have named := text_of_isText faithful text
  cases label with
  | known word => exact ofValue_of_text rfl
  | other v =>
    change v.text? = some v.tagName at named
    change ofValue v = other v at settled
    change ofValue (.text v.tagName) = other (.text v.tagName)
    rw [ofValue,named,Option.bind_some] at settled
    rw [ofValue,Value.text?,Option.bind_some]
    split at settled
    · cases settled
    · rfl

end Label
end InfraGraph
