import InfraGraph.Text.Quoted
import Mathlib.Data.List.Basic

/-!
The literal of a mutable byte string tells its bytes. What stands for one byte never begins what stands for
another one, so that a literal can be read from its front.
-/
namespace InfraGraph
variable {α β : Type}

/-- Spellings put one after another tell the items, if none is empty and none begins the spelling of another item. -/
theorem flatMap_injective {spelling : α → List β} (nonempty : ∀ a, spelling a ≠ [])
    (front : ∀ a b r s, spelling a ++ r = spelling b ++ s → a = b ∧ r = s) :
    Function.Injective (List.flatMap spelling) := by
  intro xs ys equal
  induction xs generalizing ys with
  | nil =>
    cases ys with
    | nil => rfl
    | cons y rest => simp [nonempty] at equal
  | cons x rest ih =>
    cases ys with
    | nil => simp [nonempty] at equal
    | cons y others =>
      obtain ⟨rfl,later⟩ := front x y _ _ equal
      rw [ih later]

namespace Text

/-- The characters that a backslash and a letter or mark stand for, with that letter or mark. -/
private def marked : List (Char × Char) := [('\'','\''),('\\','\\'),('\n','n'),('\r','r'),('\t','t')]

/-- The three ways in which a character of a mutable byte string is written. -/
private inductive Spelled (c : Char) : List Char → Prop
  | plain (different : c ≠ '\\') : Spelled c [c]
  | escape {mark : Char} (listed : (c,mark) ∈ marked) : Spelled c ['\\',mark]
  | number : Spelled c ('\\' :: 'x' :: hexadecimal 2 c.toNat)

private def bufferChar (c : Char) : List Char := literalChar (fun c => c == '\'' || c == '\\') isPlainByte c

private theorem spelled_bufferChar {c : Char} (small : c.toNat < 256) : Spelled c (bufferChar c) := by
  unfold bufferChar literalChar
  split_ifs with guarded newline carriage tab plain
  · rcases (by simpa using guarded : c = '\'' ∨ c = '\\') with rfl | rfl
    · exact .escape (by decide)
    · exact .escape (by decide)
  · obtain rfl := eq_of_beq newline
    exact .escape (by decide)
  · obtain rfl := eq_of_beq carriage
    exact .escape (by decide)
  · obtain rfl := eq_of_beq tab
    exact .escape (by decide)
  · refine .plain ?_
    rintro rfl
    exact guarded (by decide)
  · rw [numberEscape,if_pos small]
    exact .number

private theorem hexadecimal_byte {n : Nat} (small : n < 256) :
    hexadecimal 2 n = [(n / 16).digitChar,(n % 16).digitChar] := by
  unfold hexadecimal
  by_cases digit : n < 16
  · have high : n / 16 = 0 := by omega
    have low : n % 16 = n := by omega
    simp [Nat.toDigits_of_lt_base digit,high,low]
  · have high : n / 16 < 16 := by omega
    simp [Nat.toDigits_of_base_le (by omega : 1 < 16) (by omega : 16 ≤ n),Nat.toDigits_of_lt_base high]

private theorem digitChar_injective : ∀ m < 16, ∀ n < 16, m.digitChar = n.digitChar → m = n := by decide

/-- Two hexadecimal digits tell a number below 256. -/
private theorem hexadecimal_front {m n : Nat} (first : m < 256) (second : n < 256) {r s : List Char}
    (equal : hexadecimal 2 m ++ r = hexadecimal 2 n ++ s) : m = n ∧ r = s := by
  rw [hexadecimal_byte first,hexadecimal_byte second] at equal
  obtain ⟨high,low,rest⟩ : (m / 16).digitChar = (n / 16).digitChar ∧ (m % 16).digitChar = (n % 16).digitChar ∧ r = s := by
    simpa using equal
  have quotient := digitChar_injective (m / 16) (by omega) (n / 16) (by omega) high
  have remainder := digitChar_injective (m % 16) (by omega) (n % 16) (by omega) low
  exact ⟨by omega,rest⟩

private theorem marked_mark : ∀ e ∈ marked, e.2 ≠ 'x' := by decide

private theorem marked_injective : ∀ e ∈ marked, ∀ f ∈ marked, e.2 = f.2 → e.1 = f.1 := by decide

/-- The front of a text tells the character that is spelled there. -/
private theorem Spelled.front {c d : Char} {u v r s : List Char} (first : Spelled c u) (second : Spelled d v)
    (small : c.toNat < 256) (small' : d.toNat < 256) (equal : u ++ r = v ++ s) : c = d ∧ r = s := by
  cases first with
  | plain different =>
    cases second with
    | plain _ => simpa using equal
    | escape _ => simp [different] at equal
    | number => simp [different] at equal
  | escape listed =>
    cases second with
    | plain different => simp [Ne.symm different] at equal
    | escape listed' =>
      obtain ⟨mark,rest⟩ : _ = _ ∧ r = s := by simpa using equal
      exact ⟨marked_injective _ listed _ listed' mark,rest⟩
    | number => simp [marked_mark _ listed] at equal
  | number =>
    cases second with
    | plain different => simp [Ne.symm different] at equal
    | escape listed => simp [Ne.symm (marked_mark _ listed)] at equal
    | number =>
      obtain ⟨same,rest⟩ := hexadecimal_front small small' (by simpa using equal)
      exact ⟨Char.toNat_inj.mp same,rest⟩

private theorem byte_toNat (b : UInt8) : (Char.ofNat b.toNat).toNat = b.toNat := by
  have small := b.toNat_lt
  rw [Char.ofNat,dif_pos (.inl (by omega))]
  rfl

/-- What stands between the quotes of a literal tells the bytes. -/
private theorem bufferChars_injective :
    Function.Injective (List.flatMap fun b : UInt8 => bufferChar (Char.ofNat b.toNat)) := by
  have small (b : UInt8) : (Char.ofNat b.toNat).toNat < 256 := by
    rw [byte_toNat]
    exact b.toNat_lt
  refine flatMap_injective ?_ ?_
  · intro b empty
    have spelled := spelled_bufferChar (small b)
    rw [empty] at spelled
    cases spelled
  · intro a b r s equal
    obtain ⟨same,rest⟩ := (spelled_bufferChar (small a)).front (spelled_bufferChar (small b)) (small a) (small b) equal
    have number := congrArg Char.toNat same
    rw [byte_toNat,byte_toNat] at number
    exact ⟨UInt8.toNat_inj.mp number,rest⟩

/-- Mutable byte strings with the same literal hold the same bytes. -/
theorem quotedBuffer_injective : Function.Injective quotedBuffer := by
  intro xs ys equal
  have characters := congrArg String.toList equal
  simp only [quotedBuffer,String.toList_append,String.toList_ofList,List.append_assoc,List.append_cancel_left_eq,
    List.cons_append,List.cons.injEq,true_and] at characters
  obtain ⟨quote,body⟩ := characters
  rw [quote,List.append_cancel_right_eq,byteChars,byteChars,List.flatMap_map,List.flatMap_map] at body
  exact bufferChars_injective body

end Text
end InfraGraph
