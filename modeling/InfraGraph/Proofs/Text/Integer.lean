import InfraGraph.Text.Integer
import Mathlib.Algebra.Group.Nat.Defs
import Mathlib.Data.List.Induction
import Mathlib.Data.List.TakeWhile

/-!
Which texts write an integer, and which one. A numeral may stand between blanks, have a sign, and have single underscores
between digits of any script, as long as there are not too many digits. The decimal numeral of a natural number is among
these texts and writes that number.
-/
namespace InfraGraph.Text

/-! ### The grammar -/

/-- Digits in a row, with at most one underscore between two of them, and what they count one by one. -/
inductive Digits : List Char → List Nat → Prop
  | last {c : Char} {d : Nat} (digit : digitValue? c = some d) : Digits [c] [d]
  | next {c : Char} {d : Nat} {cs : List Char} {ds : List Nat} (digit : digitValue? c = some d) (later : Digits cs ds) :
      Digits (c :: cs) (d :: ds)
  | apart {c : Char} {d : Nat} {cs : List Char} {ds : List Nat} (digit : digitValue? c = some d) (later : Digits cs ds) :
      Digits (c :: '_' :: cs) (d :: ds)

/-- A numeral, with or without a sign. -/
inductive Signed : List Char → Int → Prop
  | bare {cs : List Char} {ds : List Nat} (digits : Digits cs ds) (few : ds.length ≤ digitLimit) : Signed cs (numeral ds)
  | plus {cs : List Char} {ds : List Nat} (digits : Digits cs ds) (few : ds.length ≤ digitLimit) :
      Signed ('+' :: cs) (numeral ds)
  | minus {cs : List Char} {ds : List Nat} (digits : Digits cs ds) (few : ds.length ≤ digitLimit) :
      Signed ('-' :: cs) (-(numeral ds : Int))

/-- A text writes an integer: blanks, a numeral and blanks. -/
inductive Writes : List Char → Int → Prop
  | between {before cs after : List Char} {n : Int} (blank : ∀ c ∈ before ++ after, isNumberBlank c = true)
      (signed : Signed cs n) : Writes (before ++ (cs ++ after)) n

/-! ### Digits -/

theorem Digits.first {c : Char} {cs : List Char} {ds : List Nat} (digits : Digits (c :: cs) ds) :
    ∃ d, digitValue? c = some d := by
  cases digits with
  | last digit => exact ⟨_,digit⟩
  | next digit _ => exact ⟨_,digit⟩
  | apart digit _ => exact ⟨_,digit⟩

theorem Digits.exists_cons {cs : List Char} {ds : List Nat} (digits : Digits cs ds) :
    ∃ c d rest, cs = c :: rest ∧ digitValue? c = some d := by
  cases digits with
  | last digit => exact ⟨_,_,_,rfl,digit⟩
  | next digit _ => exact ⟨_,_,_,rfl,digit⟩
  | apart digit _ => exact ⟨_,_,_,rfl,digit⟩

theorem Digits.exists_snoc {cs : List Char} {ds : List Nat} (digits : Digits cs ds) :
    ∃ front c d, cs = front ++ [c] ∧ digitValue? c = some d := by
  induction digits with
  | last digit => exact ⟨[],_,_,rfl,digit⟩
  | @next c _ _ _ _ _ ih =>
    obtain ⟨front,last,d,rfl,digit⟩ := ih
    exact ⟨c :: front,last,d,rfl,digit⟩
  | @apart c _ _ _ _ _ ih =>
    obtain ⟨front,last,d,rfl,digit⟩ := ih
    exact ⟨c :: '_' :: front,last,d,rfl,digit⟩

theorem Digits.lt_ten {cs : List Char} {ds : List Nat} (digits : Digits cs ds) : ∀ d ∈ ds, d < 10 := by
  induction digits with
  | last digit => exact List.forall_mem_singleton.mpr (digitValue?_lt digit)
  | next digit _ ih => exact List.forall_mem_cons.mpr ⟨digitValue?_lt digit,ih⟩
  | apart digit _ ih => exact List.forall_mem_cons.mpr ⟨digitValue?_lt digit,ih⟩

/-- What may stand after a digit. -/
private def Follows (cs : List Char) (ds : List Nat) : Prop :=
  cs = [] ∧ ds = [] ∨ Digits cs ds ∨ ∃ rest, cs = '_' :: rest ∧ Digits rest ds

private theorem digits_cons {c : Char} {d : Nat} (digit : digitValue? c = some d) {cs : List Char} {ds : List Nat} :
    Digits (c :: cs) ds ↔ ∃ later, Follows cs later ∧ d :: later = ds := by
  constructor
  · intro digits
    cases digits with
    | last again =>
      obtain rfl := Option.some.inj (digit.symm.trans again)
      exact ⟨[],.inl ⟨rfl,rfl⟩,rfl⟩
    | next again rest =>
      obtain rfl := Option.some.inj (digit.symm.trans again)
      exact ⟨_,.inr (.inl rest),rfl⟩
    | apart again rest =>
      obtain rfl := Option.some.inj (digit.symm.trans again)
      exact ⟨_,.inr (.inr ⟨_,rfl,rest⟩),rfl⟩
  · rintro ⟨later,⟨rfl,rfl⟩ | rest | ⟨rest,rfl,digits⟩,rfl⟩
    · exact .last digit
    · exact .next digit rest
    · exact .apart digit digits

private theorem digitRun?_iff (cs : List Char) (ds : List Nat) :
    (digitRun? false cs = some ds ↔ Digits cs ds) ∧ (digitRun? true cs = some ds ↔ Follows cs ds) := by
  induction cs generalizing ds with
  | nil =>
    have none : ¬ Digits [] ds := fun digits => by cases digits
    simp [digitRun?,Follows,none,eq_comm]
  | cons c rest ih =>
    cases digit : digitValue? c with
    | some d =>
      have other : c ≠ '_' := by
        rintro rfl
        cases digit.symm.trans (by decide : digitValue? '_' = none)
      have run (afterDigit : Bool) : digitRun? afterDigit (c :: rest) = some ds ↔ Digits (c :: rest) ds := by
        simp only [digitRun?,digit,Option.map_eq_some_iff,(ih _).2,digits_cons digit]
      exact ⟨run false,by simp [run true,Follows,other]⟩
    | none =>
      have none : ¬ Digits (c :: rest) ds := by
        intro digits
        obtain ⟨d,is⟩ := digits.first
        cases digit.symm.trans is
      by_cases underscore : c = '_'
      · subst underscore
        simp [digitRun?,digit,none,Follows,(ih ds).1]
      · simp [digitRun?,digit,none,Follows,underscore]

theorem digitRun?_eq_some {cs : List Char} {ds : List Nat} : digitRun? false cs = some ds ↔ Digits cs ds :=
  (digitRun?_iff cs ds).1

/-! ### Numerals -/

theorem numeral_snoc (ds : List Nat) (d : Nat) : numeral (ds ++ [d]) = 10 * numeral ds + d := by
  simp [numeral,List.foldl_append]

theorem numeral_lt {ds : List Nat} (digits : ∀ d ∈ ds, d < 10) : numeral ds < 10 ^ ds.length := by
  induction ds using List.reverseRecOn with
  | nil => decide
  | append_singleton ds d ih =>
    have before := ih fun e member => digits e (List.mem_append_left _ member)
    have last := digits d (by simp)
    rw [numeral_snoc,List.length_append,List.length_singleton,Nat.pow_succ]
    omega

theorem readNatural?_eq_some {cs : List Char} {n : Nat} :
    readNatural? cs = some n ↔ ∃ ds, Digits cs ds ∧ ds.length ≤ digitLimit ∧ numeral ds = n := by
  simp only [readNatural?,← digitRun?_eq_some]
  cases digitRun? false cs with
  | none => simp
  | some ds => simp

/-- What a sign makes of the natural number behind it. -/
private theorem sign_eq_some {sign : Int → Int} {cs : List Char} {n : Int} :
    (readNatural? cs >>= fun k => pure (k : Int)).map sign = some n ↔
      ∃ ds, Digits cs ds ∧ ds.length ≤ digitLimit ∧ sign (numeral ds) = n := by
  simp only [Option.map_eq_some_iff,Option.bind_eq_bind,Option.bind_eq_some_iff,Option.pure_def,Option.some.injEq,
    readNatural?_eq_some]
  constructor
  · rintro ⟨_,⟨_,⟨ds,digits,few,rfl⟩,rfl⟩,rfl⟩
    exact ⟨ds,digits,few,rfl⟩
  · rintro ⟨ds,digits,few,rfl⟩
    exact ⟨_,⟨_,⟨ds,digits,few,rfl⟩,rfl⟩,rfl⟩

theorem readSigned?_eq_some {cs : List Char} {n : Int} : readSigned? cs = some n ↔ Signed cs n := by
  -- A sign is no digit, so that a numeral shows whether it has one.
  have unsigned {c : Char} {rest : List Char} {ds : List Nat} (sign : digitValue? c = none) : ¬ Digits (c :: rest) ds := by
    intro digits
    obtain ⟨d,is⟩ := digits.first
    cases sign.symm.trans is
  unfold readSigned?
  split
  · next rest =>
    rw [sign_eq_some]
    constructor
    · rintro ⟨ds,digits,few,rfl⟩
      exact .minus digits few
    · intro signed
      cases signed with
      | bare digits => exact absurd digits (unsigned (by decide))
      | minus digits few => exact ⟨_,digits,few,rfl⟩
  · next rest =>
    rw [sign_eq_some]
    constructor
    · rintro ⟨ds,digits,few,rfl⟩
      exact .plus digits few
    · intro signed
      cases signed with
      | bare digits => exact absurd digits (unsigned (by decide))
      | plus digits few => exact ⟨_,digits,few,rfl⟩
  · next negative positive =>
    rw [sign_eq_some]
    constructor
    · rintro ⟨ds,digits,few,rfl⟩
      exact .bare digits few
    · intro signed
      cases signed with
      | bare digits few => exact ⟨_,digits,few,rfl⟩
      | plus => exact absurd rfl (positive _)
      | minus => exact absurd rfl (negative _)

/-! ### Blanks around -/

/-- No digit is a blank: the runs of ten lie between the blanks. -/
theorem not_blank_of_digit {c : Char} {d : Nat} (digit : digitValue? c = some d) : isNumberBlank c = false := by
  obtain ⟨base,found,_⟩ := Option.map_eq_some_iff.mp digit
  have range := List.find?_some found
  have gap : ∀ base ∈ digitZeros, 0x20 < base ∧ base + 10 ≤ 0x85 ∨ 0xA0 < base ∧ base + 10 ≤ 0x1680 ∨
      0x1680 < base ∧ base + 10 ≤ 0x2000 ∨ 0x3000 < base := by decide
  have apart := gap base (List.mem_of_find?_eq_some found)
  simp only [Bool.and_eq_true,decide_eq_true_eq] at range
  simp only [isNumberBlank,isBlank,Bool.and_eq_false_iff,Bool.or_eq_false_iff,decide_eq_false_iff_not,beq_eq_false_iff_ne]
  omega

theorem Signed.exists_cons {cs : List Char} {n : Int} (signed : Signed cs n) :
    ∃ c rest, cs = c :: rest ∧ isNumberBlank c = false := by
  cases signed with
  | bare digits =>
    obtain ⟨c,d,rest,is,digit⟩ := digits.exists_cons
    exact ⟨c,rest,is,not_blank_of_digit digit⟩
  | plus => exact ⟨_,_,rfl,by decide⟩
  | minus => exact ⟨_,_,rfl,by decide⟩

theorem Signed.exists_snoc {cs : List Char} {n : Int} (signed : Signed cs n) :
    ∃ front c, cs = front ++ [c] ∧ isNumberBlank c = false := by
  cases signed with
  | bare digits =>
    obtain ⟨front,c,d,is,digit⟩ := digits.exists_snoc
    exact ⟨front,c,is,not_blank_of_digit digit⟩
  | plus digits =>
    obtain ⟨front,c,d,rfl,digit⟩ := digits.exists_snoc
    exact ⟨'+' :: front,c,rfl,not_blank_of_digit digit⟩
  | minus digits =>
    obtain ⟨front,c,d,rfl,digit⟩ := digits.exists_snoc
    exact ⟨'-' :: front,c,rfl,not_blank_of_digit digit⟩

/-- Trimming takes outer characters off both ends. -/
theorem trim_spec (outer : Char → Bool) (cs : List Char) :
    ∃ before after, cs = before ++ (trim outer cs ++ after) ∧ ∀ c ∈ before ++ after, outer c = true := by
  refine ⟨cs.takeWhile outer,((cs.dropWhile outer).reverse.takeWhile outer).reverse,?_,?_⟩
  · rw [trim,← List.reverse_append,List.takeWhile_append_dropWhile,List.reverse_reverse,List.takeWhile_append_dropWhile]
  · intro c member
    rcases List.mem_append.mp member with front | back
    · exact List.mem_takeWhile_imp front
    · exact List.mem_takeWhile_imp (List.mem_reverse.mp back)

/-- Trimming leaves what begins and ends with inner characters. -/
theorem trim_between {outer : Char → Bool} {before cs after : List Char} (blank : ∀ c ∈ before ++ after, outer c = true)
    (first : ∃ c rest, cs = c :: rest ∧ outer c = false) (last : ∃ front c, cs = front ++ [c] ∧ outer c = false) :
    trim outer (before ++ (cs ++ after)) = cs := by
  have front : (before ++ (cs ++ after)).dropWhile outer = cs ++ after := by
    obtain ⟨c,rest,rfl,inner⟩ := first
    rw [List.dropWhile_append_of_pos fun c member => blank c (List.mem_append_left _ member),List.cons_append,
      List.dropWhile_cons_of_neg (by simp [inner])]
  have back : (cs ++ after).reverse.dropWhile outer = cs.reverse := by
    obtain ⟨front,c,rfl,inner⟩ := last
    rw [List.reverse_append,List.dropWhile_append_of_pos fun c member =>
      blank c (List.mem_append_right _ (List.mem_reverse.mp member)),List.reverse_append,List.reverse_singleton,
      List.singleton_append,List.dropWhile_cons_of_neg (by simp [inner])]
  rw [trim,front,back,List.reverse_reverse]

/-- Reading finds exactly the integer that a text writes. -/
theorem readInteger?_eq_some {cs : List Char} {n : Int} : readInteger? cs = some n ↔ Writes cs n := by
  rw [readInteger?,readSigned?_eq_some]
  constructor
  · intro signed
    obtain ⟨before,after,is,blank⟩ := trim_spec isNumberBlank cs
    rw [is]
    exact .between blank signed
  · intro writes
    cases writes with
    | between blank signed => rwa [trim_between blank signed.exists_cons signed.exists_snoc]

/-! ### Decimal numerals -/

/-- An integer is not negative, and its decimal numeral has no more digits than are read. -/
structure Brief (n : Int) : Prop where
  nonnegative : 0 ≤ n
  few : (Nat.toDigits 10 n.natAbs).length ≤ digitLimit

theorem brief_zero : Brief 0 := ⟨Int.le_refl 0,by decide⟩

theorem digits_of_isDigit {cs : List Char} (nonempty : cs ≠ []) (ascii : ∀ c ∈ cs, c.isDigit = true) :
    Digits cs (cs.map fun c => c.toNat - 48) := by
  have digit {c : Char} (is : c.isDigit = true) : digitValue? c = some (c.toNat - 48) := by
    obtain ⟨low,high⟩ := Char.isDigit_iff_toNat.mp is
    exact digitValue?_ascii low high
  induction cs with
  | nil => exact absurd rfl nonempty
  | cons c rest ih =>
    have first := digit (ascii c (by simp))
    cases rest with
    | nil => exact .last first
    | cons => exact .next first (ih (List.cons_ne_nil _ _) fun e later => ascii e (List.mem_cons_of_mem _ later))

/-- The decimal numeral of a natural number writes it, unless it is too long. -/
theorem writes_toDigits {n : Nat} (few : (Nat.toDigits 10 n).length ≤ digitLimit) : Writes (Nat.toDigits 10 n) n := by
  have digits := digits_of_isDigit (Nat.toDigits_ne_nil (n := n) (b := 10)) fun c member =>
    Nat.isDigit_of_mem_toDigits (by decide) (by decide) member
  have value : numeral ((Nat.toDigits 10 n).map fun c => c.toNat - 48) = n := by
    rw [numeral,List.foldl_map]
    exact Nat.ofDigitChars_toDigits (by decide) (by decide)
  have signed := Signed.bare digits (by rwa [List.length_map])
  rw [value] at signed
  simpa using @Writes.between [] _ [] _ (by simp) signed

/-- What is written and not negative is brief. -/
theorem Writes.brief {cs : List Char} {n : Int} (writes : Writes cs n) (nonnegative : 0 ≤ n) : Brief n := by
  have bound : n.natAbs < 10 ^ digitLimit := by
    have numerals {ds : List Nat} {cs : List Char} (digits : Digits cs ds) (few : ds.length ≤ digitLimit) :
        numeral ds < 10 ^ digitLimit :=
      Nat.lt_of_lt_of_le (numeral_lt digits.lt_ten) (Nat.pow_le_pow_right (by decide) few)
    cases writes with
    | between _ signed =>
      cases signed with
      | bare digits few => exact numerals digits few
      | plus digits few => exact numerals digits few
      | minus digits few =>
        rw [Int.natAbs_neg]
        exact numerals digits few
  exact ⟨nonnegative,(Nat.length_toDigits_le_iff (by decide) (by decide)).mpr bound⟩

end InfraGraph.Text
