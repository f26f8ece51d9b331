import InfraGraph.Proofs.Text.Integer
import InfraGraph.Proofs.Version
import Mathlib.Data.List.Basic
import Mathlib.Data.Prod.Lex

/-!
Text and order of versions. A version is read back from its text, which tells it from all others, although many more texts
are read. Versions are ordered by their numbers, the first one first, and each comparison says of two versions what this
order says.
-/
namespace InfraGraph.Version

/-! ### Texts -/

/-- Each number of a version is brief enough to be read. -/
structure Brief (v : Version) : Prop where
  major : Text.Brief v.major
  minor : Text.Brief v.minor
  patch : Text.Brief v.patch

/-- Two or three texts write the numbers of a version. A patch number that is not there is zero. -/
inductive Spelled : List (List Char) → Version → Prop
  | short {a b : List Char} {major minor : Int} (first : Text.Writes a major ∧ 0 ≤ major)
      (second : Text.Writes b minor ∧ 0 ≤ minor) : Spelled [a,b] ⟨major,minor,0⟩
  | full {a b c : List Char} {major minor patch : Int} (first : Text.Writes a major ∧ 0 ≤ major)
      (second : Text.Writes b minor ∧ 0 ≤ minor) (third : Text.Writes c patch ∧ 0 ≤ patch) :
      Spelled [a,b,c] ⟨major,minor,patch⟩

/-- The parts of a text between its points. -/
def partsOf (t : String) : List (List Char) := t.toList.splitOn '.'

theorem numbers_iff_writes {cs : List Char} {n : Int} : Numbers cs n ↔ '.' ∉ cs ∧ Text.Writes cs n ∧ 0 ≤ n := by
  rw [Numbers,Text.readInteger?_eq_some]

/-- A text writes a version by its parts. -/
theorem written_iff_spelled {cs : List Char} {v : Version} : Written cs v ↔ Spelled (cs.splitOn '.') v := by
  constructor
  · intro written
    cases written with
    | short first second =>
      rw [List.splitOn_append_cons_self_of_not_mem first.1,List.splitOn_eq_singleton second.1]
      exact .short (numbers_iff_writes.mp first).2 (numbers_iff_writes.mp second).2
    | full first second third =>
      rw [List.splitOn_append_cons_self_of_not_mem first.1,List.splitOn_append_cons_self_of_not_mem second.1,
        List.splitOn_eq_singleton third.1]
      exact .full (numbers_iff_writes.mp first).2 (numbers_iff_writes.mp second).2 (numbers_iff_writes.mp third).2
  · intro spelled
    obtain ⟨clean,whole⟩ := splitAt_spec '.' cs
    rw [splitAt_eq] at clean whole
    generalize cs.splitOn '.' = parts at spelled clean whole
    subst whole
    cases spelled with
    | @short a b _ _ first second =>
      have text : ['.'].intercalate [a,b] = a ++ '.' :: b := by simp [List.intercalate]
      rw [text]
      exact .short (numbers_iff_writes.mpr ⟨clean a (by simp),first⟩) (numbers_iff_writes.mpr ⟨clean b (by simp),second⟩)
    | @full a b c _ _ _ first second third =>
      have text : ['.'].intercalate [a,b,c] = a ++ '.' :: (b ++ '.' :: c) := by simp [List.intercalate]
      rw [text]
      exact .full (numbers_iff_writes.mpr ⟨clean a (by simp),first⟩) (numbers_iff_writes.mpr ⟨clean b (by simp),second⟩)
        (numbers_iff_writes.mpr ⟨clean c (by simp),third⟩)

theorem read?_iff_spelled {t : String} {v : Version} : read? t.toList = some v ↔ Spelled (partsOf t) v := by
  rw [read?_eq_some,written_iff_spelled,partsOf]

theorem parse_eq_ok {t : String} {v : Version} : parse (.text t) = .ok v ↔ Spelled (partsOf t) v := by
  have plain : (Value.text t).plain = t := rfl
  rw [← read?_iff_spelled,parse,plain]
  cases read? t.toList with
  | none => simp
  | some w => simp

theorem parse_of_none {t : String} (none : ¬ ∃ v, Spelled (partsOf t) v) :
    parse (.text t) = .error (.badValue (unreadable t)) := by
  have plain : (Value.text t).plain = t := rfl
  have unread : read? t.toList = Option.none :=
    Option.eq_none_iff_forall_ne_some.mpr fun v found => none ⟨v,read?_iff_spelled.mp found⟩
  rw [parse,plain,unread]

/-- Two or three parts spell some version exactly if each one writes an integer that is not negative. -/
theorem exists_spelled {parts : List (List Char)} : (∃ v, Spelled parts v) ↔
    (parts.length = 2 ∨ parts.length = 3) ∧ ∀ part ∈ parts, ∃ n, Text.Writes part n ∧ 0 ≤ n := by
  constructor
  · rintro ⟨v,spelled⟩
    cases spelled with
    | short first second => exact ⟨.inl rfl,by simpa using ⟨⟨_,first⟩,⟨_,second⟩⟩⟩
    | full first second third => exact ⟨.inr rfl,by simpa using ⟨⟨_,first⟩,⟨_,second⟩,⟨_,third⟩⟩⟩
  · rintro ⟨two | three,each⟩
    · obtain ⟨a,b,rfl⟩ := List.length_eq_two.mp two
      obtain ⟨major,first⟩ := each a (by simp)
      obtain ⟨minor,second⟩ := each b (by simp)
      exact ⟨_,.short first second⟩
    · obtain ⟨a,b,c,rfl⟩ := List.length_eq_three.mp three
      obtain ⟨major,first⟩ := each a (by simp)
      obtain ⟨minor,second⟩ := each b (by simp)
      obtain ⟨patch,third⟩ := each c (by simp)
      exact ⟨_,.full first second third⟩

theorem Spelled.brief {parts : List (List Char)} {v : Version} (spelled : Spelled parts v) : v.Brief := by
  cases spelled with
  | short first second => exact ⟨first.1.brief first.2,second.1.brief second.2,Text.brief_zero⟩
  | full first second third => exact ⟨first.1.brief first.2,second.1.brief second.2,third.1.brief third.2⟩

/-- An integer that is not negative is printed as its decimal numeral. -/
theorem toList_repr {n : Int} (nonnegative : 0 ≤ n) : n.repr.toList = Nat.toDigits 10 n.natAbs := by
  obtain ⟨k,rfl⟩ := Int.eq_ofNat_of_zero_le nonnegative
  exact String.toList_ofList

theorem point_notin (n : Nat) : '.' ∉ Nat.toDigits 10 n := by
  intro member
  have digit := Nat.isDigit_of_mem_toDigits (by decide) (by decide) member
  revert digit
  decide

theorem partsOf_text {v : Version} (brief : v.Brief) : partsOf v.text =
    [Nat.toDigits 10 v.major.natAbs,Nat.toDigits 10 v.minor.natAbs,Nat.toDigits 10 v.patch.natAbs] := by
  have whole : v.text.toList = Nat.toDigits 10 v.major.natAbs ++ '.' :: (Nat.toDigits 10 v.minor.natAbs ++
      '.' :: Nat.toDigits 10 v.patch.natAbs) := by
    rw [← toList_repr brief.major.nonnegative,← toList_repr brief.minor.nonnegative,← toList_repr brief.patch.nonnegative]
    simp [text]
  rw [partsOf,whole,List.splitOn_append_cons_self_of_not_mem (point_notin _),
    List.splitOn_append_cons_self_of_not_mem (point_notin _),List.splitOn_eq_singleton (point_notin _)]

/-- A version with brief numbers is read back from its text. -/
theorem parse_text {v : Version} (brief : v.Brief) : parse (.text v.text) = .ok v := by
  have number {n : Int} (brief : Text.Brief n) : Text.Writes (Nat.toDigits 10 n.natAbs) n ∧ 0 ≤ n := by
    have writes := Text.writes_toDigits brief.few
    rw [Int.natAbs_of_nonneg brief.nonnegative] at writes
    exact ⟨writes,brief.nonnegative⟩
  rw [parse_eq_ok,partsOf_text brief]
  exact .full (number brief.major) (number brief.minor) (number brief.patch)

/-- What becomes of a text: it is read exactly if it has two or three parts that write integers which are not negative, and
    then as these numbers, as which it is also read after it has been printed. -/
structure Read (t : String) : Prop where
  accepted : (∃ v, parse (.text t) = .ok v) ↔ ((partsOf t).length = 2 ∨ (partsOf t).length = 3) ∧
    ∀ part ∈ partsOf t, ∃ n, Text.Writes part n ∧ 0 ≤ n
  value : ∀ v, parse (.text t) = .ok v ↔ Spelled (partsOf t) v
  refused : (¬ ∃ v, parse (.text t) = .ok v) → parse (.text t) = .error (.badValue (unreadable t))
  again : ∀ v, parse (.text t) = .ok v → parse (.text v.text) = .ok v

theorem text_read (t : String) : Read t where
  accepted := by simp only [parse_eq_ok,exists_spelled]
  value v := parse_eq_ok
  refused none := parse_of_none (by simpa only [parse_eq_ok] using none)
  again v read := parse_text (parse_eq_ok.mp read).brief

/-! ### Order -/

/-- The numbers of a version in the lexicographic order. -/
def numbers (v : Version) : Int ×ₗ Int ×ₗ Int := toLex (v.major,toLex (v.minor,v.patch))

theorem numbers_injective : Function.Injective numbers := by
  intro a b equal
  cases a
  cases b
  simpa [numbers] using equal

theorem lt_iff {a b : Version} : a.lt b = true ↔ a.numbers < b.numbers := by
  simp [lt,numbers,Prod.Lex.toLex_lt_toLex]

/-- What the comparisons say of two versions. -/
structure Compared (a b : Version) : Prop where
  numeric : a.lt b = true ↔ a.numbers < b.numbers
  three : (a.lt b = true ∧ a ≠ b ∧ b.lt a = false) ∨ (a.lt b = false ∧ a = b ∧ b.lt a = false) ∨
    (a.lt b = false ∧ a ≠ b ∧ b.lt a = true)
  le : a.le b = true ↔ a.lt b = true ∨ a = b
  gt : a.gt b = true ↔ b.lt a = true
  ge : a.ge b = true ↔ b.lt a = true ∨ a = b

theorem compared (a b : Version) : Compared a b := by
  have lt_false {a b : Version} : a.lt b = false ↔ ¬ a.numbers < b.numbers := by rw [← lt_iff,Bool.not_eq_true]
  have le : a.le b = true ↔ a.lt b = true ∨ a = b := by simp [Version.le]
  rcases lt_trichotomy a.numbers b.numbers with less | equal | more
  · have first := lt_iff.mpr less
    have other : a ≠ b := fun equal => less.ne (congrArg numbers equal)
    have second := lt_false.mpr less.not_gt
    exact ⟨lt_iff,.inl ⟨first,other,second⟩,le,by simp [gt,first,second],by simp [ge,first,second,other]⟩
  · obtain rfl := numbers_injective equal
    have none := lt_false.mpr (lt_irrefl a.numbers)
    exact ⟨lt_iff,.inr (.inl ⟨none,rfl,none⟩),le,by simp [gt,none],by simp [ge,none]⟩
  · have first := lt_false.mpr more.not_gt
    have other : a ≠ b := fun equal => more.ne' (congrArg numbers equal)
    have second := lt_iff.mpr more
    exact ⟨lt_iff,.inr (.inr ⟨first,other,second⟩),le,by simp [gt,first,second,other],by simp [ge,first,second]⟩

/-- Versions with numbers that are not too long are read back from their texts, which tell them apart. A text is read exactly
    if it has two or three parts that write integers which are not negative, blanks, signs, underscores and digits of all
    scripts included, and then its version is read back too. Of two versions one is before the other one or they are equal,
    by their numbers in lexicographic order, and all comparisons agree on it. -/
theorem text_order_total_correct :
    (∀ v : Version, v.Brief → parse (.text v.text) = .ok v) ∧
    (∀ v w : Version, v.Brief → w.Brief → v.text = w.text → v = w) ∧
    (∀ t : String, Read t) ∧ (∀ a b : Version, Compared a b) ∧
    ∀ a b c : Version, a.lt b = true → b.lt c = true → a.lt c = true := by
  refine ⟨fun v brief => parse_text brief,?_,text_read,compared,?_⟩
  · intro v w first second equal
    have read := parse_text first
    rw [equal] at read
    exact Except.ok.inj (read.symm.trans (parse_text second))
  · intro a b c first second
    rw [lt_iff] at first second ⊢
    exact first.trans second

/-- The last of three versions by their numbers, with the first of their texts, and read from more than its text. -/
theorem text_order_ten : (⟨1,10,0⟩ : Version).Brief ∧ parse (.text "1.10.0") = .ok ⟨1,10,0⟩ ∧
    parse (.text " 1.+1_0") = .ok ⟨1,10,0⟩ ∧ parse (.text "1.-10") = .error (.badValue (unreadable "1.-10")) ∧
    (⟨1,2,0⟩ : Version).lt ⟨1,9,0⟩ = true ∧ (⟨1,9,0⟩ : Version).lt ⟨1,10,0⟩ = true ∧
    (⟨1,2,0⟩ : Version).lt ⟨1,10,0⟩ = true ∧ "1.10.0" < "1.2.0" := by
  obtain ⟨back,_,texts,orders,chain⟩ := text_order_total_correct
  have brief : (⟨1,10,0⟩ : Version).Brief := ⟨⟨by decide,by decide⟩,⟨by decide,by decide⟩,Text.brief_zero⟩
  have spaced : parse (.text " 1.+1_0") = .ok ⟨1,10,0⟩ := rfl
  have negative : ¬ ∃ v, parse (.text "1.-10") = .ok v := fun ⟨v,read⟩ => nomatch read
  have first := (orders ⟨1,2,0⟩ ⟨1,9,0⟩).numeric.mpr (by decide)
  have second := (orders ⟨1,9,0⟩ ⟨1,10,0⟩).numeric.mpr (by decide)
  exact ⟨brief,back _ brief,spaced,(texts _).refused negative,first,second,chain _ _ _ first second,by decide⟩

end InfraGraph.Version
