import InfraGraph.Version

/-!
Which texts write a version: two or three numbers with points between them.
-/
namespace InfraGraph.Version

/-- A text without points writes a number that is not negative. -/
def Numbers (cs : List Char) (n : Int) : Prop := '.' ∉ cs ∧ Text.readInteger? cs = some n ∧ 0 ≤ n

/-- A text writes a version. A patch number that is not there is zero. -/
inductive Written : List Char → Version → Prop
  | short {a b : List Char} {major minor : Int} (first : Numbers a major) (second : Numbers b minor) :
      Written (a ++ '.' :: b) ⟨major,minor,0⟩
  | full {a b c : List Char} {major minor patch : Int} (first : Numbers a major) (second : Numbers b minor)
      (third : Numbers c patch) : Written (a ++ '.' :: (b ++ '.' :: c)) ⟨major,minor,patch⟩

theorem splitAt_eq (separator : Char) (cs : List Char) : splitAt separator cs = cs.splitOn separator := by
  induction cs with
  | nil => rfl
  | cons c rest ih =>
    rw [splitAt,List.splitOn_cons_eq_if_modifyHead,ih]
    by_cases here : c = separator
    · simp [here]
    · rw [if_neg here,if_neg (by simpa using here)]
      cases parts : rest.splitOn separator with
      | nil => exact absurd parts (List.splitOn_ne_nil separator rest)
      | cons part others => rfl

/-- The parts between separators hold none, and with the separators they are the text. -/
theorem splitAt_spec (separator : Char) (cs : List Char) :
    (∀ part ∈ splitAt separator cs, separator ∉ part) ∧ [separator].intercalate (splitAt separator cs) = cs := by
  constructor
  · induction cs with
    | nil => simp [splitAt]
    | cons c rest ih =>
      rw [splitAt]
      split
      · exact List.forall_mem_cons.mpr ⟨List.not_mem_nil,ih⟩
      · next other =>
        split
        · exact List.forall_mem_singleton.mpr (by simpa using Ne.symm other)
        · next part others parts =>
          rw [parts] at ih
          obtain ⟨first,later⟩ := List.forall_mem_cons.mp ih
          refine List.forall_mem_cons.mpr ⟨?_,later⟩
          rw [List.mem_cons]
          exact not_or.mpr ⟨Ne.symm other,first⟩
  · rw [splitAt_eq]
    exact List.intercalate_splitOn separator

theorem component?_eq_some {cs : List Char} {n : Int} :
    component? cs = some n ↔ Text.readInteger? cs = some n ∧ 0 ≤ n := by
  unfold component?
  cases Text.readInteger? cs with
  | none => simp
  | some m =>
    by_cases positive : 0 ≤ m
    · simp only [positive,if_true,Option.some.injEq]
      constructor
      · rintro rfl
        exact ⟨rfl,positive⟩
      · exact fun both => both.1
    · simp only [positive,if_false,Option.some.injEq,reduceCtorEq,false_iff]
      rintro ⟨rfl,also⟩
      exact positive also

/-- Reading finds exactly the version that a text writes. -/
theorem read?_eq_some {cs : List Char} {v : Version} : read? cs = some v ↔ Written cs v := by
  obtain ⟨clean,whole⟩ := splitAt_spec '.' cs
  constructor
  · intro found
    unfold read? at found
    split at found
    · next a b parts =>
      rw [parts] at clean whole
      split at found
      · next major minor first second =>
        cases found
        have text : a ++ '.' :: b = cs := by simpa [List.intercalate] using whole
        rw [← text]
        exact .short ⟨clean a (by simp),component?_eq_some.mp first⟩ ⟨clean b (by simp),component?_eq_some.mp second⟩
      · cases found
    · next a b c parts =>
      rw [parts] at clean whole
      split at found
      · next major minor patch first second third =>
        cases found
        have text : a ++ '.' :: (b ++ '.' :: c) = cs := by simpa [List.intercalate] using whole
        rw [← text]
        exact .full ⟨clean a (by simp),component?_eq_some.mp first⟩ ⟨clean b (by simp),component?_eq_some.mp second⟩
          ⟨clean c (by simp),component?_eq_some.mp third⟩
      · cases found
    · cases found
  · intro written
    cases written with
    | short first second =>
      rw [read?,splitAt_eq,List.splitOn_append_cons_self_of_not_mem first.1,List.splitOn_eq_singleton second.1]
      simp only [component?_eq_some.mpr first.2,component?_eq_some.mpr second.2]
    | full first second third =>
      rw [read?,splitAt_eq,List.splitOn_append_cons_self_of_not_mem first.1,
        List.splitOn_append_cons_self_of_not_mem second.1,List.splitOn_eq_singleton third.1]
      simp only [component?_eq_some.mpr first.2,component?_eq_some.mpr second.2,component?_eq_some.mpr third.2]

end InfraGraph.Version
