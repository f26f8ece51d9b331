import InfraGraph.Operation
import InfraGraph.Proofs.Label
import InfraGraph.Proofs.Run
import InfraGraph.Proofs.Value.Sameness

/-!
What operations require. Three types have a rule that names parameters, of which an operation of that type may lack one;
operations of all other types lack nothing. Validation reports exactly what is lacking.
-/
namespace InfraGraph.Operation

/-- The type is text, and a word wherever it is the text of one. -/
structure Labelled (op : Operation) : Prop where
  text : op.typeValue.isText = true
  settled : Label.ofValue op.typeValue = op.type

/-- An operation has a parameter of a name, under any form of the key. -/
def Has (op : Operation) (name : String) : Prop := ∃ e ∈ op.params.entries, (e.1 == .text name) = true

/-- What an operation lacks by the rule of its type. A package and a service may go by a name instead; a file needs
    first a path and then a content or a source. -/
inductive Lacks (op : Operation) : String → Prop
  | package (type : op.typeName = "package_install") (absent : ¬ op.Has "package") (unnamed : ¬ op.Has "name") :
      Lacks op "package"
  | service (type : op.typeName = "service_start") (absent : ¬ op.Has "service") (unnamed : ¬ op.Has "name") :
      Lacks op "service"
  | path (type : op.typeName = "file_write") (absent : ¬ op.Has "path") : Lacks op "path"
  | content (type : op.typeName = "file_write") (placed : op.Has "path") (absent : ¬ op.Has "content")
      (unsourced : ¬ op.Has "source") : Lacks op "content_or_source"

/-- An operation breaks the rule of its type. -/
def Faulty (op : Operation) : Prop := ∃ field, op.Lacks field

instance (op : Operation) (name : String) : Decidable (op.Has name) :=
  inferInstanceAs (Decidable (∃ e ∈ op.params.entries, (e.1 == .text name) = true))

/-- An operation lacks one thing at most: types have one rule, and a file without a path is asked for nothing else. -/
theorem Lacks.unique {op : Operation} {a b : String} (first : op.Lacks a) (second : op.Lacks b) : a = b := by
  cases first with
  | package type => cases second <;> simp_all
  | service type => cases second <;> simp_all
  | path type absent => cases second <;> simp_all
  | content type placed => cases second <;> simp_all

theorem beq_iff {a b : Operation} : (a == b) = true ↔
    (a.id == b.id) = true ∧ (a.typeValue == b.typeValue) = true ∧ (a.params.toValue == b.params.toValue) = true ∧
      (a.target.toValue == b.target.toValue) = true ∧ (a.metadata.toValue == b.metadata.toValue) = true := by
  change (_ && _ && _ && _ && _) = true ↔ _
  simp only [Bool.and_eq_true,and_assoc]
  exact Iff.rfl

instance : ReflBEq Operation where
  rfl := beq_iff.mpr ⟨BEq.rfl,BEq.rfl,BEq.rfl,BEq.rfl,BEq.rfl⟩

private theorem requireAny_iff {op : Operation} {names : List String} {field sought : String} :
    requireAny op.params names field = some sought ↔ field = sought ∧ ∀ name ∈ names, ¬ op.Has name := by
  have present : (names.any fun name => op.params.contains (.text name)) = true ↔ ∃ name ∈ names, op.Has name := by
    simp only [List.any_eq_true,Table.contains,Has]
  unfold requireAny
  split
  · next found =>
    obtain ⟨name,member,has⟩ := present.mp found
    simp only [reduceCtorEq,false_iff,not_and,not_forall,not_not]
    exact fun _ => ⟨name,member,has⟩
  · next absent =>
    rw [present] at absent
    simp only [Option.some.injEq,iff_self_and]
    exact fun _ name member has => absent ⟨name,member,has⟩

private theorem known_of_name {op : Operation} (labelled : op.Labelled) {word : Action}
    (type : op.typeName = word.text) : op.type = .known word := by
  have text := Label.text_of_isText (fun _ => rfl) labelled.text
  have named : op.typeValue.text? = some word.text := text.trans (congrArg some type)
  rw [← labelled.settled,Label.ofValue_of_text named]

private theorem path_iff {op : Operation} : requireAny op.params ["path"] "path" = none ↔ op.Has "path" := by
  rw [Option.eq_none_iff_forall_ne_some]
  constructor
  · intro placed
    by_contra absent
    exact placed "path" (requireAny_iff.mpr ⟨rfl,by simpa using absent⟩)
  · intro placed field lacked
    exact (requireAny_iff.mp lacked).2 "path" (by simp) placed

private theorem lacks_of_lackedBy {op : Operation} {action : Action} (known : op.type = .known action) {field : String}
    (lacked : lackedBy op.params action = some field) : op.Lacks field := by
  have type : op.typeName = action.text := by
    rw [typeName,known]
    rfl
  cases action with
  | packageInstall =>
    obtain ⟨rfl,absent⟩ := requireAny_iff.mp lacked
    exact .package type (absent _ (by simp)) (absent _ (by simp))
  | serviceStart =>
    obtain ⟨rfl,absent⟩ := requireAny_iff.mp lacked
    exact .service type (absent _ (by simp)) (absent _ (by simp))
  | fileWrite =>
    simp only [lackedBy] at lacked
    split at lacked
    · next path =>
      obtain ⟨rfl,absent⟩ := requireAny_iff.mp (path.trans lacked)
      exact .path type (absent _ (by simp))
    · next placed =>
      obtain ⟨rfl,absent⟩ := requireAny_iff.mp lacked
      exact .content type (path_iff.mp placed) (absent _ (by simp)) (absent _ (by simp))
  | _ => cases lacked

/-- Only words have rules, and what is lacking is what the rule finds. -/
private theorem Lacks.lackedBy {op : Operation} (labelled : op.Labelled) {field : String} (lacks : op.Lacks field) :
    ∃ action, op.type = .known action ∧ Operation.lackedBy op.params action = some field := by
  cases lacks with
  | package type absent unnamed =>
    exact ⟨.packageInstall,known_of_name labelled type,requireAny_iff.mpr ⟨rfl,by simpa using ⟨absent,unnamed⟩⟩⟩
  | service type absent unnamed =>
    exact ⟨.serviceStart,known_of_name labelled type,requireAny_iff.mpr ⟨rfl,by simpa using ⟨absent,unnamed⟩⟩⟩
  | path type absent =>
    have path : requireAny op.params ["path"] "path" = some "path" := requireAny_iff.mpr ⟨rfl,by simpa using absent⟩
    exact ⟨.fileWrite,known_of_name labelled type,by simp only [Operation.lackedBy,path]⟩
  | content type placed absent unsourced =>
    refine ⟨.fileWrite,known_of_name labelled type,?_⟩
    simp only [Operation.lackedBy,path_iff.mpr placed]
    exact requireAny_iff.mpr ⟨rfl,by simpa using ⟨absent,unsourced⟩⟩

/-- Validation of an operation reports the parameter that it lacks, with its type, and nothing if it lacks none. -/
theorem validate_spec {op : Operation} (labelled : op.Labelled) :
    (∃ field, op.Lacks field ∧ op.validate = .ok (some ⟨op.typeName,.text field⟩)) ∨
      (¬ op.Faulty ∧ op.validate = .ok none) := by
  cases type : op.type with
  | known action =>
    have validated : op.validate = .ok ((lackedBy op.params action).map fun field => ⟨op.typeName,.text field⟩) := by
      rw [validate,type]
    rw [validated]
    cases lacked : lackedBy op.params action with
    | some field => exact .inl ⟨field,lacks_of_lackedBy type lacked,rfl⟩
    | none =>
      refine .inr ⟨?_,rfl⟩
      rintro ⟨field,lacks⟩
      obtain ⟨other,known,found⟩ := lacks.lackedBy labelled
      obtain rfl := Label.known.inj (type.symm.trans known)
      rw [lacked] at found
      cases found
  -- A label that is no word has no rule. It is looked up all the same, which texts can be.
  | other v =>
    have text : v.isText = true := by
      have text := labelled.text
      rwa [typeValue,type] at text
    refine .inr ⟨?_,?_⟩
    · rintro ⟨field,lacks⟩
      obtain ⟨action,known,_⟩ := lacks.lackedBy labelled
      cases type.symm.trans known
    · have looked := Value.requireHashable_eq_ok.mpr (Value.hashable_of_text text)
      rw [validate,type]
      simp only [looked]
      rfl

end InfraGraph.Operation
