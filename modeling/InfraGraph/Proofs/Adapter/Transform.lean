import InfraGraph.Adapter.Options
import InfraGraph.Adapter.Standard
import InfraGraph.Proofs.Adapter.Registry
import InfraGraph.Proofs.Graph.Validation

/-!
What becomes of a graph that is to be transformed, after any calls that register adapters. The format is looked up and a
transformer constructed before the graph is validated, the graph is validated before it is ordered, and what the transformer
makes of the operations in order is the end.
-/
namespace InfraGraph.Registry
open Run (Yields opened closed)

/-- What is done with a graph before a transformer gets its operations. -/
def prepare (g : Graph) (reports : Format) : Run (List Operation) := do
  g.ensureValid
  let operations ← g.topologicalSort
  Run.log .info logger ("Transforming " ++ toString operations.length ++ " operations to " ++ reports.text)
  return operations

/-- How the transformation of a graph ends, given the class for the format, if there is one. Without a class nothing is done,
    nor where no transformer can be constructed. A graph that fails validation ends with that failure, and all that was done
    is to validate it. Any other graph is prepared, and the transformer is called once, with its operations in order. -/
inductive Transforms (g : Graph) (format : Value) (options : Mapping) (env : Environment) (s : Session) :
    Option (AdapterClass TargetTransformer) → Except Failure String × Session → Prop
  | unsupported : Transforms g format options env s none (.error (.unsupportedFormat (.text "target") format.tagName),s)
  | unmade {made : AdapterClass TargetTransformer} {e : Failure} (constructs : made.construct = .error e) :
      Transforms g format options env s (some made) (.error e,s)
  | unsound {made : AdapterClass TargetTransformer} {T : TargetTransformer} {e : Failure} {t : Session}
      (constructs : made.construct = .ok T)
      (validates : Yields g.validate env (.ok (some e)) ∨ Yields g.validate env (.error e))
      (ended : g.ensureValid.start env s = (.error e,t)) : Transforms g format options env s (some made) (.error e,t)
  | called {made : AdapterClass TargetTransformer} {T : TargetTransformer} {ops : List Operation} {t : Session}
      (constructs : made.construct = .ok T) (validates : Yields g.validate env (.ok none))
      (prepared : (prepare g T.reports).start env s = (.ok ops,t)) (ordered : g.Schedule ops)
      (live : ∀ d ∈ g.dependencies, g.Live d) :
      Transforms g format options env s (some made) ((T.transform ops options).start env t)

variable {g : Graph} {env : Environment} {made : AdapterClass TargetTransformer} {T : TargetTransformer}

/-- The start of a transformation for which a transformer is found. -/
theorem start_transform {r : Registry} {format : Value} (found : r.transformer format = .ok T)
    (g : Graph) (options : Mapping) (env : Environment) (s : Session) : (r.transform g format options).start env s =
      closed "transform" logger "transform" s.context
        ((prepare g T.reports >>= fun ops => T.transform ops options).start env (opened "transform" logger "transform" s)) := by
  rw [transform,Run.start_step]
  congr 1
  simp only [prepare,Run.start_bind,Run.start_ofExcept,found]
  rcases g.ensureValid.start env (opened "transform" logger "transform" s) with ⟨_ | _,t⟩
  · rfl
  · rcases ordered : g.topologicalSort.start env t with ⟨_ | ops,u⟩
    · simp only [ordered]
    · simp only [ordered,Run.start_log,Run.start_pure]

theorem ensureValid_fails {e : Failure} (validates : Yields g.validate env (.ok (some e)) ∨ Yields g.validate env (.error e)) :
    Yields g.ensureValid env (.error e) := by
  rcases validates with reported | failed
  · exact Graph.ensureValid_yields reported
  · exact failed.fails

theorem prepare_yields (ids : ∀ op ∈ g.operations, op.id.isHashable = true) (validates : Yields g.validate env (.ok none))
    (reports : Format) : ∃ ops, Yields (prepare g reports) env (.ok ops) ∧ g.Schedule ops ∧
      ∀ d ∈ g.dependencies, g.Live d := by
  obtain ⟨t,passed⟩ := validates {}
  obtain ⟨keyed,live,acyclic,_⟩ := Graph.sound_of_validate ids passed
  refine ⟨g.sorted,(Graph.ensureValid_yields validates).bind ?_,Graph.sorted_schedule keyed acyclic,live⟩
  exact (Graph.topologicalSort_of_acyclic keyed acyclic env).bind ((Run.yields_log _ _ _).bind (Run.yields_pure _))

private theorem transforms_unsound {e : Failure} (constructs : made.construct = .ok T)
    (validates : Yields g.validate env (.ok (some e)) ∨ Yields g.validate env (.error e))
    (format : Value) (options : Mapping) (s : Session) : Transforms g format options env s (some made)
      ((prepare g T.reports >>= fun ops => T.transform ops options).start env s) := by
  obtain ⟨t,ended⟩ := ensureValid_fails validates s
  have stopped : (prepare g T.reports).start env s = (.error e,t) := by rw [prepare,Run.start_bind,ended]
  rw [Run.start_bind,stopped]
  exact .unsound constructs validates ended

/-- With a transformer, a transformation ends by the rules, whatever validation finds. -/
theorem transforms_served (ids : ∀ op ∈ g.operations, op.id.isHashable = true) (constructs : made.construct = .ok T)
    (format : Value) (options : Mapping) (env : Environment) (s : Session) : Transforms g format options env s (some made)
      ((prepare g T.reports >>= fun ops => T.transform ops options).start env s) := by
  obtain ⟨result,settled,_⟩ := g.validate_settled env
  cases result with
  | error e => exact transforms_unsound constructs (.inr settled) format options s
  | ok problem =>
    cases problem with
    | some e => exact transforms_unsound constructs (.inl settled) format options s
    | none =>
      obtain ⟨ops,yields,ordered,live⟩ := prepare_yields ids settled T.reports
      obtain ⟨t,prepared⟩ := yields s
      rw [Run.start_bind,prepared]
      exact .called constructs settled prepared ordered live

/-- What a class itself does to end a transformation with an unsupported format: it constructs no transformer but fails so,
    or the transformer does when it is called. -/
inductive OwnFault (g : Graph) (options : Mapping) (env : Environment) (s : Session) (made : AdapterClass TargetTransformer) :
    Prop
  | construct {e : Failure} (constructs : made.construct = .error e) (unsupported : e.Unsupported)
  | call {T : TargetTransformer} {ops : List Operation} {t : Session} {e : Failure} (constructs : made.construct = .ok T)
      (validates : Yields g.validate env (.ok none)) (prepared : (prepare g T.reports).start env s = (.ok ops,t))
      (fails : ((T.transform ops options).start env t).1 = .error e) (unsupported : e.Unsupported)

/-- Where there is a class, only the class itself can make a transformation end with an unsupported format. -/
theorem Transforms.unsupported_iff {format : Value} {options : Mapping} {s : Session}
    {made? : Option (AdapterClass TargetTransformer)} {ended : Except Failure String × Session}
    (ends : Transforms g format options env s made? ended) : (∃ e, ended.1 = .error e ∧ e.Unsupported) ↔
      made? = none ∨ ∃ made, made? = some made ∧ OwnFault g options env s made := by
  cases ends with
  | unsupported => exact ⟨fun _ => .inl rfl,fun _ => ⟨_,rfl,_,_,rfl⟩⟩
  | @unmade made e constructs =>
    constructor
    · rintro ⟨_,⟨⟩,unsupported⟩
      exact .inr ⟨made,rfl,.construct constructs unsupported⟩
    · rintro (⟨⟨⟩⟩ | ⟨_,⟨⟩,own⟩)
      cases own with
      | construct again unsupported =>
        cases constructs.symm.trans again
        exact ⟨e,rfl,unsupported⟩
      | call again => cases constructs.symm.trans again
  | @unsound made T e t constructs validates ended =>
    obtain ⟨result,settled,others⟩ := g.validate_settled env
    have supported : ¬ e.Unsupported := by
      rcases validates with reported | failed
      · exact others e (.inr (settled.unique reported))
      · exact others e (.inl (settled.unique failed))
    constructor
    · rintro ⟨_,⟨⟩,unsupported⟩
      exact absurd unsupported supported
    · rintro (⟨⟨⟩⟩ | ⟨_,⟨⟩,own⟩)
      cases own with
      | construct again => cases constructs.symm.trans again
      | call _ sound =>
        rcases validates with reported | failed
        · cases reported.unique sound
        · cases failed.unique sound
  | @called made T ops t constructs validates prepared ordered live =>
    constructor
    · rintro ⟨e,fails,unsupported⟩
      exact .inr ⟨made,rfl,.call constructs validates prepared fails unsupported⟩
    · rintro (⟨⟨⟩⟩ | ⟨_,⟨⟩,own⟩)
      cases own with
      | construct again => cases constructs.symm.trans again
      | @call _ _ _ e again _ readied fails unsupported =>
        cases constructs.symm.trans again
        cases prepared.symm.trans readied
        exact ⟨e,fails,unsupported⟩

theorem transform_ends (calls : List Registration) (ids : ∀ op ∈ g.operations, op.id.isHashable = true) (format : Value)
    (options : Mapping) (env : Environment) (s : Session) : ∃ ended,
      Transforms g format options env (opened "transform" logger "transform" s)
        (Role.transformers.registered? calls format) ended ∧
      ((empty.after calls).transform g format options).start env s =
        closed "transform" logger "transform" s.context ended := by
  have lookup : (empty.after calls).transformer format = _ := Role.transformers.find_after calls format
  cases served : Role.transformers.registered? calls format with
  | none =>
    rw [served] at lookup
    refine ⟨_,.unsupported,?_⟩
    rw [transform,Run.start_step,Run.start_bind,Run.start_ofExcept,lookup]
    rfl
  | some made =>
    simp only [served] at lookup
    cases constructs : made.construct with
    | error e =>
      refine ⟨_,.unmade constructs,?_⟩
      rw [transform,Run.start_step,Run.start_bind,Run.start_ofExcept,lookup,constructs]
    | ok T =>
      rw [constructs] at lookup
      exact ⟨_,transforms_served ids constructs format options env _,start_transform lookup g options env s⟩

/-- A transformation ends by the rules, whatever was registered before and whatever the graph is. It ends with an
    unsupported format where no class was accepted for it, and else only if the one that was fails so itself. The
    context is in the end what it was. -/
theorem transform_total_correct (calls : List Registration) (g : Graph)
    (ids : ∀ op ∈ g.operations, op.id.isHashable = true) (format : Value) (options : Mapping) (env : Environment)
    (s : Session) : ∃ ended,
      Transforms g format options env (opened "transform" logger "transform" s)
        (Role.transformers.registered? calls format) ended ∧
      ((empty.after calls).transform g format options).start env s =
        closed "transform" logger "transform" s.context ended ∧
      ((∃ e, (((empty.after calls).transform g format options).start env s).1 = .error e ∧ e.Unsupported) ↔
        Role.transformers.registered? calls format = none ∨ ∃ made,
          Role.transformers.registered? calls format = some made ∧
          OwnFault g options env (opened "transform" logger "transform" s) made) ∧
      (((empty.after calls).transform g format options).start env s).2.context = s.context := by
  obtain ⟨ended,rules,ran⟩ := transform_ends calls ids format options env s
  refine ⟨ended,rules,ran,?_,?_⟩
  · rw [ran,Run.closed_fst]
    exact rules.unsupported_iff
  · rw [ran,Run.closed_context]

/-- A sound graph that is not in order, with an identifier that is used twice. -/
def ladder : Graph :=
  .assemble [Graph.bareOperation "b",Graph.bareOperation "a",Graph.bareOperation "b"] [Graph.bareDependency "a" "b"] .empty

/-- Registrations of which the second one fails. -/
def signedUp : List Registration :=
  [.transformer (.text "salt") (TargetTransformer.lines .salt),
    .transformer (.tag (.source .salt)) (TargetTransformer.failing .salt),.parser (.text "chef") (SourceParser.failing .chef)]

theorem transform_ladder : (∀ op ∈ ladder.operations, op.id.isHashable = true) ∧ ∃ ended,
    Transforms ladder (.tag (.target .salt)) .empty .empty (opened "transform" logger "transform" {})
      (some (TargetTransformer.lines .salt)) ended ∧
    ((empty.after signedUp).transform ladder (.tag (.target .salt)) .empty).start .empty {} =
      closed "transform" logger "transform" {} ended ∧
    ended.1 = .ok "step a\nstep b" := by
  have ids : ∀ op ∈ ladder.operations, op.id.isHashable = true := by decide
  obtain ⟨ended,rules,ran,_⟩ := transform_total_correct signedUp ladder ids (.tag (.target .salt)) .empty .empty {}
  refine ⟨ids,ended,rules,ran,?_⟩
  rw [← Run.closed_fst "transform" logger "transform" {} ended,← ran]
  rfl

/-- Where no transformer can be constructed, an unsound graph is not even validated. -/
example (e : Failure) : (((empty.after [.transformer (.text "salt") ⟨.error e⟩]).transform
    (.assemble [] [Graph.bareDependency "a" "b"] .empty) (.text "salt") .empty).start .empty {}).1 = .error e := rfl

/-! ### Options by name -/

/-- All options have texts for their names, and none has a name that is taken. -/
def FreelyNamed (taken : List String) (options : Mapping) : Prop :=
  ∀ key ∈ options.keys, ∃ name, key.text? = some name ∧ name ∉ taken

private theorem clash?_eq_none {taken : List String} {options : Mapping} :
    clash? taken options = none ↔ ∀ key ∈ options.keys, ∀ name, key.text? = some name → name ∉ taken := by
  simp [clash?]

/-- If all options are freely named, a body is carried out as if they had come in any other way. If not, the body is not
    begun: the run fails with a bad type and keeps the context. -/
theorem withNames_cases {α : Type} (step : String) (taken : List String) (options : Mapping) (body : Run α) :
    FreelyNamed taken options ∧ withNames step taken options body = body ∨
      ¬ FreelyNamed taken options ∧ ∃ message, ∀ env s, ∃ t,
        (withNames step taken options body).start env s = (.error (.fault (.badType message)),t) ∧ t.context = s.context := by
  unfold withNames requireNames Mapping.requireTextKeys
  cases odd : options.keys.find? (!·.isText) with
  | some key =>
    refine .inr ⟨fun named => ?_,_,fun env s => ⟨s,rfl,rfl⟩⟩
    obtain ⟨name,text,_⟩ := named key (List.mem_of_find?_eq_some odd)
    have untold := List.find?_some odd
    simp [Value.isText,text] at untold
  | none =>
    have texts : ∀ key ∈ options.keys, ∃ name, key.text? = some name := by
      intro key member
      have told : key.isText = true := by simpa using List.find?_eq_none.mp odd key member
      exact Option.isSome_iff_exists.mp told
    cases clash : clash? taken options with
    | none =>
      refine .inl ⟨fun key member => ?_,rfl⟩
      obtain ⟨name,text⟩ := texts key member
      exact ⟨name,text,clash?_eq_none.mp clash key member name text⟩
    | some name =>
      refine .inr ⟨fun named => ?_,_,fun env s => ⟨_,rfl,rfl⟩⟩
      have free : clash? taken options = none := by
        refine clash?_eq_none.mpr fun key member other text => ?_
        obtain ⟨given,same,notin⟩ := named key member
        obtain rfl : other = given := Option.some.inj (text.symm.trans same)
        exact notin
      rw [clash] at free
      cases free

theorem withNames_eq {α : Type} {step : String} {taken : List String} {options : Mapping}
    (named : FreelyNamed taken options) (body : Run α) : withNames step taken options body = body := by
  rcases withNames_cases step taken options body with ⟨_,same⟩ | ⟨clashing,_⟩
  · exact same
  · exact absurd named clashing

/-- A graph is transformed with options by name as with any others, once they are freely named. -/
theorem transformNamed_eq {options : Mapping} (named : FreelyNamed ["self","graph","target_format"] options) (r : Registry)
    (g : Graph) (format : Value) : r.transformNamed g format options = r.transform g format options :=
  withNames_eq named _

theorem parseNamed_eq {options : Mapping} (named : FreelyNamed ["self","source_format","content"] options) (r : Registry)
    (format content : Value) : r.parseNamed format content options = r.parse format content options :=
  withNames_eq named _

end InfraGraph.Registry
