import InfraGraph.Proofs.Graph.Record

/-!
Which values are read as graphs. A record of the form of a graph is read, with one operation and one dependency for each
record in its lists, and does not depend on the version but for its major number. Every other value is refused as a faulty
record, and nothing else goes wrong.
-/
namespace InfraGraph
variable {env : Environment} {supply : Nat → String}

/-! ### Runs that accept -/

namespace Run
variable {α β : Type}

/-- Whatever the session is, given its supply of identifiers, a run returns something right on a condition and refuses
    a record otherwise. The supply stays. -/
structure Accepts (run : Run α) (env : Environment) (supply : Nat → String) (condition : Prop) (right : α → Prop) : Prop where
  returns : condition → ∀ s : Session, s.supply = supply →
    ∃ a t, run.start env s = (.ok a,t) ∧ t.supply = supply ∧ right a
  refuses : ¬ condition → ∀ s : Session, s.supply = supply →
    ∃ fault t, run.start env s = (.error (.invalidRecord fault),t)

theorem accepts_pure {a : α} {right : α → Prop} (holds : right a) : Accepts (pure a) env supply True right where
  returns _ s supplied := ⟨a,s,rfl,supplied,holds⟩
  refuses absurdly := absurd trivial absurdly

theorem accepts_ofRecord (result : Except RecordFault α) :
    Accepts (ofRecord result) env supply (∃ a, result = .ok a) fun a => result = .ok a where
  returns := by
    rintro ⟨a,rfl⟩ s supplied
    exact ⟨a,s,rfl,supplied,rfl⟩
  refuses none s _ := by
    cases result with
    | error fault => exact ⟨fault,s,rfl⟩
    | ok a => exact absurd ⟨a,rfl⟩ none

namespace Accepts
variable {run : Run α} {next : α → Run β} {p q : Prop} {R : α → Prop} {S : β → Prop}

theorem bind (first : Accepts run env supply p R) (second : ∀ a, R a → Accepts (next a) env supply q S) :
    Accepts (run >>= next) env supply (p ∧ q) S where
  returns both s supplied := by
    obtain ⟨a,t,executed,still,right⟩ := first.returns both.1 s supplied
    obtain ⟨b,u,continued,holds⟩ := (second a right).returns both.2 t still
    exact ⟨b,u,by rw [start_bind,executed]; exact continued,holds⟩
  refuses either s supplied := by
    by_cases before : p
    · obtain ⟨a,t,executed,still,right⟩ := first.returns before s supplied
      obtain ⟨fault,u,refused⟩ := (second a right).refuses (fun after => either ⟨before,after⟩) t still
      exact ⟨fault,u,by rw [start_bind,executed]; exact refused⟩
    · obtain ⟨fault,t,refused⟩ := first.refuses before s supplied
      exact ⟨fault,t,by rw [start_bind,refused]⟩

theorem congr (accepts : Accepts run env supply p R) (same : p ↔ q) : Accepts run env supply q R := by
  rwa [← same]

/-- What returns has met the condition. -/
theorem returned {s t : Session} (accepts : Accepts run env s.supply p R) {a : α}
    (executed : run.start env s = (.ok a,t)) : p ∧ R a := by
  by_cases holds : p
  · obtain ⟨b,u,again,_,right⟩ := accepts.returns holds s rfl
    rw [executed] at again
    cases again
    exact ⟨holds,right⟩
  · obtain ⟨fault,u,refused⟩ := accepts.refuses holds s rfl
    rw [executed] at refused
    cases refused

theorem mapM {f : α → Run β} {P : α → Prop} {R : α → β → Prop} (each : ∀ a, Accepts (f a) env supply (P a) (R a))
    (as : List α) : Accepts (as.mapM f) env supply (∀ a ∈ as, P a) (List.Forall₂ R as) := by
  induction as with
  | nil => exact (accepts_pure .nil).congr (by simp)
  | cons a rest ih =>
    rw [List.mapM_cons]
    refine ((each a).bind fun b right => ih.bind fun bs rights => ?_).congr (by rw [List.forall_mem_cons,and_true])
    exact accepts_pure (.cons right rights)

end Accepts
end Run
open Run (Accepts)

/-! ### Operations and dependencies -/

/-- An operation is what a record says. Where the record has no identifier, the operation has one of the supply. -/
structure Operation.Of (op : Operation) (supply : Nat → String) (m : Mapping) : Prop where
  id : m.field? "id" = some op.id ∨ m.field? "id" = none ∧ ∃ n, op.id = .text (supply n)
  type : ∃ v, m.field? "type" = some v ∧ op.type = Label.ofValue v
  params : op.params = m.nested "params"
  target : op.target = m.nested "target"
  metadata : op.metadata = m.nested "metadata"

private theorem OperationRecord.Of.toOperation {r : OperationRecord} {m : Mapping} (of : r.Of m) {id : Value}
    (given : r.id = some id ∨ r.id = none ∧ ∃ n, id = .text (supply n)) : (r.toOperation id).Of supply m where
  id := by
    rw [of.id] at given
    exact given
  type := ⟨r.type,of.type,rfl⟩
  params := of.params
  target := of.target
  metadata := of.metadata

theorem Operation.load_accepts (data : Value) : Accepts (load data) env supply (data.IsRecord Form)
    fun op => op.id.isText = true ∧ data.IsRecord (op.Of supply) := by
  have readable : (∃ r, OperationRecord.read data = .ok r) ↔ data.IsRecord Form := by
    simp only [OperationRecord.read_eq_ok]
    constructor
    · rintro ⟨_,m,is,form,_⟩
      exact ⟨m,is,form⟩
    · rintro ⟨m,is,form⟩
      obtain ⟨v,_,named,_⟩ := form.type
      exact ⟨⟨m.field? "id",v,_,_,_⟩,m,is,form,⟨rfl,named,rfl,rfl,rfl⟩⟩
  refine ((Run.accepts_ofRecord _).bind fun r accepted => ?_).congr ((and_iff_left trivial).trans readable)
  obtain ⟨m,is,form,of⟩ := OperationRecord.read_eq_ok.mp accepted
  cases given : r.id with
  | some id =>
    refine Run.accepts_pure ⟨?_,m,is,of.toOperation (.inl given)⟩
    exact form.id id (of.id.symm.trans given)
  | none =>
    refine ⟨?_,fun absurdly => absurd trivial absurdly⟩
    rintro _ s rfl
    exact ⟨_,_,rfl,rfl,rfl,m,is,of.toOperation (.inr ⟨given,_,rfl⟩)⟩

theorem Dependency.load_accepts (data : Value) :
    Accepts (load data) env supply (data.IsRecord Form) fun d => data.IsRecord d.Of := by
  have readable : (∃ d, read data = .ok d) ↔ data.IsRecord Form := by
    simp only [read_eq_ok]
    constructor
    · rintro ⟨_,m,is,form,_⟩
      exact ⟨m,is,form⟩
    · rintro ⟨m,is,form⟩
      obtain ⟨a,first,_⟩ := form.ends "from" (by simp)
      obtain ⟨b,second,_⟩ := form.ends "to" (by simp)
      exact ⟨⟨a,b,_,_⟩,m,is,form,⟨first,second,rfl,rfl⟩⟩
  have accepts : Accepts (load data) env supply (data.IsRecord Form) _ :=
    (Run.accepts_ofRecord (read data)).congr readable
  refine ⟨fun form s supplied => ?_,accepts.refuses⟩
  obtain ⟨d,t,executed,still,accepted⟩ := accepts.returns form s supplied
  obtain ⟨m,is,_,of⟩ := read_eq_ok.mp accepted
  exact ⟨d,t,executed,still,m,is,of⟩

/-! ### Graphs -/

namespace Graph

/-- A record of a graph has a readable version of the major number 1, lists of records of operations and of
    dependencies, and a mapping for its metadata, unless they are absent. -/
structure Form (m : Mapping) : Prop extends Framed m where
  operations : ∀ item ∈ m.listed "operations", item.IsRecord Operation.Form
  dependencies : ∀ item ∈ m.listed "dependencies", item.IsRecord Dependency.Form

/-- A graph is what a record says, with an operation and a dependency for each item of its lists, in their order.
    Identifiers that are not there come from the supply. -/
structure Of (g : Graph) (supply : Nat → String) (m : Mapping) : Prop where
  operations : List.Forall₂ (fun item op => item.IsRecord (op.Of supply)) (m.listed "operations") g.operations
  dependencies : List.Forall₂ (fun item d => item.IsRecord d.Of) (m.listed "dependencies") g.dependencies
  metadata : g.metadata = m.nested "metadata"

private theorem loadParts_accepts (operations dependencies : List Value) (metadata : Mapping) :
    Accepts (do
      let ops ← operations.mapM Operation.load
      let ds ← dependencies.mapM Dependency.load
      Run.ofFault (create ops ds metadata)) env supply
      ((∀ item ∈ operations, item.IsRecord Operation.Form) ∧ ∀ item ∈ dependencies, item.IsRecord Dependency.Form)
      fun g => List.Forall₂ (fun item op => item.IsRecord (op.Of supply)) operations g.operations ∧
        List.Forall₂ (fun item d => item.IsRecord d.Of) dependencies g.dependencies ∧ g.metadata = metadata := by
  refine ((Accepts.mapM Operation.load_accepts operations).bind fun ops each =>
    (Accepts.mapM Dependency.load_accepts dependencies).bind fun ds links => ?_).congr (by rw [and_true])
  have texts : ∀ op ∈ ops, op.id.isHashable = true :=
    forall_of_forall₂ each fun _ _ right => Value.hashable_of_text right.1
  rw [create_ok texts]
  exact Run.accepts_pure ⟨each.imp fun _ _ right => right.2,links,rfl⟩

theorem load_accepts (data : Value) :
    Accepts (load data) env supply (data.IsRecord Form) fun g => data.IsRecord (g.Of supply) := by
  cases told : readParts data with
  | error fault =>
    constructor
    · rintro ⟨m,is,form⟩
      have read := readParts_eq_ok.mpr ⟨m,is,form.toFramed,rfl⟩
      rw [told] at read
      cases read
    · intro _ s _
      exact ⟨fault,s,by rw [load,told]; rfl⟩
  | ok parts =>
    obtain ⟨m,rfl,framed,rfl⟩ := readParts_eq_ok.mp told
    have accepts : Accepts _ env supply _ _ :=
      loadParts_accepts (m.listed "operations") (m.listed "dependencies") (m.nested "metadata")
    rw [load,told]
    constructor
    · rintro ⟨n,is,form⟩ s supplied
      obtain rfl := Mapping.eq_of_toValue is
      obtain ⟨g,t,executed,still,operations,dependencies,metadata⟩ :=
        accepts.returns ⟨form.operations,form.dependencies⟩ s supplied
      exact ⟨g,t,executed,still,m,rfl,operations,dependencies,metadata⟩
    · intro other
      exact accepts.refuses fun both => other ⟨m,rfl,{ framed with operations := both.1, dependencies := both.2 }⟩

/-- Reading only looks at the lists and the metadata of a record with a version that can be read. -/
theorem load_congr {m n : Mapping} (first : Framed m) (second : Framed n)
    (agree : ∀ name, name ≠ "version" → m.field? name = n.field? name) : load m.toValue = load n.toValue := by
  have listed {name : String} (other : name ≠ "version") : m.listed name = n.listed name := by
    rw [Mapping.listed,Mapping.listed,agree name other]
  have nested : m.nested "metadata" = n.nested "metadata" := by
    rw [Mapping.nested,Mapping.nested,agree "metadata" (by decide)]
  rw [load,load,readParts_eq_ok.mpr ⟨m,rfl,first,rfl⟩,readParts_eq_ok.mpr ⟨n,rfl,second,rfl⟩,
    listed (by decide),listed (by decide),nested]

/-- Reading returns a graph exactly for a record of the form of one, and the graph is what the record says. Everything else
    is refused as a faulty record. Two records that differ in their versions only are read as the same graph. -/
theorem load_iff_form (data : Value) (env : Environment) (s : Session) :
    ((∃ g t, (load data).start env s = (.ok g,t)) ↔ data.IsRecord Form) ∧
    (¬ data.IsRecord Form → ∃ fault t, (load data).start env s = (.error (.invalidRecord fault),t)) ∧
    (∀ g t, (load data).start env s = (.ok g,t) → data.IsRecord (g.Of s.supply)) ∧
    ∀ m n : Mapping, Form m → Form n → (∀ name, name ≠ "version" → m.field? name = n.field? name) →
      load m.toValue = load n.toValue := by
  have accepts : Accepts (load data) env s.supply _ _ := load_accepts data
  refine ⟨⟨?_,?_⟩,fun other => accepts.refuses other s rfl,?_,?_⟩
  · rintro ⟨g,t,executed⟩
    exact (accepts.returned executed).1
  · intro form
    obtain ⟨g,t,executed,_⟩ := accepts.returns form s rfl
    exact ⟨g,t,executed⟩
  · exact fun g t executed => (accepts.returned executed).2
  · exact fun m n first second agree => load_congr first.toFramed second.toFramed agree

/-- A record in some version, with an operation that has no identifier and one whose type is a word for something else. -/
def dated (version : Value) : Mapping :=
  ⟨[(.text "operations",.list [.mapping [(.text "type",.text "package_install")],
      .mapping [(.text "id",.text ""),(.text "type",.tag (.source .ansible)),(.text "params",.mapping [])]]),
    (.text "version",version)]⟩

theorem load_dated : Form (dated (.text "1.7")) ∧ Form (dated (.text " 1.0_0.+12")) ∧
    load (dated (.text "1.7")).toValue = load (dated (.text " 1.0_0.+12")).toValue ∧
    (∃ g t, (load (dated (.text "1.7")).toValue).start .empty {} = (.ok g,t) ∧
      g.Of numberedIdentifier (dated (.text "1.7"))) ∧
    ∃ fault t, (load (dated (.text "2.0")).toValue).start .empty {} = (.error (.invalidRecord fault),t) := by
  have form (version : Value) (read : ∃ g t, (load (dated version).toValue).start .empty {} = (.ok g,t)) :
      Form (dated version) := by
    obtain ⟨m,is,form⟩ := (load_iff_form (dated version).toValue .empty {}).1.mp read
    exact Mapping.eq_of_toValue is ▸ form
  obtain ⟨g,t,executed⟩ : ∃ g t, (load (dated (.text "1.7")).toValue).start .empty {} = (.ok g,t) := ⟨_,_,rfl⟩
  have first := form (.text "1.7") ⟨g,t,executed⟩
  have second := form (.text " 1.0_0.+12") ⟨_,_,rfl⟩
  obtain ⟨_,_,described,same⟩ := load_iff_form (dated (.text "1.7")).toValue .empty {}
  obtain ⟨m,is,of⟩ := described g t executed
  obtain rfl := Mapping.eq_of_toValue is
  obtain ⟨returns,refuses,_⟩ := load_iff_form (dated (.text "2.0")).toValue .empty {}
  refine ⟨first,second,same _ _ first second ?_,⟨g,t,executed,of⟩,refuses ?_⟩
  · intro name other
    have apart : ¬ (Value.text "version" == .text name) = true :=
      fun equal => other (Option.some.inj (Value.text_of_same rfl equal))
    by_cases front : (Value.text "operations" == .text name) = true
    · simp [dated,Mapping.field?,Table.get?,Table.entry?,front]
    · simp [dated,Mapping.field?,Table.get?,Table.entry?,front,apart]
  · intro form
    obtain ⟨g,t,executed⟩ := returns.mpr form
    cases executed

end Graph
end InfraGraph
