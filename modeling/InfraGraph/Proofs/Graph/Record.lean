import InfraGraph.Proofs.Graph.Likeness
import InfraGraph.Proofs.Record
import InfraGraph.Proofs.Version

/-!
Records of graphs. A graph that is written is read back as an equal one that has the same order, and a graph that has been
read can be written and read back.
-/
namespace InfraGraph.Graph
open Run (Yields)
variable {env : Environment}

/-- Identifiers, ends and labels can be written so that they are read back. -/
structure Legible (g : Graph) : Prop where
  operations : ∀ op ∈ g.operations, op.Legible
  dependencies : ∀ d ∈ g.dependencies, d.Legible

theorem Legible.textual {g : Graph} (legible : g.Legible) : g.Textual where
  ids op member := (legible.operations op member).id
  ends d member :=
    have texts := (legible.dependencies d member).ends
    ⟨Value.hashable_of_text texts.1,Value.hashable_of_text texts.2⟩

/-- A graph with its labels as they are read back: words are words, and every other text is plain. -/
def spelled (g : Graph) : Graph :=
  assemble (g.operations.map Operation.spelled) (g.dependencies.map Dependency.spelled) g.metadata

private theorem map_same {α : Type} [BEq α] {f : α → α} {as : List α} (each : ∀ a ∈ as, (f a == a) = true) :
    (as.map f == as) = true := by
  induction as with
  | nil => rfl
  | cons a rest ih =>
    rw [List.map_cons,List.cons_beq_cons,Bool.and_eq_true]
    exact ⟨each a (by simp),ih fun b later => each b (List.mem_cons_of_mem _ later)⟩

theorem spelled_same {g : Graph} (legible : g.Legible) : (g.spelled == g) = true := by
  change (_ && _ && _) = true
  rw [Bool.and_eq_true,Bool.and_eq_true]
  refine ⟨⟨map_same ?_,map_same ?_⟩,BEq.rfl (α := Value)⟩
  · exact fun op member => Operation.spelled_same (legible.operations op member).toLabelled
  · exact fun d member => Dependency.spelled_same (legible.dependencies d member)

/-! ### The order -/

theorem spelled_alike (g : Graph) : g.spelled.Alike g where
  ids := List.map_map
  ends := List.map_map

theorem sorted_spelled (g : Graph) : g.spelled.sorted = g.sorted.map Operation.spelled := by
  have found (id : Value) : g.spelled.index.get? id = (g.index.get? id).map Operation.spelled := by
    rw [get?_index,get?_index]
    exact List.find?_map
  rw [sorted,sorted,List.map_filterMap,g.spelled_alike.sortedIds_eq]
  simp only [found]

/-- The two graphs are sorted alike or stuck alike. -/
theorem topologicalSort_spelled {g : Graph} (legible : g.Legible) (env : Environment) :
    (∃ ops, Yields g.topologicalSort env (.ok ops) ∧
      Yields g.spelled.topologicalSort env (.ok (ops.map Operation.spelled))) ∨
    (∃ ids, Yields g.topologicalSort env (.error (.circularDependency ids)) ∧
      Yields g.spelled.topologicalSort env (.error (.circularDependency ids))) := by
  by_cases cyclic : g.Cyclic
  · have stuck := topologicalSort_of_cyclic (g.spelled_alike.textual legible.textual) (g.spelled_alike.cyclic.mpr cyclic) env
    rw [g.spelled_alike.blocked_eq] at stuck
    exact .inr ⟨_,topologicalSort_of_cyclic legible.textual cyclic env,stuck⟩
  · have ordered := topologicalSort_of_acyclic (g.spelled_alike.textual legible.textual).keyed
      (mt g.spelled_alike.cyclic.mp cyclic) env
    rw [sorted_spelled] at ordered
    exact .inl ⟨_,topologicalSort_of_acyclic legible.textual.keyed cyclic env,ordered⟩

/-! ### Writing and reading -/

theorem checkVersion_eq_ok {m : Mapping} : checkVersion m = .ok () ↔
    m.IfPresent "version" fun v => ∃ w, Version.Written v.plain.toList w ∧ w.major = 1 := by
  have accepted : checkVersion m = .ok () ↔ ∃ w,
      Version.Written ((m.field? "version").getD (.text Version.current.text)).plain.toList w ∧ w.major = 1 := by
    simp only [← Version.read?_eq_some,checkVersion]
    split
    · next none => simp [none]
    · next w is =>
      have reads : Version.current.reads w = true ↔ w.major = 1 := by
        rw [Version.reads,beq_iff_eq]
        exact eq_comm
      by_cases major : w.major = 1
      · simp [is,reads.mpr major,major]
      · simp [is,mt reads.mp major,major]
  rw [accepted,Mapping.IfPresent]
  cases m.field? "version" with
  | none =>
    simp only [Option.getD_none,reduceCtorEq,false_implies,implies_true,iff_true]
    exact ⟨Version.current,Version.read?_eq_some.mp (by decide),rfl⟩
  | some v => simp

/-- The fields of the record of a graph are of their kinds, whatever its lists hold. -/
structure Framed (m : Mapping) : Prop where
  version : m.IfPresent "version" fun v => ∃ w, Version.Written v.plain.toList w ∧ w.major = 1
  lists : ∀ name ∈ ["operations","dependencies"], m.IfPresent name fun v => ∃ items, v = .list items
  metadata : m.IfPresent "metadata" Value.IsMapping

theorem readParts_eq_ok {data : Value} {parts : Parts} : readParts data = .ok parts ↔ data.IsRecord fun m =>
    Framed m ∧ parts = ⟨m.listed "operations",m.listed "dependencies",m.nested "metadata"⟩ := by
  unfold readParts
  constructor
  · intro accepted
    split at accepted
    · cases accepted
    · next m is =>
      obtain ⟨_,version,accepted⟩ := bind_eq_ok.mp accepted
      split at accepted
      · next operations dependencies =>
        obtain ⟨metadata,held,accepted⟩ := bind_eq_ok.mp accepted
        obtain ⟨first,rfl⟩ := Mapping.listField?_eq_some.mp operations
        obtain ⟨second,rfl⟩ := Mapping.listField?_eq_some.mp dependencies
        obtain ⟨third,rfl⟩ := Mapping.mappingField_eq_ok.mp held
        cases accepted
        refine ⟨m,Value.mapping?_eq_some.mp is,⟨checkVersion_eq_ok.mp version,?_,third⟩,rfl⟩
        simp only [List.forall_mem_cons]
        exact ⟨first,second,fun _ none => by cases none⟩
      · cases accepted
  · rintro ⟨m,rfl,framed,rfl⟩
    have lists := framed.lists
    simp only [List.forall_mem_cons] at lists
    rw [Value.mapping?_eq_some.mpr rfl]
    refine bind_eq_ok.mpr ⟨(),checkVersion_eq_ok.mpr framed.version,?_⟩
    rw [Mapping.listField?_eq_some.mpr ⟨lists.1,rfl⟩,Mapping.listField?_eq_some.mpr ⟨lists.2.1,rfl⟩]
    exact bind_eq_ok.mpr ⟨_,Mapping.mappingField_eq_ok.mpr ⟨framed.metadata,rfl⟩,rfl⟩

theorem readParts_toValue (g : Graph) : readParts g.toValue =
    .ok ⟨g.operations.map Operation.toValue,g.dependencies.map Dependency.toValue,g.metadata⟩ := by
  refine readParts_eq_ok.mpr ⟨_,rfl,⟨?_,?_,?_⟩,rfl⟩
  · rintro v ⟨⟩
    exact ⟨Version.current,Version.read?_eq_some.mp (by decide),rfl⟩
  · rintro name (_ | ⟨_,_ | ⟨_,⟨⟩⟩⟩) v ⟨⟩
    · exact ⟨_,rfl⟩
    · exact ⟨_,rfl⟩
  · rintro v ⟨⟩
    exact ⟨_,rfl⟩

/-- A list that is read item by item, where some items cannot be read. -/
private theorem mapM_unless {ε α β : Type} (p : α → Prop) [DecidablePred p] (e : ε) (f : α → β) (as : List α) :
    (as.mapM fun a => if p a then Except.error e else .ok (f a)) =
      if ∃ a ∈ as, p a then .error e else .ok (as.map f) := by
  induction as with
  | nil => simp [pure,Except.pure]
  | cons a rest ih =>
    rw [List.mapM_cons,ih]
    by_cases first : p a
    · simp [first,bind,Except.bind]
    · by_cases later : ∃ b ∈ rest, p b
      · simp [first,later,bind,Except.bind]
      · simp [first,later,bind,Except.bind,pure,Except.pure]

/-- A graph that is written is read back with its labels plain, unless an operation has the empty type. -/
theorem load_toValue {g : Graph} (legible : g.Legible) (env : Environment) : Yields (load g.toValue) env
    (if ∃ op ∈ g.operations, op.typeName = "" then .error (.invalidRecord .operationTypeNotText) else .ok g.spelled) := by
  have operations : Yields ((g.operations.map Operation.toValue).mapM Operation.load) env
      (if ∃ op ∈ g.operations, op.typeName = "" then .error (.invalidRecord .operationTypeNotText)
        else .ok (g.operations.map Operation.spelled)) := by
    rw [List.mapM_map,← mapM_unless]
    exact Run.yields_mapM fun op member => Operation.load_toValue (legible.operations op member) env
  have dependencies : Yields ((g.dependencies.map Dependency.toValue).mapM Dependency.load) env
      (.ok (g.dependencies.map Dependency.spelled)) := by
    have read : g.dependencies.mapM (fun d => Except.ok (ε := Failure) d.spelled) =
        .ok (g.dependencies.map Dependency.spelled) := List.mapM_pure
    rw [List.mapM_map,← read]
    exact Run.yields_mapM fun d member => Dependency.load_toValue (legible.dependencies d member) env
  unfold load
  rw [readParts_toValue]
  refine (Run.yields_ofRecord _).bind ?_
  by_cases empty : ∃ op ∈ g.operations, op.typeName = ""
  · rw [if_pos empty] at operations ⊢
    exact operations.fails
  · rw [if_neg empty] at operations ⊢
    refine operations.bind (dependencies.bind ?_)
    change Yields (Run.ofFault (create g.spelled.operations g.spelled.dependencies g.metadata)) env (.ok g.spelled)
    rw [create_ok (g.spelled_alike.textual legible.textual).keyed.ids]
    exact Run.yields_ofFault _

theorem forall_of_forall₂ {α β : Type} {R : α → β → Prop} {p : β → Prop} {as : List α} {bs : List β}
    (each : List.Forall₂ R as bs) (imp : ∀ a b, R a b → p b) : ∀ b ∈ bs, p b := by
  induction each with
  | nil => simp
  | cons first _ ih => exact List.forall_mem_cons.mpr ⟨imp _ _ first,ih⟩

/-- A graph that has been read can be read again, with identifiers that were there or are new. -/
theorem legible_of_load {data : Value} {s t : Session} {g : Graph} (returned : (load data).start env s = (.ok g,t)) :
    g.Legible ∧ ∀ op ∈ g.operations, op.typeName ≠ "" := by
  obtain ⟨parts,_,_,returned⟩ := Run.bind_returned returned
  obtain ⟨ops,_,operations,returned⟩ := Run.bind_returned returned
  obtain ⟨ds,_,dependencies,returned⟩ := Run.bind_returned returned
  obtain rfl := eq_of_create (Run.ofFault_returned returned)
  have readable : ∀ op ∈ ops, op.Legible ∧ op.typeName ≠ "" :=
    forall_of_forall₂ (Run.mapM_returned operations) fun _ _ ⟨_,_,loaded⟩ => Operation.legible_of_load loaded
  have connected : ∀ d ∈ ds, d.Legible :=
    forall_of_forall₂ (Run.mapM_returned dependencies) fun _ _ ⟨_,_,loaded⟩ =>
      Dependency.legible_of_read (Run.ofRecord_returned loaded)
  exact ⟨⟨fun op member => (readable op member).1,connected⟩,fun op member => (readable op member).2⟩

/-- A graph is read back from its record exactly if no operation has the empty type, and then as an equal one, in which
    words are words again and which is sorted, or stuck, as the first one is. A graph that was read from anything is read
    back from its record. -/
theorem load_toValue_total_correct (env : Environment) :
    (∀ g : Graph, g.Legible →
      Yields (load g.toValue) env (if ∃ op ∈ g.operations, op.typeName = ""
        then .error (.invalidRecord .operationTypeNotText) else .ok g.spelled) ∧
      (g.spelled == g) = true ∧
      ((∃ ops, Yields g.topologicalSort env (.ok ops) ∧
          Yields g.spelled.topologicalSort env (.ok (ops.map Operation.spelled))) ∨
        (∃ ids, Yields g.topologicalSort env (.error (.circularDependency ids)) ∧
          Yields g.spelled.topologicalSort env (.error (.circularDependency ids))))) ∧
    ∀ data s g t, (load data).start env s = (.ok g,t) → ∃ h, Yields (load g.toValue) env (.ok h) ∧ (h == g) = true := by
  refine ⟨fun g legible => ⟨load_toValue legible env,spelled_same legible,topologicalSort_spelled legible env⟩,?_⟩
  intro data s g t returned
  obtain ⟨legible,typed⟩ := legible_of_load returned
  have again := load_toValue legible env
  rw [if_neg fun ⟨op,member,empty⟩ => typed op member empty] at again
  exact ⟨_,again,spelled_same legible⟩

/-- Tags as identifier, as end and as labels, some of them of another vocabulary, and an identifier that repeats. -/
def shipment : Graph :=
  assemble
    [⟨.tag (.action .fileWrite),.known .packageInstall,Mapping.single "name" (.list [.nan 3,.buffer [1]]),.empty,.empty⟩,
      ⟨.text "b",.other (.tag (.source .ansible)),.empty,.empty,.empty⟩,bareOperation "b"]
    [⟨.text "b",.tag (.action .fileWrite),.other (.tag (.source .ansible)),.empty⟩,bareDependency "b" "ghost"] .empty

theorem shipment_legible : shipment.Legible where
  operations := by
    rintro op (_ | ⟨_,_ | ⟨_,_ | ⟨_,⟨⟩⟩⟩⟩)
    all_goals exact { text := rfl, settled := rfl, id := rfl }
  dependencies := by
    rintro d (_ | ⟨_,_ | ⟨_,⟨⟩⟩⟩)
    all_goals exact ⟨⟨rfl,rfl⟩,rfl,rfl⟩

/-- A record with an operation that has no identifier, and a dependency without a type. -/
def manifest : Value :=
  .mapping [
    (.text "operations",.list [.mapping [(.text "type",.text "package_install")],
      .mapping [(.text "id",.text "b"),(.text "type",.tag (.source .ansible))]]),
    (.text "dependencies",.list [.mapping [(.text "from",.text "b"),(.text "to",.text "c")]])]

theorem load_shipment : shipment.Legible ∧ Yields (load shipment.toValue) .empty (.ok shipment.spelled) ∧
    (shipment.spelled == shipment) = true ∧
    ∃ g t, (load manifest).start .empty {} = (.ok g,t) ∧ ∃ h, Yields (load g.toValue) .empty (.ok h) ∧ (h == g) = true := by
  obtain ⟨written,again⟩ := load_toValue_total_correct .empty
  obtain ⟨loads,same,_⟩ := written shipment shipment_legible
  have typed : ¬ ∃ op ∈ shipment.operations, op.typeName = "" := by decide
  rw [if_neg typed] at loads
  exact ⟨shipment_legible,loads,same,_,_,rfl,again manifest {} _ _ rfl⟩

end InfraGraph.Graph
