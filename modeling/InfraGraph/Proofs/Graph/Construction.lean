import InfraGraph.Proofs.Graph.Keys
import InfraGraph.Proofs.Graph.Merge
import InfraGraph.Proofs.Graph.Record

/-!
How graphs come about. However a graph is made, its index holds the first operation of each identifier, so that looking an
identifier up finds what going through the operations would find. Adding operations and dependencies one at a time makes the
graph that they make together.
-/
namespace InfraGraph.Graph

/-! ### Graphs that are made -/

/-- Operations make a graph: they are given, added, merged, parted or read, and each way tells which operations it leaves. -/
inductive Made : List Operation → Graph → Prop
  | created {ops : List Operation} {ds : List Dependency} {metadata : Mapping} {g : Graph}
      (returned : create ops ds metadata = .ok g) : Made ops g
  | operationAdded {ops : List Operation} {g h : Graph} {op : Operation} (before : Made ops g)
      (returned : g.addOperation op = .ok h) : Made (ops ++ [op]) h
  | dependencyAdded {ops : List Operation} {g h : Graph} {d : Dependency} (before : Made ops g)
      (returned : g.addDependency d = .ok h) : Made ops h
  | merged {blocks : List (List Operation × Graph)} {h : Graph} {env : Environment} {s t : Session}
      (each : ∀ b ∈ blocks, Made b.1 b.2) (returned : (merge (blocks.map (·.2))).start env s = (.ok h,t)) :
      Made (firsts sharesId (blocks.flatMap (·.1))) h
  | parted {ops : List Operation} {g : Graph} {key : KeyFunction} {settings : Option GraphSettings}
      {parts : Table Value Graph} {e : Value × Graph} {env : Environment} {s t : Session} (before : Made ops g)
      (returned : (g.partitionBy key settings).start env s = (.ok parts,t)) (entry : e ∈ parts.entries) :
      Made (ops.filter (fallsTo key e.1)) e.2
  | loaded {data : Value} {parts : Parts} {ops : List Operation} {g : Graph} {env : Environment} {s t u : Session}
      (framed : readParts data = .ok parts) (read : (parts.operations.mapM Operation.load).start env s = (.ok ops,u))
      (returned : (load data).start env s = (.ok g,t)) : Made ops g

theorem operations_of_create {ops : List Operation} {ds : List Dependency} {metadata : Mapping} {g : Graph}
    (returned : create ops ds metadata = .ok g) : g.operations = ops := by
  rw [eq_of_create returned]
  rfl

theorem operations_of_merge {graphs : List Graph} {h : Graph} {env : Environment} {s t : Session}
    (returned : (merge graphs).start env s = (.ok h,t)) :
    h.operations = firsts sharesId (graphs.flatMap (·.operations)) := by
  obtain ⟨ds,_,_,returned⟩ := Run.bind_returned returned
  obtain ⟨_,_,_,returned⟩ := Run.bind_returned returned
  cases returned
  exact mergedOperations_eq graphs

theorem operations_of_load {data : Value} {parts : Parts} {ops : List Operation} {g : Graph} {env : Environment}
    {s t u : Session} (framed : readParts data = .ok parts)
    (read : (parts.operations.mapM Operation.load).start env s = (.ok ops,u))
    (returned : (load data).start env s = (.ok g,t)) : g.operations = ops := by
  obtain ⟨parts',_,told,returned⟩ := Run.bind_returned returned
  rw [framed] at told
  cases told
  obtain ⟨ops',u',again,returned⟩ := Run.bind_returned returned
  obtain rfl : ops = ops' := Except.ok.inj (Prod.mk.inj (read.symm.trans again)).1
  obtain ⟨ds,_,_,returned⟩ := Run.bind_returned returned
  exact operations_of_create (Run.ofFault_returned returned)

/-- A graph has the operations that made it. -/
theorem Made.operations {ops : List Operation} {g : Graph} (made : Made ops g) : g.operations = ops := by
  induction made with
  | created returned => exact operations_of_create returned
  | operationAdded _ returned ih =>
    rw [operations_of_create returned,ih]
  | dependencyAdded _ returned ih =>
    rw [operations_of_create returned,ih]
  | @merged blocks _ _ _ _ _ returned ih =>
    rw [operations_of_merge returned,List.flatMap_map]
    congr 1
    exact List.flatMap_congr ih
  | parted _ returned entry ih =>
    rw [part_operations (partitionBy_yields_of_start returned) entry,ih]
  | loaded framed read returned => exact operations_of_load framed read returned

/-- Looking identifiers up in a graph finds the first of some operations that has them. -/
structure Indexes (g : Graph) (ops : List Operation) : Prop where
  operations : g.operations = ops
  entries : g.index.entries = (firsts sharesId ops).map fun op => (op.id,op)
  found : ∀ id, id.isHashable = true → ∀ op, g.find? id = .ok (some op) ↔ (op.id == id) = true ∧
    ∃ before after, ops = before ++ op :: after ∧ ∀ earlier ∈ before, (earlier.id == id) = false
  missing : ∀ id, id.isHashable = true → (g.find? id = .ok none ↔ ∀ op ∈ ops, (op.id == id) = false)

theorem indexes_operations (g : Graph) : g.Indexes g.operations where
  operations := rfl
  entries := by rw [g.index_eq,indexOf_eq]
  found := by
    intro id hashable op
    rw [g.find?_eq hashable,Except.ok.injEq,List.find?_eq_some_iff_append]
    simp
  missing := by
    intro id hashable
    rw [g.find?_eq hashable,Except.ok.injEq,List.find?_eq_none]
    simp

/-! ### One at a time -/

/-- What is added to a graph. -/
inductive Addition where
  | operation (op : Operation)
  | dependency (d : Dependency)

namespace Addition

/-- Add to a graph. -/
def apply (g : Graph) : Addition → Except Fault Graph
  | operation op => g.addOperation op
  | dependency d => g.addDependency d

def operation? : Addition → Option Operation
  | operation op => some op
  | dependency _ => none

def dependency? : Addition → Option Dependency
  | operation _ => none
  | dependency d => some d

end Addition

/-- Make a graph of its metadata and of additions one after another. -/
def grow (metadata : Mapping) (additions : List Addition) : Except Fault Graph := do
  additions.foldlM Addition.apply (← create [] [] metadata)

theorem grow_snoc (metadata : Mapping) (additions : List Addition) (last : Addition) :
    grow metadata (additions ++ [last]) = grow metadata additions >>= fun g => last.apply g := by
  simp [grow,List.foldlM_append]

theorem requireIds_append (ops others : List Operation) :
    requireIds (ops ++ others) = requireIds ops >>= fun _ => requireIds others := by
  induction ops with
  | nil => rfl
  | cons op rest ih =>
    rw [List.cons_append,requireIds,requireIds,ih,bind_assoc]

/-- One more operation asks for a key of its own, after those of the others. -/
theorem create_addOperation (ops : List Operation) (ds : List Dependency) (metadata : Mapping) (op : Operation) :
    (create ops ds metadata >>= fun g => g.addOperation op) = create (ops ++ [op]) ds metadata := by
  cases required : requireIds ops with
  | error fault => simp [create,requireIds_append,required,bind,Except.bind]
  | ok _ =>
    rw [create,required]
    rfl

theorem create_addDependency (ops : List Operation) (ds : List Dependency) (metadata : Mapping) (d : Dependency) :
    (create ops ds metadata >>= fun g => g.addDependency d) = create ops (ds ++ [d]) metadata := by
  cases required : requireIds ops with
  | error fault => simp [create,required,bind,Except.bind]
  | ok _ =>
    rw [create,required]
    rfl

/-- Additions in turn come to what they are together, and fail where it fails. -/
theorem grow_eq (metadata : Mapping) (additions : List Addition) : grow metadata additions =
    create (additions.filterMap Addition.operation?) (additions.filterMap Addition.dependency?) metadata := by
  induction additions using List.reverseRecOn with
  | nil => rfl
  | append_singleton additions last ih =>
    rw [grow_snoc,ih,List.filterMap_append,List.filterMap_append]
    cases last with
    | operation op =>
      simp only [List.filterMap_cons,List.filterMap_nil,Addition.operation?,Addition.dependency?,List.append_nil]
      exact create_addOperation _ _ _ op
    | dependency d =>
      simp only [List.filterMap_cons,List.filterMap_nil,Addition.operation?,Addition.dependency?,List.append_nil]
      exact create_addDependency _ _ _ d

/-- Graphs that are equal, and whatever is asked of one is asked of the other one. -/
structure Interchangeable (g h : Graph) : Prop where
  equal : (g == h) = true
  found : ∀ id, g.find? id = h.find? id
  validated : ∀ env s, g.validate.start env s = h.validate.start env s
  ordered : ∀ env s, g.topologicalSort.start env s = h.topologicalSort.start env s

theorem interchangeable_refl (g : Graph) : g.Interchangeable g where
  equal := by
    change (_ && _ && _) = true
    simp only [BEq.rfl,Bool.true_and]
    exact BEq.rfl (α := Value)
  found _ := rfl
  validated _ _ := rfl
  ordered _ _ := rfl

/-- However a graph is made, looking an identifier up finds the first operation that has it, and nothing exactly if there is
    none. Additions one at a time, in whatever order operations and dependencies take turns, make the graph that all of them
    make at once. -/
theorem construction_total_correct :
    (∀ ops g, Made ops g → g.Indexes ops) ∧
    ∀ metadata additions,
      grow metadata additions =
        create (additions.filterMap Addition.operation?) (additions.filterMap Addition.dependency?) metadata ∧
      ((∀ op ∈ additions.filterMap Addition.operation?, op.id.isHashable = true) →
        ∃ g h, grow metadata additions = .ok g ∧
          create (additions.filterMap Addition.operation?) (additions.filterMap Addition.dependency?) metadata = .ok h ∧
          g.Interchangeable h) := by
  constructor
  · intro ops g made
    obtain rfl := made.operations
    exact g.indexes_operations
  · intro metadata additions
    have equal := grow_eq metadata additions
    refine ⟨equal,fun hashable => ?_⟩
    have created := create_ok hashable (additions.filterMap Addition.dependency?) metadata
    exact ⟨_,_,equal.trans created,created,interchangeable_refl _⟩

/-- An identifier twice, the second time in another zone. -/
def annex : Graph :=
  assemble [zonedOperation "x" (.int 1),zonedOperation "y" (.int 2),zonedOperation "x" (.int 2)] [] .empty

/-- The second zone by itself. -/
def outbuilding : Graph :=
  assemble [zonedOperation "y" (.int 2),zonedOperation "x" (.int 2)] [] (Mapping.single partitionKeyName (.int 2))

/-- The second zone before the whole. The identifier names there what it does not name in the whole. -/
def rebuilt : Graph := assemble outbuilding.operations [] (mergedMetadata [outbuilding,annex])

theorem rebuilt_made : Made outbuilding.operations rebuilt := by
  have start : Made [zonedOperation "x" (.int 1),zonedOperation "y" (.int 2)] (assemble _ [] .empty) := .created rfl
  have whole : Made annex.operations annex := @Made.operationAdded _ _ _ (zonedOperation "x" (.int 2)) start rfl
  obtain ⟨parts,t,parted,last⟩ : ∃ parts t,
      (annex.partitionBy (.target (.text "zone")) none).start .empty {} = (.ok parts,t) ∧
      parts.entries[1]? = some (.int 2,outbuilding) := ⟨_,_,rfl,rfl⟩
  have part : Made outbuilding.operations outbuilding := whole.parted parted (List.mem_of_getElem? last)
  have both : ∀ b ∈ [(outbuilding.operations,outbuilding),(annex.operations,annex)], Made b.1 b.2 :=
    List.forall_mem_cons.mpr ⟨part,List.forall_mem_singleton.mpr whole⟩
  exact @Made.merged _ rebuilt .empty {} _ both rfl

theorem construction_rebuilt : rebuilt.find? (.text "x") = .ok (some (zonedOperation "x" (.int 2))) ∧
    rebuilt.find? (.text "z") = .ok none ∧
    ∃ g h, grow .empty [.operation (bareOperation "x"),.dependency (bareDependency "x" "ghost"),
        .operation (zonedOperation "x" (.int 1))] = .ok g ∧
      create [bareOperation "x",zonedOperation "x" (.int 1)] [bareDependency "x" "ghost"] .empty = .ok h ∧
      g.Interchangeable h := by
  obtain ⟨indexed,grown⟩ := construction_total_correct
  have indexes := indexed _ _ rebuilt_made
  refine ⟨(indexes.found _ rfl _).mpr ⟨rfl,[zonedOperation "y" (.int 2)],[],rfl,by decide⟩,
    (indexes.missing _ rfl).mpr (by decide),(grown .empty _).2 (by decide)⟩

end InfraGraph.Graph
