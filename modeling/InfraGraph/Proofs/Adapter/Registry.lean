import InfraGraph.Adapter.Registry
import InfraGraph.Proofs.Label
import InfraGraph.Proofs.Run
import InfraGraph.Proofs.Table
import Mathlib.Data.List.Forall2
import Mathlib.Data.List.Nodup

/-!
What a registry holds after any calls that register adapters, some of which fail. The table of each role holds the
classes that were accepted in that role, in order and each for another format, and lookup constructs an adapter of
them by any value that names the format. What is said of one role is said once, and the calls for the other role do not matter
to it.
-/
namespace InfraGraph

/-! ### Values that name formats -/

/-- A value is the text of a format, be it plain text or a word. -/
def Value.Names (v : Value) (format : Format) : Prop := v.text? = some format.text

/-- Two values name one format. -/
def Value.SameFormat (v w : Value) : Prop := ∃ format, v.Names format ∧ w.Names format

theorem Format.ofValue?_eq_some {v : Value} {format : Format} : Format.ofValue? v = some format ↔ v.Names format := by
  rw [ofValue?,Option.bind_eq_some_iff]
  constructor
  · rintro ⟨s,text,read⟩
    obtain rfl := Vocabulary.read?_eq_some.mp read
    exact text
  · exact fun names => ⟨_,names,LawfulVocabulary.read?_text format⟩

theorem Format.ofValue?_eq_none {v : Value} : Format.ofValue? v = none ↔ ∀ format, ¬ v.Names format := by
  simp only [Option.eq_none_iff_forall_ne_some,ne_eq,ofValue?_eq_some]

namespace Value

theorem Names.unique {v : Value} {a b : Format} (first : v.Names a) (second : v.Names b) : a = b :=
  Option.some.inj ((Format.ofValue?_eq_some.mpr first).symm.trans (Format.ofValue?_eq_some.mpr second))

instance (v : Value) (format : Format) : Decidable (v.Names format) := inferInstanceAs (Decidable (_ = _))

instance (v w : Value) : Decidable (v.SameFormat w) :=
  decidable_of_iff (∃ format ∈ Format.all, v.Names format ∧ w.Names format)
    ⟨fun ⟨format,_,both⟩ => ⟨format,both⟩,fun ⟨format,both⟩ => ⟨format,Format.mem_all format,both⟩⟩

end Value

/-! ### Calls -/

/-- A call that registers a class of adapters for the format that a value should name. -/
inductive Registration where
  | parser (format : Value) (made : AdapterClass SourceParser)
  | transformer (format : Value) (made : AdapterClass TargetTransformer)

def Registration.apply (r : Registry) : Registration → Except Fault Registry
  | parser format made => r.registerParser format made
  | transformer format made => r.registerTransformer format made

namespace Registry

/-- The registry after a call, which is as before if the call fails. -/
def attempt (r : Registry) (call : Registration) : Registry :=
  match call.apply r with
  | .ok changed => changed
  | .error _ => r

/-- The registry after calls, some of which may fail. -/
def after (r : Registry) : List Registration → Registry
  | [] => r
  | call :: rest => (r.attempt call).after rest

/-- The calls that succeed, in order. -/
def accepted (r : Registry) : List Registration → List Registration
  | [] => []
  | call :: rest =>
    match call.apply r with
    | .ok changed => call :: changed.accepted rest
    | .error _ => r.accepted rest

section Run
variable {r s : Registry} {call : Registration} (rest : List Registration)

theorem run_ok (applied : call.apply r = .ok s) :
    r.after (call :: rest) = s.after rest ∧ r.accepted (call :: rest) = call :: s.accepted rest := by
  rw [after,attempt,accepted,applied]
  exact ⟨rfl,rfl⟩

theorem run_error {fault : Fault} (applied : call.apply r = .error fault) :
    r.after (call :: rest) = r.after rest ∧ r.accepted (call :: rest) = r.accepted rest := by
  rw [after,attempt,accepted,applied]
  exact ⟨rfl,rfl⟩

end Run

/-! ### One table -/

section Table
variable {α : Type} {name family : String} {t u : Table Format (AdapterClass α)} {v : Value} {made : AdapterClass α}

private theorem enter_unnamed (unnamed : ∀ format, ¬ v.Names format) :
    enter name family t v made = .error (.badValue (v.literal ++ " is not a valid " ++ family)) := by
  rw [enter,requireFormat,Format.ofValue?_eq_none.mpr unnamed]
  rfl

private theorem enter_named {format : Format} (names : v.Names format) : enter name family t v made =
    if format ∈ t.keys then .error (.badValue (name ++ " for " ++ format.text ++ " already registered"))
    else .ok ⟨t.entries ++ [(format,made)]⟩ := by
  have present : t.contains format = true ↔ format ∈ t.keys := by simp [Table.contains,Table.keys]
  rw [enter,requireFormat,Format.ofValue?_eq_some.mpr names]
  change (if t.contains format = true then _ else _) = _
  simp only [present]
  by_cases taken : format ∈ t.keys
  · rw [if_pos taken,if_pos taken]
  · rw [if_neg taken,if_neg taken,Table.insertNew,if_neg (mt present.mp taken)]

/-- A table takes a class for a format that it does not have, and adds it at its end. -/
theorem enter_eq_ok : enter name family t v made = .ok u ↔
    ∃ format, v.Names format ∧ format ∉ t.keys ∧ u = ⟨t.entries ++ [(format,made)]⟩ := by
  constructor
  · intro entered
    by_cases named : ∃ format, v.Names format
    · obtain ⟨format,names⟩ := named
      rw [enter_named names] at entered
      split at entered
      · cases entered
      · next free => exact ⟨format,names,free,(Except.ok.inj entered).symm⟩
    · rw [enter_unnamed (not_exists.mp named)] at entered
      cases entered
  · rintro ⟨format,names,free,rfl⟩
    rw [enter_named names,if_neg free]

/-- Whatever else is to be entered is a bad value. -/
theorem enter_eq_error {fault : Fault} : enter name family t v made = .error fault ↔
    (∀ format, ¬ v.Names format) ∧ fault = .badValue (v.literal ++ " is not a valid " ++ family) ∨
      ∃ format ∈ t.keys, v.Names format ∧
        fault = .badValue (name ++ " for " ++ format.text ++ " already registered") := by
  constructor
  · intro refused
    by_cases named : ∃ format, v.Names format
    · obtain ⟨format,names⟩ := named
      rw [enter_named names] at refused
      split at refused
      · next taken => exact .inr ⟨format,taken,names,(Except.error.inj refused).symm⟩
      · cases refused
    · rw [enter_unnamed (not_exists.mp named)] at refused
      exact .inl ⟨not_exists.mp named,(Except.error.inj refused).symm⟩
  · rintro (⟨unnamed,rfl⟩ | ⟨format,taken,names,rfl⟩)
    · exact enter_unnamed unnamed
    · rw [enter_named names,if_pos taken]

end Table
end Registry

/-! ### Roles -/

/-- What a registry does in one role: which calls are for it, and what it enters and looks up for them. -/
structure Role (α : Type) where
  name : String
  family : String
  adapterKind : String
  request? : Registration → Option (Value × AdapterClass α)
  table : Registry → Table Format (AdapterClass α)
  put : Registry → Table Format (AdapterClass α) → Registry
  formats : Registry → List Format
  find : Registry → Value → Except Failure α
  table_empty : table .empty = .empty
  table_put : ∀ r t, table (put r t) = t
  formats_eq : ∀ r, formats r = (table r).keys
  find_eq : ∀ r v, find r v = do (← Registry.lookUp adapterKind (table r) v).construct
  apply_own : ∀ r call v made, request? call = some (v,made) →
    call.apply r = do return put r (← Registry.enter name family (table r) v made)
  apply_other : ∀ r s call, request? call = none → call.apply r = .ok s → table s = table r

namespace Role

def parsers : Role SourceParser where
  name := "Parser"
  family := "SourceFormat"
  adapterKind := "source"
  request?
    | .parser v made => some (v,made)
    | .transformer _ _ => none
  table := Registry.parsers
  put r t := { r with parsers := t }
  formats := Registry.parserFormats
  find := Registry.parser
  table_empty := rfl
  table_put _ _ := rfl
  formats_eq _ := rfl
  find_eq _ _ := rfl
  apply_own := by
    rintro r (_ | _) v made ⟨⟩
    rfl
  apply_other := by
    rintro r s (_ | ⟨v,made⟩) other applied
    · cases other
    · obtain ⟨t,_,returned⟩ := bind_eq_ok.mp applied
      cases returned
      rfl

def transformers : Role TargetTransformer where
  name := "Transformer"
  family := "TargetFormat"
  adapterKind := "target"
  request?
    | .parser _ _ => none
    | .transformer v made => some (v,made)
  table := Registry.transformers
  put r t := { r with transformers := t }
  formats := Registry.transformerFormats
  find := Registry.transformer
  table_empty := rfl
  table_put _ _ := rfl
  formats_eq _ := rfl
  find_eq _ _ := rfl
  apply_own := by
    rintro r (_ | _) v made ⟨⟩
    rfl
  apply_other := by
    rintro r s (⟨v,made⟩ | _) other applied
    · obtain ⟨t,_,returned⟩ := bind_eq_ok.mp applied
      cases returned
      rfl
    · cases other

section Calls
variable {α : Type} (role : Role α)

/-- The requests that are accepted in a role, in order: values that name formats, with classes. -/
def requests (r : Registry) (calls : List Registration) : List (Value × AdapterClass α) :=
  (r.accepted calls).filterMap role.request?

/-- The class of the first accepted request for the format that a value names. -/
def registered? (calls : List Registration) (v : Value) : Option (AdapterClass α) :=
  ((role.requests .empty calls).find? fun request => request.1.SameFormat v).map (·.2)

variable {role} {r s : Registry} {call : Registration} {v : Value} {made : AdapterClass α}

theorem apply_eq_ok (own : role.request? call = some (v,made)) : call.apply r = .ok s ↔
    ∃ t, Registry.enter role.name role.family (role.table r) v made = .ok t ∧ role.put r t = s := by
  rw [role.apply_own r call v made own,bind_eq_ok]
  exact exists_congr fun t => and_congr_right fun _ => ⟨Except.ok.inj,congrArg _⟩

theorem apply_eq_error (own : role.request? call = some (v,made)) {fault : Fault} : call.apply r = .error fault ↔
    Registry.enter role.name role.family (role.table r) v made = .error fault := by
  rw [role.apply_own r call v made own]
  cases Registry.enter role.name role.family (role.table r) v made with
  | error other => simp [bind,Except.bind]
  | ok t => simp [bind,Except.bind,pure,Except.pure]

/-- What a call does to the table of a role: it adds a class for a format that had none, if it is for the role and
    succeeds, and nothing otherwise. -/
theorem table_attempt (role : Role α) (r : Registry) (call : Registration) :
    (∃ s v made format, call.apply r = .ok s ∧ role.request? call = some (v,made) ∧ v.Names format ∧
      format ∉ (role.table r).keys ∧ (role.table s).entries = (role.table r).entries ++ [(format,made)]) ∨
    (∃ s, call.apply r = .ok s ∧ role.request? call = none ∧ role.table s = role.table r) ∨
    ∃ fault, call.apply r = .error fault := by
  cases applied : call.apply r with
  | error fault => exact .inr (.inr ⟨fault,rfl⟩)
  | ok s =>
    cases own : role.request? call with
    | none => exact .inr (.inl ⟨s,rfl,rfl,role.apply_other r s call own applied⟩)
    | some request =>
      obtain ⟨v,made⟩ := request
      obtain ⟨t,entered,rfl⟩ := (apply_eq_ok own).mp applied
      obtain ⟨format,names,free,rfl⟩ := Registry.enter_eq_ok.mp entered
      refine .inl ⟨_,v,made,format,rfl,rfl,names,free,?_⟩
      rw [role.table_put]

/-- An entry of a table holds what was requested, under the format that was named. -/
def Holds (request : Value × AdapterClass α) (entry : Format × AdapterClass α) : Prop := request.1.Names entry.1 ∧ entry.2 = request.2

/-- Calls add to the table of a role one entry for each accepted request, in order, and for no format twice. -/
theorem table_after (role : Role α) (r : Registry) (calls : List Registration) : ∃ entered,
    (role.table (r.after calls)).entries = (role.table r).entries ++ entered ∧
      List.Forall₂ Holds (role.requests r calls) entered ∧
      ((role.table r).keys.Nodup → (role.table (r.after calls)).keys.Nodup) := by
  induction calls generalizing r with
  | nil => exact ⟨[],(List.append_nil _).symm,.nil,fun once => once⟩
  | cons call rest ih =>
    rcases role.table_attempt r call with ⟨s,v,made,format,applied,own,names,free,added⟩ | ⟨s,applied,other,same⟩ |
      ⟨fault,applied⟩
    · obtain ⟨after,accepted⟩ := Registry.run_ok rest applied
      obtain ⟨entered,entries,each,distinct⟩ := ih s
      rw [requests,after,accepted,List.filterMap_cons_some own]
      refine ⟨(format,made) :: entered,?_,.cons ⟨names,rfl⟩ each,fun once => distinct ?_⟩
      · rw [entries,added,List.append_assoc,List.singleton_append]
      · rw [Table.keys,added,List.map_append,List.map_singleton]
        exact List.nodup_append_comm.mp (List.nodup_cons.mpr ⟨free,once⟩)
    · obtain ⟨after,accepted⟩ := Registry.run_ok rest applied
      rw [requests,after,accepted,List.filterMap_cons_none other,← same]
      exact ih s
    · obtain ⟨after,accepted⟩ := Registry.run_error rest applied
      rw [requests,after,accepted]
      exact ih r

private theorem apply_agree (own : role.request? call = some (v,made)) (same : role.table r = role.table s) :
    (∃ r' s', call.apply r = .ok r' ∧ call.apply s = .ok s' ∧ role.table r' = role.table s') ∨
      ∃ fault, call.apply r = .error fault ∧ call.apply s = .error fault := by
  cases entered : Registry.enter role.name role.family (role.table s) v made with
  | error fault => exact .inr ⟨fault,(apply_eq_error own).mpr (same ▸ entered),(apply_eq_error own).mpr entered⟩
  | ok t =>
    refine .inl ⟨_,_,(apply_eq_ok own).mpr ⟨t,same ▸ entered,rfl⟩,(apply_eq_ok own).mpr ⟨t,entered,rfl⟩,?_⟩
    rw [role.table_put,role.table_put]

/-- Registries that agree on a role agree on it after the same calls, whatever calls for the other role come between. -/
theorem after_filter (role : Role α) {r s : Registry} (same : role.table r = role.table s) (calls : List Registration) :
    role.table (r.after calls) = role.table (s.after (calls.filter fun call => (role.request? call).isSome)) ∧
      role.requests r calls = role.requests s (calls.filter fun call => (role.request? call).isSome) := by
  induction calls generalizing r s with
  | nil => exact ⟨same,rfl⟩
  | cons call rest ih =>
    cases own : role.request? call with
    -- A call for the other role is made on one side only, and may change that registry outside the table.
    | none =>
      rw [List.filter_cons_of_neg (by simp [own])]
      cases applied : call.apply r with
      | error fault =>
        obtain ⟨after,accepted⟩ := Registry.run_error rest applied
        rw [after,requests,accepted]
        exact ih same
      | ok changed =>
        obtain ⟨after,accepted⟩ := Registry.run_ok rest applied
        rw [after,requests,accepted,List.filterMap_cons_none own]
        exact ih ((role.apply_other r changed call own applied).trans same)
    | some request =>
      rw [List.filter_cons_of_pos (by simp [own])]
      rcases apply_agree own same with ⟨r',s',left,right,agree⟩ | ⟨fault,left,right⟩
      · obtain ⟨after,accepted⟩ := Registry.run_ok rest left
        obtain ⟨after',accepted'⟩ := Registry.run_ok (rest.filter fun call => (role.request? call).isSome) right
        obtain ⟨tables,requested⟩ := ih agree
        rw [after,after',requests,requests,accepted,accepted',List.filterMap_cons_some own,List.filterMap_cons_some own]
        exact ⟨tables,congrArg _ requested⟩
      · obtain ⟨after,accepted⟩ := Registry.run_error rest left
        obtain ⟨after',accepted'⟩ := Registry.run_error (rest.filter fun call => (role.request? call).isSome) right
        rw [after,after',requests,requests,accepted,accepted']
        exact ih same

/-! ### Lookup -/

theorem registered?_eq_none (role : Role α) (calls : List Registration) (v : Value) :
    role.registered? calls v = none ↔ ∀ request ∈ role.requests .empty calls, ¬ request.1.SameFormat v := by
  simp [registered?]

private theorem find?_holds {requests : List (Value × AdapterClass α)} {entries : List (Format × AdapterClass α)}
    (each : List.Forall₂ Holds requests entries) {format : Format} (names : v.Names format) :
    (entries.find? fun e => e.1 == format).map (·.2) = (requests.find? fun request => request.1.SameFormat v).map (·.2) := by
  induction each with
  | nil => rfl
  | @cons request entry requests entries holds _ ih =>
    have same : request.1.SameFormat v ↔ entry.1 = format := by
      constructor
      · rintro ⟨other,left,right⟩
        exact (holds.1.unique left).trans (right.unique names)
      · rintro rfl
        exact ⟨_,holds.1,names⟩
    by_cases here : entry.1 = format
    · rw [List.find?_cons_of_pos (by simpa using here),List.find?_cons_of_pos (by simpa using same.mpr here)]
      exact congrArg some holds.2
    · rw [List.find?_cons_of_neg (by simpa using here),List.find?_cons_of_neg (by simpa using mt same.mp here),ih]

/-- A value finds an adapter of the class in the first accepted request for its format, if it can be constructed. -/
theorem find_after (role : Role α) (calls : List Registration) (v : Value) : role.find (Registry.empty.after calls) v =
    match role.registered? calls v with
    | some made => made.construct
    | none => .error (.unsupportedFormat (.text role.adapterKind) v.tagName) := by
  obtain ⟨entered,entries,each,_⟩ := role.table_after .empty calls
  rw [role.table_empty] at entries
  have lookup : (Format.ofValue? v).bind (role.table (Registry.empty.after calls)).get? = role.registered? calls v := by
    cases named : Format.ofValue? v with
    | none =>
      have unnamed := Format.ofValue?_eq_none.mp named
      exact ((role.registered?_eq_none calls v).mpr fun request _ ⟨format,_,names⟩ => unnamed format names).symm
    | some format =>
      rw [Option.bind_some,Table.get?_eq,entries]
      exact find?_holds each (Format.ofValue?_eq_some.mp named)
  cases served : role.registered? calls v with
  | none =>
    rw [role.find_eq,Registry.lookUp,lookup,served]
    rfl
  | some made =>
    rw [role.find_eq,Registry.lookUp,lookup,served]
    rfl

end Calls

/-! ### After any calls -/

/-- What a registry does in a role after calls. It refuses values that name no format and those whose format has
    a class. It lists the formats of the accepted requests, and for each constructs an adapter of the class in the first one.
    Calls for the other role might as well not have been made. -/
structure Keeps {α : Type} (role : Role α) (calls : List Registration) : Prop where
  refused : ∀ call v made, role.request? call = some (v,made) → ∀ fault,
    call.apply (Registry.empty.after calls) = .error fault ↔
      (∀ format, ¬ v.Names format) ∧ fault = .badValue (v.literal ++ " is not a valid " ++ role.family) ∨
        ∃ format ∈ role.formats (Registry.empty.after calls), v.Names format ∧
          fault = .badValue (role.name ++ " for " ++ format.text ++ " already registered")
  listed : List.Forall₂ (fun request format => request.1.Names format) (role.requests .empty calls)
    (role.formats (Registry.empty.after calls))
  once : (role.formats (Registry.empty.after calls)).Nodup
  found : ∀ v adapter, role.find (Registry.empty.after calls) v = .ok adapter ↔
    ∃ made, role.registered? calls v = some made ∧ made.construct = .ok adapter
  missing : ∀ v e, role.find (Registry.empty.after calls) v = .error e ↔
    (e = .unsupportedFormat (.text role.adapterKind) v.tagName ∧
      ∀ request ∈ role.requests .empty calls, ¬ request.1.SameFormat v) ∨
    ∃ made, role.registered? calls v = some made ∧ made.construct = .error e
  spelled : ∀ tag, role.find (Registry.empty.after calls) (.tag tag) =
    role.find (Registry.empty.after calls) (.text tag.text)
  alone : role.table (Registry.empty.after calls) =
      role.table (Registry.empty.after (calls.filter fun call => (role.request? call).isSome)) ∧
    role.requests .empty calls = role.requests .empty (calls.filter fun call => (role.request? call).isSome)

theorem keeps {α : Type} (role : Role α) (calls : List Registration) : role.Keeps calls := by
  obtain ⟨entered,entries,each,distinct⟩ := role.table_after .empty calls
  rw [role.table_empty] at entries distinct
  refine ⟨?_,?_,role.formats_eq _ ▸ distinct List.nodup_nil,?_,?_,?_,role.after_filter rfl calls⟩
  · intro call v made own fault
    rw [apply_eq_error own,Registry.enter_eq_error,role.formats_eq]
  · rw [role.formats_eq,Table.keys,entries]
    exact List.forall₂_map_right_iff.mpr (each.imp fun _ _ holds => holds.1)
  · intro v adapter
    rw [role.find_after]
    cases role.registered? calls v with
    | none => simp
    | some made => simp
  · intro v e
    rw [role.find_after,← role.registered?_eq_none]
    cases role.registered? calls v with
    | none => simp [eq_comm]
    | some made => simp
  · intro tag
    rw [role.find_after,role.find_after]
    rfl

end Role

namespace Registry

theorem after_append (r : Registry) (calls others : List Registration) :
    r.after (calls ++ others) = (r.after calls).after others := by
  induction calls generalizing r with
  | nil => rfl
  | cons call rest ih => exact ih _

theorem after_accepted (r : Registry) (calls : List Registration) : r.after (r.accepted calls) = r.after calls := by
  induction calls generalizing r with
  | nil => rfl
  | cons call rest ih =>
    cases applied : call.apply r with
    | ok s =>
      obtain ⟨after,accepted⟩ := run_ok rest applied
      rw [after,accepted,(run_ok _ applied).1,ih]
    | error fault =>
      obtain ⟨after,accepted⟩ := run_error rest applied
      rw [after,accepted,ih]

/-- Whatever calls are made, a registry keeps for every format the first class of parsers and the first class of
    transformers that it accepted. A call that fails changes nothing. -/
theorem registration_total_correct (calls : List Registration) :
    Role.parsers.Keeps calls ∧ Role.transformers.Keeps calls ∧
      (∀ call fault, call.apply (empty.after calls) = .error fault →
        empty.after (calls ++ [call]) = empty.after calls) ∧
      empty.after (empty.accepted calls) = empty.after calls := by
  refine ⟨Role.parsers.keeps calls,Role.transformers.keeps calls,?_,after_accepted _ _⟩
  intro call fault failed
  rw [after_append,(run_error [] failed).1]
  rfl

/-- The word of the other vocabulary names the format too, so that the second parser is refused, but a transformer for it
    is not, though none can be constructed. -/
example (p q : SourceParser) (e : Failure) :
    let r := empty.after [.parser (.text "salt") p,.parser (.tag (.target .salt)) q,.parser (.text "cfengine") q,
      .transformer (.tag (.source .salt)) ⟨.error e⟩]
    r.parserFormats = [.salt] ∧ r.parser (.tag (.source .salt)) = .ok p ∧ r.transformerFormats = [.salt] ∧
      r.transformer (.text "salt") = .error e :=
  ⟨rfl,rfl,rfl,rfl⟩

end Registry
end InfraGraph
