import InfraGraph.Table
import Mathlib.Data.List.Basic

/-!
Tables in closed form. A table that holds the values of a function under given keys keeps that form
when one of its entries changes, and every operation commutes with a renaming of the keys that keeps
equality.
-/
namespace InfraGraph.Table
variable {κ ν : Type}

theorem get?_eq [BEq κ] (t : Table κ ν) (key : κ) :
    t.get? key = (t.entries.find? fun e => e.1 == key).map (·.2) := rfl

/-- The table that holds under each key the value of a function. -/
def tabulate (keys : List κ) (f : κ → ν) : Table κ ν := ⟨keys.map fun key => (key,f key)⟩

/-- The table holds the value of the function under every form of its keys, if the function gives these one value. -/
theorem get?_tabulate_same [BEq κ] {keys : List κ} {key : κ} {f : κ → ν} (present : keys.any (· == key) = true)
    (respects : ∀ other, (other == key) = true → f other = f key) : (tabulate keys f).get? key = some (f key) := by
  obtain ⟨first,found⟩ := Option.isSome_iff_exists.mp (List.find?_isSome.mpr (List.any_eq_true.mp present))
  have same : (first == key) = true := List.find?_some (p := (· == key)) found
  rw [tabulate,get?_eq,List.find?_map,Function.comp_def,found,Option.map_some,Option.map_some,respects first same]

section Tabulate
variable [DecidableEq κ] {keys : List κ} {key : κ}

private theorem contains_tabulate (member : key ∈ keys) (f : κ → ν) : (tabulate keys f).contains key = true := by
  simpa [tabulate,contains] using member

theorem get?_tabulate (member : key ∈ keys) (f : κ → ν) : (tabulate keys f).get? key = some (f key) :=
  get?_tabulate_same (List.any_eq_true.mpr ⟨key,member,beq_self_eq_true key⟩) fun _ same => by rw [eq_of_beq same]

theorem update_tabulate (member : key ∈ keys) (f : κ → ν) (initial : ν) (change : ν → ν) :
    (tabulate keys f).update key initial change = tabulate keys (Function.update f key (change (f key))) := by
  rw [update,if_pos (contains_tabulate member f)]
  simp only [tabulate,List.map_map,mk.injEq]
  apply List.map_congr_left
  intro other _
  by_cases same : other = key
  · simp [same]
  · simp [same]

end Tabulate

theorem keys_update [BEq κ] {t : Table κ ν} {key : κ} (present : t.contains key = true) (initial : ν)
    (change : ν → ν) : (t.update key initial change).keys = t.keys := by
  rw [update,if_pos present]
  simp only [keys,List.map_map]
  apply List.map_congr_left
  intro e _
  by_cases same : (e.1 == key) = true
  · simp [same]
  · simp [same]

section Rename
variable {κ' : Type} [BEq κ] [BEq κ']

/-- The table with other names for its keys. -/
def mapKeys (f : κ → κ') (t : Table κ ν) : Table κ' ν := ⟨t.entries.map fun e => (f e.1,e.2)⟩

variable {f : κ → κ'} (faithful : ∀ a b, (f a == f b) = (a == b))
include faithful

theorem contains_mapKeys (t : Table κ ν) (key : κ) : (t.mapKeys f).contains (f key) = t.contains key := by
  simp [mapKeys,contains,List.any_map,Function.comp_def,faithful]

theorem get?_mapKeys (t : Table κ ν) (key : κ) : (t.mapKeys f).get? (f key) = t.get? key := by
  simp only [mapKeys,get?_eq,List.find?_map,Function.comp_def,faithful,Option.map_map]

theorem update_mapKeys (t : Table κ ν) (key : κ) (initial : ν) (change : ν → ν) :
    (t.mapKeys f).update (f key) initial change = (t.update key initial change).mapKeys f := by
  unfold update
  rw [contains_mapKeys faithful]
  by_cases present : t.contains key = true
  · simp only [present,if_true,mapKeys,List.map_map,mk.injEq]
    apply List.map_congr_left
    intro e _
    by_cases same : (e.1 == key) = true
    · simp [faithful,same]
    · simp [faithful,same]
  · simp [present,mapKeys]

end Rename

end InfraGraph.Table
