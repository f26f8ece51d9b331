/-!
# Tables

A table holds entries under keys in the order in which the keys were first entered. Keys are
compared by `==`, which may identify keys that are not the same piece of data; the key that was
entered first stays.
-/

namespace InfraGraph

/-- Entries in the order of their keys' first appearance. -/
structure Table (κ ν : Type) where
  entries : List (κ × ν)
  deriving Inhabited

namespace Table

variable {κ ν : Type}

def empty : Table κ ν := ⟨[]⟩

def keys (t : Table κ ν) : List κ := t.entries.map (·.1)

/-- What the keys hold, in the order of the keys. -/
def values (t : Table κ ν) : List ν := t.entries.map (·.2)

def size (t : Table κ ν) : Nat := t.entries.length

variable [BEq κ]

def entry? (t : Table κ ν) (key : κ) : Option (κ × ν) := t.entries.find? fun e => e.1 == key

def get? (t : Table κ ν) (key : κ) : Option ν := (t.entry? key).map (·.2)

def contains (t : Table κ ν) (key : κ) : Bool := t.entries.any fun e => e.1 == key

/-- Enter a value, in place of what the key held before. -/
def insert (t : Table κ ν) (key : κ) (value : ν) : Table κ ν :=
  if t.contains key then ⟨t.entries.map fun e => if e.1 == key then (e.1,value) else e⟩
  else ⟨t.entries ++ [(key,value)]⟩

/-- Enter a value unless the key holds one already. -/
def insertNew (t : Table κ ν) (key : κ) (value : ν) : Table κ ν :=
  if t.contains key then t else ⟨t.entries ++ [(key,value)]⟩

/-- Change what a key holds, which is `initial` for a new key. -/
def update (t : Table κ ν) (key : κ) (initial : ν) (change : ν → ν) : Table κ ν :=
  if t.contains key then ⟨t.entries.map fun e => if e.1 == key then (e.1,change e.2) else e⟩
  else ⟨t.entries ++ [(key,change initial)]⟩

/-- Enter the pairs of a list one after another. -/
def ofList (pairs : List (κ × ν)) : Table κ ν :=
  pairs.foldl (fun t e => t.insert e.1 e.2) empty

/-- Enter the entries of a second table after those of the first. -/
def union (first second : Table κ ν) : Table κ ν :=
  second.entries.foldl (fun t e => t.insert e.1 e.2) first

/-- A key is present exactly if it holds something. -/
theorem isSome_get? (t : Table κ ν) (key : κ) : (t.get? key).isSome = t.contains key := by
  simp only [get?, entry?,contains,Option.isSome_map]
  induction t.entries with
  | nil => rfl
  | cons e rest ih => cases h : e.1 == key <;> simp [List.find?,h,ih]

@[simp] theorem get?_empty (key : κ) : (empty : Table κ ν).get? key = none := rfl

@[simp] theorem contains_empty (key : κ) : (empty : Table κ ν).contains key = false := rfl

end Table

end InfraGraph
