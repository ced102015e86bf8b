import ScriptHeap.Hash

/-! Tables: maps from name hashes that remember the order in which their keys arrived. Methods, fields
and the class registry are tables. Writing a present key keeps its place, and removing a key keeps
the order of the others. -/
namespace ScriptHeap

/-- Entries in order of arrival, with pairwise different keys. -/
@[ext] structure Table (α : Type) where
  entries : List (NameHash × α)
  distinct : (entries.map Prod.fst).Nodup

namespace Table
variable {α : Type}

def empty : Table α := ⟨[], .nil⟩

instance : Inhabited (Table α) := ⟨empty⟩

def keys (table : Table α) : List NameHash := table.entries.map Prod.fst

def values (table : Table α) : List α := table.entries.map Prod.snd

def size (table : Table α) : Nat := table.entries.length

def isEmpty (table : Table α) : Bool := table.entries.isEmpty

def get? (table : Table α) (key : NameHash) : Option α := table.entries.lookup key

def contains (table : Table α) (key : NameHash) : Bool := table.keys.contains key

private theorem keys_map_value (entries : List (NameHash × α)) (change : NameHash × α → α) :
    (entries.map fun entry => (entry.1, change entry)).map Prod.fst = entries.map Prod.fst := by
  simp [Function.comp_def]

/-- Changes the value at a key, where there is one. -/
def adjust (table : Table α) (key : NameHash) (change : α → α) : Table α where
  entries := table.entries.map fun entry =>
    (entry.1, if entry.1 = key then change entry.2 else entry.2)
  distinct := by
    rw [keys_map_value _ fun entry => if entry.1 = key then change entry.2 else entry.2]
    exact table.distinct

/-- Writes a key: a present one in its place, an absent one at the end. -/
def insert (table : Table α) (key : NameHash) (value : α) : Table α :=
  if present : key ∈ table.keys then table.adjust key fun _ => value
  else
    { entries := table.entries ++ [(key, value)]
      distinct := by
        rw [List.map_append, List.nodup_append]
        refine ⟨table.distinct, by simp, ?_⟩
        intro held member other appended same
        simp only [List.map_cons, List.map_nil, List.mem_singleton] at appended
        exact present (by rw [← appended, ← same]; exact member) }

/-- Removes a key and keeps the order of the others. -/
def erase (table : Table α) (key : NameHash) : Table α where
  entries := table.entries.filter fun entry => entry.1 != key
  distinct := table.distinct.sublist (List.filter_sublist.map Prod.fst)

/-- Writes a key and gives back the value it displaces. -/
def put (table : Table α) (key : NameHash) (value : α) : Option α × Table α :=
  (table.get? key, table.insert key value)

/-- Removes a key and gives back its value. -/
def remove (table : Table α) (key : NameHash) : Option α × Table α :=
  (table.get? key, table.erase key)

/-- Overwrites the value at a present key; there is no table to give when the key is absent. -/
def replace? (table : Table α) (key : NameHash) (value : α) : Option (Table α) :=
  if table.contains key then some (table.adjust key fun _ => value) else none

/-- Writes every entry of another table, in its order. -/
def copyFrom (table other : Table α) : Table α :=
  other.entries.foldl (fun merged entry => merged.insert entry.1 entry.2) table

end Table
end ScriptHeap
