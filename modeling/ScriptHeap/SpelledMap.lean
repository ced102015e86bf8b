import ScriptHeap.Table
import ScriptHeap.Value

/-! Maps of scripts. Keys are texts, found by their hash; a second table keeps the spelling under which
each key first arrived, for listing and printing. -/
namespace ScriptHeap

/-- The values by key hash and, beside them, the spellings of the keys. -/
structure SpelledMap where
  values : Table Value
  spellings : Table String

namespace SpelledMap

def empty : SpelledMap := ⟨.empty, .empty⟩

instance : Inhabited SpelledMap := ⟨empty⟩

def getByHash? (map : SpelledMap) (hash : NameHash) : Option Value := map.values.get? hash

def get? (map : SpelledMap) (key : String) : Option Value := map.getByHash? (hashName key)

def contains (map : SpelledMap) (key : String) : Bool := map.values.contains (hashName key)

def size (map : SpelledMap) : Nat := map.values.size

def isEmpty (map : SpelledMap) : Bool := map.values.isEmpty

/-- The spelling under which the key of a hash was first written. -/
def spelling? (map : SpelledMap) (hash : NameHash) : Option String := map.spellings.get? hash

/-- Writes a key and gives back the value it displaces. A key that was present keeps its place and its
first spelling. -/
def put (map : SpelledMap) (key : String) (value : Value) : Option Value × SpelledMap :=
  let hash := hashName key
  let (displaced, values) := map.values.put hash value
  match displaced with
  | some old => (some old, { map with values })
  | none => (none, { values, spellings := map.spellings.insert hash key })

/-- Removes a key from both tables and gives back its value. -/
def remove (map : SpelledMap) (key : String) : Option Value × SpelledMap :=
  let hash := hashName key
  let (removed, values) := map.values.remove hash
  match removed with
  | some old => (some old, { values, spellings := map.spellings.erase hash })
  | none => (none, { map with values })

/-- Empties both tables. -/
def clear (_ : SpelledMap) : SpelledMap := empty

/-- Spelled keys with their values, in order of arrival. -/
def entries (map : SpelledMap) : List (String × Value) :=
  map.spellings.entries.filterMap fun (hash, key) => (map.values.get? hash).map (key, ·)

def keys (map : SpelledMap) : List String := map.spellings.values

def valueList (map : SpelledMap) : List Value := map.values.values

/-- The two tables have the same keys in the same order. -/
def isConsistent (map : SpelledMap) : Bool := map.values.keys == map.spellings.keys

end SpelledMap
end ScriptHeap
