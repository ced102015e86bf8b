import ScriptHeap.Table
import ScriptHeap.Value

/-! Classes, their instances, namespaces, and methods bound to a receiver. -/
namespace ScriptHeap

inductive ClassKind where
  | normal
  | extended
deriving DecidableEq, Repr

def ClassKind.name : ClassKind → String
  | normal => "Normal"
  | extended => "Extended"

/-- A class. Its parent is declared by hash and linked once it is available; hash zero declares none. -/
structure ClassDef where
  /-- A string object. -/
  name : Option Handle
  hash : NameHash
  methods : Table Value
  /-- The values that fields start from. -/
  fields : Table Value
  initializer : Value
  kind : ClassKind
  parentHash : NameHash
  parent : Option Handle

namespace ClassDef

def ofHash (hash : NameHash) : ClassDef := ⟨none, hash, .empty, .empty, .null, .normal, 0, none⟩

def hasInitializer (self : ClassDef) : Bool := self.initializer != .null

/-- A parent is declared and not yet linked. -/
def isPending (self : ClassDef) : Bool := self.parentHash != 0 && self.parent.isNone

end ClassDef

/-- An instance. Its class is in the object's header. -/
structure ClassInstance where
  fields : Table Value
  /-- What the instance stands for in the host's world. The host looks after it. -/
  entity : Option UInt64

def ClassInstance.empty : ClassInstance := ⟨.empty, none⟩

structure NameSpace where
  /-- A string object. -/
  name : Option Handle
  hash : NameHash
  fields : Table Value

def NameSpace.ofHash (hash : NameHash) : NameSpace := ⟨none, hash, .empty⟩

/-- A method together with the receiver it was taken from. -/
structure BoundMethod where
  receiver : Value
  method : Handle
deriving DecidableEq, Repr

end ScriptHeap
