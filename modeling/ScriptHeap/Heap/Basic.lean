import ScriptHeap.Heap.Accounting
import ScriptHeap.Object.Basic

/-! The heap: objects in generational slots, chained from the newest to the oldest through their
headers, with the bytes charged for them. -/
namespace ScriptHeap

structure Heap where
  store : Slots Object
  /-- The newest object, where the chain begins. -/
  head : Option Handle
  accounting : Accounting
  links : LinkTable
  /-- The classes that new objects of a kind get. -/
  builtins : ObjectType → Option Handle
  config : HeapConfig
  /-- The charged bytes at which the heap asks to be collected. -/
  nextCollect : Nat

namespace Heap

/-- A heap without objects. -/
def ofConfig (config : HeapConfig) : Heap where
  store := .empty
  head := none
  accounting := .zero
  links := .empty
  builtins := fun _ => none
  config := config
  nextCollect := config.collectThreshold.toNat

/-! ## Looking at objects -/

section
variable (heap : Heap)

/-- The object of a handle, while it lives. -/
def get? (handle : Handle) : Option Object := heap.store.get? handle.toSlotKey

def contains (handle : Handle) : Bool := (heap.get? handle).isSome

/-- The object of a handle that is expected to be alive. -/
def require (handle : Handle) : Except HeapError Object :=
  match heap.get? handle with
  | some object => .ok object
  | none => .error (.invalidHandle handle)

/-- The kind in the header. -/
def typeOf? (handle : Handle) : Option ObjectType := (heap.get? handle).map (·.header.type)

/-- The data of a live object of a kind. -/
def view? {α : Type} (variant : Variant α) (handle : Handle) : Option α :=
  (heap.get? handle).bind fun object => variant.project object.payload

/-- The data of an object that is expected to be alive and of a kind. A misfit is reported with the
kind in its header. -/
def expect {α : Type} (variant : Variant α) (handle : Handle) : Except HeapError α :=
  match heap.require handle with
  | .error cause => .error cause
  | .ok object =>
    match variant.project object.payload with
    | some data => .ok data
    | none => .error (.wrongObjectType variant.type object.header.type)

/-- Whether a value is a live object of a kind. -/
def isObjectOf (value : Value) (type : ObjectType) : Bool :=
  value.asObject.bind heap.typeOf? == some type

/-- The kind of a value: of a live object the kind in its header, else that of the value itself. -/
def typeNameOf (value : Value) : String :=
  match value.asObject.bind heap.typeOf? with
  | some type => type.name
  | none => value.typeName

def objectCount : Nat := heap.store.size

def bytes : Nat := heap.accounting.bytes

def builtin? (type : ObjectType) : Option Handle := heap.builtins type

def isDark (handle : Handle) : Bool := (heap.get? handle).any (·.header.dark)

/-- How many live objects carry the collector's mark. -/
def darkCount : Nat := heap.store.occupants.countP (·.header.dark)

/-- Whether so much is charged that the heap should be collected. -/
def shouldCollect : Bool := heap.nextCollect ≤ heap.bytes

/-! ## Changing objects in place -/

/-- Changes the object of a handle, if it lives. -/
def modify (handle : Handle) (change : Object → Object) : Heap :=
  { heap with store := heap.store.modify handle.toSlotKey change }

def modifyHeader (handle : Handle) (change : Header → Header) : Heap :=
  heap.modify handle fun object => { object with header := change object.header }

/-- Changes the data of a live object of a kind. -/
def update {α : Type} (variant : Variant α) (handle : Handle) (change : α → α) : Heap :=
  heap.modify handle fun object => { object with payload := variant.modify change object.payload }

/-- Sets the mark of an object; there is no heap to give when the object is gone. -/
def setDark? (handle : Handle) (dark : Bool) : Option Heap :=
  if heap.contains handle then some (heap.modifyHeader handle ({ · with dark })) else none

/-- Takes the mark off every object. -/
def clearMarks : Heap :=
  { heap with
    store := heap.store.mapAll fun object =>
      { object with header := { object.header with dark := false } } }

end
end Heap
end ScriptHeap
