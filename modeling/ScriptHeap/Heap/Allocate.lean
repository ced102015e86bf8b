import ScriptHeap.Heap.Step

/-! Allocation, the one way in which objects come to be. -/
namespace ScriptHeap.Heap

/-- The first step of a heap. It succeeds whatever capacity is configured; that a program stops here if
memory for so many slots cannot be had, is left out. -/
def create (config : HeapConfig) : Step Unit :=
  ⟨.ok (), .ofConfig config, [.logged (.heapCreated config)]⟩

/-- The object that a payload becomes: unmarked, and at the head of the chain. -/
def newborn (heap : Heap) (payload : Payload) (dispatch : Option Handle) : Object :=
  ⟨{ type := payload.type, dark := false, dispatch, next := heap.head }, payload⟩

/-- Allocates an object with a given class in its header. The limit on objects is checked before the
limit on bytes, and nothing is changed unless both leave room. -/
def allocateWith (heap : Heap) (payload : Payload) (dispatch : Option Handle) : Step Handle :=
  let objectLimit := heap.config.maxObjectCount.toNat
  let memoryLimit := heap.config.maxMemorySize.toNat
  let size := payload.type.structSize
  if objectLimit < heap.objectCount + 1 then
    (Step.fail heap (.objectLimitExceeded objectLimit (heap.objectCount + 1))).after
      [.logged (.objectLimitExceeded objectLimit)]
  else
    match heap.accounting.charge size with
    | .error cause => Step.defect heap cause
    | .ok charged =>
      if memoryLimit < charged.bytes then
        (Step.fail heap (.memoryLimitExceeded memoryLimit charged.bytes)).after
          [.logged (.memoryLimitExceeded memoryLimit charged.bytes)]
      else
        let handle : Handle := ⟨heap.store.nextKey⟩
        { outcome := .ok handle
          heap :=
            { heap with
              store := heap.store.insert (heap.newborn payload dispatch)
              head := some handle
              accounting := charged }
          notices := [.logged (.allocated handle payload.type size charged.bytes)] }

/-- Allocates an object with the class registered for its kind. -/
def allocate (heap : Heap) (payload : Payload) : Step Handle :=
  heap.allocateWith payload (heap.builtin? payload.type)

/-- Registers the class that objects of a kind get from now on. -/
def setBuiltin (heap : Heap) (type : ObjectType) (implementation : Handle) : Step Unit :=
  (Step.ofLook heap (heap.expect .classDef implementation)).andThen fun _ heap =>
    { outcome := .ok ()
      heap :=
        { heap with
          builtins := fun other => if other = type then some implementation else heap.builtins other }
      notices := [.logged (.builtinRegistered type implementation)] }

/-! ## One constructor for each kind -/

section
variable (heap : Heap)

def takeString (bytes : List UInt8) : Step Handle := heap.allocate (.string (.take bytes))

def copyString (bytes : List UInt8) : Step Handle := heap.allocate (.string (.copy bytes))

def copyText (text : String) : Step Handle := heap.copyString (Text.utf8 text)

def newFunction (function : FunctionDef) : Step Handle := heap.allocate (.function function)

def newNative (function : NativeFunction) : Step Handle := heap.allocate (.native function)

def newUpvalue (slot : Nat) : Step Handle := heap.allocate (.upvalue (.overSlot slot))

/-- A closure gets as many places as its function declares at this moment. -/
def newClosure (function : Handle) : Step Handle :=
  (Step.ofLook heap (heap.expect .function function)).andThen fun definition heap =>
    heap.allocate (.closure (.ofCount function definition.upvalueCount))

/-- A class that is known only by its hash. -/
def newClass (hash : NameHash) : Step Handle := heap.allocate (.classDef (.ofHash hash))

/-- A class with its name, for which a string is allocated first. -/
def newNamedClass (name : String) : Step Handle :=
  (heap.copyText name).andThen fun text heap =>
    heap.allocate (.classDef { ClassDef.ofHash (hashName name) with name := some text })

/-- The class of an instance goes into its header, whatever class is registered for instances. -/
def newInstance (ofClass : Handle) : Step Handle :=
  (Step.ofLook heap (heap.expect .classDef ofClass)).andThen fun _ heap =>
    heap.allocateWith (.classInstance .empty) (some ofClass)

/-- Only what the header calls a function or a closure can be bound. -/
def newBoundMethod (receiver : Value) (method : Handle) : Step Handle :=
  (Step.ofLook heap (heap.require method)).andThen fun object heap =>
    match object.header.type with
    | .function | .closure => heap.allocate (.boundMethod ⟨receiver, method⟩)
    | found => Step.fail heap (.wrongObjectType .function found)

def newArray (values : Array Value) : Step Handle := heap.allocate (.array values)

def newMap : Step Handle := heap.allocate (.map .empty)

def newStream (host : HostStream) (writable : Bool) : Step Handle :=
  heap.allocate (.stream (.ofHost host writable))

/-- A namespace that is known only by its hash. -/
def newNameSpace (hash : NameHash) : Step Handle := heap.allocate (.nameSpace (.ofHash hash))

/-- A namespace with its name, for which a string is allocated first. -/
def newNamedNameSpace (name : String) : Step Handle :=
  (heap.copyText name).andThen fun text heap =>
    heap.allocate (.nameSpace { NameSpace.ofHash (hashName name) with name := some text })

end
end ScriptHeap.Heap
