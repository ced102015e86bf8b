import ScriptHeap.Notice
import ScriptHeap.Object.Class
import ScriptHeap.Object.Function
import ScriptHeap.Object.Text
import ScriptHeap.Object.Upvalue
import ScriptHeap.SpelledMap

/-! Heap objects: a header that every object has, and a payload of its kind. -/
namespace ScriptHeap

inductive Payload where
  | boundMethod (bound : BoundMethod)
  | classDef (self : ClassDef)
  | closure (closure : Closure)
  | function (function : FunctionDef)
  | classInstance (self : ClassInstance)
  | native (function : NativeFunction)
  | string (string : StringObject)
  | upvalue (upvalue : Upvalue)
  | array (values : Array Value)
  | map (map : SpelledMap)
  | stream (stream : Stream)
  | nameSpace (space : NameSpace)

namespace Payload

def type : Payload → ObjectType
  | boundMethod _ => .boundMethod
  | classDef _ => .classDef
  | closure _ => .closure
  | function _ => .function
  | classInstance _ => .classInstance
  | native _ => .native
  | string _ => .string
  | upvalue _ => .upvalue
  | array _ => .array
  | map _ => .map
  | stream _ => .stream
  | nameSpace _ => .nameSpace

/-- What there is to tell when a payload is given up: a function frees its code, and a stream that is
still open is closed. -/
def farewell : Payload → List Notice
  | function code => code.chunk.freeEvents.map .logged
  | stream held => held.host?.toList.map .closeStream
  | _ => []

end Payload

/-- The part that all objects have. -/
structure Header where
  /-- The kind that the object is accounted and reported as. -/
  type : ObjectType
  /-- The collector's mark. -/
  dark : Bool
  /-- The class that members are looked up in. -/
  dispatch : Option Handle
  /-- The next object of the heap's chain. -/
  next : Option Handle
deriving DecidableEq, Repr

structure Object where
  header : Header
  payload : Payload

/-! ## Views of a payload -/

/-- A kind of payload: how to look at one as data of that kind, and how to make one from such data. -/
structure Variant (α : Type) where
  type : ObjectType
  project : Payload → Option α
  inject : α → Payload
  project_inject : ∀ data, project (inject data) = some data
  inject_of_project : ∀ payload data, project payload = some data → inject data = payload
  type_inject : ∀ data, (inject data).type = type

namespace Variant

def boundMethod : Variant BoundMethod where
  type := .boundMethod
  project | .boundMethod data => some data | _ => none
  inject := .boundMethod
  project_inject _ := rfl
  inject_of_project payload data same := by cases payload <;> simp_all
  type_inject _ := rfl

def classDef : Variant ClassDef where
  type := .classDef
  project | .classDef data => some data | _ => none
  inject := .classDef
  project_inject _ := rfl
  inject_of_project payload data same := by cases payload <;> simp_all
  type_inject _ := rfl

def closure : Variant Closure where
  type := .closure
  project | .closure data => some data | _ => none
  inject := .closure
  project_inject _ := rfl
  inject_of_project payload data same := by cases payload <;> simp_all
  type_inject _ := rfl

def function : Variant FunctionDef where
  type := .function
  project | .function data => some data | _ => none
  inject := .function
  project_inject _ := rfl
  inject_of_project payload data same := by cases payload <;> simp_all
  type_inject _ := rfl

def classInstance : Variant ClassInstance where
  type := .classInstance
  project | .classInstance data => some data | _ => none
  inject := .classInstance
  project_inject _ := rfl
  inject_of_project payload data same := by cases payload <;> simp_all
  type_inject _ := rfl

def native : Variant NativeFunction where
  type := .native
  project | .native data => some data | _ => none
  inject := .native
  project_inject _ := rfl
  inject_of_project payload data same := by cases payload <;> simp_all
  type_inject _ := rfl

def string : Variant StringObject where
  type := .string
  project | .string data => some data | _ => none
  inject := .string
  project_inject _ := rfl
  inject_of_project payload data same := by cases payload <;> simp_all
  type_inject _ := rfl

def upvalue : Variant Upvalue where
  type := .upvalue
  project | .upvalue data => some data | _ => none
  inject := .upvalue
  project_inject _ := rfl
  inject_of_project payload data same := by cases payload <;> simp_all
  type_inject _ := rfl

def array : Variant (Array Value) where
  type := .array
  project | .array data => some data | _ => none
  inject := .array
  project_inject _ := rfl
  inject_of_project payload data same := by cases payload <;> simp_all
  type_inject _ := rfl

def map : Variant SpelledMap where
  type := .map
  project | .map data => some data | _ => none
  inject := .map
  project_inject _ := rfl
  inject_of_project payload data same := by cases payload <;> simp_all
  type_inject _ := rfl

def stream : Variant Stream where
  type := .stream
  project | .stream data => some data | _ => none
  inject := .stream
  project_inject _ := rfl
  inject_of_project payload data same := by cases payload <;> simp_all
  type_inject _ := rfl

def nameSpace : Variant NameSpace where
  type := .nameSpace
  project | .nameSpace data => some data | _ => none
  inject := .nameSpace
  project_inject _ := rfl
  inject_of_project payload data same := by cases payload <;> simp_all
  type_inject _ := rfl

/-- What the objects of a kind hold. -/
abbrev Data : ObjectType → Type
  | .boundMethod => BoundMethod
  | .classDef => ClassDef
  | .closure => Closure
  | .function => FunctionDef
  | .classInstance => ClassInstance
  | .native => NativeFunction
  | .string => StringObject
  | .upvalue => Upvalue
  | .array => Array Value
  | .map => SpelledMap
  | .stream => Stream
  | .nameSpace => NameSpace

/-- The view for a kind. -/
def ofType : (type : ObjectType) → Variant (Data type)
  | .boundMethod => boundMethod
  | .classDef => classDef
  | .closure => closure
  | .function => function
  | .classInstance => classInstance
  | .native => native
  | .string => string
  | .upvalue => upvalue
  | .array => array
  | .map => map
  | .stream => stream
  | .nameSpace => nameSpace

/-- Changes the data of a payload of this kind and leaves any other payload alone. -/
def modify {α : Type} (variant : Variant α) (change : α → α) (payload : Payload) : Payload :=
  match variant.project payload with
  | some data => variant.inject (change data)
  | none => payload

/-- Whatever is seen through a view is of its kind. -/
theorem type_of_project {α : Type} (variant : Variant α) {payload : Payload} {data : α}
    (seen : variant.project payload = some data) : payload.type = variant.type := by
  rw [← variant.inject_of_project payload data seen, variant.type_inject]

theorem project_modify {α : Type} (variant : Variant α) (change : α → α) (payload : Payload) :
    variant.project (variant.modify change payload) = (variant.project payload).map change := by
  unfold modify
  split
  · next data seen => simp [seen, variant.project_inject]
  · next unseen => simp [unseen]

/-- A change of the data leaves the kind. -/
@[simp] theorem type_modify {α : Type} (variant : Variant α) (change : α → α) (payload : Payload) :
    (variant.modify change payload).type = payload.type := by
  unfold modify
  split
  · next data seen => rw [variant.type_inject, variant.type_of_project seen]
  · rfl

end Variant
end ScriptHeap
