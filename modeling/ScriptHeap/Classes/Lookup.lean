import ScriptHeap.Heap.Basic
import ScriptHeap.Trail

/-! Members. A member is looked up along the linked parents of a class, the nearest definition first;
a parent that is not linked yet ends the search. -/
namespace ScriptHeap

/-- What a receiver has under a name. -/
inductive Property where
  /-- A field of its own, or the value that the field starts from. -/
  | field (value : Value)
  | method (value : Value)
  | notFound
deriving DecidableEq, Repr

namespace Property

def isFound (property : Property) : Bool := property != notFound

/-- What was found, in a word. -/
def kind : Property → String
  | field _ => "field"
  | method _ => "method"
  | notFound => "not_found"

def value? : Property → Option Value
  | field value | method value => some value
  | notFound => none

end Property

namespace Heap
variable (heap : Heap)

/-- A class and its linked ancestors, in at most as many steps as there are objects. -/
def ancestors (start : Handle) : List (Handle × ClassDef) :=
  trail (heap.view? .classDef) (·.parent) heap.objectCount (some start)

def findMethod (start : Handle) (name : NameHash) : Option Value :=
  (heap.ancestors start).findSome? (·.2.methods.get? name)

/-- The value that a field starts from. -/
def findFieldDefault (start : Handle) (name : NameHash) : Option Value :=
  (heap.ancestors start).findSome? (·.2.fields.get? name)

/-- The initializer of the nearest class that has one. -/
def findInitializer (start : Handle) : Option Value :=
  ((heap.ancestors start).find? (·.2.hasInitializer)).map (·.2.initializer)

/-- A class declares a parent that is not linked yet. -/
def isPending (handle : Handle) : Bool := (heap.view? .classDef handle).any (·.isPending)

def methodProperty (start : Handle) (name : NameHash) : Property :=
  match heap.findMethod start name with
  | some value => .method value
  | none => .notFound

/-- The property of an object that has only the methods of its class. -/
def dispatchProperty (object : Object) (name : NameHash) : Property :=
  match object.header.dispatch with
  | some start => heap.methodProperty start name
  | none => .notFound

/-- An instance has its own fields, then the fields its class and ancestors give it, then methods. -/
def instanceProperty (object : Object) (self : ClassInstance) (name : NameHash) : Property :=
  match self.fields.get? name with
  | some value => .field value
  | none =>
    match object.header.dispatch.bind (heap.findFieldDefault · name) with
    | some value => .field value
    | none => heap.dispatchProperty object name

/-- What a value has under a name. A namespace has its own fields only, a class the methods of its own
line, and every other object but an instance the methods of the class in its header. -/
def lookup (receiver : Value) (name : NameHash) : Property :=
  match receiver with
  | .object handle =>
    match heap.get? handle with
    | none => .notFound
    | some object =>
      match object.payload with
      | .classInstance self => heap.instanceProperty object self name
      | .nameSpace space =>
        match space.fields.get? name with
        | some value => .field value
        | none => .notFound
      | .classDef _ => heap.methodProperty handle name
      | _ => heap.dispatchProperty object name
  | _ => .notFound

end Heap
end ScriptHeap
