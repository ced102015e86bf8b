/-! The kinds of heap objects. -/
namespace ScriptHeap

inductive ObjectType where
  | boundMethod
  | classDef
  | closure
  | function
  | classInstance
  | native
  | string
  | upvalue
  | array
  | map
  | stream
  | nameSpace
deriving DecidableEq, Repr, Inhabited

namespace ObjectType

/-- Every kind once, in the order of the declaration. -/
def all : List ObjectType :=
  [boundMethod, classDef, closure, function, classInstance, native, string, upvalue, array, map,
    stream, nameSpace]

def name : ObjectType → String
  | boundMethod => "Bound Method"
  | classDef => "Class"
  | closure => "Closure"
  | function => "Function"
  | classInstance => "Instance"
  | native => "Native"
  | string => "String"
  | upvalue => "Upvalue"
  | array => "Array"
  | map => "Map"
  | stream => "Stream"
  | nameSpace => "Namespace"

/-- The bytes an object of this kind is charged for: its header and its fixed part. What it owns
beyond that, such as the elements of an array, is not charged. -/
def structSize : ObjectType → Nat
  | boundMethod => 48
  | classDef => 220
  | closure => 52
  | function => 196
  | classInstance => 116
  | native => 36
  | string => 52
  | upvalue => 60
  | array => 52
  | map => 172
  | stream => 52
  | nameSpace => 116

end ObjectType
end ScriptHeap
