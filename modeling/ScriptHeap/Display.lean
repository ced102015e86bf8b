import ScriptHeap.Decimal.Text
import ScriptHeap.Heap.Basic
import ScriptHeap.Text.Quoted

/-! The diagnostic text of a value. Arrays and maps show their elements and a bound method its method,
down to a fixed depth, below which a placeholder stands. -/
namespace ScriptHeap

/-- How many arrays, maps and bound methods may enclose one that is still shown in full. -/
def displayDepth : Nat := 8

namespace Heap
variable (heap : Heap)

/-- The text of a string object, if there is one. -/
def nameText? (name : Option Handle) : Option String :=
  (name.bind (heap.view? .string)).map (·.lossyText)

/-- A name, or its hash where the name is missing. -/
def nameOrHash (name : Option Handle) (hash : NameHash) : String :=
  (heap.nameText? name).getD (Text.hex 8 hash.toNat)

def functionText (name : Option Handle) : String :=
  match heap.nameText? name with
  | some name => "<fn " ++ name ++ ">"
  | none => "<fn>"

def instanceText (dispatch : Option Handle) : String :=
  match dispatch.bind (heap.view? .classDef) with
  | some ofClass => "<" ++ heap.nameOrHash ofClass.name ofClass.hash ++ " instance>"
  | none => "<? instance>"

/-- The text of an object, given the text of what it contains. The first argument of that function
tells whether it stands in a container; without the function, containers are cut off. -/
def objectText (inner : Option (Bool → Value → String)) (nested : Bool) (object : Object) : String :=
  match object.payload with
  | .string string => if nested then Text.quote string.lossyText else string.lossyText
  | .array values =>
    match inner with
    | some render => "[" ++ ", ".intercalate (values.toList.map (render true)) ++ "]"
    | none => "[...]"
  | .map map =>
    match inner with
    | some render =>
      let entryText (entry : String × Value) := Text.quote entry.1 ++ ": " ++ render true entry.2
      "\x7b" ++ ", ".intercalate (map.entries.map entryText) ++ "\x7d"
    | none => "\x7b...\x7d"
  | .boundMethod bound =>
    match inner with
    | some render => render nested (.object bound.method)
    | none => "<fn ...>"
  | .function function => heap.functionText function.name
  | .closure closure => heap.functionText ((heap.view? .function closure.function).bind (·.name))
  | .native _ => "<native fn>"
  | .classDef self => "<class " ++ heap.nameOrHash self.name self.hash ++ ">"
  | .classInstance _ => heap.instanceText object.header.dispatch
  | .nameSpace space => "<namespace " ++ heap.nameOrHash space.name space.hash ++ ">"
  | .upvalue _ => "<upvalue>"
  | .stream stream => if stream.closed then "<closed stream>" else "<stream>"

/-- The text of a value, given the text of what it contains. A linked number is read as it prints. -/
def valueText (cells : HostCells) (inner : Option (Bool → Value → String)) (nested : Bool) :
    Value → String
  | .null => "null"
  | .integer n => toString n
  | .decimal d => d.text Decimal.diagnostic
  | .linkedInteger id =>
    match heap.links.readInteger cells id with
    | some n => toString n
    | none => "<unlinked>"
  | .linkedDecimal id =>
    match heap.links.readDecimal cells id with
    | some d => d.text Decimal.diagnostic
    | none => "<unlinked>"
  | .object handle =>
    match heap.get? handle with
    | some object => heap.objectText inner nested object
    | none => "<freed object>"

/-- The text of a value with a number of levels still to go. -/
def displayWithin (cells : HostCells) : Nat → Bool → Value → String
  | 0 => heap.valueText cells none
  | levels + 1 => heap.valueText cells (some (displayWithin cells levels))

/-- The text of a value that stands alone: a string is not quoted. -/
def display (cells : HostCells) (value : Value) : String :=
  heap.displayWithin cells displayDepth false value

end Heap
end ScriptHeap
