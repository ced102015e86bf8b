import ScriptHeap.Chunk
import ScriptHeap.Text.Boundary

/-! What can be called: functions compiled from scripts and functions the host provides. -/
namespace ScriptHeap

/-- The most bytes that the name of a source file may have. -/
def sourceLimit : Nat := 255

/-- A compiled function, which owns its code. -/
structure FunctionDef where
  arity : Nat
  upvalueCount : Nat
  chunk : Chunk
  /-- Its place in the list of functions it was compiled with. -/
  listOffset : Nat
  /-- A string object. -/
  name : Option Handle
  /-- A string object, for methods. -/
  className : Option Handle
  nameHash : NameHash
  source : String
deriving DecidableEq, Repr

namespace FunctionDef

def empty : FunctionDef := ⟨0, 0, .empty, 0, none, none, 0, ""⟩

instance : Inhabited FunctionDef := ⟨empty⟩

/-- Names the source file; too long a name is cut between characters. Where it could not be cut there would
be no answer. -/
def setSource? (function : FunctionDef) (source : String) : Option FunctionDef :=
  (Text.truncate? source sourceLimit).map fun source => { function with source }

/-- The function with its source file named; without an answer it stays as it is. -/
def setSource (function : FunctionDef) (source : String) : FunctionDef :=
  (function.setSource? source).getD function

end FunctionDef

/-- A function of the host takes the arguments and the number of the calling thread. -/
structure NativeFunction where
  call : List Value → UInt32 → Value

end ScriptHeap
