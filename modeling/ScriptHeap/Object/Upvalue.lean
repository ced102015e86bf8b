import ScriptHeap.Value

/-! Captured variables. While the frame that declared it is alive, a captured variable is a slot of the
stack; afterwards it is a value of its own. -/
namespace ScriptHeap

/-- The values of all live frames, by slot. -/
abbrev Stack := Array Value

inductive UpvalueState where
  | opened (slot : Nat)
  | closed (value : Value)
deriving DecidableEq, Repr

structure Upvalue where
  state : UpvalueState
  /-- The next on the interpreter's list of open upvalues. -/
  next : Option Handle
deriving DecidableEq, Repr

namespace Upvalue

def overSlot (slot : Nat) : Upvalue := ⟨.opened slot, none⟩

def slot? (upvalue : Upvalue) : Option Nat :=
  match upvalue.state with
  | .opened slot => some slot
  | .closed _ => none

def isOpen (upvalue : Upvalue) : Bool := upvalue.slot?.isSome

/-- The variable's value. -/
def read (upvalue : Upvalue) (stack : Stack) : Option Value :=
  match upvalue.state with
  | .opened slot => stack[slot]?
  | .closed value => some value

/-- The upvalue and the stack after a write; none when the slot lies past the end of the stack. -/
def write? (upvalue : Upvalue) (stack : Stack) (value : Value) : Option (Upvalue × Stack) :=
  match upvalue.state with
  | .opened slot =>
    if slot < stack.size then some (upvalue, stack.setIfInBounds slot value) else none
  | .closed _ => some ({ upvalue with state := .closed value }, stack)

/-- Detaches the variable from the stack with the value it has there, and tells whether there was
anything to detach. The slot has to exist. -/
def close (upvalue : Upvalue) (stack : Stack) : Except Defect (Bool × Upvalue) :=
  match upvalue.state with
  | .opened slot =>
    match stack[slot]? with
    | some value => .ok (true, { upvalue with state := .closed value })
    | none => .error (.closingPastStackEnd slot)
  | .closed _ => .ok (false, upvalue)

end Upvalue

/-- A function with the variables it captured, one place for each the function declares. -/
structure Closure where
  function : Handle
  upvalues : Array (Option Handle)
deriving DecidableEq, Repr

namespace Closure

def ofCount (function : Handle) (count : Nat) : Closure := ⟨function, Array.replicate count none⟩

def upvalue? (closure : Closure) (index : Nat) : Option Handle := (closure.upvalues[index]?).join

/-- Fills a place; none when there is no such place. -/
def setUpvalue? (closure : Closure) (index : Nat) (upvalue : Handle) : Option Closure :=
  if index < closure.upvalues.size then
    some { closure with upvalues := closure.upvalues.setIfInBounds index (some upvalue) }
  else none

end Closure
end ScriptHeap
