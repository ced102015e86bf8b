import ScriptHeap.Heap.Step
import ScriptHeap.Trail

/-! The chain of all objects, and how one is taken out of it. -/
namespace ScriptHeap.Heap
variable (heap : Heap)

/-- The live objects along the chain, with no more steps than there are live objects. -/
def chain : List (Handle × Object) :=
  trail heap.get? (·.header.next) heap.objectCount heap.head

/-- Where the chain ends: nowhere, at a handle whose object is gone, or, if the links form a ring,
back at a live object. -/
def chainEnd : Option Handle :=
  trailEnd heap.get? (·.header.next) heap.objectCount heap.head

/-- The handles along the chain, a last one that leads to nothing included. -/
def objects : List Handle := heap.chain.map Prod.fst ++ heap.chainEnd.toList

/-- The object before a given one. A ring that does not contain it is searched for ever. -/
def predecessor (target : Handle) : Except Defect (Option Handle) :=
  match heap.chain.find? (·.2.header.next == some target) with
  | some (handle, _) => .ok (some handle)
  | none => if heap.chainEnd.any heap.contains then .error .endlessSearch else .ok none

/-- Lets the chain pass an object by. -/
def unlink (target : Handle) : Except Defect Heap :=
  let next := (heap.get? target).bind (·.header.next)
  if heap.head = some target then .ok { heap with head := next }
  else
    match heap.predecessor target with
    | .ok (some before) => .ok (heap.modifyHeader before ({ · with next }))
    | .ok none => .ok heap
    | .error cause => .error cause

end ScriptHeap.Heap
