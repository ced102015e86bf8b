import ScriptHeap.Heap.Allocate
import ScriptHeap.Trail

/-! The list of open upvalues. The interpreter keeps one, sorted by falling stack slots and threaded
through the upvalues themselves; each slot has at most one upvalue on it, so that all closures that
capture a variable share it. Before a frame goes, the upvalues over its slots are closed. -/
namespace ScriptHeap.Heap
variable (heap : Heap)

/-- The upvalues along the list from a handle on. -/
def openUpvalues (head : Option Handle) : List (Handle × Upvalue) :=
  trail (heap.view? .upvalue) (·.next) heap.objectCount head

/-- The slots along the list. -/
def openSlots (head : Option Handle) : List Nat :=
  (heap.openUpvalues head).filterMap (·.2.slot?)

/-- An upvalue with its place on the list, and the head of the list. -/
structure Capture where
  upvalue : Handle
  head : Option Handle
deriving DecidableEq, Repr

/-- Allocates an upvalue and puts it on the list between two neighbours. -/
def insertUpvalue (head previous next : Option Handle) (slot : Nat) : Step Capture :=
  (heap.newUpvalue slot).andThen fun created heap =>
    let placed := heap.update .upvalue created ({ · with next })
    match previous with
    | some before =>
      Step.done (placed.update .upvalue before ({ · with next := some created })) ⟨created, head⟩
    | none => Step.done placed ⟨created, some created⟩

/-- Captures a slot: with the upvalue that is on the list for it, or else with a new one in its place.
A list that is not sorted in itself but runs in a ring of higher slots is searched for ever. -/
def capture (head : Option Handle) (slot : Nat) : Step Capture :=
  let higher := (heap.openUpvalues head).takeWhile (·.2.slot?.any (slot < ·))
  let previous := higher.getLast?.map Prod.fst
  let current := match higher.getLast? with
    | some (_, last) => last.next
    | none => head
  match current with
  | none => heap.insertUpvalue head previous current slot
  | some handle =>
    (Step.ofLook heap (heap.expect .upvalue handle)).andThen fun upvalue heap =>
      if upvalue.slot? = some slot then Step.done heap ⟨handle, head⟩
      else if upvalue.slot?.any (slot < ·) then Step.defect heap .endlessSearch
      else heap.insertUpvalue head previous current slot

/-- Closes upvalues along the list down to a slot, at most as many as the bound says. -/
def closeWithin (lowest : Nat) (stack : Stack) : Nat → Heap → Option Handle → Step (Option Handle)
  | count + 1, heap, some handle =>
    match heap.view? .upvalue handle with
    | none => Step.done heap (some handle)
    | some upvalue =>
      if upvalue.slot?.any (lowest ≤ ·) then
        match upvalue.close stack with
        | .error cause => Step.defect heap cause
        | .ok (_, closed) =>
          closeWithin lowest stack count
            (heap.update .upvalue handle fun _ => { closed with next := none }) upvalue.next
      else Step.done heap (some handle)
  | _, heap, rest => Step.done heap rest

/-- How many upvalues of the heap are open. -/
def openCount : Nat :=
  heap.store.occupants.countP fun object => (Variant.upvalue.project object.payload).any (·.isOpen)

/-- Closes the upvalues on the list whose slots are not below a given one, and gives the rest of the
list. An upvalue over a slot that the stack does not have is a defect, and what was closed before it
stays closed. -/
def closeUpvalues (head : Option Handle) (lowest : Nat) (stack : Stack) : Step (Option Handle) :=
  closeWithin lowest stack heap.openCount heap head

end ScriptHeap.Heap
