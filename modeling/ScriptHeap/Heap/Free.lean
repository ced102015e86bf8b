import ScriptHeap.Heap.Chain

/-! Freeing one object. -/
namespace ScriptHeap.Heap
variable (heap : Heap)

/-- Vacates the slot of an object and lets its payload say farewell. -/
def release (handle : Handle) : Step Unit :=
  match heap.get? handle with
  | some object =>
    { outcome := .ok ()
      heap := { heap with store := heap.store.vacate handle.toSlotKey }
      notices := object.payload.farewell }
  | none => Step.done heap ()

/-- Takes the size of an object off the account. -/
def discharge (size : Nat) : Step Unit :=
  match heap.accounting.release size with
  | .ok accounting => Step.done { heap with accounting } ()
  | .error cause =>
    (Step.fail heap cause).after [.logged (.accountingUnderflow heap.bytes size)]

/-- Frees an object: takes its size off the account, takes it out of the chain and gives up its slot. -/
def free (handle : Handle) : Step Unit :=
  (Step.ofLook heap (heap.require handle)).andThen fun object heap =>
    let type := object.header.type
    (heap.discharge type.structSize).andThen fun _ charged =>
      match charged.unlink handle with
      | .error cause => Step.defect heap cause
      | .ok unlinked =>
        (unlinked.release handle).andThen fun _ heap =>
          { outcome := .ok ()
            heap
            notices := [.logged (.freed handle type type.structSize heap.bytes)] }

/-- Closes a stream and tells whether it was open; none when there is no such stream. -/
def closeStream? (handle : Handle) : Option (Step Bool) :=
  (heap.view? .stream handle).map fun stream =>
    { outcome := .ok stream.host?.isSome
      heap := heap.update .stream handle Stream.close
      notices := stream.host?.toList.map .closeStream }

end ScriptHeap.Heap
