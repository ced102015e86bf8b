import ScriptHeap.Heap.Free

/-! Sweeping: one walk along the chain that frees every object without a mark and takes the mark off
every other. Marking is the collector's business. -/
namespace ScriptHeap

/-- A sweep under way. -/
structure Sweep where
  heap : Heap
  /-- The last object let live. -/
  previous : Option Handle
  /-- The next object to visit. -/
  current : Option Handle
  stats : SweepStats
  notices : List Notice

namespace Sweep

def start (heap : Heap) : Sweep := ⟨heap, none, heap.head, ⟨0, 0, 0⟩, []⟩

/-- Lets a marked object live. -/
def keep (sweep : Sweep) (handle : Handle) (next : Option Handle) : Sweep :=
  { sweep with
    heap := sweep.heap.modifyHeader handle ({ · with dark := false })
    previous := some handle
    current := next
    stats := { sweep.stats with survivors := sweep.stats.survivors + 1 } }

/-- Lets the chain pass by what comes after the last object let live. -/
def bypass (heap : Heap) (previous next : Option Handle) : Heap :=
  match previous with
  | some before => heap.modifyHeader before ({ · with next })
  | none => { heap with head := next }

/-- Frees an unmarked object whose size is already off the account. -/
def drop (sweep : Sweep) (charged : Heap) (handle : Handle) (size : Nat) (next : Option Handle) :
    Sweep :=
  let released := (bypass charged sweep.previous next).release handle
  { sweep with
    heap := released.heap
    current := next
    stats :=
      { sweep.stats with
        freedObjects := sweep.stats.freedObjects + 1
        freedBytes := sweep.stats.freedBytes + size }
    notices := sweep.notices ++ released.notices }

/-- Visits objects until the chain ends, with the reason if the account falls short on the way. The
bound is on visits of live objects. -/
def run : Nat → Sweep → Sweep × Option Failure
  | 0, sweep => (sweep, none)
  | visits + 1, sweep =>
    match sweep.current with
    | none => (sweep, none)
    | some handle =>
      match sweep.heap.get? handle with
      | none => (sweep, none)
      | some object =>
        if object.header.dark then run visits (sweep.keep handle object.header.next)
        else
          let size := object.header.type.structSize
          let discharged := sweep.heap.discharge size
          match discharged.outcome with
          | .ok () => run visits (sweep.drop discharged.heap handle size object.header.next)
          | .error failure =>
            ({ sweep with notices := sweep.notices ++ discharged.notices }, some failure)

end Sweep

namespace Heap

/-- The bound on visits: each frees an object or takes off a mark, and a mark is taken off once. -/
def sweepBound (heap : Heap) : Nat := heap.objectCount + heap.darkCount

/-- Sweeps the heap and sets the bytes at which it next asks to be collected: twice what is left, but
at least the configured threshold. A sweep that fails keeps what it has done so far. -/
def sweep (heap : Heap) : Step SweepStats :=
  let (swept, failed?) := Sweep.run heap.sweepBound (.start heap)
  match failed? with
  | some failure => ⟨.error failure, swept.heap, swept.notices⟩
  | none =>
    match checkedDouble swept.heap.bytes with
    | .error cause => ⟨.error (.defect cause), swept.heap, swept.notices⟩
    | .ok doubled =>
      let nextCollect := max doubled swept.heap.config.collectThreshold.toNat
      { outcome := .ok swept.stats
        heap := { swept.heap with nextCollect }
        notices := swept.notices ++ [.logged (.swept swept.stats nextCollect)] }

end Heap
end ScriptHeap
