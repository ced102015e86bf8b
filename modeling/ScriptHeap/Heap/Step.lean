import ScriptHeap.Heap.Basic

/-! Steps: what an operation on the heap comes to. -/
namespace ScriptHeap

/-- The outcome, the heap afterwards, which a failed operation may have changed too, and what the
outside world was told, in order. -/
structure Step (α : Type) where
  outcome : Except Failure α
  heap : Heap
  notices : List Notice

namespace Step
variable {α β : Type}

/-- A result that nobody is told of. -/
def done (heap : Heap) (result : α) : Step α := ⟨.ok result, heap, []⟩

def fail (heap : Heap) (cause : HeapError) : Step α := ⟨.error (.error cause), heap, []⟩

def defect (heap : Heap) (cause : Defect) : Step α := ⟨.error (.defect cause), heap, []⟩

/-- The result of a look at the heap. -/
def ofLook (heap : Heap) : Except HeapError α → Step α
  | .ok result => done heap result
  | .error cause => fail heap cause

/-- Reports something before everything else. -/
def after (earlier : List Notice) (step : Step α) : Step α :=
  { step with notices := earlier ++ step.notices }

/-- Goes on from a result; a failure is final. -/
def andThen (step : Step α) (next : α → Heap → Step β) : Step β :=
  match step.outcome with
  | .ok result => (next result step.heap).after step.notices
  | .error failure => ⟨.error failure, step.heap, step.notices⟩

end Step
end ScriptHeap
