import ScriptHeap.Classes.Lookup
import ScriptHeap.Heap.Step

/-! Linking a class to its parent. -/
namespace ScriptHeap.Heap
variable (heap : Heap)

/-- Whether a class may get a parent: both are live classes, the parent has the declared hash, and it
does not descend from the class. -/
def mayLink (child parent : Handle) : Except HeapError Unit :=
  match heap.expect .classDef child with
  | .error cause => .error cause
  | .ok childDef =>
    match heap.expect .classDef parent with
    | .error cause => .error cause
    | .ok parentDef =>
      if childDef.parentHash ≠ parentDef.hash then
        .error (.parentHashMismatch childDef.parentHash parentDef.hash)
      else if (heap.ancestors parent).any (·.1 == child) then .error .inheritanceCycle
      else .ok ()

/-- Links a class to a parent without asking. -/
def link (child parent : Handle) : Heap :=
  heap.update .classDef child ({ · with parent := some parent })

/-- The hash that a class declares for its parent. -/
def parentHash? (child : Handle) : Option NameHash :=
  (heap.view? .classDef child).map (·.parentHash)

/-- Links a class to its parent. -/
def resolveParent (child parent : Handle) : Step Unit :=
  match heap.mayLink child parent with
  | .error cause => Step.fail heap cause
  | .ok () =>
    { outcome := .ok ()
      heap := heap.link child parent
      notices := [.logged (.parentResolved child parent ((heap.parentHash? child).getD 0))] }

end ScriptHeap.Heap
