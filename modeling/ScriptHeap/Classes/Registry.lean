import ScriptHeap.Classes.Resolve

/-! The registry of classes. A loader registers each class under its hash as it arrives, and from time
to time lets all classes whose declared parents have arrived be linked. -/
namespace ScriptHeap

/-- Registered classes by hash, in order of arrival. -/
structure ClassRegistry where
  classes : Table Handle

/-- What came of linking in a batch. -/
structure ResolveReport where
  /-- How many classes were linked. -/
  linked : Nat
  /-- The classes that were refused their parent, and why. -/
  failed : List (Handle × HeapError)
deriving DecidableEq, Repr

def ResolveReport.isClean (report : ResolveReport) : Bool := report.failed.isEmpty

namespace ClassRegistry

def empty : ClassRegistry := ⟨.empty⟩

instance : Inhabited ClassRegistry := ⟨empty⟩

def get? (registry : ClassRegistry) (hash : NameHash) : Option Handle := registry.classes.get? hash

def size (registry : ClassRegistry) : Nat := registry.classes.size

def isEmpty (registry : ClassRegistry) : Bool := registry.classes.isEmpty

/-- Registers a class under its hash and gives the one that was registered there before. -/
def register (registry : ClassRegistry) (heap : Heap) (handle : Handle) :
    Except HeapError (Option Handle × ClassRegistry) :=
  match heap.expect .classDef handle with
  | .error cause => .error cause
  | .ok definition =>
    let (replaced, classes) := registry.classes.put definition.hash handle
    .ok (replaced, ⟨classes⟩)

/-- The registered classes that still wait for their parents. -/
def pending (registry : ClassRegistry) (heap : Heap) : List Handle :=
  registry.classes.values.filter heap.isPending

/-- A batch under way. -/
structure Batch where
  heap : Heap
  report : ResolveReport
  notices : List Notice

/-- Links one class if its parent is registered. A refusal is noted and the batch goes on. -/
def attempt (registry : ClassRegistry) (batch : Batch) (child : Handle) : Batch :=
  match (batch.heap.parentHash? child).bind registry.get? with
  | none => batch
  | some parent =>
    match batch.heap.mayLink child parent with
    | .ok () =>
      let resolved := batch.heap.resolveParent child parent
      { heap := resolved.heap
        report := { batch.report with linked := batch.report.linked + 1 }
        notices := batch.notices ++ resolved.notices }
    | .error cause =>
      { batch with
        report := { batch.report with failed := batch.report.failed ++ [(child, cause)] }
        notices := batch.notices ++ [.logged (.resolutionFailed child parent cause)] }

/-- Links every class that waits for a registered parent, in order of registration. -/
def resolvePending (registry : ClassRegistry) (heap : Heap) : Step ResolveReport :=
  let batch := (registry.pending heap).foldl registry.attempt ⟨heap, ⟨0, []⟩, []⟩
  let summary :=
    if 0 < batch.report.linked then [.logged (.pendingResolved batch.report.linked)] else []
  ⟨.ok batch.report, batch.heap, batch.notices ++ summary⟩

end ClassRegistry
end ScriptHeap
