import ScriptHeap.Proofs.Operations

/-! Histories: the heap after a run of operations, with the objects that came into being on the way
and those that were taken away again. The heap itself keeps neither account. -/
namespace ScriptHeap

/-! ## What came into being -/

/-- The object whose allocation is told of. -/
def Notice.born? : Notice → Option Handle
  | .logged (.allocated object _ _ _) => some object
  | _ => none

/-- The objects whose allocation was told of, newest first. -/
def newborns (told : List Notice) : List Handle := (told.filterMap Notice.born?).reverse

theorem newborns_append (earlier later : List Notice) :
    newborns (earlier ++ later) = newborns later ++ newborns earlier := by
  rw [newborns, List.filterMap_append, List.reverse_append]
  rfl

/-- What a payload says as it goes announces no object. -/
theorem newborns_farewell (payload : Payload) : newborns payload.farewell = [] := by
  rw [newborns, List.reverse_eq_nil_iff, List.filterMap_eq_nil_iff]
  intro notice told
  cases payload with
  | function code =>
    obtain ⟨event, freed, rfl⟩ := List.mem_map.1 told
    rw [Chunk.freeEvents] at freed
    obtain rfl := List.mem_singleton.1 freed
    rfl
  | stream held =>
    obtain ⟨host, _, rfl⟩ := List.mem_map.1 told
    rfl
  | _ => simp [Payload.farewell] at told

theorem newborns_logged {event : Event} (silent : (Notice.logged event).born? = none) :
    newborns [.logged event] = [] := by
  rw [newborns, List.filterMap_cons_none silent]
  rfl

theorem Operation.Reports.newborns {op : Operation} {notice : Notice} (reports : op.Reports notice) :
    newborns [notice] = [] := by
  cases reports with
  | stream => rfl
  | @batch registry event concerns =>
    refine newborns_logged ?_
    -- allocations concern the heap, not the classes
    cases event with
    | allocated => cases concerns
    | _ => rfl
  | _ => exact newborns_logged rfl

/-! ## What was taken away -/

/-- The objects that the rest of a sweep frees. -/
def Sweep.victims : Nat → Sweep → List Handle
  | 0, _ => []
  | visits + 1, sweep =>
    match sweep.current with
    | none => []
    | some handle =>
      match sweep.heap.get? handle with
      | none => []
      | some object =>
        if object.header.dark then victims visits (sweep.keep handle object.header.next)
        else
          let size := object.header.type.structSize
          let discharged := sweep.heap.discharge size
          match discharged.outcome with
          | .ok () =>
            handle :: victims visits (sweep.drop discharged.heap handle size object.header.next)
          | .error _ => []

/-- The objects that an operation takes away from a heap. -/
def Operation.removals (op : Operation) (heap : Heap) : List Handle :=
  match op with
  | .free target =>
    match (heap.free target).outcome with
    | .ok () => [target]
    | .error _ => []
  | .sweep => Sweep.victims heap.sweepBound (.start heap)
  | _ => []

/-! ## Runs -/

structure History where
  heap : Heap
  /-- The objects that ever came into being, newest first. -/
  issued : List Handle
  removed : List Handle

namespace History

def start (config : HeapConfig) : History := ⟨(Heap.create config).heap, [], []⟩

def perform (past : History) (op : Operation) : History where
  heap := (op.perform past.heap).heap
  issued := newborns (op.perform past.heap).notices ++ past.issued
  removed := op.removals past.heap ++ past.removed

/-- What comes of a history by further operations, whether they succeed or not. -/
def after (past : History) (ops : List Operation) : History := ops.foldl perform past

def run (config : HeapConfig) (ops : List Operation) : History := (start config).after ops

theorem run_append (config : HeapConfig) (ops more : List Operation) :
    run config (ops ++ more) = (run config ops).after more := List.foldl_append

/-- What each operation of a run keeps is kept by the run. -/
theorem after_keeps (holds : History → Prop) {past : History} {ops : List Operation}
    (begins : holds past) (kept : ∀ past, ∀ op ∈ ops, holds past → holds (past.perform op)) :
    holds (past.after ops) := by
  induction ops generalizing past with
  | nil => exact begins
  | cons op ops ih =>
    have first := kept past op (by simp) begins
    exact ih first fun past op listed => kept past op (by simp [listed])

/-- A condition on each operation of a run and on the heap that it finds. -/
def Throughout (past : History) (holds : Heap → Operation → Prop) : List Operation → Prop
  | [] => True
  | op :: ops => holds past.heap op ∧ (past.perform op).Throughout holds ops

theorem Throughout.and {past : History} {holds also : Heap → Operation → Prop} {ops : List Operation}
    (first : past.Throughout holds ops) (second : past.Throughout also ops) :
    past.Throughout (fun heap op => holds heap op ∧ also heap op) ops := by
  induction ops generalizing past with
  | nil => trivial
  | cons op ops ih => exact ⟨⟨first.1, second.1⟩, ih first.2 second.2⟩

/-- What each operation keeps on the condition that it meets is kept by the run. -/
theorem Throughout.keeps {past : History} {holds : Heap → Operation → Prop} {ops : List Operation}
    (throughout : past.Throughout holds ops) {stays : Heap → Prop} (begins : stays past.heap)
    (kept : ∀ heap, ∀ op ∈ ops, holds heap op → stays heap → stays (op.perform heap).heap) :
    stays (past.after ops).heap := by
  induction ops generalizing past with
  | nil => exact begins
  | cons op ops ih =>
    have first := kept past.heap op (by simp) throughout.1 begins
    exact ih throughout.2 first fun heap op listed => kept heap op (by simp [listed])

end History
end ScriptHeap
