import ScriptHeap.Proofs.Freeing

/-! Marks do not matter to freeing. Whatever is freed, in whatever order, the outcome, the notices and
everything but the marks of the heap afterwards are the same for heaps that differ in marks only. -/
namespace ScriptHeap

/-! ## Slots -/

namespace Slots
variable {α : Type} (store : Slots α) (key : SlotKey)

theorem modify_mapAll (change every : α → α) (commute : ∀ one, change (every one) = every (change one)) :
    (store.mapAll every).modify key change = (store.modify key change).mapAll every := by
  refine Slots.ext (Array.ext_getElem? fun index => ?_) rfl
  simp only [modify, mapAll, Array.getElem?_modify, Array.getElem?_map]
  cases store.slots[index]? with
  | none => simp
  | some slot =>
    obtain ⟨generation, occupant⟩ := slot
    by_cases here : key.index = index
    · by_cases current : generation = key.generation
      · cases occupant <;> simp [here, current, commute]
      · simp [here, current]
    · simp [here]

/-- A change that another one covers up is not seen behind it. -/
theorem mapAll_modify (change every : α → α) (covered : ∀ one, every (change one) = every one) :
    (store.modify key change).mapAll every = store.mapAll every := by
  refine Slots.ext (Array.ext_getElem? fun index => ?_) rfl
  simp only [modify, mapAll, Array.getElem?_modify, Array.getElem?_map]
  cases store.slots[index]? with
  | none => simp
  | some slot =>
    obtain ⟨generation, occupant⟩ := slot
    by_cases here : key.index = index
    · by_cases current : generation = key.generation
      · cases occupant <;> simp [here, current, covered]
      · simp [here, current]
    · simp [here]

/-- A change that changes no occupant is none. -/
theorem mapAll_eq_self {every : α → α}
    (same : ∀ key one, store.get? key = some one → every one = one) : store.mapAll every = store := by
  refine Slots.ext (Array.ext_getElem? fun index => ?_) rfl
  simp only [mapAll, Array.getElem?_map]
  cases found : store.slots[index]? with
  | none => rfl
  | some slot =>
    obtain ⟨generation, occupant⟩ := slot
    cases occupant with
    | none => rfl
    | some one =>
      have held : store.get? ⟨index, generation⟩ = some one := get?_eq_some_iff.2 found
      simp [same _ one held]

theorem vacate_mapAll (every : α → α) :
    (store.mapAll every).vacate key = (store.vacate key).mapAll every := by
  have same : ((store.mapAll every).get? key).isSome = (store.get? key).isSome := by
    rw [get?_mapAll, Option.isSome_map]
  by_cases held : (store.get? key).isSome = true
  · have held' := same.trans held
    rw [vacate, vacate, dif_pos held, dif_pos held']
    refine Slots.ext (Array.ext_getElem? fun index => ?_) rfl
    simp only [mapAll, Array.getElem?_modify, Array.getElem?_map]
    split <;> cases store.slots[index]? <;> rfl
  · have gone : ¬ ((store.mapAll every).get? key).isSome = true := by rwa [same]
    rw [vacate, vacate, dif_neg held, dif_neg gone]

end Slots

/-! ## Steps -/

/-- A step with a change made to the heap it leaves. -/
def Step.on {α : Type} (step : Step α) (change : Heap → Heap) : Step α :=
  { step with heap := change step.heap }

theorem Step.andThen_on {α β : Type} {step : Step α} {next next' : α → Heap → Step β}
    {change : Heap → Heap}
    (commute : ∀ result heap, next' result (change heap) = (next result heap).on change) :
    (step.on change).andThen next' = (step.andThen next).on change := by
  obtain ⟨outcome, heap, notices⟩ := step
  cases outcome with
  | ok result =>
    have same := commute result heap
    simp only [andThen, on] at same ⊢
    rw [same]
    rfl
  | error failure => rfl

/-! ## Freeing -/

namespace Heap
variable {heap : Heap} {handle target : Handle}

theorem contains_clearMarks (heap : Heap) (handle : Handle) :
    heap.clearMarks.contains handle = heap.contains handle := by
  rw [contains, get?_clearMarks, Option.isSome_map, contains]

theorem bytes_clearMarks (heap : Heap) : heap.clearMarks.bytes = heap.bytes := rfl

theorem successor?_clearMarks (heap : Heap) : heap.clearMarks.successor? = heap.successor? := by
  funext handle
  simp only [successor?, get?_clearMarks, Option.map_map]
  rfl

private theorem objectCount_clearMarks (heap : Heap) :
    heap.clearMarks.objectCount = heap.objectCount := Slots.size_mapAll ..

private theorem chain_clearMarks (heap : Heap) :
    heap.clearMarks.chain = heap.chain.map (Prod.map id unmarked) ∧
      heap.clearMarks.chainEnd = heap.chainEnd := by
  have seen : heap.clearMarks.get? = fun handle => (heap.get? handle).map unmarked :=
    funext (get?_clearMarks heap)
  have walk (limit : Nat) (start : Option Handle) :
      trail heap.clearMarks.get? (·.header.next) limit start =
          (trail heap.get? (·.header.next) limit start).map (Prod.map id unmarked) ∧
        trailEnd heap.clearMarks.get? (·.header.next) limit start =
          trailEnd heap.get? (·.header.next) limit start := by
    rw [seen]
    induction limit generalizing start with
    | zero => exact ⟨rfl, rfl⟩
    | succ limit ih =>
      cases start with
      | none => exact ⟨rfl, rfl⟩
      | some handle =>
        cases found : heap.get? handle with
        | none => simp [trail, trailEnd, found]
        | some object =>
          obtain ⟨met, ended⟩ := ih object.header.next
          simp only [trail, trailEnd, found, Option.map_some, List.map_cons]
          exact ⟨congrArg _ met, ended⟩
  rw [chain, chain, chainEnd, chainEnd, objectCount_clearMarks]
  exact walk heap.objectCount heap.head

private theorem predecessor_clearMarks (heap : Heap) (target : Handle) :
    heap.clearMarks.predecessor target = heap.predecessor target := by
  obtain ⟨met, ended⟩ := chain_clearMarks heap
  have alive : heap.clearMarks.contains = heap.contains := funext (contains_clearMarks heap)
  rw [predecessor, predecessor, met, ended, alive, List.find?_map]
  have test : ((fun item : Handle × Object => item.2.header.next == some target) ∘
      Prod.map id unmarked) = fun item => item.2.header.next == some target := rfl
  rw [test]
  cases heap.chain.find? _ <;> rfl

private theorem bypass_clearMarks (heap : Heap) (before next : Option Handle) :
    Sweep.bypass heap.clearMarks before next = (Sweep.bypass heap before next).clearMarks := by
  cases before with
  | none => rfl
  | some before =>
    have same := Slots.modify_mapAll heap.store before.toSlotKey
      (fun object => { object with header := { object.header with next } }) unmarked fun _ => rfl
    exact congrArg (fun store => { heap with store }) same

private theorem unlink_clearMarks (heap : Heap) (target : Handle) :
    heap.clearMarks.unlink target = (heap.unlink target).map clearMarks := by
  have link : (heap.clearMarks.get? target).bind (·.header.next) =
      (heap.get? target).bind (·.header.next) := by
    rw [get?_clearMarks]
    cases heap.get? target <;> rfl
  unfold unlink
  rw [predecessor_clearMarks, link]
  by_cases first : heap.head = some target
  · have first' : heap.clearMarks.head = some target := first
    rw [if_pos first, if_pos first']
    rfl
  · have first' : ¬ heap.clearMarks.head = some target := first
    rw [if_neg first, if_neg first']
    cases heap.predecessor target with
    | error cause => rfl
    | ok before =>
      cases before with
      | none => rfl
      | some before =>
        exact congrArg Except.ok (bypass_clearMarks heap (some before) _)

private theorem release_clearMarks (heap : Heap) (target : Handle) :
    heap.clearMarks.release target = (heap.release target).on clearMarks := by
  unfold release
  rw [get?_clearMarks]
  cases heap.get? target with
  | none => rfl
  | some object =>
    simp only [Option.map_some, Step.on, clearMarks]
    rw [Slots.vacate_mapAll]
    rfl

private theorem discharge_clearMarks (heap : Heap) (size : Nat) :
    heap.clearMarks.discharge size = (heap.discharge size).on clearMarks := by
  have same : heap.clearMarks.accounting = heap.accounting := rfl
  unfold discharge
  rw [same]
  cases heap.accounting.release size <;> rfl

/-- Marks do not matter to freeing one object. -/
theorem free_clearMarks (heap : Heap) (target : Handle) :
    heap.clearMarks.free target = (heap.free target).on clearMarks := by
  cases found : heap.get? target with
  | none =>
    have found' : heap.clearMarks.get? target = none := by rw [get?_clearMarks, found]; rfl
    rw [free_of_gone found, free_of_gone found']
    rfl
  | some object =>
    have found' : heap.clearMarks.get? target = some (unmarked object) := by
      rw [get?_clearMarks, found]
      rfl
    rw [free_of_live found, free_of_live found']
    have size : (unmarked object).header.type = object.header.type := rfl
    rw [size, discharge_clearMarks]
    refine Step.andThen_on fun _ charged => ?_
    rw [unlink_clearMarks]
    cases charged.unlink target with
    | error cause => rfl
    | ok unlinked =>
      simp only [Except.map, release_clearMarks]
      exact Step.andThen_on fun _ _ => rfl

/-- Marks do not matter to freeing. -/
theorem freeAll_clearMarks (heap : Heap) (targets : List Handle) :
    heap.clearMarks.freeAll targets = (heap.freeAll targets).on clearMarks := by
  induction targets generalizing heap with
  | nil => rfl
  | cons target rest ih =>
    rw [freeAll, freeAll, free_clearMarks]
    exact Step.andThen_on fun _ heap => ih heap

theorem freeAll_congr {a b : Heap} (same : a.clearMarks = b.clearMarks) (targets : List Handle) :
    (a.freeAll targets).on clearMarks = (b.freeAll targets).on clearMarks := by
  rw [← freeAll_clearMarks, same, freeAll_clearMarks]

/-! ## Taking marks off -/

/-- Putting or taking off one mark is not seen once all are off. -/
theorem clearMarks_modifyHeader (heap : Heap) (handle : Handle) (dark : Bool) :
    (heap.modifyHeader handle ({ · with dark })).clearMarks = heap.clearMarks := by
  have same := Slots.mapAll_modify heap.store handle.toSlotKey
    (fun object => { object with header := { object.header with dark } }) unmarked fun _ => rfl
  exact congrArg (fun store => { heap with store }) same

/-- Where nothing is marked, there are no marks to take off. -/
theorem clearMarks_eq_self (clean : ∀ handle, heap.isDark handle = false) :
    heap.clearMarks = heap := by
  have same : heap.store.mapAll unmarked = heap.store := by
    refine Slots.mapAll_eq_self _ fun key object found => ?_
    have light : object.header.dark = false := by
      have here := clean ⟨key⟩
      rw [isDark, get?, found] at here
      exact here
    rw [unmarked, ← light]
  exact congrArg (fun store => { heap with store }) same

end Heap
end ScriptHeap
