import ScriptHeap.Proofs.ObjectChain

/-! A balanced heap: its chain is in order, every header shows the kind of its payload, and the account
is what the objects along the chain are charged for. Such a heap can pay for all that is freed, whether
one by one or by a sweep, and is balanced afterwards. -/
namespace ScriptHeap

theorem ObjectType.structSize_le (type : ObjectType) : type.structSize ≤ 220 := by
  cases type <;> decide

namespace Heap
variable {heap rest : Heap} {order front back : List Handle} {handle other target : Handle}

/-- The kind that the header shows, and the kind of the payload. -/
def kinds? (heap : Heap) (handle : Handle) : Option (ObjectType × ObjectType) :=
  (heap.get? handle).map fun object => (object.header.type, object.payload.type)

theorem sizeAt_eq_kinds? (heap : Heap) (handle : Handle) :
    heap.sizeAt handle = ((heap.kinds? handle).map (·.1.structSize)).getD 0 := by
  rw [sizeAt, kinds?, Option.map_map]
  rfl

structure Balanced (heap : Heap) (order : List Handle) : Prop where
  chained : heap.Chained order
  shown : ∀ handle kinds, heap.kinds? handle = some kinds → kinds.1 = kinds.2
  bytes_eq : heap.bytes = (order.map heap.sizeAt).sum

/-- What the objects are charged for, along the chain or slot by slot. -/
theorem Chained.sum_sizeAt (chained : heap.Chained order) :
    (order.map heap.sizeAt).sum = (heap.store.occupants.map (·.header.type.structSize)).sum := by
  have along (handles : List Handle) : (handles.map heap.sizeAt).sum =
      ((handles.filterMap heap.get?).map (·.header.type.structSize)).sum := by
    induction handles with
    | nil => rfl
    | cons handle handles ih =>
      cases found : heap.get? handle with
      | none => simp [found, sizeAt, ih]
      | some object => simp [found, sizeAt_of_get? found, ih]
  rw [along]
  exact (chained.perm_occupants.map _).sum_nat

theorem balanced_ofConfig (config : HeapConfig) : (ofConfig config).Balanced [] where
  chained := chained_ofConfig config
  shown := by simp [kinds?, ofConfig, get?]
  bytes_eq := rfl

namespace Balanced

/-- The balance depends on the chain, the kinds and the account alone. -/
theorem congr (balanced : heap.Balanced order) (head : rest.head = heap.head)
    (links : rest.successor? = heap.successor?) (kinds : rest.kinds? = heap.kinds?)
    (bytes : rest.bytes = heap.bytes) : rest.Balanced order where
  chained := balanced.chained.congr head links
  shown := by
    rw [kinds]
    exact balanced.shown
  bytes_eq := by
    have sizes : rest.sizeAt = heap.sizeAt := by
      funext handle
      rw [sizeAt_eq_kinds?, sizeAt_eq_kinds?, kinds]
    rw [bytes, balanced.bytes_eq, sizes]

theorem modify (balanced : heap.Balanced order) (handle : Handle) (change : Object → Object)
    (links : ∀ object, (change object).header.next = object.header.next)
    (types : ∀ object, (change object).header.type = object.header.type ∧
      (change object).payload.type = object.payload.type) :
    (heap.modify handle change).Balanced order := by
  refine balanced.congr rfl (successor?_modify heap handle links) (funext fun other => ?_) rfl
  rw [kinds?, get?_modify]
  by_cases same : other = handle
  · subst same
    simp [kinds?, Function.comp_def, types]
  · simp [same, kinds?]

theorem clearMarks_iff : heap.clearMarks.Balanced order ↔ heap.Balanced order := by
  have kinds : heap.clearMarks.kinds? = heap.kinds? := by
    funext handle
    rw [kinds?, get?_clearMarks, Option.map_map]
    rfl
  constructor
  · intro balanced
    exact balanced.congr rfl (successor?_clearMarks heap).symm kinds.symm rfl
  · intro balanced
    exact balanced.congr rfl (successor?_clearMarks heap) kinds rfl

/-- Every occupant of a slot is shown as what it is. -/
theorem shown_occupants (balanced : heap.Balanced order) :
    ∀ object ∈ heap.store.occupants, object.header.type = object.payload.type := by
  intro object held
  obtain ⟨handle, _, found⟩ := List.mem_filterMap.1
    (balanced.chained.perm_occupants.mem_iff.2 held)
  refine balanced.shown handle (object.header.type, object.payload.type) ?_
  rw [kinds?, found]
  rfl

/-! ## Allocating -/

theorem grown (balanced : heap.Balanced order) (payload : Payload) (dispatch : Option Handle) :
    (heap.grown payload dispatch).Balanced (heap.nextHandle :: order) := by
  have kinds (handle : Handle) : (heap.grown payload dispatch).kinds? handle =
      if handle = heap.nextHandle then some (payload.type, payload.type) else heap.kinds? handle := by
    rw [kinds?, get?_grown]
    split <;> rfl
  have old : ∀ handle ∈ order, (heap.grown payload dispatch).sizeAt handle = heap.sizeAt handle := by
    intro handle listed
    have issued := issued_of_contains (balanced.chained.mem_iff.1 listed)
    rw [sizeAt_eq_kinds?, kinds, if_neg (ne_nextHandle issued), ← sizeAt_eq_kinds?]
  have new : (heap.grown payload dispatch).sizeAt heap.nextHandle = payload.type.structSize := by
    rw [sizeAt_eq_kinds?, kinds, if_pos rfl]
    rfl
  constructor
  · exact balanced.chained.grown payload dispatch
  · intro handle found held
    rw [kinds] at held
    split at held
    · cases held
      rfl
    · exact balanced.shown handle found held
  · have bytes : (heap.grown payload dispatch).bytes = heap.bytes + payload.type.structSize := rfl
    rw [bytes, balanced.bytes_eq, List.map_cons, List.sum_cons, new, List.map_congr_left old]
    omega

/-! ## Freeing -/

/-- There is enough on the account for each object. -/
theorem covered (balanced : heap.Balanced (front ++ target :: back)) :
    heap.bytes = heap.sizeAt target + ((front ++ back).map heap.sizeAt).sum := by
  rw [balanced.bytes_eq]
  simp only [List.map_append, List.map_cons, List.sum_append, List.sum_cons]
  omega

theorem free (balanced : heap.Balanced (front ++ target :: back)) :
    (heap.free target).outcome = .ok () ∧ (heap.free target).heap.Balanced (front ++ back) := by
  have live : heap.contains target = true := balanced.chained.mem_iff.1 (by simp)
  obtain ⟨object, found⟩ := Option.isSome_iff_exists.1 live
  have charged := balanced.covered
  have size := sizeAt_of_get? found
  have freed := balanced.chained.free_eq found (by omega)
  simp only [Step.andThen, outcome_takeOut, Step.after] at freed
  rw [freed]
  have left : ∀ one ∈ front ++ back, one ≠ target :=
    fun one listed => balanced.chained.path.ne_of_mem listed
  refine ⟨rfl, balanced.chained.takeOut found, ?_, ?_⟩
  · intro one kinds held
    simp only [kinds?, get?_takeOut] at held
    split at held
    · cases held
    · split at held
      · rw [Option.map_map] at held
        exact balanced.shown one kinds held
      · exact balanced.shown one kinds held
  · have sizes : (front ++ back).map (heap.takeOut front.getLast? target object).heap.sizeAt =
        (front ++ back).map heap.sizeAt :=
      List.map_congr_left fun one listed => sizeAt_takeOut (left one listed)
    rw [bytes_takeOut, sizes]
    omega

/-- All of several live objects can be freed. -/
theorem freeAll {targets : List Handle} (balanced : heap.Balanced order) (distinct : targets.Nodup)
    (live : ∀ target ∈ targets, heap.contains target = true) :
    (heap.freeAll targets).outcome = .ok () ∧
      ∃ left, (heap.freeAll targets).heap.Balanced left ∧ left.Sublist order := by
  induction targets generalizing heap order with
  | nil => exact ⟨rfl, order, balanced, .refl order⟩
  | cons target targets ih =>
    obtain ⟨front, back, rfl⟩ := List.append_of_mem
      (balanced.chained.complete target (live target (by simp)))
    obtain ⟨freed, remains⟩ := balanced.free
    obtain ⟨apart, distinct⟩ := List.nodup_cons.1 distinct
    have alive : ∀ one ∈ targets, (heap.free target).heap.contains one = true := by
      intro one listed
      have different : one ≠ target := fun same => apart (same ▸ listed)
      have before := balanced.chained.complete one (live one (by simp [listed]))
      refine remains.chained.mem_iff.1 ?_
      simpa [different] using before
    obtain ⟨all, left, after, shorter⟩ := ih remains distinct alive
    rw [Heap.freeAll, Step.andThen, freed]
    exact ⟨all, left, after, shorter.trans (by simp)⟩

/-! ## Sweeping -/

/-- No object is large. -/
theorem bytes_le (balanced : heap.Balanced order) : heap.bytes ≤ 220 * order.length := by
  have small (handle : Handle) : heap.sizeAt handle ≤ 220 := by
    rw [sizeAt_eq_kinds?]
    cases heap.kinds? handle with
    | none => exact Nat.zero_le _
    | some kinds => exact kinds.1.structSize_le
  rw [balanced.bytes_eq]
  clear balanced
  induction order with
  | nil => exact Nat.zero_le _
  | cons handle order ih =>
    have here := small handle
    rw [List.map_cons, List.sum_cons, List.length_cons]
    omega

/-- A sweep can pay for all it frees. Its result can be counted, unless there are more objects than a
handle can tell apart. -/
theorem sweep (balanced : heap.Balanced order) :
    (∃ left, heap.sweep.heap.Balanced left ∧ left.Sublist order) ∧
      ((∃ stats, heap.sweep.outcome = .ok stats) ∨
        UInt32.size < order.length ∧ heap.sweep.outcome = .error (.defect .multiplyOverflow)) := by
  have distinct : (heap.doomed order).Nodup := balanced.chained.path.nodup.filter _
  have live : ∀ target ∈ heap.doomed order, heap.contains target = true :=
    fun target listed => balanced.chained.mem_iff.1 (List.mem_filter.1 listed).1
  obtain ⟨freed, left, remains, shorter⟩ := balanced.freeAll distinct live
  obtain ⟨swept, -, result⟩ := balanced.chained.sweep_of_freed freed
  constructor
  · refine ⟨left, ?_, shorter⟩
    rw [swept]
    exact (clearMarks_iff.2 remains).congr rfl rfl rfl rfl
  · rw [result]
    by_cases fits : (heap.freeAll (heap.doomed order)).heap.bytes * 2 < wordLimit
    · exact .inl ⟨_, if_pos fits⟩
    · refine .inr ⟨?_, if_neg fits⟩
      have few := shorter.length_le
      have small := remains.bytes_le
      rw [wordLimit, UInt64.size] at fits
      rw [UInt32.size]
      omega

end Balanced
end Heap
end ScriptHeap
