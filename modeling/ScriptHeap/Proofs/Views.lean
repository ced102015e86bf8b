import Mathlib.Data.List.Perm.Subperm
import ScriptHeap.Proofs.Allocating
import ScriptHeap.Proofs.Walk

/-! Typed views of the objects of a heap. A view reads the payload of a live object as data of one kind;
what is done to other objects, to headers or to payloads of another kind is not seen through it. -/
namespace ScriptHeap

namespace Variant
variable {α β : Type}

/-- A change of data of one kind is not seen through the view for another kind. -/
theorem project_modify_of_ne {variant : Variant α} {edited : Variant β}
    (different : variant.type ≠ edited.type) (change : β → β) (payload : Payload) :
    variant.project (edited.modify change payload) = variant.project payload := by
  have unseen (one : Payload) (other : one.type = edited.type) : variant.project one = none := by
    cases seen : variant.project one with
    | none => rfl
    | some data => exact absurd ((variant.type_of_project seen).symm.trans other) different
  cases seen : edited.project payload with
  | none => rw [modify, seen]
  | some data =>
    have type := edited.type_of_project seen
    rw [unseen payload type, unseen _ ((edited.type_modify change payload).trans type)]

theorem type_ofType (type : ObjectType) : (ofType type).type = type := by cases type <;> rfl

end Variant

/-- The kind of the objects that an operation revises. -/
def Operation.revisedKind? : Operation → Option ObjectType
  | .edit type _ _ => some type
  | .closeStream _ => some .stream
  | .capture .. | .closeUpvalues .. => some .upvalue
  | .resolveParent .. | .resolvePending _ => some .classDef
  | _ => none

/-- A revision is not seen in data of another kind. -/
theorem Operation.Revises.project_of_ne {α : Type} {variant : Variant α} {op : Operation} {handle : Handle}
    {change : Payload → Payload} (revises : op.Revises handle change)
    (aside : op.revisedKind? ≠ some variant.type) (payload : Payload) :
    variant.project (change payload) = variant.project payload := by
  have unseen {β : Type} (revised : Variant β) (kind : op.revisedKind? = some revised.type)
      (revision : β → β) :
      variant.project (revised.modify revision payload) = variant.project payload := by
    have different : variant.type ≠ revised.type := fun same =>
      aside (kind.trans (congrArg some same.symm))
    exact Variant.project_modify_of_ne different revision payload
  cases revises with
  | @edit type _ revision =>
    exact unseen (.ofType type) (congrArg some (Variant.type_ofType type).symm) revision
  | closeStream => exact unseen .stream rfl _
  | capture => exact unseen .upvalue rfl _
  | closeUpvalues => exact unseen .upvalue rfl _
  | resolveParent => exact unseen .classDef rfl _
  | resolvePending => exact unseen .classDef rfl _

namespace Heap
variable {α β : Type} {variant : Variant α} {heap rest : Heap} {handle other : Handle} {data : α}

theorem view?_eq_payloadAt (heap : Heap) (variant : Variant α) (handle : Handle) :
    heap.view? variant handle = (heap.payloadAt handle).bind variant.project := by
  rw [view?, payloadAt, Option.bind_map]
  rfl

theorem view?_congr (same : rest.payloadAt handle = heap.payloadAt handle) :
    rest.view? variant handle = heap.view? variant handle := by
  rw [view?_eq_payloadAt, view?_eq_payloadAt, same]

theorem contains_of_view? (seen : (heap.view? variant handle).isSome = true) :
    heap.contains handle = true := by
  obtain ⟨data, seen⟩ := Option.isSome_iff_exists.1 seen
  obtain ⟨object, found, _⟩ := Option.bind_eq_some_iff.1 seen
  exact contains_of_get? found

theorem expect_eq_ok_iff :
    heap.expect variant handle = .ok data ↔ heap.view? variant handle = some data := by
  rw [expect, require, view?]
  cases heap.get? handle with
  | none => simp
  | some object => cases seen : variant.project object.payload <;> simp [seen]

/-! ## Counting -/

/-- There are no more handles of objects of a sort than the heap has such objects. -/
theorem length_le_countP (sort : Object → Bool) {handles : List Handle} (distinct : handles.Nodup)
    (sorted : ∀ handle ∈ handles, (heap.get? handle).any sort = true) :
    handles.length ≤ heap.store.occupants.countP sort := by
  have keys : (handles.map Handle.toSlotKey).Nodup :=
    List.pairwise_map.2 (distinct.imp fun different same => different (toSlotKey_inj.1 same))
  have held : handles.map Handle.toSlotKey ⊆
      heap.store.keys.filter fun key => (heap.store.get? key).any sort := by
    intro key listed
    obtain ⟨handle, member, rfl⟩ := List.mem_map.1 listed
    have own := sorted handle member
    exact List.mem_filter.2 ⟨Slots.mem_keys.2 (Option.isSome_of_any own), own⟩
  have bound := (List.subperm_of_subset keys held).length_le
  rw [List.length_map, ← List.countP_eq_length_filter] at bound
  refine Nat.le_trans bound (Nat.le_of_eq ?_)
  rw [← Slots.filterMap_get?_keys, List.countP_filterMap]
  refine List.countP_congr fun key _ => ?_
  cases heap.store.get? key <;> rfl

/-- A heap counts its live objects, so there are no more to be met along links than it counts. -/
theorem atMost_get? (heap : Heap) : AtMost heap.get? heap.objectCount := by
  intro handles distinct live
  have bound := length_le_countP (fun _ => true) distinct fun handle listed => by
    obtain ⟨object, found⟩ := Option.isSome_iff_exists.1 (live handle listed)
    rw [found, Option.any_some]
  rwa [List.countP_true, Slots.length_occupants] at bound

theorem atMost_view? (heap : Heap) (variant : Variant α) :
    AtMost (heap.view? variant) heap.objectCount :=
  fun handles distinct seen =>
    heap.atMost_get? handles distinct fun handle listed => contains_of_view? (seen handle listed)

/-! ## After a change -/

theorem view?_of_loses {gone : List Handle} (loses : heap.Loses gone rest) (variant : Variant α)
    (handle : Handle) :
    rest.view? variant handle = if handle ∈ gone then none else heap.view? variant handle := by
  rw [view?_eq_payloadAt, loses.payloads, view?_eq_payloadAt]
  split <;> rfl

theorem payloadAt_clearMarks (heap : Heap) (handle : Handle) :
    heap.clearMarks.payloadAt handle = heap.payloadAt handle := by
  rw [payloadAt, get?_clearMarks, Option.map_map]
  rfl

/-- The heap with the payload of one object revised. -/
def revise (heap : Heap) (handle : Handle) (change : Payload → Payload) : Heap :=
  heap.modify handle fun object => { object with payload := change object.payload }

theorem payloadAt_revise (heap : Heap) (handle : Handle) (change : Payload → Payload)
    (other : Handle) :
    (heap.revise handle change).payloadAt other =
      if other = handle then (heap.payloadAt handle).map change else heap.payloadAt other := by
  rw [payloadAt, revise, get?_modify]
  by_cases same : other = handle
  · subst same
    simp [payloadAt, Function.comp_def]
  · simp [same, payloadAt]

theorem update_eq_revise (heap : Heap) (variant : Variant α) (handle : Handle) (change : α → α) :
    heap.update variant handle change = heap.revise handle (variant.modify change) := rfl

theorem view?_update (heap : Heap) (variant : Variant α) (handle : Handle) (change : α → α)
    (other : Handle) :
    (heap.update variant handle change).view? variant other =
      if other = handle then (heap.view? variant handle).map change
      else heap.view? variant other := by
  rw [update_eq_revise, view?_eq_payloadAt, payloadAt_revise]
  split
  · rw [view?_eq_payloadAt]
    cases heap.payloadAt handle with
    | none => rfl
    | some payload => exact variant.project_modify change payload
  · rw [view?_eq_payloadAt]

theorem expect_update (heap : Heap) (variant : Variant α) (target : Handle) (change : α → α)
    (handle : Handle) :
    (heap.update variant target change).expect variant handle =
      if handle = target then (heap.expect variant target).map change
      else heap.expect variant handle := by
  rw [update, expect, require, get?_modify]
  by_cases same : handle = target
  · subst same
    simp only [↓reduceIte, expect, require]
    cases heap.get? handle with
    | none => rfl
    | some object =>
      simp only [Option.map_some, variant.project_modify]
      cases variant.project object.payload <;> rfl
  · simp only [same, ↓reduceIte]
    rfl

/-- Data of another kind stays as it is. -/
theorem view?_update_of_ne {edited : Variant β} (different : variant.type ≠ edited.type) (heap : Heap)
    (handle : Handle) (change : β → β) (other : Handle) :
    (heap.update edited handle change).view? variant other = heap.view? variant other := by
  rw [update_eq_revise, view?_eq_payloadAt, payloadAt_revise, view?_eq_payloadAt]
  split
  · next same =>
    rw [same]
    cases heap.payloadAt handle with
    | none => rfl
    | some payload => exact Variant.project_modify_of_ne different change payload
  · rfl

/-- The object itself after a change of its data. -/
theorem get?_update (seen : heap.view? variant handle = some data) (change : α → α) (other : Handle) :
    (heap.update variant handle change).get? other =
      if other = handle then
        (heap.get? handle).map fun object => { object with payload := variant.inject (change data) }
      else heap.get? other := by
  rw [update, get?_modify]
  obtain ⟨object, found, projected⟩ := Option.bind_eq_some_iff.1 seen
  simp only [found, Option.map_some, Variant.modify, projected]

/-- Changing an object in place leaves everything else of the heap, the generations and the vacant
slots included. -/
theorem modify_frame (heap : Heap) (handle : Handle) (change : Object → Object) :
    heap.modify handle change = { heap with store := (heap.modify handle change).store } ∧
      (heap.modify handle change).store.vacant = heap.store.vacant ∧
      (heap.modify handle change).store.slots.map (·.generation) =
        heap.store.slots.map (·.generation) := by
  refine ⟨rfl, rfl, Array.ext_getElem? fun index => ?_⟩
  simp only [modify, Slots.modify, Array.getElem?_map, Array.getElem?_modify]
  split
  · cases heap.store.slots[index]? with
    | none => rfl
    | some slot =>
      simp only [Option.map_some]
      split <;> rfl
  · rfl

theorem view?_grown (heap : Heap) (payload : Payload) (dispatch : Option Handle) (variant : Variant α)
    (other : Handle) :
    (heap.grown payload dispatch).view? variant other =
      if other = heap.nextHandle then variant.project payload else heap.view? variant other := by
  rw [view?, get?_grown]
  split <;> rfl

end Heap
end ScriptHeap
