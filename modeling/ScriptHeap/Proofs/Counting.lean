import ScriptHeap.Proofs.Freeing
import ScriptHeap.Proofs.Views

/-! Counting objects of a sort. A change of one object moves the count by that object alone, and an object
that is given up is counted no more; nothing has to be known of the chain for that. -/
namespace ScriptHeap

namespace Slots
variable {α : Type} {store other : Slots α} {key : SlotKey} {one : α}

/-- Stores that answer alike have the same occupants. -/
theorem perm_occupants_of_get? (same : other.get? = store.get?) : other.occupants.Perm store.occupants := by
  rw [← filterMap_get?_keys, ← filterMap_get?_keys, same]
  refine (perm_keys store.nodup_keys fun key => ?_).symm.filterMap _
  rw [mem_keys, same]

/-- The occupant of a key and the others: after a change they are the changed one and the others, and after
its slot is vacated the others are left. -/
theorem occupants_split (held : store.get? key = some one) :
    ∃ rest, store.occupants.Perm (one :: rest) ∧
      (∀ change, (store.modify key change).occupants.Perm (change one :: rest)) ∧
      (store.vacate key).occupants.Perm rest := by
  have listed : key ∈ store.keys := mem_keys.2 (Option.isSome_of_eq_some held)
  have apart : ∀ other ∈ store.keys.erase key, other ≠ key := fun other remains =>
    (store.nodup_keys.mem_erase_iff.1 remains).1
  -- a store with the keys of this one and with the others' occupants unchanged
  have changed (after : Slots α) (keys : ∀ other, (after.get? other).isSome = (store.get? other).isSome)
      (others : ∀ other, other ≠ key → after.get? other = store.get? other) {now : α}
      (here : after.get? key = some now) :
      after.occupants.Perm (now :: (store.keys.erase key).filterMap store.get?) := by
    have same : (key :: store.keys.erase key).Perm after.keys :=
      (List.perm_cons_erase listed).symm.trans
        (perm_keys store.nodup_keys fun other => by rw [mem_keys, keys])
    rw [← filterMap_get?_keys]
    refine (same.symm.filterMap _).trans (List.Perm.of_eq ?_)
    rw [List.filterMap_cons, here,
      List.filterMap_congr fun other remains => others other (apart other remains)]
  refine ⟨(store.keys.erase key).filterMap store.get?, changed store (fun _ => rfl) (fun _ _ => rfl) held,
    fun change => ?_, ?_⟩
  · refine changed _ (fun other => ?_) (fun other different => ?_) ?_
    · rw [get?_modify]
      split
      · next same => rw [same, Option.isSome_map]
      · rfl
    · rw [get?_modify, if_neg different]
    · rw [get?_modify, if_pos rfl, held, Option.map_some]
  · have left : (store.keys.erase key).Perm (store.vacate key).keys := by
      refine perm_keys (store.nodup_keys.erase key) fun other => ?_
      rw [store.nodup_keys.mem_erase_iff, mem_keys, get?_vacate]
      by_cases same : other = key <;> simp [same]
    rw [← filterMap_get?_keys]
    refine (left.symm.filterMap _).trans (List.Perm.of_eq ?_)
    exact List.filterMap_congr fun other remains => by rw [get?_vacate, if_neg (apart other remains)]

end Slots

namespace Heap
variable {heap : Heap} {handle : Handle} {object : Object} {sort : Object → Bool}

/-- How many objects of a sort there are. -/
def count (heap : Heap) (sort : Object → Bool) : Nat := heap.store.occupants.countP sort

theorem count_pos (found : heap.get? handle = some object) (own : sort object = true) :
    0 < heap.count sort := by
  obtain ⟨rest, all, -, -⟩ := Slots.occupants_split found
  rw [count, all.countP_eq, List.countP_cons_of_pos own]
  exact Nat.succ_pos _

/-- A change of an object that takes it from the sort. -/
theorem count_modify (found : heap.get? handle = some object) {change : Object → Object}
    (own : sort object = true) (lost : sort (change object) = false) :
    (heap.modify handle change).count sort + 1 = heap.count sort := by
  obtain ⟨rest, all, changed, -⟩ := Slots.occupants_split found
  have after := (changed change).countP_eq sort
  rw [List.countP_cons_of_neg (by simp [lost])] at after
  rw [count, count, all.countP_eq, List.countP_cons_of_pos own]
  exact congrArg (· + 1) after

/-- A change that the sort does not depend on. -/
theorem count_modify_of_alike {change : Object → Object}
    (alike : ∀ object, sort (change object) = sort object) (handle : Handle) :
    (heap.modify handle change).count sort = heap.count sort := by
  cases found : heap.get? handle with
  | none =>
    have same : (heap.modify handle change).store.get? = heap.store.get? := by
      funext key
      rw [modify, Slots.get?_modify]
      split
      · next same => rw [same, show heap.store.get? handle.toSlotKey = none from found, Option.map_none]
      · rfl
    exact (Slots.perm_occupants_of_get? same).countP_eq sort
  | some object =>
    obtain ⟨rest, all, changed, -⟩ := Slots.occupants_split found
    have after := (changed change).countP_eq sort
    rw [List.countP_cons, alike, ← List.countP_cons, ← all.countP_eq] at after
    exact after

/-- An object that is not of the sort is given up. -/
theorem count_release (found : heap.get? handle = some object) (other : sort object = false) :
    (heap.release handle).heap.count sort = heap.count sort := by
  obtain ⟨rest, all, -, left⟩ := Slots.occupants_split found
  rw [release, found, count, count, all.countP_eq, List.countP_cons_of_neg (by simp [other])]
  exact left.countP_eq sort

theorem count_bypass (alike : ∀ (object : Object) (next : Option Handle),
      sort { object with header := { object.header with next } } = sort object)
    (before next : Option Handle) :
    (Sweep.bypass heap before next).count sort = heap.count sort := by
  cases before with
  | none => rfl
  | some before => exact count_modify_of_alike (fun object => alike object next) before

end Heap
end ScriptHeap
