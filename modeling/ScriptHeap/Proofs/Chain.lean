import ScriptHeap.Heap.Sweep
import ScriptHeap.Proofs.Path
import ScriptHeap.Proofs.SlotKeys

/-! The chain of a heap as a path. It is in order when the links lead from the head through every live
object to an end. A chain in order is read, searched and shortened as one would expect, whichever of
the two ways of taking an object out is used. -/
namespace ScriptHeap.Heap
variable {heap : Heap} {handle other target : Handle} {object : Object}

/-! ## Looking after a change -/

theorem toSlotKey_inj : handle.toSlotKey = other.toSlotKey ↔ handle = other := by
  cases handle
  cases other
  simp

theorem contains_of_get? (found : heap.get? handle = some object) : heap.contains handle = true := by
  rw [contains, found]
  rfl

theorem get?_modify (heap : Heap) (handle : Handle) (change : Object → Object) (other : Handle) :
    (heap.modify handle change).get? other =
      if other = handle then (heap.get? handle).map change else heap.get? other := by
  simp only [get?, modify, Slots.get?_modify, toSlotKey_inj]

/-- An object without its mark. -/
def unmarked (object : Object) : Object :=
  { object with header := { object.header with dark := false } }

theorem get?_clearMarks (heap : Heap) (handle : Handle) :
    heap.clearMarks.get? handle = (heap.get? handle).map unmarked :=
  Slots.get?_mapAll ..

theorem get?_release (heap : Heap) (handle other : Handle) :
    (heap.release handle).heap.get? other = if other = handle then none else heap.get? other := by
  unfold release
  split
  · simp only [get?, Slots.get?_vacate, toSlotKey_inj]
  · next gone =>
    split
    · next same => rw [same, Step.done, gone]
    · rfl

/-- The link of a live object; a handle without one has no entry. -/
def successor? (heap : Heap) (handle : Handle) : Option (Option Handle) :=
  (heap.get? handle).map (·.header.next)

theorem isSome_successor? : (heap.successor? handle).isSome = heap.contains handle := by
  rw [successor?, Option.isSome_map, contains]

/-- The objects of a chain in order, the newest first. -/
structure Chained (heap : Heap) (order : List Handle) : Prop where
  path : Path heap.successor? heap.head order none
  complete : ∀ handle, heap.contains handle = true → handle ∈ order

/-- The links lead from the head through all live objects to an end. -/
def WellChained (heap : Heap) : Prop := ∃ order, heap.Chained order

namespace Chained
variable {order front back : List Handle}

/-- A chain depends on the head and the links alone. -/
theorem congr {same : Heap} (chained : heap.Chained order) (head : same.head = heap.head)
    (links : same.successor? = heap.successor?) : same.Chained order where
  path := by
    rw [head, links]
    exact chained.path
  complete := by
    intro handle live
    rw [← isSome_successor?, links, isSome_successor?] at live
    exact chained.complete handle live

theorem mem_iff (chained : heap.Chained order) : handle ∈ order ↔ heap.contains handle = true := by
  refine ⟨fun listed => ?_, chained.complete handle⟩
  rw [← isSome_successor?]
  exact chained.path.linked handle listed

theorem perm_keys (chained : heap.Chained order) :
    (order.map Handle.toSlotKey).Perm heap.store.keys := by
  refine Slots.perm_keys ?_ fun key => ?_
  · exact List.pairwise_map.2
      (chained.path.nodup.imp fun different same => different (toSlotKey_inj.1 same))
  · constructor
    · intro listed
      obtain ⟨one, member, rfl⟩ := List.mem_map.1 listed
      exact chained.mem_iff.1 member
    · intro held
      exact List.mem_map.2 ⟨⟨key⟩, chained.mem_iff.2 held, rfl⟩

theorem length_eq (chained : heap.Chained order) : order.length = heap.objectCount := by
  rw [← List.length_map Handle.toSlotKey, chained.perm_keys.length_eq, Slots.length_keys]
  rfl

/-- The objects along the chain are the occupants of the slots, in another order. -/
theorem perm_occupants (chained : heap.Chained order) :
    (order.filterMap heap.get?).Perm heap.store.occupants := by
  rw [← Slots.filterMap_get?_keys]
  have mapped : order.filterMap heap.get? =
      (order.map Handle.toSlotKey).filterMap heap.store.get? := by
    rw [List.filterMap_map]
    rfl
  rw [mapped]
  exact chained.perm_keys.filterMap _

theorem map_fst_chain (chained : heap.Chained order) : heap.chain.map Prod.fst = order :=
  (trail_eq_path chained.path (by simp) (Nat.le_of_eq chained.length_eq)).1

theorem chainEnd_eq (chained : heap.Chained order) : heap.chainEnd = none :=
  (trail_eq_path chained.path (by simp) (Nat.le_of_eq chained.length_eq)).2

/-- Listing the objects lists the chain. -/
theorem objects_eq (chained : heap.Chained order) : heap.objects = order := by
  rw [objects, chained.map_fst_chain, chained.chainEnd_eq]
  simp

/-- The search from the head finds the object before. -/
theorem predecessor_eq (chained : heap.Chained (front ++ target :: back)) :
    heap.predecessor target = .ok front.getLast? := by
  have met (item : Handle × Object) (member : item ∈ heap.chain) :
      heap.successor? item.1 = some item.2.header.next := by
    rw [successor?, look_of_mem_trail member]
    rfl
  unfold predecessor
  split
  · next before object found =>
    have member := List.mem_of_find?_eq_some found
    have leads := List.find?_some found
    have listed : before ∈ front ++ target :: back := by
      rw [← chained.map_fst_chain]
      exact List.mem_map_of_mem member
    have link := met _ member
    rw [beq_iff_eq.1 leads] at link
    rw [chained.path.getLast?_of_next listed link]
  · next missing =>
    have first : front.getLast? = none := by
      cases last : front.getLast? with
      | none => rfl
      | some before =>
        have link := chained.path.next_getLast? last
        have listed : before ∈ heap.chain.map Prod.fst := by
          rw [chained.map_fst_chain]
          exact List.mem_append_left _ (List.mem_of_getLast? last)
        obtain ⟨item, member, rfl⟩ := List.mem_map.1 listed
        have leads := (met item member).symm.trans link
        have overlooked := List.find?_eq_none.1 missing item member
        simp [Option.some.inj leads] at overlooked
    rw [chained.chainEnd_eq, first]
    rfl

/-- Taking an object out of the chain leads past it, whether what is before it was searched for or
remembered. -/
theorem unlink_eq (chained : heap.Chained (front ++ target :: back)) :
    heap.unlink target = .ok (Sweep.bypass heap front.getLast? back.head?) := by
  have link := chained.path.next_eq
  have next : (heap.get? target).bind (·.header.next) = back.head? := by
    obtain ⟨object, found, linked⟩ := Option.map_eq_some_iff.1 link
    simp [found, linked]
  unfold unlink
  simp only [next]
  cases front with
  | nil =>
    rw [if_pos chained.path.start_eq]
    rfl
  | cons first front =>
    have different : heap.head ≠ some target := by
      have distinct := chained.path.nodup
      rw [List.cons_append] at chained distinct
      rw [chained.path.start_eq]
      rintro ⟨⟩
      simp at distinct
    rw [if_neg different, chained.predecessor_eq]
    obtain ⟨before, last⟩ : ∃ before, (first :: front).getLast? = some before :=
      ⟨_, List.getLast?_eq_some_getLast (List.cons_ne_nil _ _)⟩
    rw [last]
    rfl

end Chained

/-- Whether a chain is in order is seen by walking along it once. -/
theorem wellChained_iff : heap.WellChained ↔ heap.chainEnd = none ∧
    ∀ key ∈ heap.store.keys, (⟨key⟩ : Handle) ∈ heap.chain.map Prod.fst := by
  constructor
  · rintro ⟨order, chained⟩
    refine ⟨chained.chainEnd_eq, fun key held => ?_⟩
    rw [chained.map_fst_chain]
    exact chained.complete ⟨key⟩ (Slots.mem_keys.1 held)
  · rintro ⟨ended, listed⟩
    refine ⟨_, ?_, fun handle live => listed _ (Slots.mem_keys.2 live)⟩
    rw [← ended]
    exact path_trail ..

instance (heap : Heap) : Decidable heap.WellChained := decidable_of_iff' _ wellChained_iff

end ScriptHeap.Heap
