import Mathlib.Data.List.Count
import Mathlib.Data.List.Perm.Subperm
import ScriptHeap.Proofs.ExactAccounting
import ScriptHeap.Proofs.Limits

/-! Freeing several objects in different orders. What is left depends only on which objects were freed: each
single free leads the chain past one object, wherever that stands by then, and the chain that is left is the
old one without them all. Just the order in which slots are served again tells of the order. -/
namespace ScriptHeap

namespace Slots
variable {α : Type} {store other : Slots α}

/-- Stores of the same size whose slots are of the same generations and whose keys find the same are the same
but for the order in which vacant slots are served. -/
theorem slots_eq (size : store.slots.size = other.slots.size)
    (generations : ∀ index, store.generationAt index = other.generationAt index)
    (found : ∀ key, store.get? key = other.get? key) : store.slots = other.slots := by
  refine Array.ext_getElem? fun index => ?_
  cases here : store.slots[index]? with
  | none =>
    rw [Array.getElem?_eq_none_iff] at here
    exact (Array.getElem?_eq_none (size ▸ here)).symm
  | some slot =>
    obtain ⟨inside, -⟩ := Array.getElem?_eq_some_iff.1 here
    obtain ⟨slot', there⟩ : ∃ slot', other.slots[index]? = some slot' :=
      ⟨_, Array.getElem?_eq_getElem (size ▸ inside)⟩
    have generation := generations index
    have occupant := found ⟨index, slot.generation⟩
    obtain ⟨age, held⟩ := slot
    obtain ⟨age', held'⟩ := slot'
    obtain rfl : age = age' := by
      rw [generationAt, generationAt, here, there] at generation
      exact generation
    simp only [get?, here, there, if_true] at occupant
    rw [there, occupant]

theorem vacant_perm_of_slots_eq (same : store.slots = other.slots) : store.vacant.Perm other.vacant :=
  (List.perm_ext_iff_of_nodup store.distinct other.distinct).2 fun index => by
    rw [store.vacant_iff, other.vacant_iff, same]

end Slots

/-- An object apart from its link in the chain. -/
def Object.loose (object : Object) : Object :=
  { object with header := { object.header with next := none } }

theorem Object.eq_of_loose {object other : Object} (same : object.loose = other.loose)
    (link : object.header.next = other.header.next) : object = other := by
  obtain ⟨⟨type, dark, dispatch, next⟩, payload⟩ := object
  obtain ⟨⟨type', dark', dispatch', next'⟩, payload'⟩ := other
  cases link
  cases same
  rfl

namespace Heap
variable {heap middle rest rest' : Heap} {targets others order left left' front back : List Handle}
  {target : Handle}

/-- An object of a heap apart from its link in the chain. -/
def looseAt (heap : Heap) (handle : Handle) : Option Object := (heap.get? handle).map Object.loose

/-- What is left when objects have been freed: the others are as they were but for their links, the slots of
those freed are one generation further, and nothing else than the account and the head has changed. -/
structure Frees (heap : Heap) (targets : List Handle) (rest : Heap) : Prop where
  objects : ∀ handle, rest.looseAt handle = if handle ∈ targets then none else heap.looseAt handle
  slots : rest.store.slots.size = heap.store.slots.size
  generations : ∀ index, rest.store.generationAt index =
    heap.store.generationAt index + targets.countP (·.index = index)
  links : rest.links = heap.links
  builtins : rest.builtins = heap.builtins
  config : rest.config = heap.config
  nextCollect : rest.nextCollect = heap.nextCollect

theorem Frees.refl (heap : Heap) : heap.Frees [] heap where
  objects handle := by simp
  slots := rfl
  generations index := rfl
  links := rfl
  builtins := rfl
  config := rfl
  nextCollect := rfl

theorem Frees.trans (first : heap.Frees targets middle) (second : middle.Frees others rest) :
    heap.Frees (targets ++ others) rest where
  objects := by
    intro handle
    rw [second.objects, first.objects]
    by_cases early : handle ∈ targets <;> simp [early]
  slots := second.slots.trans first.slots
  generations := by
    intro index
    rw [second.generations, first.generations, List.countP_append, Nat.add_assoc]
  links := second.links.trans first.links
  builtins := second.builtins.trans first.builtins
  config := second.config.trans first.config
  nextCollect := second.nextCollect.trans first.nextCollect

theorem Frees.contains_iff (frees : heap.Frees targets rest) {handle : Handle} :
    rest.contains handle = true ↔ handle ∉ targets ∧ heap.contains handle = true := by
  have loose (one : Heap) : one.contains handle = (one.looseAt handle).isSome :=
    Option.isSome_map.symm
  rw [loose, loose, frees.objects]
  by_cases freed : handle ∈ targets <;> simp [freed]

theorem store_release (heap : Heap) (target : Handle) :
    (heap.release target).heap.store = heap.store.vacate target.toSlotKey := by
  unfold release
  split
  · rfl
  · next gone =>
    rw [get?] at gone
    rw [Slots.vacate, dif_neg (by simp [gone])]
    rfl

theorem contains_bypass (heap : Heap) (before next : Option Handle) (handle : Handle) :
    (Sweep.bypass heap before next).contains handle = heap.contains handle := by
  rw [contains, get?_bypass]
  split
  · exact Option.isSome_map
  · rfl

theorem slots_bypass (heap : Heap) (before next : Option Handle) :
    (Sweep.bypass heap before next).store.slots.size = heap.store.slots.size := by
  cases before with
  | none => rfl
  | some before => exact Array.size_modify ..

theorem generationAt_bypass (heap : Heap) (before next : Option Handle) (index : Nat) :
    (Sweep.bypass heap before next).store.generationAt index = heap.store.generationAt index := by
  cases before with
  | none => rfl
  | some before => exact Slots.generationAt_modify ..

theorem frees_takeOut {object : Object} (found : heap.get? target = some object) (before : Option Handle) :
    heap.Frees [target] (heap.takeOut before target object).heap := by
  have store : (heap.takeOut before target object).heap.store =
      (Sweep.bypass (heap.discharged object) before object.header.next).store.vacate target.toSlotKey :=
    store_release _ target
  have held : (Sweep.bypass (heap.discharged object) before object.header.next).contains target = true := by
    rw [contains_bypass]
    exact contains_of_get? found
  constructor
  case objects =>
    intro handle
    rw [looseAt, get?_takeOut]
    by_cases same : handle = target
    · simp [same]
    · rw [if_neg same, if_neg (by simpa using same : handle ∉ [target]), looseAt]
      split
      · rw [Option.map_map]
        rfl
      · rfl
  case slots =>
    rw [store, Slots.slots_vacate, slots_bypass]
    rfl
  case generations =>
    intro index
    rw [store, Slots.generationAt_vacate held, generationAt_bypass, List.countP_singleton]
    by_cases same : index = target.index
    · simp [same, discharged]
    · simp [same, Ne.symm same, discharged]
  case links | builtins | config | nextCollect =>
    rw [takeOut_fields]
    rfl

namespace Balanced

theorem frees (balanced : heap.Balanced (front ++ target :: back)) :
    heap.Frees [target] (heap.free target).heap := by
  have live : heap.contains target = true := balanced.chained.mem_iff.1 (by simp)
  obtain ⟨object, found⟩ := Option.isSome_iff_exists.1 live
  have covered := balanced.covered
  have freed := balanced.chained.free_eq found (by rw [← sizeAt_of_get? found]; omega)
  simp only [Step.andThen, outcome_takeOut, Step.after] at freed
  rw [freed]
  exact frees_takeOut found front.getLast?

/-- What is left of a balanced heap when some of its objects have been freed one after another. -/
theorem freeAll_frees (balanced : heap.Balanced order) (distinct : targets.Nodup)
    (live : ∀ target ∈ targets, heap.contains target = true) :
    heap.Frees targets (heap.freeAll targets).heap := by
  induction targets generalizing heap order with
  | nil => exact .refl heap
  | cons target targets ih =>
    obtain ⟨front, back, rfl⟩ := List.append_of_mem
      (balanced.chained.complete target (live target List.mem_cons_self))
    obtain ⟨freed, remains⟩ := balanced.free
    obtain ⟨apart, distinct⟩ := List.nodup_cons.1 distinct
    have first := balanced.frees
    have alive : ∀ one ∈ targets, (heap.free target).heap.contains one = true := by
      intro one listed
      refine first.contains_iff.2 ⟨fun same => ?_, live one (List.mem_cons_of_mem _ listed)⟩
      exact apart (List.mem_singleton.1 same ▸ listed)
    rw [Heap.freeAll, Step.andThen, freed]
    exact first.trans (ih remains distinct alive)

end Balanced

/-! ## Two orders -/

/-- Heaps that differ at most in the order in which their vacant slots are served. -/
structure Matches (heap other : Heap) : Prop where
  slots : heap.store.slots = other.store.slots
  vacant : heap.store.vacant.Perm other.store.vacant
  head : heap.head = other.head
  accounting : heap.accounting = other.accounting
  links : heap.links = other.links
  builtins : heap.builtins = other.builtins
  config : heap.config = other.config
  nextCollect : heap.nextCollect = other.nextCollect

theorem Matches.objectCount_eq (same : rest.Matches rest') : rest.objectCount = rest'.objectCount := by
  rw [objectCount, objectCount, Slots.size, Slots.size, same.slots, same.vacant.length_eq]

namespace Frees

/-- Whichever way the chain got shorter, it is the old one without what was freed. -/
theorem chain_eq (frees : heap.Frees targets rest) (before : heap.Chained order) (after : rest.Chained left)
    (shorter : left.Sublist order) : left = order.filter (· ∉ targets) := by
  have members (handle : Handle) : handle ∈ left ↔ handle ∈ order.filter (· ∉ targets) := by
    rw [after.mem_iff, frees.contains_iff, List.mem_filter, before.mem_iff, and_comm, decide_eq_true_iff]
  have among : left.Sublist (order.filter (· ∉ targets)) := by
    have whole := shorter.filter (· ∉ targets)
    rwa [List.filter_eq_self.2 fun handle listed => (List.mem_filter.1 ((members handle).1 listed)).2]
      at whole
  refine among.eq_of_length_le (List.subperm_of_subset (before.path.nodup.filter _) ?_).length_le
  exact fun handle listed => (members handle).2 listed

/-- The same objects freed in two orders: the links are those of one chain, and so nothing differs. -/
theorem matches_of_perm (frees : heap.Frees targets rest) (frees' : heap.Frees others rest')
    (reordered : targets.Perm others) (balanced : rest.Balanced left) (balanced' : rest'.Balanced left) :
    rest.Matches rest' := by
  have loose (handle : Handle) : rest.looseAt handle = rest'.looseAt handle := by
    rw [frees.objects, frees'.objects]
    simp only [reordered.mem_iff]
  have found : rest.get? = rest'.get? := by
    funext handle
    have same := loose handle
    rw [looseAt, looseAt] at same
    cases here : rest.get? handle with
    | none =>
      rw [here, Option.map_none, eq_comm, Option.map_eq_none_iff] at same
      exact same.symm
    | some object =>
      rw [here, Option.map_some, eq_comm, Option.map_eq_some_iff] at same
      obtain ⟨object', there, alike⟩ := same
      obtain ⟨front, back, rfl⟩ := List.append_of_mem
        (balanced.chained.complete handle (contains_of_get? here))
      have link := (balanced.chained.next_eq here).trans (balanced'.chained.next_eq there).symm
      rw [there, Object.eq_of_loose alike.symm link]
  have slots : rest.store.slots = rest'.store.slots := by
    refine Slots.slots_eq (frees.slots.trans frees'.slots.symm) (fun index => ?_) fun key => ?_
    · rw [frees.generations, frees'.generations, reordered.countP_eq]
    · exact congrFun found ⟨key⟩
  constructor
  case slots => exact slots
  case vacant => exact Slots.vacant_perm_of_slots_eq slots
  case head => rw [balanced.chained.path.start_eq_head?, balanced'.chained.path.start_eq_head?]
  case accounting =>
    have sizes : rest.sizeAt = rest'.sizeAt := by
      funext handle
      rw [sizeAt, sizeAt, found]
    have bytes : rest.bytes = rest'.bytes := by rw [balanced.bytes_eq, balanced'.bytes_eq, sizes]
    exact congrArg Accounting.mk bytes
  case links => rw [frees.links, frees'.links]
  case builtins => rw [frees.builtins, frees'.builtins]
  case config => rw [frees.config, frees'.config]
  case nextCollect => rw [frees.nextCollect, frees'.nextCollect]

end Frees

end Heap

namespace History

/-- **The order of frees does not matter.** After any run of operations, failed ones included, that writes
neither a link nor the kind in a header, distinct live objects can be freed one after another in any order,
each with success. In any two orders the same is left: the same slots with the same objects in them, of the
same generations, with the same marks and links; the same head, account and count; and the same vacant slots,
which alone may be served in another order. -/
theorem freeAll_perm_run (config : HeapConfig) {ops : List Operation} {targets others : List Handle}
    (untouched : ∀ op ∈ ops, op.writesNext = false) (unchanged : ∀ op ∈ ops, op.writesType = false)
    (distinct : targets.Nodup) (live : ∀ target ∈ targets, (run config ops).heap.contains target = true)
    (reordered : targets.Perm others) :
    let heap := (run config ops).heap
    (heap.freeAll targets).outcome = .ok () ∧ (heap.freeAll others).outcome = .ok () ∧
      (heap.freeAll targets).heap.Matches (heap.freeAll others).heap ∧
      (heap.freeAll targets).heap.objectCount = (heap.freeAll others).heap.objectCount := by
  intro heap
  obtain ⟨order, balanced⟩ := balanced_run config untouched unchanged
  have distinct' : others.Nodup := reordered.nodup_iff.1 distinct
  have live' : ∀ target ∈ others, heap.contains target = true := fun target listed =>
    live target (reordered.mem_iff.2 listed)
  obtain ⟨freed, left, remains, shorter⟩ := balanced.freeAll distinct live
  obtain ⟨freed', left', remains', shorter'⟩ := balanced.freeAll distinct' live'
  have frees := balanced.freeAll_frees distinct live
  have frees' := balanced.freeAll_frees distinct' live'
  obtain rfl : left = left' := by
    rw [frees.chain_eq balanced.chained remains.chained shorter,
      frees'.chain_eq balanced.chained remains'.chained shorter']
    simp only [reordered.mem_iff]
  have same := frees.matches_of_perm frees' reordered remains remains'
  exact ⟨freed, freed', same, same.objectCount_eq⟩

/-- Four objects, of which the first, the second and the last are freed. -/
def quartet : List Operation :=
  [.create .map, .create (.text "a"), .create (.array #[]), .mark ⟨⟨2, 0⟩⟩ true, .create (.upvalue 0)]

theorem freeAll_quartet :
    let heap := (run .default quartet).heap
    (heap.freeAll [⟨⟨0, 0⟩⟩, ⟨⟨1, 0⟩⟩, ⟨⟨3, 0⟩⟩]).heap.Matches
        (heap.freeAll [⟨⟨3, 0⟩⟩, ⟨⟨0, 0⟩⟩, ⟨⟨1, 0⟩⟩]).heap ∧
      (heap.freeAll [⟨⟨0, 0⟩⟩, ⟨⟨1, 0⟩⟩, ⟨⟨3, 0⟩⟩]).heap.store.vacant ≠
        (heap.freeAll [⟨⟨3, 0⟩⟩, ⟨⟨0, 0⟩⟩, ⟨⟨1, 0⟩⟩]).heap.store.vacant := by
  intro heap
  have untouched : ∀ op ∈ quartet, op.writesNext = false := by decide
  have unchanged : ∀ op ∈ quartet, op.writesType = false := by decide
  have distinct : [(⟨⟨0, 0⟩⟩ : Handle), ⟨⟨1, 0⟩⟩, ⟨⟨3, 0⟩⟩].Nodup := by decide
  have reordered : [(⟨⟨0, 0⟩⟩ : Handle), ⟨⟨1, 0⟩⟩, ⟨⟨3, 0⟩⟩].Perm [⟨⟨3, 0⟩⟩, ⟨⟨0, 0⟩⟩, ⟨⟨1, 0⟩⟩] := by
    decide
  obtain ⟨-, -, same, -⟩ := freeAll_perm_run .default untouched unchanged distinct (by decide) reordered
  exact ⟨same, by decide⟩

end History
end ScriptHeap
