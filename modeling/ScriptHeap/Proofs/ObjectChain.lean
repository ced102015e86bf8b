import Mathlib.Data.List.Perm.Subperm
import ScriptHeap.Proofs.Issuing
import ScriptHeap.Proofs.SweepAsFreeing

/-! The chain of all objects through a run. New objects are put in front, and freeing and sweeping only
take objects out; so as long as nobody else writes the links, the chain lists the live objects in the
order of their issue, the newest first. -/
namespace ScriptHeap

/-- Whether the host writes a link of the chain. -/
def Operation.writesNext : Operation → Bool
  | .writeNext .. => true
  | _ => false

namespace Heap
variable {heap : Heap} {order : List Handle}

theorem successor?_grown (heap : Heap) (payload : Payload) (dispatch : Option Handle) (other : Handle) :
    (heap.grown payload dispatch).successor? other =
      if other = heap.nextHandle then some heap.head else heap.successor? other := by
  rw [successor?, get?_grown]
  split <;> rfl

/-- A change that leaves the links alone. -/
theorem successor?_modify (heap : Heap) (handle : Handle) {change : Object → Object}
    (keeps : ∀ object, (change object).header.next = object.header.next) :
    (heap.modify handle change).successor? = heap.successor? := by
  funext other
  rw [successor?, get?_modify]
  by_cases same : other = handle
  · subst same
    simp [successor?, Function.comp_def, keeps]
  · simp [same, successor?]

theorem chained_ofConfig (config : HeapConfig) : (ofConfig config).Chained [] where
  path := .nil
  complete := by simp [ofConfig, contains, get?]

namespace Chained

/-- A new object goes in front. -/
theorem grown (chained : heap.Chained order) (payload : Payload) (dispatch : Option Handle) :
    (heap.grown payload dispatch).Chained (heap.nextHandle :: order) := by
  constructor
  · have first : (heap.grown payload dispatch).successor? heap.nextHandle = some heap.head := by
      rw [successor?_grown, if_pos rfl]
    refine Path.cons first (chained.path.congr fun handle listed => ?_)
    have issued := issued_of_contains (chained.mem_iff.1 listed)
    rw [successor?_grown, if_neg (ne_nextHandle issued)]
  · intro handle live
    rw [List.mem_cons]
    exact (contains_grown.1 live).imp_right (chained.complete handle)

/-- Freeing takes at most one object out. -/
theorem free (chained : heap.Chained order) (target : Handle) :
    ∃ left, (heap.free target).heap.Chained left ∧ left.Sublist order := by
  cases found : heap.get? target with
  | none =>
    rw [free_of_gone found]
    exact ⟨order, chained, .refl order⟩
  | some object =>
    by_cases covered : object.header.type.structSize ≤ heap.bytes
    · obtain ⟨front, back, rfl⟩ := List.append_of_mem
        (chained.complete target (contains_of_get? found))
      have freed : (heap.free target).heap = (heap.takeOut front.getLast? target object).heap := by
        rw [chained.free_eq found covered]
        simp only [Step.andThen, outcome_takeOut, Step.after]
      rw [freed]
      exact ⟨front ++ back, chained.takeOut found, by simp⟩
    · rw [free_of_short found (Nat.lt_of_not_le covered)]
      exact ⟨order, chained, .refl order⟩

theorem freeAll (chained : heap.Chained order) (targets : List Handle) :
    ∃ left, (heap.freeAll targets).heap.Chained left ∧ left.Sublist order := by
  induction targets generalizing heap order with
  | nil => exact ⟨order, chained, .refl order⟩
  | cons target rest ih =>
    obtain ⟨middle, first, shorter⟩ := chained.free target
    rw [Heap.freeAll, Step.andThen]
    split
    · obtain ⟨left, second, shortest⟩ := ih first
      exact ⟨left, second, shortest.trans shorter⟩
    · exact ⟨middle, first, shorter⟩

theorem clearMarks_iff : heap.clearMarks.Chained order ↔ heap.Chained order :=
  ⟨fun chained => chained.congr rfl (successor?_clearMarks heap).symm,
    fun chained => chained.congr rfl (successor?_clearMarks heap)⟩

/-- A sweep takes objects out, also when it stops on the way. -/
theorem sweep (chained : heap.Chained order) :
    ∃ left, heap.sweep.heap.Chained left ∧ left.Sublist order := by
  obtain ⟨left, freed, shorter⟩ := chained.freeAll (heap.doomed order)
  refine ⟨left, clearMarks_iff.1 ?_, shorter⟩
  rw [chained.clearMarks_sweep]
  exact (clearMarks_iff.2 freed).congr rfl rfl

theorem modify (chained : heap.Chained order) (handle : Handle) (change : Object → Object)
    (keeps : ∀ object, (change object).header.next = object.header.next) :
    (heap.modify handle change).Chained order :=
  chained.congr rfl (successor?_modify heap handle keeps)

end Chained
end Heap

namespace History
variable {past : History}

/-- The chain is in order, and it is in the order of issue. -/
def InOrder (past : History) : Prop :=
  ∃ order, past.heap.Chained order ∧ order.Sublist past.issued

theorem inOrder_start (config : HeapConfig) : (start config).InOrder :=
  ⟨[], Heap.chained_ofConfig config, .refl []⟩

/-- Every operation but a write to a link keeps the chain in order. -/
theorem InOrder.perform {op : Operation} (inOrder : past.InOrder) (untouched : op.writesNext = false) :
    (past.perform op).InOrder := by
  have kept : op.Preserves fun told heap =>
      ∃ order, heap.Chained order ∧ order.Sublist (newborns told ++ past.issued) := by
    -- where nothing comes into being, the account of what was issued stays as it is
    have silent {told news : List Notice} (silent : newborns news = []) :
        newborns (told ++ news) = newborns told := by
      rw [newborns_append, silent, List.nil_append]
    constructor
    case allocate =>
      rintro told heap payload dispatch - ⟨order, chained, ordered⟩
      obtain ⟨failure, news, refuses, refused⟩ | granted :=
        heap.allocateWith_cases payload dispatch
      · rw [Step.Leaves, refused, silent refuses.newborns]
        exact ⟨order, chained, ordered⟩
      · rw [Step.Leaves, granted, newborns_append]
        exact ⟨heap.nextHandle :: order, chained.grown payload dispatch, ordered.cons_cons _⟩
    case free =>
      rintro told heap target - ⟨order, chained, ordered⟩
      obtain ⟨left, freed, shorter⟩ := chained.free target
      rw [Step.Leaves, silent (heap.loses_free target).2]
      exact ⟨left, freed, shorter.trans ordered⟩
    case sweep =>
      rintro told heap - ⟨order, chained, ordered⟩
      obtain ⟨left, swept, shorter⟩ := chained.sweep
      rw [Step.Leaves, silent heap.loses_sweep.2]
      exact ⟨left, swept, shorter.trans ordered⟩
    case clearMarks =>
      rintro told heap - ⟨order, chained, ordered⟩
      exact ⟨order, Heap.Chained.clearMarks_iff.2 chained, ordered⟩
    case revise =>
      rintro told heap handle change - ⟨order, chained, ordered⟩
      exact ⟨order, chained.modify handle _ fun _ => rfl, ordered⟩
    case stamp =>
      rintro told heap handle change stamps ⟨order, chained, ordered⟩
      have keeps (header : Header) : (change header).next = header.next := by
        cases stamps with
        | next => cases untouched
        | _ => rfl
      exact ⟨order, chained.modify handle _ fun object => keeps object.header, ordered⟩
    case settle =>
      rintro told heap builtins links - ⟨order, chained, ordered⟩
      exact ⟨order, chained.congr rfl rfl, ordered⟩
    case report =>
      rintro told heap notice reports ⟨order, chained, ordered⟩
      rw [silent reports.newborns]
      exact ⟨order, chained, ordered⟩
  exact kept.performs inOrder

theorem inOrder_run (config : HeapConfig) {ops : List Operation}
    (untouched : ∀ op ∈ ops, op.writesNext = false) : (run config ops).InOrder :=
  after_keeps InOrder (inOrder_start config) fun _ op listed held => held.perform (untouched op listed)

/-- **The object chain.** After any run of operations, failed ones included, that writes no link, the
links lead from the head through all live objects, each once, and then end. The objects are met in the
order in which they came into being, the newest first, and through handles of the generation that their
slots are in; so the heap lists and counts its objects right. -/
theorem objects_run (config : HeapConfig) (ops : List Operation)
    (untouched : ∀ op ∈ ops, op.writesNext = false) :
    let past := run config ops
    let heap := past.heap
    Path heap.successor? heap.head heap.objects none ∧
      heap.objects = past.issued.filter heap.contains ∧
      past.issued.Nodup ∧ heap.objects.Nodup ∧
      (∀ handle, handle ∈ heap.objects ↔ heap.contains handle = true) ∧
      (∀ handle ∈ heap.objects, heap.store.generationAt handle.index = handle.generation) ∧
      heap.objects.length = heap.objectCount := by
  intro past heap
  obtain ⟨order, chained, ordered⟩ := inOrder_run config untouched
  have distinct : past.issued.Nodup := (sound_run config ops).distinct
  have listed : heap.objects = order := chained.objects_eq
  have newest : order = past.issued.filter heap.contains := by
    have all : order.filter heap.contains = order :=
      List.filter_eq_self.2 fun handle member => chained.mem_iff.1 member
    have among : order.Sublist (past.issued.filter heap.contains) := by
      rw [← all]
      exact ordered.filter _
    -- one is part of the other, and as long: whatever lives is on the chain
    refine among.eq_of_length_le (List.subperm_of_subset (distinct.filter _) ?_).length_le
    intro handle member
    exact chained.complete handle (List.mem_filter.1 member).2
  rw [listed]
  refine ⟨chained.path, newest, distinct, chained.path.nodup, fun handle => chained.mem_iff, ?_,
    chained.length_eq⟩
  intro handle member
  exact Slots.generationAt_of_isSome (chained.mem_iff.1 member)

/-- Three objects, of which a sweep leaves the one in the middle, and another one in a slot used
before. -/
def reusing : List Operation :=
  [.create .map, .create (.array #[]), .create (.upvalue 3), .mark ⟨⟨1, 0⟩⟩ true, .sweep, .create .map]

theorem objects_reusing : (run .default reusing).heap.objects = [⟨⟨0, 1⟩⟩, ⟨⟨1, 0⟩⟩] := by
  have listed := (objects_run .default reusing (by decide)).2.1
  rw [listed]
  decide

end History
end ScriptHeap
