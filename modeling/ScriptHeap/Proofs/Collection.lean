import ScriptHeap.Proofs.Readers
import ScriptHeap.Proofs.SweepAsFreeing

/-! Collection is not seen by what is marked. A sweep leaves every marked object as it is but for its
mark and its link in the chain, and brings nothing back that was gone. Where the marks are closed under
references, the readers therefore read the same from marked objects before and after, even along parents
that run in a ring and although fewer objects are counted afterwards. -/
namespace ScriptHeap.Heap
variable {heap : Heap} {handle target : Handle} {order targets : List Handle}

/-! ## What a sweep leaves -/

theorem body_takeOut (heap : Heap) (before : Option Handle) (target : Handle) (object : Object)
    (handle : Handle) :
    ((heap.takeOut before target object).heap.get? handle).map Object.body =
      if handle = target then none else (heap.get? handle).map Object.body := by
  rw [get?_takeOut]
  split
  · rfl
  · split
    · rw [Option.map_map]
      rfl
    · rfl

theorem links_takeOut (heap : Heap) (before : Option Handle) (target : Handle) (object : Object) :
    (heap.takeOut before target object).heap.links = heap.links := by
  rw [takeOut_fields]
  rfl

/-- Single frees that all succeed leave the other objects, but for their links in the chain. -/
theorem freeAll_leaves (chained : heap.Chained order)
    (freed : (heap.freeAll targets).outcome = .ok ()) :
    (heap.freeAll targets).heap.links = heap.links ∧
      ∀ handle, ((heap.freeAll targets).heap.get? handle).map Object.body =
        if handle ∈ targets then none else (heap.get? handle).map Object.body := by
  induction targets generalizing heap order with
  | nil => exact ⟨rfl, fun handle => by simp [freeAll, Step.done]⟩
  | cons target targets ih =>
    cases found : heap.get? target with
    | none =>
      rw [freeAll, free_of_gone found] at freed
      cases freed
    | some object =>
      by_cases covered : object.header.type.structSize ≤ heap.bytes
      · obtain ⟨front, back, rfl⟩ := List.append_of_mem (chained.mem_iff.2 (contains_of_get? found))
        have first := chained.freeAll_cons found covered targets
        rw [first] at freed ⊢
        obtain ⟨links, bodies⟩ := ih (chained.takeOut found) freed
        refine ⟨links.trans (links_takeOut ..), fun handle => (bodies handle).trans ?_⟩
        rw [body_takeOut]
        by_cases same : handle = target <;> simp [same]
      · rw [freeAll_cons_of_short found (Nat.lt_of_not_le covered)] at freed
        cases freed

/-- A sweep that succeeds leaves the marked objects and no others. -/
theorem sweep_leaves (chained : heap.Chained order) {stats : SweepStats}
    (swept : heap.sweep.outcome = .ok stats) :
    heap.sweep.heap.links = heap.links ∧
      ∀ handle, (heap.sweep.heap.get? handle).map Object.body =
        if heap.isDark handle then (heap.get? handle).map Object.body else none := by
  cases freed : (heap.freeAll (heap.doomed order)).outcome with
  | error failure =>
    rw [chained.sweep_of_refused freed] at swept
    cases swept
  | ok =>
    obtain ⟨links, bodies⟩ := freeAll_leaves chained freed
    rw [(chained.sweep_of_freed freed).1]
    refine ⟨links, fun handle => ?_⟩
    have unmarking : ((heap.freeAll (heap.doomed order)).heap.clearMarks.get? handle).map Object.body =
        ((heap.freeAll (heap.doomed order)).heap.get? handle).map Object.body := by
      rw [get?_clearMarks, Option.map_map]
      rfl
    refine unmarking.trans ((bodies handle).trans ?_)
    by_cases dark : heap.isDark handle = true
    · rw [if_pos dark, if_neg (by simp [doomed, dark])]
    · rw [if_neg dark]
      -- whatever is not marked was freed, or was gone before
      by_cases live : heap.contains handle = true
      · have listed : handle ∈ heap.doomed order :=
          List.mem_filter.2 ⟨chained.mem_iff.2 live, by simpa using dark⟩
        rw [if_pos listed]
      · rw [contains, Option.not_isSome_iff_eq_none] at live
        rw [live]
        split <;> rfl

/-! ## Closed marks -/

/-- Whatever is alive and referred to by a marked object is marked. -/
def MarksClosed (heap : Heap) : Prop :=
  ∀ handle object, heap.get? handle = some object → object.header.dark = true →
    ∀ one ∈ object.references, heap.contains one = true → heap.isDark one = true

theorem marksClosed_iff : heap.MarksClosed ↔ ∀ key ∈ heap.store.keys,
    (heap.get? ⟨key⟩).all (fun object => !object.header.dark ||
      object.references.all fun one => !heap.contains one || heap.isDark one) = true := by
  constructor
  · intro closed key _
    cases found : heap.get? ⟨key⟩ with
    | none => rfl
    | some object =>
      have here := closed ⟨key⟩ object found
      cases dark : object.header.dark with
      | false => simp [dark]
      | true =>
        simp only [Option.all_some, dark, Bool.not_true, Bool.false_or, List.all_eq_true,
          Bool.or_eq_true, Bool.not_eq_true']
        intro one refers
        cases live : heap.contains one with
        | false => exact .inl rfl
        | true => exact .inr (here dark one refers live)
  · intro all handle object found dark one refers live
    have here := all handle.toSlotKey (Slots.mem_keys.2 (contains_of_get? found))
    rw [show (⟨handle.toSlotKey⟩ : Handle) = handle from rfl, found] at here
    simp only [Option.all_some, dark, Bool.not_true, Bool.false_or, List.all_eq_true,
      Bool.or_eq_true, Bool.not_eq_true'] at here
    simpa [live] using here one refers

instance (heap : Heap) : Decidable heap.MarksClosed := decidable_of_iff' _ marksClosed_iff

/-- A sweep leaves what is under marked handles, and under those of objects that were gone before. -/
theorem agreeOn_sweep (chained : heap.Chained order) (closed : heap.MarksClosed)
    {stats : SweepStats} (swept : heap.sweep.outcome = .ok stats) :
    heap.AgreeOn (fun handle => heap.contains handle = true → heap.isDark handle = true)
      heap.sweep.heap := by
  obtain ⟨links, bodies⟩ := sweep_leaves chained swept
  refine ⟨fun handle kept => ?_, fun handle object kept found => ?_, links⟩
  · rw [bodies]
    by_cases live : heap.contains handle = true
    · rw [if_pos (kept live)]
    · rw [contains, Option.not_isSome_iff_eq_none] at live
      rw [live]
      split <;> rfl
  · have dark := kept (contains_of_get? found)
    rw [isDark, found] at dark
    exact closed handle object found dark

/-- **Collection.** On a chain in order, with marks that are closed under references, a sweep that
succeeds is not seen from a marked object: its members are the same and it is printed the same, and so
are the methods, the field defaults and the initializer that it gives as a class. -/
theorem readings_sweep (heap : Heap) (chained : heap.WellChained) (closed : heap.MarksClosed)
    {stats : SweepStats} (swept : heap.sweep.outcome = .ok stats) (root : Handle)
    (dark : heap.isDark root = true) :
    (∀ name, heap.sweep.heap.lookup (.object root) name = heap.lookup (.object root) name) ∧
    (∀ name, heap.sweep.heap.findMethod root name = heap.findMethod root name) ∧
    (∀ name, heap.sweep.heap.findFieldDefault root name = heap.findFieldDefault root name) ∧
    heap.sweep.heap.findInitializer root = heap.findInitializer root ∧
    ∀ cells, heap.sweep.heap.display cells (.object root) = heap.display cells (.object root) := by
  obtain ⟨order, chained⟩ := chained
  have agree := agreeOn_sweep chained closed swept
  have held : heap.contains root = true → heap.isDark root = true := fun _ => dark
  refine ⟨agree.lookup_eq held, agree.findMethod_eq held, agree.findFieldDefault_eq held,
    agree.findInitializer_eq held, fun cells => ?_⟩
  refine agree.displayWithin_eq cells displayDepth false fun one leads => ?_
  cases leads
  exact held

/-- Two classes in a ring, the second with a method, and an instance of the first are marked; an array of
all of them and a map are not. -/
def ringMarked : Heap :=
  let array := (ringed.newArray #[.object ⟨⟨0, 0⟩⟩, .object ⟨⟨2, 0⟩⟩]).heap
  let full := array.newMap.heap
  [0, 1, 2].foldl (fun heap index => heap.modifyHeader ⟨⟨index, 0⟩⟩ ({ · with dark := true })) full

/-- The method is found across the ring after the sweep too, and the instance is printed as before. -/
theorem readings_ringMarked :
    ringMarked.sweep.heap.objectCount = 3 ∧
      ringMarked.sweep.heap.lookup (.object ⟨⟨2, 0⟩⟩) 5 = .method (.integer 7) ∧
      ∀ cells, ringMarked.sweep.heap.display cells (.object ⟨⟨2, 0⟩⟩) =
        ringMarked.display cells (.object ⟨⟨2, 0⟩⟩) := by
  have swept : ringMarked.sweep.outcome = .ok ⟨2, 224, 3⟩ := by decide
  obtain ⟨found, -, -, -, printed⟩ :=
    readings_sweep ringMarked (by decide) (by decide) swept ⟨⟨2, 0⟩⟩ (by decide)
  refine ⟨by decide, (found 5).trans (by decide), printed⟩

end ScriptHeap.Heap
