import ScriptHeap.Proofs.Chain

/-! Freeing one object of a chain in order. It fails exactly when the account is short, and then
nothing has changed; otherwise the object is gone and the chain is the old one without it. -/
namespace ScriptHeap.Heap
variable {heap : Heap} {handle other target : Handle} {object : Object}
variable {order front back : List Handle} {before next : Option Handle}

/-- The bytes that an object is charged for; nothing is charged for an object that is gone. -/
def sizeAt (heap : Heap) (handle : Handle) : Nat :=
  ((heap.get? handle).map (·.header.type.structSize)).getD 0

theorem sizeAt_of_get? (found : heap.get? handle = some object) :
    heap.sizeAt handle = object.header.type.structSize := by
  simp [sizeAt, found]

/-- The heap with the size of an object taken off the account. -/
def discharged (heap : Heap) (object : Object) : Heap :=
  { heap with accounting := ⟨heap.bytes - object.header.type.structSize⟩ }

/-- Takes an object off the account, leads the chain past it and gives up its slot. -/
def takeOut (heap : Heap) (before : Option Handle) (target : Handle) (object : Object) : Step Unit :=
  (Sweep.bypass (heap.discharged object) before object.header.next).release target

theorem discharge_of_le (covered : object.header.type.structSize ≤ heap.bytes) :
    heap.discharge object.header.type.structSize = Step.done (heap.discharged object) () := by
  unfold discharge Accounting.release
  rw [bytes] at covered
  rw [if_pos covered]
  rfl

theorem discharge_of_lt {size : Nat} (short : heap.bytes < size) :
    heap.discharge size =
      (Step.fail heap (.accountingUnderflow heap.bytes size)).after
        [.logged (.accountingUnderflow heap.bytes size)] := by
  unfold discharge Accounting.release
  rw [bytes] at short
  rw [if_neg (Nat.not_le.2 short)]
  rfl

theorem outcome_takeOut (heap : Heap) (before : Option Handle) (target : Handle) (object : Object) :
    (heap.takeOut before target object).outcome = .ok () := by
  unfold takeOut release
  split <;> rfl

/-! ## What is left of the rest -/

theorem get?_bypass (heap : Heap) (before next : Option Handle) (other : Handle) :
    (Sweep.bypass heap before next).get? other =
      if before = some other then
        (heap.get? other).map fun object => { object with header := { object.header with next } }
      else heap.get? other := by
  cases before with
  | none => rfl
  | some before =>
    rw [Sweep.bypass, modifyHeader, get?_modify]
    by_cases same : other = before
    · simp [same]
    · simp [same, Ne.symm same]

/-- Of the other objects, at most the link of the one before is changed. -/
theorem get?_takeOut (heap : Heap) (before : Option Handle) (target : Handle) (object : Object)
    (other : Handle) :
    (heap.takeOut before target object).heap.get? other =
      if other = target then none
      else if before = some other then
        (heap.get? other).map fun one =>
          { one with header := { one.header with next := object.header.next } }
      else heap.get? other := by
  rw [takeOut, get?_release, get?_bypass]
  rfl

theorem contains_takeOut (heap : Heap) (before : Option Handle) (target : Handle) (object : Object)
    (other : Handle) :
    (heap.takeOut before target object).heap.contains other =
      (other != target && heap.contains other) := by
  rw [contains, get?_takeOut]
  by_cases same : other = target
  · simp [same]
  · by_cases last : before = some other <;> simp [same, last, contains]

theorem isDark_takeOut (different : other ≠ target) :
    (heap.takeOut before target object).heap.isDark other = heap.isDark other := by
  rw [isDark, get?_takeOut, if_neg different]
  split
  · simp [isDark, Option.any_map]
  · rfl

theorem sizeAt_takeOut (different : other ≠ target) :
    (heap.takeOut before target object).heap.sizeAt other = heap.sizeAt other := by
  rw [sizeAt, get?_takeOut, if_neg different]
  split
  · simp [sizeAt, Function.comp_def]
  · rfl

private theorem release_fields (heap : Heap) (handle : Handle) :
    (heap.release handle).heap = { heap with store := (heap.release handle).heap.store } := by
  unfold release
  split <;> rfl

private theorem bypass_fields (heap : Heap) (before next : Option Handle) :
    Sweep.bypass heap before next =
      { heap with
        store := (Sweep.bypass heap before next).store
        head := (Sweep.bypass heap before next).head } := by
  cases before <;> rfl

/-- Only the slots, the head of the chain and the account are touched. -/
theorem takeOut_fields (heap : Heap) (before : Option Handle) (target : Handle) (object : Object) :
    (heap.takeOut before target object).heap =
      { heap.discharged object with
        store := (heap.takeOut before target object).heap.store
        head := if before = none then object.header.next else heap.head } := by
  rw [takeOut, release_fields, bypass_fields]
  cases before <;> rfl

theorem bytes_takeOut (heap : Heap) (before : Option Handle) (target : Handle) (object : Object) :
    (heap.takeOut before target object).heap.bytes =
      heap.bytes - object.header.type.structSize := by
  rw [takeOut_fields]
  rfl

/-! ## Freeing -/

theorem free_of_gone (gone : heap.get? target = none) :
    heap.free target = Step.fail heap (.invalidHandle target) := by
  have refused : heap.require target = .error (.invalidHandle target) := by rw [require, gone]
  rw [free, refused]
  rfl

/-- Freeing a live object, after the object has been looked at. -/
theorem free_of_live (found : heap.get? target = some object) :
    heap.free target =
      (heap.discharge object.header.type.structSize).andThen fun _ charged =>
        match charged.unlink target with
        | .error cause => Step.defect heap cause
        | .ok unlinked =>
          (unlinked.release target).andThen fun _ heap =>
            { outcome := .ok ()
              heap
              notices := [.logged (.freed target object.header.type object.header.type.structSize
                heap.bytes)] } := by
  have required : heap.require target = .ok object := by rw [require, found]
  rw [free, required]
  rfl

/-- The object cannot be paid for: nothing is changed. -/
theorem free_of_short (found : heap.get? target = some object)
    (short : heap.bytes < object.header.type.structSize) :
    heap.free target =
      (Step.fail heap (.accountingUnderflow heap.bytes object.header.type.structSize)).after
        [.logged (.accountingUnderflow heap.bytes object.header.type.structSize)] := by
  rw [free_of_live found, discharge_of_lt short]
  rfl

theorem outcome_release (heap : Heap) (target : Handle) : (heap.release target).outcome = .ok () := by
  unfold release
  split <;> rfl

/-- What freeing comes to: no such object, one that cannot be paid for, one that the search along the
chain does not reach, or one that is gone. -/
theorem free_cases (heap : Heap) (target : Handle) :
    (heap.get? target = none ∧ heap.free target = Step.fail heap (.invalidHandle target)) ∨
    ∃ object, heap.get? target = some object ∧
      ((heap.bytes < object.header.type.structSize ∧ heap.free target =
          (Step.fail heap (.accountingUnderflow heap.bytes object.header.type.structSize)).after
            [.logged (.accountingUnderflow heap.bytes object.header.type.structSize)]) ∨
        (∃ cause, (heap.discharged object).unlink target = .error cause ∧
          heap.free target = Step.defect heap cause) ∨
        ∃ unlinked, (heap.discharged object).unlink target = .ok unlinked ∧
          heap.free target =
            ⟨.ok (), (unlinked.release target).heap, (unlinked.release target).notices ++
              [.logged (.freed target object.header.type object.header.type.structSize
                (unlinked.release target).heap.bytes)]⟩) := by
  cases found : heap.get? target with
  | none => exact .inl ⟨rfl, free_of_gone found⟩
  | some object =>
    refine .inr ⟨object, rfl, ?_⟩
    by_cases covered : object.header.type.structSize ≤ heap.bytes
    · right
      have freed := free_of_live found
      simp only [discharge_of_le covered, Step.andThen, Step.done, Step.after, List.nil_append,
        outcome_release] at freed
      rw [freed]
      cases led : (heap.discharged object).unlink target with
      | error cause => exact .inl ⟨cause, rfl, rfl⟩
      | ok unlinked => exact .inr ⟨unlinked, rfl, rfl⟩
    · have short := Nat.lt_of_not_le covered
      exact .inl ⟨short, free_of_short found short⟩

namespace Chained

theorem next_eq (chained : heap.Chained (front ++ target :: back))
    (found : heap.get? target = some object) : object.header.next = back.head? := by
  have link := chained.path.next_eq
  rw [successor?, found] at link
  exact Option.some.inj link

/-- The chain after an object has been taken out of it. -/
theorem takeOut (chained : heap.Chained (front ++ target :: back))
    (found : heap.get? target = some object) :
    (heap.takeOut front.getLast? target object).heap.Chained (front ++ back) := by
  have next := chained.next_eq found
  constructor
  · have head : (heap.takeOut front.getLast? target object).heap.head =
        if front = [] then back.head? else heap.head := by
      rw [takeOut_fields, next]
      simp only [List.getLast?_eq_none_iff]
    rw [head]
    refine chained.path.bypass fun one listed => ?_
    have different := chained.path.ne_of_mem listed
    have live : heap.contains one = true := by
      refine chained.mem_iff.1 ?_
      rcases List.mem_append.1 listed with listed | listed <;> simp [listed]
    rw [successor?, get?_takeOut, if_neg different]
    split
    · obtain ⟨item, held⟩ := Option.isSome_iff_exists.1 live
      simp [held, next]
    · rfl
  · intro one live
    rw [contains_takeOut, Bool.and_eq_true, bne_iff_ne] at live
    have listed := chained.complete one live.2
    simpa [live.1] using listed

/-- The object can be paid for: it is taken out of the heap. -/
theorem free_eq (chained : heap.Chained (front ++ target :: back))
    (found : heap.get? target = some object)
    (covered : object.header.type.structSize ≤ heap.bytes) :
    heap.free target =
      (heap.takeOut front.getLast? target object).andThen fun _ heap =>
        { outcome := .ok ()
          heap
          notices := [.logged (.freed target object.header.type object.header.type.structSize
            heap.bytes)] } := by
  have charged : (heap.discharged object).Chained (front ++ target :: back) :=
    ⟨chained.path, chained.complete⟩
  have next := chained.next_eq found
  rw [free_of_live found, discharge_of_le covered]
  simp only [Step.done, Step.andThen, charged.unlink_eq, ← next]
  rfl

end Chained

/-! ## Freeing one after another -/

/-- Frees objects one after another; a failure is final. -/
def freeAll (heap : Heap) : List Handle → Step Unit
  | [] => Step.done heap ()
  | target :: rest => (heap.free target).andThen fun _ heap => heap.freeAll rest

theorem freeAll_cons_of_short (found : heap.get? target = some object)
    (short : heap.bytes < object.header.type.structSize) (rest : List Handle) :
    heap.freeAll (target :: rest) =
      (Step.fail heap (.accountingUnderflow heap.bytes object.header.type.structSize)).after
        [.logged (.accountingUnderflow heap.bytes object.header.type.structSize)] := by
  rw [freeAll, free_of_short found short]
  rfl

/-- Where the first object can be paid for, the others are freed from the chain without it. -/
theorem Chained.freeAll_cons (chained : heap.Chained (front ++ target :: back))
    (found : heap.get? target = some object)
    (covered : object.header.type.structSize ≤ heap.bytes) (rest : List Handle) :
    heap.freeAll (target :: rest) =
      ((heap.takeOut front.getLast? target object).heap.freeAll rest).after
        ((heap.takeOut front.getLast? target object).notices ++
          [.logged (.freed target object.header.type object.header.type.structSize
            (heap.takeOut front.getLast? target object).heap.bytes)]) := by
  rw [freeAll, chained.free_eq found covered]
  simp only [Step.andThen, outcome_takeOut, Step.after]

end ScriptHeap.Heap
