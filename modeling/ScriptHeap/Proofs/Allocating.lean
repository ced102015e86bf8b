import ScriptHeap.Proofs.Lifetimes

/-! What an allocation comes to. Either it is refused, for one of three reasons, and nothing has
changed; or it is granted, and the heap has one object more, at the head of the chain and under a
handle that was never issued before. -/
namespace ScriptHeap.Heap
variable {heap : Heap} {payload : Payload} {dispatch : Option Handle} {other : Handle}

/-- The handle that the next object gets. -/
def nextHandle (heap : Heap) : Handle := ⟨heap.store.nextKey⟩

/-- The heap with one object more. -/
def grown (heap : Heap) (payload : Payload) (dispatch : Option Handle) : Heap :=
  { heap with
    store := heap.store.insert (heap.newborn payload dispatch)
    head := some heap.nextHandle
    accounting := ⟨heap.bytes + payload.type.structSize⟩ }

/-- Why an object of this size is refused, and what is told of it. -/
inductive Refuses (heap : Heap) (size : Nat) : Failure → List Notice → Prop where
  | objects : heap.config.maxObjectCount.toNat < heap.objectCount + 1 →
      Refuses heap size
        (.error (.objectLimitExceeded heap.config.maxObjectCount.toNat (heap.objectCount + 1)))
        [.logged (.objectLimitExceeded heap.config.maxObjectCount.toNat)]
  | overflow : wordLimit ≤ heap.bytes + size → Refuses heap size (.defect .addOverflow) []
  | memory : heap.config.maxMemorySize.toNat < heap.bytes + size →
      Refuses heap size
        (.error (.memoryLimitExceeded heap.config.maxMemorySize.toNat (heap.bytes + size)))
        [.logged (.memoryLimitExceeded heap.config.maxMemorySize.toNat (heap.bytes + size))]

theorem Refuses.newborns {size : Nat} {failure : Failure} {told : List Notice}
    (refuses : heap.Refuses size failure told) : newborns told = [] := by
  cases refuses with
  | objects => exact newborns_logged rfl
  | overflow => rfl
  | memory => exact newborns_logged rfl

theorem charge_eq (heap : Heap) (size : Nat) :
    heap.accounting.charge size =
      if heap.bytes + size < wordLimit then .ok ⟨heap.bytes + size⟩ else .error .addOverflow := by
  rw [Accounting.charge, checkedAdd, bytes]
  split <;> rfl

/-- An allocation is refused or granted. -/
theorem allocateWith_cases (heap : Heap) (payload : Payload) (dispatch : Option Handle) :
    (∃ failure told, heap.Refuses payload.type.structSize failure told ∧
      heap.allocateWith payload dispatch = ⟨.error failure, heap, told⟩) ∨
    heap.allocateWith payload dispatch =
      ⟨.ok heap.nextHandle, heap.grown payload dispatch,
        [.logged (.allocated heap.nextHandle payload.type payload.type.structSize
          (heap.bytes + payload.type.structSize))]⟩ := by
  unfold allocateWith
  by_cases full : heap.config.maxObjectCount.toNat < heap.objectCount + 1
  · exact .inl ⟨_, _, .objects full, if_pos full⟩
  · by_cases fits : heap.bytes + payload.type.structSize < wordLimit
    · simp only [full, charge_eq, fits, ↓reduceIte]
      split
      · next large => exact .inl ⟨_, _, .memory large, rfl⟩
      · exact .inr rfl
    · simp only [full, charge_eq, fits, ↓reduceIte]
      exact .inl ⟨_, _, .overflow (Nat.le_of_not_lt fits), rfl⟩

/-! ## The heap with one object more -/

theorem get?_grown (heap : Heap) (payload : Payload) (dispatch : Option Handle) (other : Handle) :
    (heap.grown payload dispatch).get? other =
      if other = heap.nextHandle then some (heap.newborn payload dispatch) else heap.get? other := by
  have same : other.toSlotKey = heap.store.nextKey ↔ other = heap.nextHandle :=
    @toSlotKey_inj other heap.nextHandle
  simp only [get?, grown, Slots.get?_insert, same]

theorem contains_grown :
    (heap.grown payload dispatch).contains other = true ↔
      other = heap.nextHandle ∨ heap.contains other = true := by
  rw [contains, get?_grown]
  by_cases same : other = heap.nextHandle <;> simp [same, contains]

theorem payloadAt_grown (different : other ≠ heap.nextHandle) :
    (heap.grown payload dispatch).payloadAt other = heap.payloadAt other := by
  rw [payloadAt, get?_grown, if_neg different, payloadAt]

theorem issued_grown :
    (heap.grown payload dispatch).Issued other ↔ other = heap.nextHandle ∨ heap.Issued other := by
  have same : other.toSlotKey = heap.store.nextKey ↔ other = heap.nextHandle :=
    @toSlotKey_inj other heap.nextHandle
  have either := Slots.issued_insert heap.store (heap.newborn payload dispatch) other.toSlotKey
  rwa [same] at either

/-- The handle of a new object is a new one. -/
theorem not_issued_nextHandle (heap : Heap) : ¬ heap.Issued heap.nextHandle :=
  heap.store.not_issued_nextKey

theorem ne_nextHandle (issued : heap.Issued other) : other ≠ heap.nextHandle := by
  rintro rfl
  exact heap.not_issued_nextHandle issued

end ScriptHeap.Heap
