import ScriptHeap.Proofs.Balance
import ScriptHeap.Proofs.Issuing
import ScriptHeap.Proofs.Refusals
import Mathlib.Data.List.Induction
import Mathlib.Order.Bounds.Basic

/-! The limits of a heap. They hold in every state of every run, also where the account has come apart
from the objects because kinds in headers were rewritten; so the sums of machine words that a heap
forms are bounded by its configuration alone. And slots are used again before new ones are made: there
are never more of them than objects have lived at once. -/
namespace ScriptHeap

/-! ## The number of slots -/

namespace Slots
variable {α : Type} {key : SlotKey}

theorem size_le (store : Slots α) : store.size ≤ store.slots.size := Nat.sub_le ..

/-- A new slot is made when all are occupied, and only then. -/
theorem slots_insert (store : Slots α) (newcomer : α) :
    (store.insert newcomer).slots.size = max store.slots.size (store.size + 1) := by
  have bound := store.length_vacant_le
  unfold insert size
  split
  · next served =>
    rw [Array.size_push, served, List.length_nil]
    omega
  · next first rest served =>
    rw [served, List.length_cons] at bound
    rw [Array.size_modify, served, List.length_cons]
    omega

theorem slots_vacate (store : Slots α) (key : SlotKey) :
    (store.vacate key).slots.size = store.slots.size := by
  unfold vacate
  split
  · exact Array.size_modify ..
  · rfl

/-- A key that was ever issued is that of a slot. -/
theorem index_lt_of_issued {store : Slots α} (issued : store.Issued key) :
    key.index < store.slots.size := by
  rcases issued with past | held
  · by_contra outside
    rw [generationAt, Array.getElem?_eq_none (Nat.le_of_not_lt outside)] at past
    exact absurd past (Nat.not_lt_zero _)
  · exact index_lt_of_isSome held

end Slots

namespace Heap
variable {heap middle rest : Heap} {payload : Payload} {dispatch : Option Handle}

/-- How many slots the heap has ever made. -/
def slotCount (heap : Heap) : Nat := heap.store.slots.size

/-- The heap is within its limits. -/
structure Within (heap : Heap) : Prop where
  objects : heap.objectCount ≤ heap.config.maxObjectCount.toNat
  bytes : heap.bytes ≤ heap.config.maxMemorySize.toNat

/-! ## Allocating -/

/-- The answer to an allocation, limit by limit. -/
theorem outcome_allocateWith (heap : Heap) (payload : Payload) (dispatch : Option Handle) :
    (heap.allocateWith payload dispatch).outcome =
      if heap.config.maxObjectCount.toNat < heap.objectCount + 1 then
        .error (.error (.objectLimitExceeded heap.config.maxObjectCount.toNat (heap.objectCount + 1)))
      else if wordLimit ≤ heap.bytes + payload.type.structSize then .error (.defect .addOverflow)
      else if heap.config.maxMemorySize.toNat < heap.bytes + payload.type.structSize then
        .error (.error (.memoryLimitExceeded heap.config.maxMemorySize.toNat
          (heap.bytes + payload.type.structSize)))
      else .ok heap.nextHandle := by
  unfold allocateWith
  by_cases full : heap.config.maxObjectCount.toNat < heap.objectCount + 1
  · simp only [full, ↓reduceIte]
    rfl
  · by_cases fits : heap.bytes + payload.type.structSize < wordLimit
    · simp only [full, charge_eq, fits, Nat.not_le.mpr fits, ↓reduceIte]
      split <;> rfl
    · simp only [full, charge_eq, fits, Nat.le_of_not_lt fits, ↓reduceIte]
      rfl

/-- What is granted was within the limits. -/
theorem within_grown (granted : (heap.allocateWith payload dispatch).outcome = .ok heap.nextHandle) :
    (heap.grown payload dispatch).Within := by
  rw [outcome_allocateWith] at granted
  constructor
  · rw [objectCount, grown, Slots.size_insert]
    split at granted
    · cases granted
    · next room => exact Nat.le_of_not_lt room
  · split at granted
    · cases granted
    · split at granted
      · cases granted
      · split at granted
        · cases granted
        · next room => exact Nat.le_of_not_lt room

/-! ## What an operation does to the numbers -/

/-- The limits stay, a heap within them stays there, and slots are made for objects that have none. -/
structure Obeys (heap rest : Heap) : Prop where
  config : rest.config = heap.config
  slots : rest.slotCount = max heap.slotCount rest.objectCount
  within : heap.Within → rest.Within

/-- Nothing is added to the numbers. -/
structure Shrinks (heap rest : Heap) : Prop where
  config : rest.config = heap.config
  slots : rest.slotCount = heap.slotCount
  objects : rest.objectCount ≤ heap.objectCount
  bytes : rest.bytes ≤ heap.bytes

theorem Shrinks.refl (heap : Heap) : heap.Shrinks heap := ⟨rfl, rfl, le_rfl, le_rfl⟩

theorem Shrinks.trans (first : heap.Shrinks middle) (second : middle.Shrinks rest) : heap.Shrinks rest where
  config := second.config.trans first.config
  slots := second.slots.trans first.slots
  objects := second.objects.trans first.objects
  bytes := second.bytes.trans first.bytes

theorem objectCount_le (heap : Heap) : heap.objectCount ≤ heap.slotCount := Slots.size_le heap.store

/-- Slots are never given back, so those that are there suffice for what is left. -/
theorem Shrinks.obeys (shrinks : heap.Shrinks rest) : heap.Obeys rest where
  config := shrinks.config
  slots := by
    have room := rest.objectCount_le
    rw [shrinks.slots] at room ⊢
    exact (max_eq_left room).symm
  within := fun within =>
    ⟨by rw [shrinks.config]; exact shrinks.objects.trans within.objects,
      by rw [shrinks.config]; exact shrinks.bytes.trans within.bytes⟩

namespace Obeys

theorem refl (heap : Heap) : heap.Obeys heap where
  config := rfl
  slots := (max_eq_left heap.objectCount_le).symm
  within := id

theorem congr (obeys : heap.Obeys middle) (config : rest.config = middle.config)
    (slots : rest.slotCount = middle.slotCount) (objects : rest.objectCount = middle.objectCount)
    (bytes : rest.bytes = middle.bytes) : heap.Obeys rest where
  config := config.trans obeys.config
  slots := by rw [slots, obeys.slots, objects]
  within := fun within => by
    have kept := obeys.within within
    exact ⟨by rw [objects, config]; exact kept.objects, by rw [bytes, config]; exact kept.bytes⟩

theorem modify (obeys : heap.Obeys middle) (handle : Handle) (change : Object → Object) :
    heap.Obeys (middle.modify handle change) :=
  obeys.congr rfl (Array.size_modify ..) (Slots.size_modify ..) rfl

theorem allocateWith (obeys : heap.Obeys middle) (payload : Payload) (dispatch : Option Handle) :
    heap.Obeys (middle.allocateWith payload dispatch).heap := by
  rcases middle.allocateWith_cases payload dispatch with ⟨failure, told, -, refused⟩ | granted
  · rw [refused]
    exact obeys
  · have more : (middle.grown payload dispatch).objectCount = middle.objectCount + 1 :=
      Slots.size_insert ..
    have made : (middle.grown payload dispatch).slotCount =
        max middle.slotCount (middle.objectCount + 1) := Slots.slots_insert ..
    have within := middle.within_grown (congrArg Step.outcome granted)
    rw [granted]
    constructor
    · exact obeys.config
    · rw [made, obeys.slots, more]
      omega
    · exact fun _ => within

end Obeys

/-! ## Freeing and sweeping -/

theorem shrinks_modifyHeader (heap : Heap) (handle : Handle) (change : Header → Header) :
    heap.Shrinks (heap.modifyHeader handle change) where
  config := rfl
  slots := Array.size_modify ..
  objects := (Slots.size_modify ..).le
  bytes := le_rfl

theorem shrinks_bypass (heap : Heap) (before next : Option Handle) :
    heap.Shrinks (Sweep.bypass heap before next) := by
  cases before with
  | none => exact ⟨rfl, rfl, le_rfl, le_rfl⟩
  | some before => exact heap.shrinks_modifyHeader before ({ · with next })

theorem shrinks_discharged (heap : Heap) (object : Object) : heap.Shrinks (heap.discharged object) :=
  ⟨rfl, rfl, le_rfl, Nat.sub_le ..⟩

theorem shrinks_release (heap : Heap) (handle : Handle) : heap.Shrinks (heap.release handle).heap := by
  unfold release
  split
  · constructor
    · rfl
    · exact Slots.slots_vacate ..
    · simp only [objectCount, Slots.size_vacate]
      split <;> omega
    · exact le_rfl
  · exact ⟨rfl, rfl, le_rfl, le_rfl⟩

theorem shrinks_unlink {target : Handle} {unlinked : Heap} (led : heap.unlink target = .ok unlinked) :
    heap.Shrinks unlinked := by
  unfold unlink at led
  split at led
  · cases led
    exact ⟨rfl, rfl, le_rfl, le_rfl⟩
  · split at led
    · cases led
      exact shrinks_modifyHeader ..
    · cases led
      exact ⟨rfl, rfl, le_rfl, le_rfl⟩
    · cases led

theorem shrinks_free (heap : Heap) (target : Handle) : heap.Shrinks (heap.free target).heap := by
  rcases heap.free_cases target with
    ⟨-, refused⟩ | ⟨object, -, ⟨-, refused⟩ | ⟨cause, -, lost⟩ | ⟨unlinked, led, freed⟩⟩
  · rw [refused]
    exact .refl heap
  · rw [refused]
    exact .refl heap
  · rw [lost]
    exact .refl heap
  · rw [freed]
    exact ((heap.shrinks_discharged object).trans (shrinks_unlink led)).trans
      (unlinked.shrinks_release target)

/-- A walk adds nothing, however the chain runs. -/
theorem shrinks_run (visits : Nat) (sweep : Sweep) :
    sweep.heap.Shrinks (Sweep.run visits sweep).1.heap := by
  induction visits generalizing sweep with
  | zero => exact .refl _
  | succ visits ih =>
    rw [Sweep.run]
    split
    · exact .refl _
    · next handle _ =>
      split
      · exact .refl _
      · next object _ =>
        split
        · have kept := shrinks_modifyHeader sweep.heap handle ({ · with dark := false })
          exact kept.trans (ih (sweep.keep handle object.header.next))
        · by_cases covered : object.header.type.structSize ≤ sweep.heap.bytes
          · simp only [discharge_of_le covered, Step.done]
            have dropped := ((shrinks_discharged sweep.heap object).trans
              (shrinks_bypass _ sweep.previous object.header.next)).trans (shrinks_release _ handle)
            exact dropped.trans (ih (sweep.drop (sweep.heap.discharged object) handle _ _))
          · simp only [discharge_of_lt (Nat.lt_of_not_le covered), Step.after, Step.fail]
            exact .refl _

theorem shrinks_sweep (heap : Heap) : heap.Shrinks heap.sweep.heap := by
  have shrinks := shrinks_run heap.sweepBound (.start heap)
  rw [sweep]
  cases walk : Sweep.run heap.sweepBound (.start heap) with | mk swept failed?
  rw [walk] at shrinks
  cases failed? with
  | some failure => exact shrinks
  | none =>
    simp only
    split
    · exact shrinks
    · exact ⟨shrinks.config, shrinks.slots, shrinks.objects, shrinks.bytes⟩

end Heap

/-! ## Every operation -/

namespace Operation
variable {heap : Heap}

private theorem obeys_keeping {op : Operation} (frees : ∀ target, op ≠ .free target)
    (sweeps : op ≠ .sweep) : heap.Obeys (op.perform heap).heap := by
  have kept : op.Preserves fun _ rest => heap.Obeys rest := by
    constructor
    case allocate =>
      intro _ middle payload dispatch _ obeys
      exact obeys.allocateWith payload dispatch
    case free =>
      intro _ middle target same
      exact absurd same (frees target)
    case sweep =>
      intro _ middle same
      exact absurd same sweeps
    case clearMarks =>
      intro _ middle _ obeys
      exact obeys.congr rfl (Array.size_map ..) (Slots.size_mapAll ..) rfl
    case revise =>
      intro _ middle handle change _ obeys
      exact obeys.modify handle _
    case stamp =>
      intro _ middle handle change _ obeys
      exact obeys.modify handle _
    case settle =>
      intro _ middle builtins links _ obeys
      exact obeys.congr rfl rfl rfl rfl
    case report =>
      intro _ middle notice _ obeys
      exact obeys
  exact kept.performs (.refl heap)

/-- Every operation obeys the limits. -/
theorem obeys (op : Operation) (heap : Heap) : heap.Obeys (op.perform heap).heap := by
  cases op with
  | free target => exact (heap.shrinks_free target).obeys
  | sweep => exact heap.shrinks_sweep.obeys
  | _ => exact obeys_keeping (by simp) (by simp)

end Operation

/-! ## Whole runs -/

namespace History

theorem within_run (config : HeapConfig) (ops : List Operation) :
    (run config ops).heap.config = config ∧ (run config ops).heap.Within := by
  refine after_keeps (fun past => past.heap.config = config ∧ past.heap.Within)
    ⟨rfl, Nat.zero_le _, Nat.zero_le _⟩ ?_
  rintro past op - ⟨same, within⟩
  have obeys := op.obeys past.heap
  exact ⟨obeys.config.trans same, obeys.within within⟩

theorem heap_run_concat (config : HeapConfig) (ops : List Operation) (op : Operation) :
    (run config (ops ++ [op])).heap = (op.perform (run config ops).heap).heap := by
  rw [run_append]
  rfl

/-- There are just as many slots as objects have lived at once. -/
theorem slots_run (config : HeapConfig) (ops : List Operation) :
    IsGreatest {count | ∃ sooner, sooner <+: ops ∧ (run config sooner).heap.objectCount = count}
      (run config ops).heap.slotCount := by
  induction ops using List.reverseRecOn with
  | nil =>
    constructor
    · exact ⟨[], List.prefix_rfl, rfl⟩
    · rintro count ⟨sooner, early, rfl⟩
      rw [List.prefix_nil.mp early]
      exact le_rfl
  | append_singleton ops op ih =>
    obtain ⟨⟨sooner, early, peak⟩, above⟩ := ih
    have slots := (op.obeys (run config ops).heap).slots
    rw [← heap_run_concat] at slots
    constructor
    · rw [slots]
      rcases Nat.le_total (run config (ops ++ [op])).heap.objectCount (run config ops).heap.slotCount
        with enough | more
      · exact ⟨sooner, early.trans (List.prefix_append ..), by rw [max_eq_left enough, peak]⟩
      · exact ⟨ops ++ [op], List.prefix_rfl, (max_eq_right more).symm⟩
    · rintro count ⟨sooner, early, rfl⟩
      rw [slots]
      rcases List.prefix_concat_iff.mp early with rfl | early
      · exact le_max_right _ _
      · exact (above ⟨sooner, early, rfl⟩).trans (le_max_left _ _)

theorem fits_run (config : HeapConfig) (ops : List Operation)
    (modest : config.maxMemorySize.toNat ≤ 2 ^ 64 - 1 - 220) (type : ObjectType) :
    (run config ops).heap.bytes + type.structSize < wordLimit := by
  obtain ⟨same, within⟩ := within_run config ops
  have bytes := within.bytes
  have size := type.structSize_le
  rw [same] at bytes
  simp only [wordLimit, UInt64.size]
  omega

/-- No sum of bytes that an operation forms is too large for a word. -/
theorem adds_run (config : HeapConfig) (ops : List Operation)
    (modest : config.maxMemorySize.toNat ≤ 2 ^ 64 - 1 - 220) (op : Operation) :
    (op.perform (run config ops).heap).outcome ≠ .error (.defect .addOverflow) := by
  intro overflow
  have fails := Operation.fails overflow
  generalize (op.perform (run config ops).heap).heap = rest at fails
  cases fails with
  | seen seen => cases seen
  | @refused _ _ payload _ refuses =>
    cases refuses with
    | overflow large => exact absurd (fits_run config ops modest payload.type) (Nat.not_lt.mpr large)
  | @named _ name _ _ payload _ _ _ refuses =>
    -- the heap with the text of the name is that of a longer run
    have longer := fits_run config (ops ++ [.create (.text name)]) modest payload.type
    rw [heap_run_concat] at longer
    cases refuses with
    | overflow large => exact absurd longer (Nat.not_lt.mpr large)

/-- The bytes that a sweep leaves can be doubled. -/
theorem doubles_run (config : HeapConfig) (ops : List Operation)
    (modest : config.maxMemorySize.toNat < 2 ^ 63) :
    (run config ops).heap.sweep.outcome ≠ .error (.defect .multiplyOverflow) := by
  intro overflow
  have fails := Heap.fails_sweep overflow
  obtain ⟨same, within⟩ := within_run config (ops ++ [.sweep])
  have swept := within.bytes
  rw [same, heap_run_concat] at swept
  change (run config ops).heap.sweep.heap.bytes ≤ _ at swept
  generalize (run config ops).heap.sweep.heap = rest at fails swept
  cases fails with
  | seen seen => cases seen
  | refused refuses => cases refuses
  | doubling large =>
    simp only [wordLimit, UInt64.size] at large
    omega

/-- **Limits.** After any run, whatever kinds the host has written into headers, neither limit is exceeded,
the slots are as many as objects have lived at once, and every handle ever issued is that of a slot. An
allocation is refused for exactly the limit that it would exceed, the one on objects first, or has no
answer where the sum of bytes is no machine word. That cannot be where the limit on bytes leaves room for
one more object below the largest word, and a sweep can double the bytes where the limit is below half
of the words. -/
theorem limits_run (config : HeapConfig) (ops : List Operation) :
    let heap := (run config ops).heap
    (heap.objectCount ≤ config.maxObjectCount.toNat ∧ heap.bytes ≤ config.maxMemorySize.toNat) ∧
      IsGreatest {count | ∃ sooner, sooner <+: ops ∧ (run config sooner).heap.objectCount = count}
        heap.store.slots.size ∧
      (∀ handle ∈ (run config ops).issued, handle.index < heap.store.slots.size) ∧
      (∀ (payload : Payload) (dispatch : Option Handle),
        (heap.allocateWith payload dispatch).outcome =
          if config.maxObjectCount.toNat < heap.objectCount + 1 then
            .error (.error (.objectLimitExceeded config.maxObjectCount.toNat (heap.objectCount + 1)))
          else if wordLimit ≤ heap.bytes + payload.type.structSize then .error (.defect .addOverflow)
          else if config.maxMemorySize.toNat < heap.bytes + payload.type.structSize then
            .error (.error (.memoryLimitExceeded config.maxMemorySize.toNat
              (heap.bytes + payload.type.structSize)))
          else .ok heap.nextHandle) ∧
      (config.maxMemorySize.toNat ≤ 2 ^ 64 - 1 - 220 →
        (∀ payload : Payload, heap.bytes + payload.type.structSize < wordLimit) ∧
          ∀ op : Operation, (op.perform heap).outcome ≠ .error (.defect .addOverflow)) ∧
      (config.maxMemorySize.toNat < 2 ^ 63 →
        heap.sweep.outcome ≠ .error (.defect .multiplyOverflow)) := by
  intro heap
  obtain ⟨same, within⟩ := within_run config ops
  obtain ⟨objects, bytes⟩ := within
  rw [same] at objects bytes
  refine ⟨⟨objects, bytes⟩, slots_run config ops, ?_, ?_, ?_, ?_⟩
  · intro handle issued
    exact Slots.index_lt_of_issued (((sound_run config ops).issued handle).mp issued)
  · intro payload dispatch
    have outcome := heap.outcome_allocateWith payload dispatch
    rwa [same] at outcome
  · exact fun modest =>
      ⟨fun payload => fits_run config ops modest payload.type, adds_run config ops modest⟩
  · exact doubles_run config ops

/-- Room for two objects and three hundred bytes. -/
def narrow : HeapConfig := { HeapConfig.default with maxObjectCount := 2, maxMemorySize := 300 }

/-- A map that is shown as something small is freed, and a text takes its slot. -/
def disguised : List Operation :=
  [.create .map, .writeType ⟨⟨0, 0⟩⟩ .native, .free ⟨⟨0, 0⟩⟩, .create (.text "a")]

/-- Most of the map is still on the account, and there is no room for another one. -/
theorem limits_disguised :
    let heap := (run narrow disguised).heap
    heap.store.slots.size = 1 ∧ heap.bytes = 188 ∧
      heap.newMap.outcome = .error (.error (.memoryLimitExceeded 300 360)) ∧
      (∀ op : Operation, (op.perform heap).outcome ≠ .error (.defect .addOverflow)) ∧
      heap.sweep.outcome ≠ .error (.defect .multiplyOverflow) := by
  obtain ⟨-, -, -, answer, added, doubled⟩ := limits_run narrow disguised
  exact ⟨by decide, by decide, (answer (.map .empty) none).trans (by decide),
    (added (by decide)).2, doubled (by decide)⟩

end History
end ScriptHeap
