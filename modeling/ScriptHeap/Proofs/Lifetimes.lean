import ScriptHeap.Proofs.Freeing
import ScriptHeap.Proofs.History

/-! How objects go. Freeing takes its object away if it succeeds, and a sweep takes away what it frees on
its way, also when the chain is out of order or the sweep stops. Nothing else that matters to the lives
of objects changes: the others keep their payloads, and what was ever issued stays issued. -/
namespace ScriptHeap

namespace Heap
variable {heap middle rest : Heap} {handle target : Handle} {gone more : List Handle}

def payloadAt (heap : Heap) (handle : Handle) : Option Payload := (heap.get? handle).map (·.payload)

/-- An object was allocated under this handle at some time. -/
def Issued (heap : Heap) (handle : Handle) : Prop := heap.store.Issued handle.toSlotKey

theorem payloadAt_of_get? {object : Object} (found : heap.get? handle = some object) :
    heap.payloadAt handle = some object.payload := by
  rw [payloadAt, found]
  rfl

theorem isSome_payloadAt : (heap.payloadAt handle).isSome = heap.contains handle := by
  rw [payloadAt, Option.isSome_map, contains]

theorem issued_of_contains (live : heap.contains handle = true) : heap.Issued handle :=
  Slots.issued_of_isSome live

/-! ## Losing objects -/

/-- These objects are gone, and nothing else has changed that matters to the lives of objects. -/
structure Loses (heap : Heap) (gone : List Handle) (rest : Heap) : Prop where
  lived : ∀ handle ∈ gone, heap.contains handle = true
  payloads : ∀ handle, rest.payloadAt handle = if handle ∈ gone then none else heap.payloadAt handle
  issued : ∀ handle, rest.Issued handle ↔ heap.Issued handle

theorem loses_none (same : rest.store = heap.store) : heap.Loses [] rest where
  lived := by simp
  payloads handle := by simp [payloadAt, get?, same]
  issued handle := by rw [Issued, Issued, same]

namespace Loses

theorem contains_iff (loses : heap.Loses gone rest) :
    rest.contains handle = true ↔ heap.contains handle = true ∧ handle ∉ gone := by
  rw [← isSome_payloadAt, loses.payloads, ← isSome_payloadAt]
  by_cases listed : handle ∈ gone <;> simp [listed]

theorem trans (first : heap.Loses gone middle) (second : middle.Loses more rest) :
    heap.Loses (gone ++ more) rest where
  lived := by
    intro handle listed
    rcases List.mem_append.1 listed with listed | listed
    · exact first.lived handle listed
    · exact (first.contains_iff.1 (second.lived handle listed)).1
  payloads := by
    intro handle
    rw [second.payloads, first.payloads]
    by_cases early : handle ∈ gone <;> simp [early]
  issued := fun handle => (second.issued handle).trans (first.issued handle)

end Loses

theorem loses_modifyHeader (heap : Heap) (handle : Handle) (change : Header → Header) :
    heap.Loses [] (heap.modifyHeader handle change) where
  lived := by simp
  payloads := by
    intro other
    rw [payloadAt, modifyHeader, get?_modify]
    by_cases same : other = handle
    · subst same
      simp [payloadAt, Function.comp_def]
    · simp [same, payloadAt]
  issued := fun _ => Slots.issued_modify ..

theorem loses_bypass (heap : Heap) (before next : Option Handle) :
    heap.Loses [] (Sweep.bypass heap before next) := by
  cases before with
  | none => exact loses_none rfl
  | some before => exact loses_modifyHeader heap before ({ · with next })

theorem loses_release (live : heap.contains handle = true) :
    heap.Loses [handle] (heap.release handle).heap where
  lived := by simpa using live
  payloads := by
    intro other
    rw [payloadAt, get?_release]
    by_cases same : other = handle <;> simp [same, payloadAt]
  issued := by
    intro other
    unfold release
    split
    · exact Slots.issued_vacate ..
    · exact Iff.rfl

/-! ## Freeing -/

theorem newborns_release (heap : Heap) (target : Handle) :
    newborns (heap.release target).notices = [] := by
  unfold release
  split
  · exact newborns_farewell _
  · rfl

theorem loses_unlink {unlinked : Heap} (led : heap.unlink target = .ok unlinked) :
    heap.Loses [] unlinked := by
  unfold unlink at led
  split at led
  · cases led
    exact loses_none rfl
  · split at led
    · cases led
      exact loses_modifyHeader ..
    · cases led
      exact loses_none rfl
    · cases led

/-- Freeing takes away its object if it succeeds, and otherwise nothing, on any chain. -/
theorem loses_free (heap : Heap) (target : Handle) :
    heap.Loses ((Operation.free target).removals heap) (heap.free target).heap ∧
      newborns (heap.free target).notices = [] := by
  rw [Operation.removals]
  rcases heap.free_cases target with
    ⟨-, refused⟩ | ⟨object, found, ⟨-, refused⟩ | ⟨cause, -, lost⟩ | ⟨unlinked, led, freed⟩⟩
  · rw [refused]
    exact ⟨loses_none rfl, rfl⟩
  · rw [refused]
    exact ⟨loses_none rfl, newborns_logged rfl⟩
  · rw [lost]
    exact ⟨loses_none rfl, rfl⟩
  · rw [freed]
    have paid : heap.Loses [] (heap.discharged object) := loses_none rfl
    have past := paid.trans (loses_unlink led)
    have live : unlinked.contains target = true :=
      past.contains_iff.2 ⟨contains_of_get? found, by simp⟩
    simp only [newborns_append, newborns_release, List.append_nil]
    exact ⟨past.trans (loses_release live), newborns_logged rfl⟩

end Heap

/-! ## Sweeping -/

namespace Sweep

/-- What a walk that takes these objects away comes to. -/
structure Takes (sweep : Sweep) (gone : List Handle) (swept : Sweep) : Prop where
  loses : sweep.heap.Loses gone swept.heap
  silent : newborns swept.notices = newborns sweep.notices

theorem takes_none (sweep : Sweep) : sweep.Takes [] sweep where
  loses := Heap.loses_none rfl
  silent := rfl

theorem takes_keep {swept : Sweep} {gone : List Handle} (sweep : Sweep) (handle : Handle)
    (next : Option Handle) (rest : (sweep.keep handle next).Takes gone swept) :
    sweep.Takes gone swept where
  loses := (sweep.heap.loses_modifyHeader handle ({ · with dark := false })).trans rest.loses
  silent := rest.silent

theorem loses_drop {sweep : Sweep} {handle : Handle} {object : Object}
    (found : sweep.heap.get? handle = some object) (size : Nat) (next : Option Handle) :
    sweep.heap.Loses [handle]
      (sweep.drop (sweep.heap.discharged object) handle size next).heap := by
  have paid : sweep.heap.Loses [] (sweep.heap.discharged object) := Heap.loses_none rfl
  have past := paid.trans (Heap.loses_bypass (sweep.heap.discharged object) sweep.previous next)
  have live : (bypass (sweep.heap.discharged object) sweep.previous next).contains handle = true :=
    past.contains_iff.2 ⟨Heap.contains_of_get? found, by simp⟩
  exact past.trans (Heap.loses_release live)

theorem takes_drop {sweep swept : Sweep} {gone : List Handle} {handle : Handle} {object : Object}
    (found : sweep.heap.get? handle = some object) {size : Nat} {next : Option Handle}
    (rest : (sweep.drop (sweep.heap.discharged object) handle size next).Takes gone swept) :
    sweep.Takes (handle :: gone) swept where
  loses := (loses_drop found size next).trans rest.loses
  silent := by
    rw [rest.silent, drop, newborns_append, Heap.newborns_release, List.nil_append]

theorem takes_short (sweep : Sweep) (size : Nat) :
    sweep.Takes []
      { sweep with
        notices := sweep.notices ++ [.logged (.accountingUnderflow sweep.heap.bytes size)] } where
  loses := Heap.loses_none rfl
  silent := by rw [newborns_append, newborns_logged rfl, List.nil_append]

/-- The rest of a sweep takes away its victims and nothing else, on any chain. -/
theorem takes_run (visits : Nat) (sweep : Sweep) :
    sweep.Takes (victims visits sweep) (run visits sweep).1 := by
  induction visits generalizing sweep with
  | zero => exact takes_none sweep
  | succ visits ih =>
    cases current : sweep.current with
    | none =>
      simp only [victims, run, current]
      exact takes_none sweep
    | some handle =>
      cases found : sweep.heap.get? handle with
      | none =>
        simp only [victims, run, current, found]
        exact takes_none sweep
      | some object =>
        cases dark : object.header.dark with
        | true =>
          simp only [victims, run, current, found, dark, ↓reduceIte]
          exact takes_keep sweep handle object.header.next (ih _)
        | false =>
          by_cases covered : object.header.type.structSize ≤ sweep.heap.bytes
          · simp only [victims, run, current, found, dark, Bool.false_eq_true, ↓reduceIte,
              Heap.discharge_of_le covered, Step.done]
            exact takes_drop found (ih _)
          · have short := Nat.lt_of_not_le covered
            simp only [victims, run, current, found, dark, Bool.false_eq_true, ↓reduceIte,
              Heap.discharge_of_lt short, Step.after, Step.fail, List.append_nil]
            rw [← current]
            exact takes_short sweep object.header.type.structSize

end Sweep

namespace Heap

/-- A sweep takes away its victims and nothing else, whether it succeeds or stops on the way. -/
theorem loses_sweep (heap : Heap) :
    heap.Loses (Operation.sweep.removals heap) heap.sweep.heap ∧ newborns heap.sweep.notices = [] := by
  obtain ⟨loses, silent⟩ := Sweep.takes_run heap.sweepBound (.start heap)
  rw [Operation.removals, sweep]
  rw [show newborns (Sweep.start heap).notices = [] from rfl] at silent
  cases walk : Sweep.run heap.sweepBound (.start heap) with | mk swept failed?
  rw [walk] at loses silent
  cases failed? with
  | some failure => exact ⟨loses, silent⟩
  | none =>
    simp only
    split
    · exact ⟨loses, silent⟩
    · rw [newborns_append, silent, List.append_nil]
      exact ⟨⟨loses.lived, loses.payloads, loses.issued⟩, newborns_logged rfl⟩

end Heap
end ScriptHeap
