import ScriptHeap.Proofs.Lifetimes
import ScriptHeap.Proofs.Readers

/-! What freeing and sweeping leave of the objects that stay, on any chain and also when they fail. Marks
and links change; kinds, classes and payloads do not, nor do the classes for new objects. -/
namespace ScriptHeap

namespace Heap
variable {heap middle rest : Heap} {handle target : Handle} {gone more : List Handle}

/-- An object apart from its mark and its link. -/
def bodyAt (heap : Heap) (handle : Handle) : Option Object := (heap.get? handle).map Object.body

/-- These objects are gone, and of the others nothing but marks and links has changed. -/
structure Sheds (heap : Heap) (gone : List Handle) (rest : Heap) : Prop where
  bodies : ∀ handle, rest.bodyAt handle = if handle ∈ gone then none else heap.bodyAt handle
  builtins : rest.builtins = heap.builtins

namespace Sheds

theorem of_store (store : rest.store = heap.store) (builtins : rest.builtins = heap.builtins) :
    heap.Sheds [] rest where
  bodies handle := by simp [bodyAt, get?, store]
  builtins := builtins

theorem refl (heap : Heap) : heap.Sheds [] heap := .of_store rfl rfl

theorem trans (first : heap.Sheds gone middle) (second : middle.Sheds more rest) :
    heap.Sheds (gone ++ more) rest where
  bodies := by
    intro handle
    rw [second.bodies, first.bodies]
    by_cases early : handle ∈ gone <;> simp [early]
  builtins := second.builtins.trans first.builtins

end Sheds

/-! ## Freeing -/

/-- A change of a header is slight if the body of the object stays. -/
theorem sheds_modifyHeader (heap : Heap) (target : Handle) (change : Header → Header)
    (slight : ∀ object : Object,
      Object.body { object with header := change object.header } = object.body) :
    heap.Sheds [] (heap.modifyHeader target change) where
  bodies := by
    intro handle
    rw [bodyAt, modifyHeader, get?_modify]
    by_cases same : handle = target
    · subst same
      simp [bodyAt, Function.comp_def, slight]
    · simp [same, bodyAt]
  builtins := rfl

theorem sheds_bypass (heap : Heap) (before next : Option Handle) :
    heap.Sheds [] (Sweep.bypass heap before next) := by
  cases before with
  | none => exact .of_store rfl rfl
  | some before => exact heap.sheds_modifyHeader before ({ · with next }) fun _ => rfl

theorem sheds_unlink {unlinked : Heap} (led : heap.unlink target = .ok unlinked) :
    heap.Sheds [] unlinked := by
  unfold unlink at led
  split at led
  · cases led
    exact .of_store rfl rfl
  · split at led
    · cases led
      exact sheds_modifyHeader _ _ _ fun _ => rfl
    · cases led
      exact .refl heap
    · cases led

theorem sheds_release (heap : Heap) (target : Handle) :
    heap.Sheds [target] (heap.release target).heap where
  bodies := by
    intro handle
    rw [bodyAt, get?_release]
    by_cases same : handle = target <;> simp [same, bodyAt]
  builtins := by
    unfold release
    split <;> rfl

theorem sheds_free (heap : Heap) (target : Handle) :
    heap.Sheds ((Operation.free target).removals heap) (heap.free target).heap := by
  rw [Operation.removals]
  rcases heap.free_cases target with
    ⟨-, refused⟩ | ⟨object, -, ⟨-, refused⟩ | ⟨cause, -, lost⟩ | ⟨unlinked, led, freed⟩⟩
  · rw [refused]
    exact .refl heap
  · rw [refused]
    exact .refl heap
  · rw [lost]
    exact .refl heap
  · rw [freed]
    have paid : heap.Sheds [] (heap.discharged object) := .of_store rfl rfl
    exact (paid.trans (sheds_unlink led)).trans (unlinked.sheds_release target)

/-! ## Sweeping -/

/-- The rest of a sweep takes its victims away and leaves the other objects, on any chain. -/
theorem sheds_run (visits : Nat) (sweep : Sweep) :
    sweep.heap.Sheds (Sweep.victims visits sweep) (Sweep.run visits sweep).1.heap := by
  induction visits generalizing sweep with
  | zero => exact .refl _
  | succ visits ih =>
    cases current : sweep.current with
    | none =>
      simp only [Sweep.victims, Sweep.run, current]
      exact .refl _
    | some handle =>
      cases found : sweep.heap.get? handle with
      | none =>
        simp only [Sweep.victims, Sweep.run, current, found]
        exact .refl _
      | some object =>
        cases dark : object.header.dark with
        | true =>
          simp only [Sweep.victims, Sweep.run, current, found, dark, ↓reduceIte]
          have kept : sweep.heap.Sheds [] (sweep.heap.modifyHeader handle ({ · with dark := false })) :=
            sheds_modifyHeader _ handle _ fun _ => rfl
          exact kept.trans (ih (sweep.keep handle object.header.next))
        | false =>
          by_cases covered : object.header.type.structSize ≤ sweep.heap.bytes
          · simp only [Sweep.victims, Sweep.run, current, found, dark, Bool.false_eq_true, ↓reduceIte,
              discharge_of_le covered, Step.done]
            have paid : sweep.heap.Sheds [] (sweep.heap.discharged object) := .of_store rfl rfl
            have dropped := (paid.trans (sheds_bypass _ sweep.previous object.header.next)).trans
              (sheds_release _ handle)
            exact dropped.trans (ih (sweep.drop (sweep.heap.discharged object) handle _ _))
          · simp only [Sweep.victims, Sweep.run, current, found, dark, Bool.false_eq_true, ↓reduceIte,
              discharge_of_lt (Nat.lt_of_not_le covered), Step.after, Step.fail]
            exact .refl _

theorem sheds_sweep (heap : Heap) :
    heap.Sheds (Operation.sweep.removals heap) heap.sweep.heap := by
  have sheds := sheds_run heap.sweepBound (.start heap)
  rw [Operation.removals, sweep]
  cases walk : Sweep.run heap.sweepBound (.start heap) with | mk swept failed?
  rw [walk] at sheds
  cases failed? with
  | some failure => exact sheds
  | none =>
    simp only
    split
    · exact sheds
    · exact ⟨sheds.bodies, sheds.builtins⟩

end Heap
end ScriptHeap
