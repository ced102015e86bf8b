import ScriptHeap.Heap.Sweep
import ScriptHeap.Proofs.Freeing

/-! A sweep visit by visit. Each visit of a live object lets it live, frees it or finds that the account
falls short of it; what such a visit keeps is kept by the whole walk, on any chain. -/
namespace ScriptHeap.Sweep
variable {sweep : Sweep}

/-- One visit: the walk goes on, or it is over, with the reason if the account falls short. -/
def visit (sweep : Sweep) : Sweep ⊕ Sweep × Option Failure :=
  match sweep.current with
  | none => .inr (sweep, none)
  | some handle =>
    match sweep.heap.get? handle with
    | none => .inr (sweep, none)
    | some object =>
      if object.header.dark then .inl (sweep.keep handle object.header.next)
      else
        let size := object.header.type.structSize
        let discharged := sweep.heap.discharge size
        match discharged.outcome with
        | .ok () => .inl (sweep.drop discharged.heap handle size object.header.next)
        | .error failure =>
          .inr ({ sweep with notices := sweep.notices ++ discharged.notices }, some failure)

/-- What a visit comes to. -/
theorem visit_cases (sweep : Sweep) :
    sweep.current.bind sweep.heap.get? = none ∧ sweep.visit = .inr (sweep, none) ∨
    ∃ handle object, sweep.current = some handle ∧ sweep.heap.get? handle = some object ∧
      (object.header.dark = true ∧ sweep.visit = .inl (sweep.keep handle object.header.next) ∨
        object.header.dark = false ∧ object.header.type.structSize ≤ sweep.heap.bytes ∧
          sweep.visit = .inl (sweep.drop (sweep.heap.discharged object) handle
            object.header.type.structSize object.header.next) ∨
        object.header.dark = false ∧ ∃ failure notices,
          sweep.visit = .inr ({ sweep with notices }, some failure)) := by
  cases current : sweep.current with
  | none => exact .inl ⟨rfl, by rw [visit, current]⟩
  | some handle =>
    cases found : sweep.heap.get? handle with
    | none => exact .inl ⟨found, by simp only [visit, current, found]⟩
    | some object =>
      refine .inr ⟨handle, object, rfl, found, ?_⟩
      cases dark : object.header.dark with
      | true => exact .inl ⟨rfl, by simp only [visit, current, found, dark, ↓reduceIte]⟩
      | false =>
        simp only [visit, current, found, dark, Bool.false_eq_true, ↓reduceIte]
        by_cases covered : object.header.type.structSize ≤ sweep.heap.bytes
        · simp only [Heap.discharge_of_le covered]
          exact .inr (.inl ⟨trivial, covered, rfl⟩)
        · simp only [Heap.discharge_of_lt (Nat.lt_of_not_le covered)]
          exact .inr (.inr ⟨trivial, _, _, rfl⟩)

theorem run_succ (visits : Nat) (sweep : Sweep) :
    run (visits + 1) sweep =
      match sweep.visit with
      | .inl after => run visits after
      | .inr result => result := by
  cases current : sweep.current with
  | none => simp only [run, visit, current]
  | some handle =>
    cases found : sweep.heap.get? handle with
    | none => simp only [run, visit, current, found]
    | some object =>
      simp only [run, visit, current, found]
      cases object.header.dark with
      | true => rfl
      | false => cases (sweep.heap.discharge object.header.type.structSize).outcome <;> rfl

/-- Where the walk is over, the heap is as it was before the visit. -/
theorem heap_of_last {result : Sweep × Option Failure} (ends : sweep.visit = .inr result) :
    result.1.heap = sweep.heap := by
  rcases sweep.visit_cases with
    ⟨-, idle⟩ | ⟨handle, object, -, -, ⟨-, kept⟩ | ⟨-, -, dropped⟩ | ⟨-, failure, notices, short⟩⟩
  · cases idle.symm.trans ends
    rfl
  · cases kept.symm.trans ends
  · cases dropped.symm.trans ends
  · cases short.symm.trans ends
    rfl

/-- What a visit keeps of the heap, the walk keeps. -/
theorem run_keeps (holds : Heap → Prop)
    (kept : ∀ sweep after : Sweep, sweep.visit = .inl after → holds sweep.heap → holds after.heap)
    (visits : Nat) (begins : holds sweep.heap) : holds (run visits sweep).1.heap := by
  induction visits generalizing sweep with
  | zero => exact begins
  | succ visits ih =>
    rw [run_succ]
    cases goes : sweep.visit with
    | inl after => exact ih (kept sweep after goes begins)
    | inr result =>
      rw [← heap_of_last goes] at begins
      exact begins

end ScriptHeap.Sweep
