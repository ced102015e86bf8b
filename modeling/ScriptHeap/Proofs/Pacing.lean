import ScriptHeap.Proofs.Limits
import ScriptHeap.Proofs.SweepVisits

/-! When a heap asks to be collected. The bytes at which it asks are set when it is made, and again by
every sweep that comes to its end, from what that sweep leaves. Nothing else moves them, a sweep that
stops on the way included; so from one such sweep to the next the answer depends on the account alone. -/
namespace ScriptHeap

/-- The operation is a sweep, and it comes to its end. -/
def Operation.Collects (heap : Heap) (op : Operation) : Prop :=
  op = .sweep ∧ ∃ stats, heap.sweep.outcome = .ok stats

/-! ## What leaves the threshold alone -/

namespace Heap
variable {heap : Heap}

theorem nextCollect_bypass (heap : Heap) (before next : Option Handle) :
    (Sweep.bypass heap before next).nextCollect = heap.nextCollect := by
  cases before <;> rfl

theorem nextCollect_release (heap : Heap) (target : Handle) :
    (heap.release target).heap.nextCollect = heap.nextCollect := by
  unfold release
  split <;> rfl

theorem nextCollect_unlink {target : Handle} {unlinked : Heap} (led : heap.unlink target = .ok unlinked) :
    unlinked.nextCollect = heap.nextCollect := by
  unfold unlink at led
  split at led
  · cases led
    rfl
  · split at led
    · cases led
      rfl
    · cases led
      rfl
    · cases led

theorem nextCollect_free (heap : Heap) (target : Handle) :
    (heap.free target).heap.nextCollect = heap.nextCollect := by
  rcases heap.free_cases target with
    ⟨-, refused⟩ | ⟨object, -, ⟨-, refused⟩ | ⟨cause, -, lost⟩ | ⟨unlinked, led, freed⟩⟩
  · rw [refused]
    rfl
  · rw [refused]
    rfl
  · rw [lost]
    rfl
  · rw [freed, nextCollect_release, nextCollect_unlink led]
    rfl

theorem nextCollect_allocateWith (heap : Heap) (payload : Payload) (dispatch : Option Handle) :
    (heap.allocateWith payload dispatch).heap.nextCollect = heap.nextCollect := by
  rcases heap.allocateWith_cases payload dispatch with ⟨failure, told, -, refused⟩ | granted
  · rw [refused]
  · rw [granted]
    rfl

/-- A walk does not touch the threshold, however far it comes. -/
theorem nextCollect_run (visits : Nat) (sweep : Sweep) :
    (Sweep.run visits sweep).1.heap.nextCollect = sweep.heap.nextCollect := by
  refine Sweep.run_keeps (·.nextCollect = sweep.heap.nextCollect) ?_ visits rfl
  intro one after goes same
  rw [← same]
  rcases one.visit_cases with
    ⟨-, idle⟩ | ⟨handle, object, -, -, ⟨-, kept⟩ | ⟨-, -, dropped⟩ | ⟨-, failure, notices, short⟩⟩
  · cases idle.symm.trans goes
  · cases kept.symm.trans goes
    rfl
  · cases dropped.symm.trans goes
    rw [Sweep.drop, nextCollect_release, nextCollect_bypass]
    rfl
  · cases short.symm.trans goes

/-! ## What a sweep makes of it -/

/-- A sweep that comes to its end sets the threshold by what it leaves. -/
theorem nextCollect_swept {stats : SweepStats} (swept : heap.sweep.outcome = .ok stats) :
    heap.sweep.heap.nextCollect =
      max (2 * heap.sweep.heap.bytes) heap.sweep.heap.config.collectThreshold.toNat := by
  rw [sweep] at swept ⊢
  cases walk : Sweep.run heap.sweepBound (.start heap) with | mk last failed?
  rw [walk] at swept
  cases failed? with
  | some failure => cases swept
  | none =>
    simp only at swept ⊢
    by_cases fits : last.heap.bytes * 2 < wordLimit
    · simp only [checkedDouble, fits, ↓reduceIte]
      rw [Nat.mul_comm]
      rfl
    · simp only [checkedDouble, fits, ↓reduceIte] at swept
      cases swept

/-- Any other sweep leaves it as it is. -/
theorem nextCollect_unswept (failed : ∀ stats, heap.sweep.outcome ≠ .ok stats) :
    heap.sweep.heap.nextCollect = heap.nextCollect := by
  have kept := nextCollect_run heap.sweepBound (.start heap)
  rw [sweep] at failed ⊢
  cases walk : Sweep.run heap.sweepBound (.start heap) with | mk last failed?
  rw [walk] at failed kept
  cases failed? with
  | some failure => exact kept
  | none =>
    simp only at failed ⊢
    split
    · exact kept
    · next doubled fits =>
      rw [fits] at failed
      exact absurd rfl (failed last.stats)

end Heap

/-- No other operation moves the threshold. -/
theorem Operation.nextCollect_perform {op : Operation} {heap : Heap} (other : ¬ op.Collects heap) :
    (op.perform heap).heap.nextCollect = heap.nextCollect := by
  by_cases sweeps : op = .sweep
  · subst sweeps
    exact Heap.nextCollect_unswept fun stats swept => other ⟨rfl, stats, swept⟩
  · have kept : op.Preserves fun _ rest => rest.nextCollect = heap.nextCollect := by
      constructor
      case allocate =>
        intro _ rest payload dispatch _ same
        exact (rest.nextCollect_allocateWith payload dispatch).trans same
      case free =>
        intro _ rest target _ same
        exact (rest.nextCollect_free target).trans same
      case sweep => exact fun same => absurd same sweeps
      case clearMarks => exact fun _ same => same
      case revise => exact fun _ same => same
      case stamp => exact fun _ same => same
      case settle => exact fun _ _ _ same => same
      case report => exact fun _ same => same
    exact kept.performs rfl

/-! ## Whole runs -/

namespace History

theorem nextCollect_after {past : History} {ops : List Operation}
    (unswept : past.Throughout (fun heap op => ¬ op.Collects heap) ops) :
    (past.after ops).heap.nextCollect = past.heap.nextCollect := by
  let stays (heap : Heap) : Prop := heap.nextCollect = past.heap.nextCollect
  have begins : stays past.heap := rfl
  exact unswept.keeps begins fun _ _ _ other same => (Operation.nextCollect_perform other).trans same

/-- Of the sweeps that come to their end there is a last one, or there is none at all. -/
theorem unswept_or_last_sweep (past : History) (ops : List Operation) :
    past.Throughout (fun heap op => ¬ op.Collects heap) ops ∨
      ∃ sooner later, ops = sooner ++ .sweep :: later ∧
        Operation.sweep.Collects (past.after sooner).heap ∧
        (past.after (sooner ++ [.sweep])).Throughout (fun heap op => ¬ op.Collects heap) later := by
  induction ops generalizing past with
  | nil => exact .inl trivial
  | cons op ops ih =>
    rcases ih (past.perform op) with unswept | ⟨sooner, later, rfl, swept, unswept⟩
    · by_cases collects : op.Collects past.heap
      · obtain rfl := collects.1
        exact .inr ⟨[], ops, rfl, collects, unswept⟩
      · exact .inl ⟨collects, unswept⟩
    · exact .inr ⟨op :: sooner, later, rfl, swept, unswept⟩

/-- **Pacing.** In any run a heap asks to be collected by the bytes that it has charged: before any sweep
has come to its end, from the configured threshold on; after the last one that has, from twice of what it
left on, and not below that threshold. So right after such a sweep it asks only where nothing is left and
the threshold is zero. Whatever else happens on the way does not matter, other sweeps that fail included. -/
theorem pacing_run (config : HeapConfig) (ops : List Operation) :
    ((start config).Throughout (fun heap op => ¬ op.Collects heap) ops ∨
      ∃ sooner later, ops = sooner ++ .sweep :: later ∧
        Operation.sweep.Collects (run config sooner).heap ∧
        (run config (sooner ++ [.sweep])).Throughout (fun heap op => ¬ op.Collects heap) later) ∧
    ((start config).Throughout (fun heap op => ¬ op.Collects heap) ops →
      ((run config ops).heap.shouldCollect = true ↔
        config.collectThreshold.toNat ≤ (run config ops).heap.bytes)) ∧
    ∀ sooner later, ops = sooner ++ .sweep :: later →
      Operation.sweep.Collects (run config sooner).heap →
      let swept := run config (sooner ++ [.sweep])
      (swept.heap.shouldCollect = true ↔ swept.heap.bytes = 0 ∧ config.collectThreshold = 0) ∧
        (swept.Throughout (fun heap op => ¬ op.Collects heap) later →
          ((run config ops).heap.shouldCollect = true ↔
            max (2 * swept.heap.bytes) config.collectThreshold.toNat ≤ (run config ops).heap.bytes)) := by
  have asks (heap : Heap) : heap.shouldCollect = true ↔ heap.nextCollect ≤ heap.bytes :=
    decide_eq_true_iff
  refine ⟨unswept_or_last_sweep (start config) ops, ?_, ?_⟩
  · intro unswept
    have threshold : (run config ops).heap.nextCollect = config.collectThreshold.toNat :=
      nextCollect_after unswept
    rw [asks, threshold]
  · rintro sooner later rfl ⟨-, stats, collects⟩ swept
    have threshold : swept.heap.nextCollect =
        max (2 * swept.heap.bytes) config.collectThreshold.toNat := by
      have set := Heap.nextCollect_swept collects
      have last : swept.heap = (run config sooner).heap.sweep.heap :=
        heap_run_concat config sooner .sweep
      have same : swept.heap.config = config := (within_run config (sooner ++ [.sweep])).1
      rwa [← last, same] at set
    constructor
    · rw [asks, threshold, Nat.max_le, ← UInt64.toNat_inj]
      have zero : UInt64.toNat 0 = 0 := rfl
      omega
    · intro unswept
      have stays := nextCollect_after unswept
      have whole : run config (sooner ++ .sweep :: later) = swept.after later := by
        rw [← run_append, List.append_assoc]
        rfl
      rw [asks, whole, stays, threshold]

/-- A heap that asks to be collected from sixty bytes on. -/
def eager : HeapConfig := { HeapConfig.default with collectThreshold := 60 }

/-- A text outlives a sweep, and a map does not. -/
def outlived : List Operation :=
  [.create (.text "a"), .create .map, .mark ⟨⟨0, 0⟩⟩ true, .sweep]

/-- The text is shown as something large, so that the next sweep fails; then there is another text. -/
def failingLater : List Operation :=
  [.writeType ⟨⟨0, 0⟩⟩ .classDef, .sweep, .create (.text "b")]

/-- The heap asks from twice the one text on, which the other one makes up. -/
theorem pacing_outlived :
    (run eager outlived).heap.shouldCollect = false ∧
      ((run eager (outlived ++ failingLater)).heap.shouldCollect = true ↔
        104 ≤ (run eager (outlived ++ failingLater)).heap.bytes) ∧
      (run eager (outlived ++ failingLater)).heap.bytes = 104 := by
  have pacing := (pacing_run eager (outlived ++ failingLater)).2.2
    [.create (.text "a"), .create .map, .mark ⟨⟨0, 0⟩⟩ true] failingLater rfl
    ⟨rfl, ⟨1, 172, 1⟩, by decide⟩
  have unswept : (run eager outlived).Throughout (fun heap op => ¬ op.Collects heap) failingLater := by
    refine ⟨?_, ?_, ?_, trivial⟩
    · rintro ⟨⟨⟩, _⟩
    · rintro ⟨-, stats, swept⟩
      have failed : (((run eager outlived).perform (.writeType ⟨⟨0, 0⟩⟩ .classDef)).heap.sweep.outcome) =
          .error (.error (.accountingUnderflow 52 220)) := by decide
      rw [failed] at swept
      cases swept
    · rintro ⟨⟨⟩, _⟩
  exact ⟨by decide, pacing.2 unswept, by decide⟩

end History
end ScriptHeap
