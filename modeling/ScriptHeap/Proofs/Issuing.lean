import ScriptHeap.Proofs.Allocating
import ScriptHeap.Proofs.Marks

/-! The account that a history keeps of its objects agrees with the heap, which keeps none: issued is
what lives or what its slot has outlived, and removed is what was issued and lives no more. -/
namespace ScriptHeap
variable {heap rest : Heap} {handle target : Handle}

namespace Heap

theorem contains_modify (heap : Heap) (target : Handle) (change : Object → Object) (handle : Handle) :
    (heap.modify target change).contains handle = heap.contains handle := by
  rw [contains, get?_modify]
  by_cases same : handle = target
  · subst same
    simp [contains]
  · simp [same, contains]

theorem issued_modify (heap : Heap) (target : Handle) (change : Object → Object) (handle : Handle) :
    (heap.modify target change).Issued handle ↔ heap.Issued handle :=
  Slots.issued_modify ..

theorem issued_clearMarks (heap : Heap) (handle : Handle) :
    heap.clearMarks.Issued handle ↔ heap.Issued handle :=
  Slots.issued_mapAll ..

end Heap

namespace History
variable {past : History}

/-- The account agrees with the heap. -/
structure Sound (past : History) : Prop where
  issued : ∀ handle, handle ∈ past.issued ↔ past.heap.Issued handle
  distinct : past.issued.Nodup
  removed : ∀ handle ∈ past.removed, handle ∈ past.issued
  live : ∀ handle ∈ past.issued, past.heap.contains handle = true ↔ handle ∉ past.removed

theorem sound_start (config : HeapConfig) : (start config).Sound where
  issued handle := iff_of_false (by simp [start]) Slots.not_issued_empty
  distinct := .nil
  removed := by simp [start]
  live := by simp [start]

namespace Sound

theorem grown (sound : past.Sound) (payload : Payload) (dispatch : Option Handle) :
    Sound ⟨past.heap.grown payload dispatch, past.heap.nextHandle :: past.issued, past.removed⟩ := by
  have fresh : past.heap.nextHandle ∉ past.issued := fun listed =>
    past.heap.not_issued_nextHandle ((sound.issued _).1 listed)
  constructor
  · intro handle
    rw [Heap.issued_grown, List.mem_cons, sound.issued]
  · exact List.nodup_cons.2 ⟨fresh, sound.distinct⟩
  · intro handle listed
    exact List.mem_cons_of_mem _ (sound.removed handle listed)
  · intro handle listed
    rw [Heap.contains_grown]
    by_cases same : handle = past.heap.nextHandle
    · subst same
      simp only [true_or, true_iff]
      exact fun removed => fresh (sound.removed _ removed)
    · have listed : handle ∈ past.issued := by simpa [same] using listed
      simpa [same] using sound.live handle listed

theorem loses {gone : List Handle} (sound : past.Sound) (loses : past.heap.Loses gone rest) :
    Sound ⟨rest, past.issued, gone ++ past.removed⟩ := by
  constructor
  · intro handle
    rw [loses.issued, sound.issued]
  · exact sound.distinct
  · intro handle listed
    rcases List.mem_append.1 listed with listed | listed
    · exact (sound.issued handle).2 (Heap.issued_of_contains (loses.lived handle listed))
    · exact sound.removed handle listed
  · intro handle listed
    rw [loses.contains_iff, sound.live handle listed, List.mem_append]
    constructor
    · rintro ⟨held, kept⟩ (first | second)
      · exact kept first
      · exact held second
    · intro neither
      exact ⟨fun removed => neither (.inr removed), fun lost => neither (.inl lost)⟩

/-- Nothing came into being and nothing went. -/
theorem congr (sound : past.Sound) (same : ∀ handle, rest.contains handle = past.heap.contains handle)
    (issued : ∀ handle, rest.Issued handle ↔ past.heap.Issued handle) :
    Sound ⟨rest, past.issued, past.removed⟩ where
  issued handle := (sound.issued handle).trans (issued handle).symm
  distinct := sound.distinct
  removed := sound.removed
  live handle listed := by
    rw [same]
    exact sound.live handle listed

/-- Operations that neither free nor sweep, whatever came into being on the way. -/
private theorem perform_keeping {op : Operation} (sound : past.Sound)
    (frees : ∀ target, op ≠ .free target) (sweeps : op ≠ .sweep) :
    Sound ⟨(op.perform past.heap).heap, newborns (op.perform past.heap).notices ++ past.issued,
      past.removed⟩ := by
  have kept : op.Preserves fun told heap =>
      Sound ⟨heap, newborns told ++ past.issued, past.removed⟩ := by
    constructor
    case allocate =>
      intro told heap payload dispatch _ held
      rw [Step.Leaves, newborns_append, List.append_assoc]
      obtain ⟨failure, news, refuses, refused⟩ | granted :=
        heap.allocateWith_cases payload dispatch
      · rw [refused, refuses.newborns]
        exact held
      · rw [granted]
        exact held.grown payload dispatch
    case free =>
      intro told heap target same
      exact absurd same (frees target)
    case sweep =>
      intro told heap same
      exact absurd same sweeps
    case clearMarks =>
      intro told heap _ held
      exact held.congr heap.contains_clearMarks heap.issued_clearMarks
    case revise =>
      intro told heap handle change _ held
      exact held.congr (heap.contains_modify handle _) (heap.issued_modify handle _)
    case stamp =>
      intro told heap handle change _ held
      exact held.congr (heap.contains_modify handle _) (heap.issued_modify handle _)
    case settle =>
      intro told heap builtins links _ held
      exact held.congr (fun _ => rfl) fun _ => Iff.rfl
    case report =>
      intro told heap notice reports held
      rw [newborns_append, reports.newborns]
      exact held
  exact kept.performs sound

/-- Every operation keeps the account in agreement with the heap. -/
theorem perform (sound : past.Sound) (op : Operation) : (past.perform op).Sound := by
  cases op with
  | free target =>
    obtain ⟨loses, silent⟩ := past.heap.loses_free target
    have after := sound.loses loses
    rw [History.perform]
    simp only [Operation.perform, silent, List.nil_append]
    exact after
  | sweep =>
    obtain ⟨loses, silent⟩ := past.heap.loses_sweep
    have after := sound.loses loses
    rw [History.perform]
    simp only [Operation.perform, Step.ignore, silent, List.nil_append]
    exact after
  | _ => exact sound.perform_keeping (by simp) (by simp)

theorem after (sound : past.Sound) (ops : List Operation) : (past.after ops).Sound :=
  after_keeps Sound sound fun _ op _ held => held.perform op

end Sound

theorem sound_run (config : HeapConfig) (ops : List Operation) : (run config ops).Sound :=
  (sound_start config).after ops

end History

/-! ## Handles in words

A machine keeps slot and generation in words of 32 bits. There a slot that was vacated 2^32 times is at
generation zero again, and its first handle is issued once more. -/

/-- A handle as a machine keeps it. -/
def Handle.words (handle : Handle) : UInt32 × UInt32 :=
  (.ofNat handle.index, .ofNat handle.generation)

/-- Every handle that was ever issued fits into words, so that no two of them are the same to a machine. -/
def History.Unwrapped (past : History) : Prop :=
  ∀ handle ∈ past.issued, handle.index < UInt32.size ∧ handle.generation < UInt32.size

instance (past : History) : Decidable past.Unwrapped :=
  inferInstanceAs (Decidable (∀ handle ∈ past.issued, _))

theorem History.Unwrapped.words_inj {past : History} {one other : Handle} (unwrapped : past.Unwrapped)
    (issued : one ∈ past.issued) (issued' : other ∈ past.issued) :
    one.words = other.words ↔ one = other := by
  refine ⟨fun same => ?_, congrArg Handle.words⟩
  obtain ⟨slot, generation⟩ := Prod.mk.inj same
  obtain ⟨slotFits, fits⟩ := unwrapped one issued
  obtain ⟨slotFits', fits'⟩ := unwrapped other issued'
  have slots : one.index = other.index := by
    rw [← UInt32.toNat_ofNat_of_lt' slotFits, slot, UInt32.toNat_ofNat_of_lt' slotFits']
  have generations : one.generation = other.generation := by
    rw [← UInt32.toNat_ofNat_of_lt' fits, generation, UInt32.toNat_ofNat_of_lt' fits']
  obtain ⟨⟨_, _⟩⟩ := one
  obtain ⟨⟨_, _⟩⟩ := other
  cases slots
  cases generations
  rfl

end ScriptHeap
