import ScriptHeap.Proofs.Balance
import ScriptHeap.Proofs.Refusals

/-! The account of a heap through a run. An object is charged for what its payload is, and the charge is
taken back for what its header shows; so as long as nobody rewrites the kinds in the headers or the
links, the account is exact, and no operation is ever refused for want of it. -/
namespace ScriptHeap

/-- Whether the host writes the kind in a header. -/
def Operation.writesType : Operation → Bool
  | .writeType .. => true
  | _ => false

/-! ## Being able to pay -/

/-- A step is not refused because the account falls short. -/
def Step.Pays {α : Type} (step : Step α) : Prop :=
  ∀ accounted releasing,
    step.outcome ≠ .error (.error (.accountingUnderflow accounted releasing))

/-- Only freeing and sweeping can find the account short. -/
theorem Operation.pays (op : Operation) {heap : Heap} (free : ∀ target, (heap.free target).Pays)
    (sweep : heap.sweep.Pays) : (op.perform heap).Pays := by
  intro accounted releasing short
  have fails := Operation.fails short
  generalize (op.perform heap).heap = rest at fails
  cases fails with
  | seen seen => cases seen
  | refused refuses => cases refuses
  | named _ _ refuses => cases refuses
  | @short target => exact free target accounted releasing short
  | stopped => exact sweep accounted releasing (Step.ignore_failed.mp short)

/-! ## Whole runs -/

namespace History
variable {past : History}

theorem balanced_perform {op : Operation} (balanced : ∃ order, past.heap.Balanced order)
    (untouched : op.writesNext = false) (unchanged : op.writesType = false) :
    ∃ order, (past.perform op).heap.Balanced order := by
  have kept : op.Preserves fun _ heap => ∃ order, heap.Balanced order := by
    constructor
    case allocate =>
      rintro _ heap payload dispatch - ⟨order, balanced⟩
      obtain ⟨failure, told, -, refused⟩ | granted := heap.allocateWith_cases payload dispatch
      · rw [Step.Leaves, refused]
        exact ⟨order, balanced⟩
      · rw [Step.Leaves, granted]
        exact ⟨heap.nextHandle :: order, balanced.grown payload dispatch⟩
    case free =>
      rintro _ heap target - ⟨order, balanced⟩
      cases found : heap.get? target with
      | none =>
        rw [Step.Leaves, Heap.free_of_gone found]
        exact ⟨order, balanced⟩
      | some object =>
        obtain ⟨front, back, rfl⟩ := List.append_of_mem
          (balanced.chained.complete target (Heap.contains_of_get? found))
        exact ⟨front ++ back, balanced.free.2⟩
    case sweep =>
      rintro _ heap - ⟨order, balanced⟩
      obtain ⟨left, swept, -⟩ := balanced.sweep.1
      exact ⟨left, swept⟩
    case clearMarks =>
      rintro _ heap - ⟨order, balanced⟩
      exact ⟨order, Heap.Balanced.clearMarks_iff.2 balanced⟩
    case revise =>
      rintro _ heap handle change revises ⟨order, balanced⟩
      exact ⟨order, balanced.modify handle _ (fun _ => rfl) fun _ => ⟨rfl, revises.type_eq _⟩⟩
    case stamp =>
      rintro _ heap handle change stamps ⟨order, balanced⟩
      have keeps (header : Header) :
          (change header).next = header.next ∧ (change header).type = header.type := by
        cases stamps with
        | next => cases untouched
        | type => cases unchanged
        | _ => exact ⟨rfl, rfl⟩
      exact ⟨order, balanced.modify handle _ (fun object => (keeps object.header).1)
        fun object => ⟨(keeps object.header).2, rfl⟩⟩
    case settle =>
      rintro _ heap builtins links - ⟨order, balanced⟩
      exact ⟨order, balanced.congr rfl rfl rfl rfl⟩
    case report =>
      rintro _ heap notice - balanced
      exact balanced
  exact kept.performs balanced

theorem balanced_run (config : HeapConfig) {ops : List Operation}
    (untouched : ∀ op ∈ ops, op.writesNext = false) (unchanged : ∀ op ∈ ops, op.writesType = false) :
    ∃ order, (run config ops).heap.Balanced order := by
  refine after_keeps (fun past => ∃ order, past.heap.Balanced order)
    ⟨[], Heap.balanced_ofConfig config⟩ ?_
  intro past op listed balanced
  exact balanced_perform balanced (untouched op listed) (unchanged op listed)

/-- **Exact accounting.** After any run of operations, failed ones included, that writes neither a link
nor the kind in a header, the account is the sum of what the live objects are charged for, by their
headers and by their payloads alike, and they are counted right. So freeing a live object succeeds, and
so does sweeping, unless more objects live than a handle can tell apart and their bytes overflow a word;
no operation whatsoever is refused because the account falls short; and where no object is left, the
account is at zero and the chain is empty. -/
theorem account_run (config : HeapConfig) (ops : List Operation)
    (untouched : ∀ op ∈ ops, op.writesNext = false) (unchanged : ∀ op ∈ ops, op.writesType = false) :
    let heap := (run config ops).heap
    heap.bytes = (heap.store.occupants.map (·.header.type.structSize)).sum ∧
      heap.bytes = (heap.store.occupants.map (·.payload.type.structSize)).sum ∧
      heap.objectCount = heap.store.occupants.length ∧
      (∀ target, heap.contains target = true → (heap.free target).outcome = .ok ()) ∧
      ((∃ stats, heap.sweep.outcome = .ok stats) ∨
        UInt32.size < heap.objectCount ∧
          heap.sweep.outcome = .error (.defect .multiplyOverflow)) ∧
      (∀ (op : Operation) (accounted releasing : Nat),
        (op.perform heap).outcome ≠ .error (.error (.accountingUnderflow accounted releasing))) ∧
      (heap.objectCount = 0 → heap.bytes = 0 ∧ heap.head = none) := by
  intro heap
  obtain ⟨order, balanced⟩ := balanced_run config untouched unchanged
  have exact : heap.bytes = (heap.store.occupants.map (·.header.type.structSize)).sum :=
    balanced.bytes_eq.trans balanced.chained.sum_sizeAt
  have alike : heap.store.occupants.map (·.header.type.structSize) =
      heap.store.occupants.map (·.payload.type.structSize) :=
    List.map_congr_left fun object held => by rw [balanced.shown_occupants object held]
  have freed : ∀ target, heap.contains target = true → (heap.free target).outcome = .ok () := by
    intro target live
    obtain ⟨front, back, rfl⟩ := List.append_of_mem (balanced.chained.complete target live)
    exact balanced.free.1
  have swept := balanced.sweep.2
  rw [balanced.chained.length_eq] at swept
  refine ⟨exact, by rw [exact, alike], (Slots.length_occupants heap.store).symm, freed, swept, ?_, ?_⟩
  · intro op
    refine op.pays ?_ ?_
    · intro target accounted releasing short
      cases found : heap.get? target with
      | none =>
        rw [Heap.free_of_gone found] at short
        cases short
      | some object =>
        rw [freed target (Heap.contains_of_get? found)] at short
        cases short
    · intro accounted releasing short
      obtain ⟨stats, done⟩ | ⟨-, overflow⟩ := swept
      · rw [done] at short
        cases short
      · rw [overflow] at short
        cases short
  · intro gone
    rw [← balanced.chained.length_eq] at gone
    obtain rfl := List.eq_nil_of_length_eq_zero gone
    exact ⟨balanced.bytes_eq, balanced.chained.path.start_eq_head?⟩

/-- A string and a map are freed and swept away, and an array is left. -/
def clearing : List Operation :=
  [.create (.text "a"), .create .map, .create (.array #[]), .free ⟨⟨0, 0⟩⟩, .mark ⟨⟨2, 0⟩⟩ true, .sweep]

theorem account_clearing :
    (run .default clearing).heap.bytes = 52 ∧
      ((run .default clearing).heap.free ⟨⟨2, 0⟩⟩).outcome = .ok () ∧
      (run .default (clearing ++ [.free ⟨⟨2, 0⟩⟩])).heap.bytes = 0 ∧
      (run .default (clearing ++ [.free ⟨⟨2, 0⟩⟩])).heap.head = none := by
  have left := account_run .default clearing (by decide) (by decide)
  have empty := account_run .default (clearing ++ [.free ⟨⟨2, 0⟩⟩]) (by decide) (by decide)
  exact ⟨left.1.trans (by decide), left.2.2.2.1 _ (by decide), empty.2.2.2.2.2.2 (by decide)⟩

end History
end ScriptHeap
