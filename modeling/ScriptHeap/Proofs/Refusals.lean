import ScriptHeap.Proofs.Allocating

/-! How operations fail, and what they leave behind. All but a sweep look before they write: an operation
that is refused finds the heap as it was. A thing that gets its name as a text of its own is two objects,
and when the second is refused the first stays. -/
namespace ScriptHeap

/-- Reasons that looking at the heap and at the arguments gives. -/
inductive Failure.Seen : Failure → Prop where
  | gone (handle : Handle) : Seen (.error (.invalidHandle handle))
  | kind (expected found : ObjectType) : Seen (.error (.wrongObjectType expected found))
  | hash (expected found : NameHash) : Seen (.error (.parentHashMismatch expected found))
  | cycle : Seen (.error .inheritanceCycle)
  | ring : Seen (.defect .endlessSearch)

/-- What operations fail with, and the heap they leave. A sweep can stop anywhere on its way, and closing
upvalues is a defect in the midst of the work where the stack ends below a slot to close. -/
inductive Operation.Fails (heap : Heap) : Operation → Failure → Heap → Prop where
  | seen {op : Operation} {failure : Failure} (seen : failure.Seen) : Fails heap op failure heap
  | refused {op : Operation} {failure : Failure} {payload : Payload} {told : List Notice}
      (refuses : heap.Refuses payload.type.structSize failure told) : Fails heap op failure heap
  | named {creation : Creation} {name : String} {text : Handle} {failure : Failure}
      {payload : Payload} {told : List Notice}
      (names : creation = .namedClass name ∨ creation = .namedNameSpace name)
      (spelled : (heap.copyText name).outcome = .ok text)
      (refuses : (heap.copyText name).heap.Refuses payload.type.structSize failure told) :
      Fails heap (.create creation) failure (heap.copyText name).heap
  | short {target : Handle} {accounted releasing : Nat} :
      Fails heap (.free target) (.error (.accountingUnderflow accounted releasing)) heap
  | stopped {rest : Heap} {accounted releasing : Nat} :
      Fails heap .sweep (.error (.accountingUnderflow accounted releasing)) rest
  | doubling {rest : Heap} (large : wordLimit ≤ rest.bytes * 2) :
      Fails heap .sweep (.defect .multiplyOverflow) rest
  | stackEnd {head : Option Handle} {lowest slot : Nat} {stack : Stack} {rest : Heap} :
      Fails heap (.closeUpvalues head lowest stack) (.defect (.closingPastStackEnd slot)) rest

/-! ## Looking first -/

/-- A step of two that fails has failed at the first, or at the second after the first. -/
theorem Step.andThen_failed {α β : Type} {step : Step α} {next : α → Heap → Step β} {failure : Failure}
    (failed : (step.andThen next).outcome = .error failure) :
    (step.outcome = .error failure ∧ (step.andThen next).heap = step.heap) ∨
      ∃ result, step.outcome = .ok result ∧ (next result step.heap).outcome = .error failure ∧
        (step.andThen next).heap = (next result step.heap).heap := by
  rw [Step.andThen] at failed ⊢
  split at failed
  · next result done => exact .inr ⟨result, done, failed, rfl⟩
  · next cause refused =>
    cases failed
    exact .inl ⟨refused, rfl⟩

/-- A step without a result has changed nothing. Its reason was in sight, or an object is refused. -/
def Step.LooksFirst {α : Type} (step : Step α) (heap : Heap) : Prop :=
  ∀ failure, step.outcome = .error failure →
    step.heap = heap ∧
      (failure.Seen ∨
        ∃ (payload : Payload) (told : List Notice), heap.Refuses payload.type.structSize failure told)

section
variable {α β : Type} {heap : Heap}

theorem Step.LooksFirst.fails {step : Step α} {failure : Failure} (looks : step.LooksFirst heap)
    (op : Operation) (failed : step.outcome = .error failure) : op.Fails heap failure step.heap := by
  rcases looks failure failed with ⟨same, seen | ⟨payload, told, refuses⟩⟩
  · rw [same]
    exact .seen seen
  · rw [same]
    exact .refused refuses

theorem looksFirst_done (step : Step α) (result : α) (done : step.outcome = .ok result) :
    step.LooksFirst heap := by
  intro failure failed
  rw [done] at failed
  cases failed

theorem looksFirst_fail {cause : HeapError} (seen : (Failure.error cause).Seen) :
    (Step.fail heap cause : Step α).LooksFirst heap := by
  intro failure failed
  cases failed
  exact ⟨rfl, .inl seen⟩

theorem looksFirst_ofLook {look : Except HeapError α} {next : α → Heap → Step β}
    (first : ∀ cause, look = .error cause → (Failure.error cause).Seen)
    (second : ∀ result, (next result heap).LooksFirst heap) :
    ((Step.ofLook heap look).andThen next).LooksFirst heap := by
  cases look with
  | error cause => exact looksFirst_fail (first cause rfl)
  | ok result => exact second result

theorem allocateWith_failed {payload : Payload} {dispatch : Option Handle} {failure : Failure}
    (failed : (heap.allocateWith payload dispatch).outcome = .error failure) :
    (heap.allocateWith payload dispatch).heap = heap ∧
      ∃ told, heap.Refuses payload.type.structSize failure told := by
  rcases heap.allocateWith_cases payload dispatch with ⟨cause, told, refuses, refused⟩ | granted
  · rw [refused] at failed ⊢
    cases failed
    exact ⟨rfl, told, refuses⟩
  · rw [granted] at failed
    cases failed

theorem looksFirst_allocateWith (heap : Heap) (payload : Payload) (dispatch : Option Handle) :
    (heap.allocateWith payload dispatch).LooksFirst heap := by
  intro failure failed
  obtain ⟨same, told, refuses⟩ := allocateWith_failed failed
  exact ⟨same, .inr ⟨payload, told, refuses⟩⟩

theorem seen_require {handle : Handle} (cause : HeapError)
    (refused : heap.require handle = .error cause) : (Failure.error cause).Seen := by
  rw [Heap.require] at refused
  split at refused
  · cases refused
  · cases refused
    exact .gone handle

theorem seen_expect {variant : Variant α} {handle : Handle} (cause : HeapError)
    (refused : heap.expect variant handle = .error cause) : (Failure.error cause).Seen := by
  rw [Heap.expect] at refused
  split at refused
  · next absent =>
    cases refused
    exact seen_require cause absent
  · split at refused
    · cases refused
    · cases refused
      exact .kind _ _

end

/-! ## One operation after the other -/

section
variable {heap : Heap} {failure : Failure}

/-- A creation is refused at once, or has allocated the text of a name and nothing else. -/
theorem Creation.fails {creation : Creation} (failed : (creation.perform heap).outcome = .error failure) :
    (Operation.create creation).Fails heap failure (creation.perform heap).heap := by
  have once (looks : (creation.perform heap).LooksFirst heap) := looks.fails (.create creation) failed
  have twice (name : String) (payload : Handle → Payload)
      (names : creation = .namedClass name ∨ creation = .namedNameSpace name)
      (spelling : creation.perform heap =
        (heap.copyText name).andThen fun text heap => heap.allocate (payload text)) :
      (Operation.create creation).Fails heap failure (creation.perform heap).heap := by
    rw [spelling] at failed ⊢
    rcases Step.andThen_failed failed with ⟨refused, stays⟩ | ⟨text, spelled, refused, stays⟩
    · obtain ⟨same, told, refuses⟩ := allocateWith_failed refused
      rw [stays, Heap.copyText, Heap.copyString, Heap.allocate, same]
      exact .refused refuses
    · obtain ⟨same, told, refuses⟩ := allocateWith_failed refused
      rw [stays, Heap.allocate, same]
      exact .named names spelled refuses
  cases creation with
  | closure code =>
    exact once (looksFirst_ofLook seen_expect fun _ => looksFirst_allocateWith _ _ _)
  | instanceOf ofClass =>
    exact once (looksFirst_ofLook seen_expect fun _ => looksFirst_allocateWith _ _ _)
  | boundMethod receiver method =>
    apply once
    apply looksFirst_ofLook seen_require
    intro object
    split
    · exact looksFirst_allocateWith _ _ _
    · exact looksFirst_allocateWith _ _ _
    · exact looksFirst_fail (.kind _ _)
  | namedClass name => exact twice name _ (.inl rfl) rfl
  | namedNameSpace name => exact twice name _ (.inr rfl) rfl
  | _ => exact once (looksFirst_allocateWith _ _ _)

theorem looksFirst_insertUpvalue (heap : Heap) (head previous next : Option Handle) (slot : Nat) :
    (heap.insertUpvalue head previous next slot).LooksFirst heap := by
  intro failure failed
  rcases Step.andThen_failed failed with ⟨refused, stays⟩ | ⟨created, -, refused, -⟩
  · obtain ⟨same, told, refuses⟩ := allocateWith_failed refused
    rw [Heap.insertUpvalue, stays]
    exact ⟨same, .inr ⟨_, told, refuses⟩⟩
  · -- with the upvalue there, placing it cannot fail
    cases previous with
    | none => cases refused
    | some before => cases refused

theorem looksFirst_capture (heap : Heap) (head : Option Handle) (slot : Nat) :
    (heap.capture head slot).LooksFirst heap := by
  rw [Heap.capture]
  split
  · exact looksFirst_insertUpvalue _ _ _ _ _
  · apply looksFirst_ofLook seen_expect
    intro upvalue
    split
    · exact looksFirst_done _ _ rfl
    · split
      · intro failure failed
        cases failed
        exact ⟨rfl, .inl .ring⟩
      · exact looksFirst_insertUpvalue _ _ _ _ _

theorem seen_mayLink {child parent : Handle} (cause : HeapError)
    (refused : heap.mayLink child parent = .error cause) : (Failure.error cause).Seen := by
  rw [Heap.mayLink] at refused
  split at refused
  · next childless =>
    cases refused
    exact seen_expect cause childless
  · split at refused
    · next parentless =>
      cases refused
      exact seen_expect cause parentless
    · split at refused
      · cases refused
        exact .hash _ _
      · split at refused
        · cases refused
          exact .cycle
        · cases refused

theorem looksFirst_resolveParent (heap : Heap) (child parent : Handle) :
    (heap.resolveParent child parent).LooksFirst heap := by
  rw [Heap.resolveParent]
  split
  · next cause refused => exact looksFirst_fail (seen_mayLink cause refused)
  · exact looksFirst_done _ _ rfl

theorem Heap.unlink_failed {target : Handle} {cause : Defect} (failed : heap.unlink target = .error cause) :
    cause = .endlessSearch := by
  rw [Heap.unlink] at failed
  split at failed
  · cases failed
  · split at failed
    · cases failed
    · cases failed
    · next searched =>
      cases failed
      rw [Heap.predecessor] at searched
      split at searched
      · cases searched
      · split at searched
        · cases searched
          rfl
        · cases searched

theorem Heap.fails_free {target : Handle} (failed : (heap.free target).outcome = .error failure) :
    (Operation.free target).Fails heap failure (heap.free target).heap := by
  rcases heap.free_cases target with
    ⟨-, refused⟩ | ⟨object, -, ⟨-, refused⟩ | ⟨cause, lost, left⟩ | ⟨unlinked, -, freed⟩⟩
  · rw [refused] at failed ⊢
    cases failed
    exact .seen (.gone target)
  · rw [refused] at failed ⊢
    cases failed
    exact .short
  · rw [left] at failed ⊢
    cases failed
    obtain rfl := Heap.unlink_failed lost
    exact .seen .ring
  · rw [freed] at failed
    cases failed

/-- A walk stops when an object is shown as larger than what is left on the account. -/
theorem Sweep.run_failed {visits : Nat} {sweep : Sweep}
    (stopped : (Sweep.run visits sweep).2 = some failure) :
    ∃ accounted releasing, failure = .error (.accountingUnderflow accounted releasing) := by
  induction visits generalizing sweep with
  | zero => cases stopped
  | succ visits ih =>
    rw [Sweep.run] at stopped
    split at stopped
    · cases stopped
    · split at stopped
      · cases stopped
      · next object _ =>
        split at stopped
        · exact ih stopped
        · by_cases covered : object.header.type.structSize ≤ sweep.heap.bytes
          · simp only [Heap.discharge_of_le covered, Step.done] at stopped
            exact ih stopped
          · simp only [Heap.discharge_of_lt (Nat.lt_of_not_le covered), Step.after, Step.fail,
              Option.some.injEq] at stopped
            exact ⟨_, _, stopped.symm⟩

theorem Heap.fails_sweep (failed : heap.sweep.outcome = .error failure) :
    Operation.sweep.Fails heap failure heap.sweep.heap := by
  rw [Heap.sweep] at failed ⊢
  cases walk : Sweep.run heap.sweepBound (.start heap) with | mk swept failed?
  rw [walk] at failed
  cases failed? with
  | some cause =>
    cases failed
    obtain ⟨accounted, releasing, rfl⟩ := Sweep.run_failed (congrArg Prod.snd walk)
    exact .stopped
  | none =>
    simp only [checkedDouble] at failed ⊢
    split at failed
    · next large =>
      split at large
      · cases large
      · next above =>
        cases large
        cases failed
        exact .doubling (Nat.le_of_not_lt above)
    · cases failed

theorem fails_closeUpvalues {head : Option Handle} {lowest : Nat} {stack : Stack}
    (failed : (heap.closeUpvalues head lowest stack).outcome = .error failure) :
    ∃ slot, failure = .defect (.closingPastStackEnd slot) := by
  have closing (count : Nat) (heap : Heap) (start : Option Handle)
      (failed : (Heap.closeWithin lowest stack count heap start).outcome = .error failure) :
      ∃ slot, failure = .defect (.closingPastStackEnd slot) := by
    induction count generalizing heap start with
    | zero => cases failed
    | succ count ih =>
      cases start with
      | none => cases failed
      | some handle =>
        rw [Heap.closeWithin] at failed
        split at failed
        · cases failed
        · next upvalue _ =>
          split at failed
          · split at failed
            · next cause unclosed =>
              cases failed
              rw [Upvalue.close] at unclosed
              split at unclosed
              · next slot _ =>
                split at unclosed
                · cases unclosed
                · cases unclosed
                  exact ⟨slot, rfl⟩
              · cases unclosed
            · exact ih _ _ failed
          · cases failed
  exact closing _ _ _ failed

end

theorem Step.ignore_failed {α : Type} {step : Step α} {failure : Failure} :
    step.ignore.outcome = .error failure ↔ step.outcome = .error failure := by
  rw [Step.ignore]
  cases step.outcome <;> simp [Except.map]

/-- Every failure of every operation is one of these. -/
theorem Operation.fails {op : Operation} {heap : Heap} {failure : Failure}
    (failed : (op.perform heap).outcome = .error failure) :
    op.Fails heap failure (op.perform heap).heap := by
  have once (looks : (op.perform heap).LooksFirst heap) := looks.fails op failed
  cases op with
  | create creation => exact Creation.fails (Step.ignore_failed.mp failed)
  | free target => exact Heap.fails_free failed
  | sweep => exact Heap.fails_sweep (Step.ignore_failed.mp failed)
  | setBuiltin type implementation =>
    apply once
    apply looksFirst_ofLook seen_expect
    intro _
    exact looksFirst_done _ _ rfl
  | capture head slot =>
    apply once
    intro failure failed
    exact looksFirst_capture heap head slot failure (Step.ignore_failed.mp failed)
  | closeUpvalues head lowest stack =>
    obtain ⟨slot, rfl⟩ := fails_closeUpvalues (Step.ignore_failed.mp failed)
    exact .stackEnd
  | resolveParent child parent => exact once (looksFirst_resolveParent heap child parent)
  | closeStream target =>
    rw [perform, Heap.closeStream?] at failed
    cases seen : heap.view? .stream target with
    | none =>
      rw [seen] at failed
      cases failed
    | some stream =>
      rw [seen] at failed
      cases failed
  | _ => cases failed

/-- **A refused operation leaves the heap alone.** When an operation other than a sweep is refused, the
heap is exactly as before. Only a class or a namespace that is made with its name may have left one thing
behind: the text of the name, as copying it alone leaves it. -/
theorem Operation.refused_unchanged (heap : Heap) (op : Operation) (cause : HeapError)
    (single : op ≠ .sweep) (refused : (op.perform heap).outcome = .error (.error cause)) :
    (op.perform heap).heap = heap ∨
      ∃ name text, (op = .create (.namedClass name) ∨ op = .create (.namedNameSpace name)) ∧
        (heap.copyText name).outcome = .ok text ∧
        (op.perform heap).heap = (heap.copyText name).heap := by
  have fails := Operation.fails refused
  generalize (op.perform heap).heap = rest at fails ⊢
  cases fails with
  | seen => exact .inl rfl
  | refused => exact .inl rfl
  | short => exact .inl rfl
  | @named creation name text _ _ _ names spelled =>
    right
    refine ⟨name, text, ?_, spelled, rfl⟩
    rcases names with rfl | rfl
    · exact .inl rfl
    · exact .inr rfl
  | stopped => exact absurd rfl single

/-- A heap with room for a single object. -/
def cramped : Heap := .ofConfig { HeapConfig.default with maxObjectCount := 1 }

/-- Nothing is freed where there is nothing. The name of a class takes all the room there is, so the class
is refused and its name stays. -/
theorem Operation.refused_cramped :
    ((Operation.free ⟨⟨0, 0⟩⟩).perform cramped).heap = cramped ∧
      ((Operation.create (.namedClass "A")).perform cramped).heap = (cramped.copyText "A").heap := by
  have freed := Operation.refused_unchanged cramped (.free ⟨⟨0, 0⟩⟩) (.invalidHandle ⟨⟨0, 0⟩⟩)
    (by rintro ⟨⟩) rfl
  have named := Operation.refused_unchanged cramped (.create (.namedClass "A"))
    (.objectLimitExceeded 1 2) (by rintro ⟨⟩) rfl
  constructor
  · rcases freed with same | ⟨name, text, free | free, -, -⟩
    · exact same
    · cases free
    · cases free
  · rcases named with same | ⟨name, text, create | create, -, left⟩
    · exact absurd (congrArg Heap.objectCount same) (by decide)
    · cases create
      exact left
    · cases create

end ScriptHeap
