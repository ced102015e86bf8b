import ScriptHeap.Classes.Registry
import ScriptHeap.Proofs.ExactAccounting
import ScriptHeap.Proofs.Views

/-! Two accounts of what an object is: the kind in its header and the payload itself. Different operations
ask different ones. Where every header shows the kind of its payload, all of them answer alike, and none
complains that it found the very kind it expected. -/
namespace ScriptHeap

theorem ObjectType.name_inj {one other : ObjectType} : one.name = other.name ↔ one = other := by
  refine ⟨fun same => ?_, congrArg name⟩
  cases one <;> cases other <;> first | rfl | exact absurd same (by decide)

/-- No kind is called what a handle is called when its object is gone. -/
theorem ObjectType.name_ne_object (type : ObjectType) : type.name ≠ ValueType.object.name := by
  cases type <;> decide

namespace Variant

/-- The view for a kind sees the payloads of the kind. -/
theorem isSome_project_ofType {type : ObjectType} {payload : Payload} :
    ((ofType type).project payload).isSome = true ↔ payload.type = type := by
  cases type <;> cases payload <;> first | exact iff_of_true rfl rfl | exact iff_of_false nofun nofun

end Variant

namespace Heap
variable {heap : Heap} {handle : Handle} {type expected found : ObjectType}

/-- Every header shows the kind of its payload. -/
def Truthful (heap : Heap) : Prop :=
  ∀ handle object, heap.get? handle = some object → object.header.type = object.payload.type

/-! ## Looking -/

namespace Truthful

theorem typeOf?_eq_some_iff (truthful : heap.Truthful) :
    heap.typeOf? handle = some type ↔ (heap.view? (.ofType type) handle).isSome = true := by
  rw [typeOf?, view?]
  cases held : heap.get? handle with
  | none => simp
  | some object =>
    rw [Option.map_some, Option.some.injEq, Option.bind_some, Variant.isSome_project_ofType,
      truthful handle object held]

theorem isObjectOf_iff (truthful : heap.Truthful) :
    heap.isObjectOf (.object handle) type = true ↔
      (heap.view? (.ofType type) handle).isSome = true := by
  rw [isObjectOf, beq_iff_eq]
  exact truthful.typeOf?_eq_some_iff

theorem typeNameOf_iff (truthful : heap.Truthful) :
    heap.typeNameOf (.object handle) = type.name ↔
      (heap.view? (.ofType type) handle).isSome = true := by
  rw [← truthful.typeOf?_eq_some_iff, typeNameOf, Value.asObject, Option.bind_some]
  cases heap.typeOf? handle with
  | none =>
    have other : (Value.object handle).typeName ≠ type.name := type.name_ne_object.symm
    simp [other]
  | some shown => simp [ObjectType.name_inj]

/-- What a look for one kind complains of is another kind in the header. -/
theorem expect_misfit_iff (truthful : heap.Truthful) (type : ObjectType) :
    heap.expect (.ofType type) handle = .error (.wrongObjectType expected found) ↔
      expected = type ∧ found ≠ type ∧ heap.typeOf? handle = some found := by
  rw [expect, require, typeOf?]
  cases held : heap.get? handle with
  | none => simp
  | some object =>
    have shown := truthful handle object held
    simp only [Option.map_some, Option.some.injEq]
    have seen : ((Variant.ofType type).project object.payload).isSome = true ↔
        object.header.type = type := by rw [Variant.isSome_project_ofType, shown]
    cases projected : (Variant.ofType type).project object.payload with
    | none =>
      rw [projected] at seen
      have other : object.header.type ≠ type := fun same => Bool.false_ne_true (seen.2 same)
      simp only [Except.error.injEq, HeapError.wrongObjectType.injEq, Variant.type_ofType]
      constructor
      · rintro ⟨rfl, rfl⟩
        exact ⟨rfl, other, rfl⟩
      · rintro ⟨rfl, -, same⟩
        exact ⟨rfl, same⟩
    | some data =>
      have same := seen.1 (by rw [projected, Option.isSome_some])
      refine iff_of_false (by simp) ?_
      rintro ⟨-, other, shows⟩
      exact other (shows.symm.trans same)

end Truthful

/-! ## Making one thing of another -/

theorem allocateWith_fits (heap : Heap) (payload : Payload) (dispatch : Option Handle) :
    (heap.allocateWith payload dispatch).outcome ≠ .error (.error (.wrongObjectType expected found)) := by
  intro failed
  obtain ⟨-, told, refuses⟩ := allocateWith_failed failed
  cases refuses

/-- What looks first and allocates then can only complain of a kind where it looks. -/
theorem misfit_ofLook {α : Type} {look : Except HeapError α} {next : α → Heap → Step Handle}
    (fits : ∀ result, (next result heap).outcome ≠ .error (.error (.wrongObjectType expected found))) :
    ((Step.ofLook heap look).andThen next).outcome =
        .error (.error (.wrongObjectType expected found)) ↔
      look = .error (.wrongObjectType expected found) := by
  cases look with
  | error cause => simp [Step.ofLook, Step.andThen, Step.fail]
  | ok result => simp [Step.ofLook, Step.andThen, Step.done, Step.after, fits result]

theorem Truthful.newClosure_misfit_iff (truthful : heap.Truthful) :
    (heap.newClosure handle).outcome = .error (.error (.wrongObjectType expected found)) ↔
      expected = .function ∧ found ≠ .function ∧ heap.typeOf? handle = some found := by
  exact (misfit_ofLook fun _ => allocateWith_fits _ _ _).trans (truthful.expect_misfit_iff .function)

theorem Truthful.newInstance_misfit_iff (truthful : heap.Truthful) :
    (heap.newInstance handle).outcome = .error (.error (.wrongObjectType expected found)) ↔
      expected = .classDef ∧ found ≠ .classDef ∧ heap.typeOf? handle = some found := by
  exact (misfit_ofLook fun _ => allocateWith_fits _ _ _).trans (truthful.expect_misfit_iff .classDef)

theorem newBoundMethod_misfit_iff {receiver : Value} :
    (heap.newBoundMethod receiver handle).outcome =
        .error (.error (.wrongObjectType expected found)) ↔
      expected = .function ∧ found ≠ .function ∧ found ≠ .closure ∧
        heap.typeOf? handle = some found := by
  rw [newBoundMethod, require, typeOf?]
  cases heap.get? handle with
  | none => simp [Step.ofLook, Step.andThen, Step.fail]
  | some object =>
    simp only [Step.ofLook, Step.andThen, Step.done, Step.after, Option.map_some, Option.some.injEq]
    split
    · next shown =>
      refine iff_of_false (allocateWith_fits _ _ _) ?_
      rintro ⟨-, other, -, rfl⟩
      exact other shown
    · next shown =>
      refine iff_of_false (allocateWith_fits _ _ _) ?_
      rintro ⟨-, -, other, rfl⟩
      exact other shown
    · next function closure =>
      simp only [Step.fail, Except.error.injEq, Failure.error.injEq, HeapError.wrongObjectType.injEq]
      constructor
      · rintro ⟨rfl, rfl⟩
        exact ⟨rfl, function, closure, rfl⟩
      · rintro ⟨rfl, -, -, shown⟩
        exact ⟨rfl, shown⟩

/-! ## What is released -/

/-- What an object is charged for by its payload. -/
def payloadSize (heap : Heap) (handle : Handle) : Nat :=
  ((heap.payloadAt handle).map (·.type.structSize)).getD 0

theorem Truthful.sizeAt_eq (truthful : heap.Truthful) : heap.sizeAt = heap.payloadSize := by
  funext handle
  rw [sizeAt, payloadSize, payloadAt]
  cases held : heap.get? handle with
  | none => rfl
  | some object =>
    have shown := truthful handle object held
    simp [shown]

namespace Balanced
variable {order : List Handle}

theorem truthful (balanced : heap.Balanced order) : heap.Truthful := by
  intro handle object held
  refine balanced.shown handle (object.header.type, object.payload.type) ?_
  rw [kinds?, held]
  rfl

/-- Freeing takes off the account what the payload is charged for. -/
theorem freed (balanced : heap.Balanced order)
    (seen : (heap.view? (.ofType type) handle).isSome = true) :
    (heap.free handle).outcome = .ok () ∧
      (heap.free handle).heap.bytes + type.structSize = heap.bytes := by
  have shown := balanced.truthful.typeOf?_eq_some_iff.2 seen
  obtain ⟨object, found, rfl⟩ := Option.map_eq_some_iff.1 shown
  obtain ⟨front, back, rfl⟩ := List.append_of_mem
    (balanced.chained.complete handle (contains_of_get? found))
  have size := sizeAt_of_get? found
  have charged := balanced.covered
  have freed := balanced.chained.free_eq found (by omega)
  simp only [Step.andThen, outcome_takeOut, Step.after] at freed
  rw [freed]
  refine ⟨rfl, ?_⟩
  simp only [bytes_takeOut]
  omega

/-- A sweep counts what the payloads that it takes away are charged for. -/
theorem swept (balanced : heap.Balanced order) {stats : SweepStats}
    (done : heap.sweep.outcome = .ok stats) :
    stats.freedBytes = ((heap.doomed heap.objects).map heap.payloadSize).sum := by
  have distinct : (heap.doomed order).Nodup := balanced.chained.path.nodup.filter _
  have live : ∀ target ∈ heap.doomed order, heap.contains target = true :=
    fun target listed => balanced.chained.mem_iff.1 (List.mem_filter.1 listed).1
  obtain ⟨-, -, result⟩ := balanced.chained.sweep_of_freed (balanced.freeAll distinct live).1
  rw [result] at done
  split at done
  · cases done
    rw [balanced.chained.objects_eq, balanced.truthful.sizeAt_eq]
  · cases done

end Balanced

/-- What is asked of headers about a handle comes to what is seen of payloads: its kind, the test for a
kind, the name of its kind, the complaints when something is to be looked at, to be made a closure or an
instance of, or to be bound, and the bytes that are released with it. -/
structure AnswersAlike (heap : Heap) (handle : Handle) : Prop where
  kind : ∀ type, heap.typeOf? handle = some type ↔ (heap.view? (.ofType type) handle).isSome = true
  test : ∀ type, heap.isObjectOf (.object handle) type = true ↔
    (heap.view? (.ofType type) handle).isSome = true
  name : ∀ type, heap.typeNameOf (.object handle) = ObjectType.name type ↔
    (heap.view? (.ofType type) handle).isSome = true
  looked : ∀ type expected found,
    heap.expect (.ofType type) handle = .error (.wrongObjectType expected found) ↔
      expected = type ∧ found ≠ type ∧ (heap.view? (.ofType found) handle).isSome = true
  enclosed : ∀ expected found,
    (heap.newClosure handle).outcome = .error (.error (.wrongObjectType expected found)) ↔
      expected = .function ∧ found ≠ .function ∧ (heap.view? (.ofType found) handle).isSome = true
  instanced : ∀ expected found,
    (heap.newInstance handle).outcome = .error (.error (.wrongObjectType expected found)) ↔
      expected = .classDef ∧ found ≠ .classDef ∧ (heap.view? (.ofType found) handle).isSome = true
  bound : ∀ receiver expected found,
    (heap.newBoundMethod receiver handle).outcome =
        .error (.error (.wrongObjectType expected found)) ↔
      expected = .function ∧ found ≠ .function ∧ found ≠ .closure ∧
        (heap.view? (.ofType found) handle).isSome = true
  freed : ∀ type, (heap.view? (.ofType type) handle).isSome = true →
    (heap.free handle).outcome = .ok () ∧
      (heap.free handle).heap.bytes + type.structSize = heap.bytes

theorem Balanced.answersAlike {order : List Handle} (balanced : heap.Balanced order)
    (handle : Handle) : heap.AnswersAlike handle := by
  have truthful := balanced.truthful
  constructor
  case kind => exact fun type => truthful.typeOf?_eq_some_iff
  case test => exact fun type => truthful.isObjectOf_iff
  case name => exact fun type => truthful.typeNameOf_iff
  case looked =>
    intro type expected found
    rw [← truthful.typeOf?_eq_some_iff]
    exact truthful.expect_misfit_iff type
  case enclosed =>
    intro expected found
    rw [← truthful.typeOf?_eq_some_iff]
    exact truthful.newClosure_misfit_iff
  case instanced =>
    intro expected found
    rw [← truthful.typeOf?_eq_some_iff]
    exact truthful.newInstance_misfit_iff
  case bound =>
    intro receiver expected found
    rw [← truthful.typeOf?_eq_some_iff]
    exact newBoundMethod_misfit_iff
  case freed => exact fun type => balanced.freed

end Heap

/-! ## Complaints -/

/-- The complaint of having found the kind that was expected. -/
def HeapError.Contradictory (cause : HeapError) : Prop :=
  ∃ kind, cause = .wrongObjectType kind kind

/-- A step does not complain of having found what it expected. -/
def Step.Coherent {α : Type} (step : Step α) : Prop :=
  ∀ cause, step.outcome = .error (.error cause) → ¬ cause.Contradictory

section
variable {α β : Type} {heap : Heap}

theorem coherent_of_ok {step : Step α} {result : α} (done : step.outcome = .ok result) :
    step.Coherent := by
  intro cause failed
  rw [done] at failed
  cases failed

theorem coherent_fail {cause : HeapError} (other : ¬ cause.Contradictory) :
    (Step.fail heap cause : Step α).Coherent := by
  intro reported failed
  cases failed
  exact other

theorem coherent_defect (cause : Defect) : (Step.defect heap cause : Step α).Coherent := by
  intro reported failed
  cases failed

theorem coherent_ofLook {look : Except HeapError α} {next : α → Heap → Step β}
    (first : ∀ cause, look = .error cause → ¬ cause.Contradictory)
    (second : ∀ result, look = .ok result → (next result heap).Coherent) :
    ((Step.ofLook heap look).andThen next).Coherent := by
  cases look with
  | error cause => exact coherent_fail (first cause rfl)
  | ok result => exact second result rfl

theorem coherent_andThen {step : Step α} {next : α → Heap → Step β} (first : step.Coherent)
    (second : ∀ result heap, (next result heap).Coherent) : (step.andThen next).Coherent := by
  intro cause failed
  rcases Step.andThen_failed failed with ⟨refused, -⟩ | ⟨result, -, refused, -⟩
  · exact first cause refused
  · exact second result step.heap cause refused

theorem coherent_ignore {step : Step α} (coherent : step.Coherent) : step.ignore.Coherent :=
  fun cause failed => coherent cause (Step.ignore_failed.mp failed)

theorem coherent_allocateWith (heap : Heap) (payload : Payload) (dispatch : Option Handle) :
    (heap.allocateWith payload dispatch).Coherent := by
  rintro _ failed ⟨kind, rfl⟩
  exact heap.allocateWith_fits payload dispatch failed

end

namespace Heap.Truthful
variable {heap : Heap} (truthful : heap.Truthful)
include truthful

theorem expect_coherent (type : ObjectType) (handle : Handle) (cause : HeapError)
    (refused : heap.expect (.ofType type) handle = .error cause) : ¬ cause.Contradictory := by
  rintro ⟨kind, rfl⟩
  obtain ⟨rfl, other, -⟩ := (truthful.expect_misfit_iff type).1 refused
  exact other rfl

theorem creation_coherent (creation : Creation) : (creation.perform heap).Coherent := by
  cases creation with
  | closure code =>
    exact coherent_ofLook (truthful.expect_coherent .function code) fun _ _ =>
      coherent_allocateWith _ _ _
  | instanceOf ofClass =>
    exact coherent_ofLook (truthful.expect_coherent .classDef ofClass) fun _ _ =>
      coherent_allocateWith _ _ _
  | boundMethod receiver method =>
    rintro _ refused ⟨kind, rfl⟩
    obtain ⟨rfl, other, -⟩ := newBoundMethod_misfit_iff.1 refused
    exact other rfl
  | namedClass name =>
    exact coherent_andThen (coherent_allocateWith _ _ _) fun _ _ => coherent_allocateWith _ _ _
  | namedNameSpace name =>
    exact coherent_andThen (coherent_allocateWith _ _ _) fun _ _ => coherent_allocateWith _ _ _
  | _ => exact coherent_allocateWith _ _ _

theorem capture_coherent (head : Option Handle) (slot : Nat) : (heap.capture head slot).Coherent := by
  have insert (previous next : Option Handle) :
      (heap.insertUpvalue head previous next slot).Coherent := by
    refine coherent_andThen (coherent_allocateWith _ _ _) fun created rest => ?_
    cases previous <;> exact coherent_of_ok rfl
  rw [capture]
  split
  · exact insert _ _
  · next handle _ =>
    refine coherent_ofLook (truthful.expect_coherent .upvalue handle) fun upvalue _ => ?_
    split
    · exact coherent_of_ok rfl
    · split
      · exact coherent_defect _
      · exact insert _ _

theorem mayLink_coherent (child parent : Handle) (cause : HeapError)
    (refused : heap.mayLink child parent = .error cause) : ¬ cause.Contradictory := by
  rw [mayLink] at refused
  split at refused
  · next childless =>
    cases refused
    exact truthful.expect_coherent .classDef child cause childless
  · split at refused
    · next parentless =>
      cases refused
      exact truthful.expect_coherent .classDef parent cause parentless
    · rintro ⟨kind, rfl⟩
      split at refused
      · cases refused
      · split at refused <;> cases refused

omit truthful in
theorem sweep_coherent (heap : Heap) : heap.sweep.Coherent := by
  rintro _ failed ⟨kind, rfl⟩
  rw [sweep] at failed
  cases walk : Sweep.run heap.sweepBound (.start heap) with | mk swept failed?
  rw [walk] at failed
  cases failed? with
  | some failure =>
    obtain ⟨accounted, releasing, rfl⟩ := Sweep.run_failed (congrArg Prod.snd walk)
    cases failed
  | none =>
    simp only at failed
    split at failed <;> cases failed

/-- No operation complains of having found what it expected. -/
theorem perform_coherent (op : Operation) : (op.perform heap).Coherent := by
  cases op with
  | create creation => exact coherent_ignore (truthful.creation_coherent creation)
  | free target =>
    rintro _ failed ⟨kind, rfl⟩
    rw [Operation.perform] at failed
    rcases heap.free_cases target with
      ⟨-, refused⟩ | ⟨object, -, ⟨-, refused⟩ | ⟨cause, -, lost⟩ | ⟨unlinked, -, freed⟩⟩
    · rw [refused] at failed
      cases failed
    · rw [refused] at failed
      cases failed
    · rw [lost] at failed
      cases failed
    · rw [freed] at failed
      cases failed
  | sweep => exact coherent_ignore (sweep_coherent heap)
  | setBuiltin type implementation =>
    exact coherent_ofLook (truthful.expect_coherent .classDef implementation) fun _ _ =>
      coherent_of_ok rfl
  | capture head slot => exact coherent_ignore (truthful.capture_coherent head slot)
  | closeUpvalues head lowest stack =>
    intro cause failed
    obtain ⟨slot, closing⟩ := fails_closeUpvalues (Step.ignore_failed.mp failed)
    cases closing
  | resolveParent child parent =>
    rw [Operation.perform, resolveParent]
    split
    · next cause refused => exact coherent_fail (truthful.mayLink_coherent child parent cause refused)
    · exact coherent_of_ok rfl
  | closeStream target =>
    rw [Operation.perform, closeStream?]
    cases heap.view? .stream target <;> exact coherent_of_ok rfl
  | _ => exact coherent_of_ok rfl

theorem update {α : Type} (variant : Variant α) (target : Handle) (change : α → α) :
    (heap.update variant target change).Truthful := by
  intro handle object held
  rw [Heap.update, get?_modify] at held
  split at held
  · obtain ⟨before, found, rfl⟩ := Option.map_eq_some_iff.1 held
    rw [truthful target before found]
    exact (variant.type_modify change before.payload).symm
  · exact truthful handle object held

/-- Neither does linking in a batch, of any class it was to link. -/
theorem resolvePending_coherent (registry : ClassRegistry) {report : ResolveReport}
    (resolved : (registry.resolvePending heap).outcome = .ok report) :
    ∀ refusal ∈ report.failed, ¬ refusal.2.Contradictory := by
  have all (pending : List Handle) (batch : ClassRegistry.Batch) (kinds : batch.heap.Truthful)
      (sound : ∀ refusal ∈ batch.report.failed, ¬ refusal.2.Contradictory) :
      ∀ refusal ∈ (pending.foldl registry.attempt batch).report.failed,
        ¬ refusal.2.Contradictory := by
    induction pending generalizing batch with
    | nil => exact sound
    | cons child rest ih =>
      rw [List.foldl_cons, ClassRegistry.attempt]
      split
      · exact ih batch kinds sound
      · next parent _ =>
        split
        · next granted =>
          refine ih _ ?_ sound
          simp only [resolveParent, granted]
          exact kinds.update .classDef child _
        · next cause refused =>
          refine ih _ kinds fun refusal listed => ?_
          rcases List.mem_append.1 listed with listed | new
          · exact sound refusal listed
          · obtain rfl := List.mem_singleton.1 new
            exact kinds.mayLink_coherent child parent cause refused
  cases resolved
  exact all _ _ truthful (by simp)

theorem register_coherent (registry : ClassRegistry) (handle : Handle) (cause : HeapError)
    (refused : registry.register heap handle = .error cause) : ¬ cause.Contradictory := by
  rw [ClassRegistry.register] at refused
  split at refused
  · next unseen =>
    cases refused
    exact truthful.expect_coherent .classDef handle cause unseen
  · cases refused

end Heap.Truthful

/-- Whatever is asked of a heap: no complaint names the kind that was expected as the one that was found. -/
structure Heap.Coherent (heap : Heap) : Prop where
  looked : ∀ type handle cause, heap.expect (.ofType type) handle = .error cause → ¬ cause.Contradictory
  performed : ∀ op : Operation, (op.perform heap).Coherent
  registered : ∀ (registry : ClassRegistry) handle cause,
    registry.register heap handle = .error cause → ¬ cause.Contradictory
  linked : ∀ (registry : ClassRegistry) report, (registry.resolvePending heap).outcome = .ok report →
    ∀ refusal ∈ report.failed, ¬ refusal.2.Contradictory

theorem Heap.Truthful.coherent {heap : Heap} (truthful : heap.Truthful) : heap.Coherent where
  looked := truthful.expect_coherent
  performed := truthful.perform_coherent
  registered := truthful.register_coherent
  linked := fun registry _ => truthful.resolvePending_coherent registry

end ScriptHeap
