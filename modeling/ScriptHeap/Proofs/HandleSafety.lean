import Mathlib.Logic.Relation
import ScriptHeap.Proofs.Issuing

/-! Safety of handles. Whatever a host does, to headers and links too, a handle means one object: the
one it was issued for, as long as that lives, and none ever after. The object keeps its kind, and its
payload is revised only through its handle, by capturing and closing upvalues, and by linking classes.
Handles that are kept in words are as safe in every run that is `Unwrapped`. -/
namespace ScriptHeap

/-! ## A heap and a later one -/

/-- One payload is revised to another by an operation. -/
def Operation.Revised (op : Operation) (handle : Handle) (before after : Payload) : Prop :=
  ∃ change, op.Revises handle change ∧ after = change before

namespace Heap
variable {earlier middle later heap : Heap} {revised further : Handle → Payload → Payload → Prop}

/-- What was issued stays issued, and what is still there has been there all the time, with a payload
that was only revised. -/
structure Later (revised : Handle → Payload → Payload → Prop) (earlier later : Heap) : Prop where
  issued : ∀ handle, earlier.Issued handle → later.Issued handle
  payload : ∀ handle, earlier.Issued handle → ∀ after, later.payloadAt handle = some after →
    ∃ before, earlier.payloadAt handle = some before ∧
      Relation.ReflTransGen (revised handle) before after

namespace Later

theorem of_eq (issued : ∀ handle, later.Issued handle ↔ earlier.Issued handle)
    (payloads : ∀ handle, later.payloadAt handle = earlier.payloadAt handle) :
    Later revised earlier later where
  issued := fun handle => (issued handle).2
  payload := fun handle _ after found => ⟨after, (payloads handle).symm.trans found, .refl⟩

theorem refl (heap : Heap) : Later revised heap heap := of_eq (fun _ => Iff.rfl) fun _ => rfl

theorem trans (first : Later revised earlier middle) (second : Later revised middle later) :
    Later revised earlier later where
  issued := fun handle issued => second.issued handle (first.issued handle issued)
  payload := by
    intro handle issued after found
    obtain ⟨between, held, later⟩ := second.payload handle (first.issued handle issued) after found
    obtain ⟨before, held, sooner⟩ := first.payload handle issued between held
    exact ⟨before, held, sooner.trans later⟩

theorem mono (later : Later revised earlier middle)
    (more : ∀ handle before after, revised handle before after → further handle before after) :
    Later further earlier middle where
  issued := later.issued
  payload := by
    intro handle issued after found
    obtain ⟨before, held, steps⟩ := later.payload handle issued after found
    exact ⟨before, held, Relation.ReflTransGen.mono (more handle) _ _ steps⟩

/-- Losing objects revises nothing. -/
theorem of_loses {gone : List Handle} (loses : earlier.Loses gone later) :
    Later revised earlier later where
  issued := fun handle => (loses.issued handle).2
  payload := by
    intro handle _ after found
    rw [loses.payloads] at found
    split at found
    · cases found
    · exact ⟨after, found, .refl⟩

/-- A new object takes no old one's place. -/
theorem of_grown (heap : Heap) (payload : Payload) (dispatch : Option Handle) :
    Later revised heap (heap.grown payload dispatch) where
  issued := fun _ issued => issued_grown.2 (.inr issued)
  payload := by
    intro handle issued after found
    rw [payloadAt_grown (ne_nextHandle issued)] at found
    exact ⟨after, found, .refl⟩

theorem of_revise (heap : Heap) (handle : Handle) (change : Payload → Payload)
    (allowed : ∀ before, revised handle before (change before)) :
    Later revised heap
      (heap.modify handle fun object => { object with payload := change object.payload }) where
  issued := fun other => (heap.issued_modify handle _ other).2
  payload := by
    intro other _ after found
    rw [payloadAt, get?_modify] at found
    by_cases same : other = handle
    · subst same
      simp only [if_pos, Option.map_map] at found
      obtain ⟨object, held, rfl⟩ := Option.map_eq_some_iff.1 found
      exact ⟨object.payload, payloadAt_of_get? held, .single (allowed object.payload)⟩
    · rw [if_neg same] at found
      exact ⟨after, found, .refl⟩

theorem of_clearMarks (heap : Heap) : Later revised heap heap.clearMarks := by
  refine of_eq heap.issued_clearMarks fun handle => ?_
  rw [payloadAt, get?_clearMarks, Option.map_map]
  rfl

end Later
end Heap

/-- An operation leads to a later heap, with its own revisions. -/
theorem Operation.later (op : Operation) (heap : Heap) :
    heap.Later op.Revised (op.perform heap).heap := by
  have kept : op.Preserves fun _ after => heap.Later op.Revised after := by
    constructor
    case allocate =>
      intro _ after payload dispatch _ held
      obtain ⟨failure, news, -, refused⟩ | granted := after.allocateWith_cases payload dispatch
      · rw [Step.Leaves, refused]
        exact held
      · rw [Step.Leaves, granted]
        exact held.trans (.of_grown after payload dispatch)
    case free =>
      intro _ after target _ held
      exact held.trans (.of_loses (after.loses_free target).1)
    case sweep =>
      intro _ after _ held
      exact held.trans (.of_loses after.loses_sweep.1)
    case clearMarks =>
      intro _ after _ held
      exact held.trans (.of_clearMarks after)
    case revise =>
      intro _ after handle change revises held
      exact held.trans (.of_revise after handle change fun _ => ⟨change, revises, rfl⟩)
    case stamp =>
      intro _ after handle change _ held
      exact held.trans (.of_loses (after.loses_modifyHeader handle change))
    case settle =>
      intro _ after builtins links _ held
      exact held.trans (.of_eq (fun _ => Iff.rfl) fun _ => rfl)
    case report =>
      intro _ after notice _ held
      exact held
  exact kept.performs (.refl heap)

/-! ## Objects that a creation returns -/

/-- A step that has a result returns the newest object. -/
def Step.Bears (step : Step Handle) : Prop :=
  ∀ handle, step.outcome = .ok handle → (newborns step.notices).head? = some handle

theorem bears_andThen {α : Type} {step : Step α} {next : α → Heap → Step Handle}
    (second : ∀ result heap, (next result heap).Bears) : (step.andThen next).Bears := by
  intro handle returned
  rw [Step.andThen] at returned ⊢
  split at returned
  · next result _ =>
    have newest := second result step.heap handle returned
    simp only [Step.after, newborns_append, List.head?_append, newest, Option.some_or]
  · cases returned

theorem bears_allocateWith (heap : Heap) (payload : Payload) (dispatch : Option Handle) :
    (heap.allocateWith payload dispatch).Bears := by
  intro handle returned
  obtain ⟨failure, told, -, refused⟩ | granted := heap.allocateWith_cases payload dispatch
  · rw [refused] at returned
    cases returned
  · rw [granted] at returned ⊢
    cases returned
    rfl

theorem Creation.bears (creation : Creation) (heap : Heap) : (creation.perform heap).Bears := by
  cases creation with
  | closure code => exact bears_andThen fun _ _ => bears_allocateWith _ _ _
  | instanceOf ofClass => exact bears_andThen fun _ _ => bears_allocateWith _ _ _
  | boundMethod receiver method =>
    refine bears_andThen fun object heap => ?_
    split
    · exact bears_allocateWith _ _ _
    · exact bears_allocateWith _ _ _
    · intro handle returned
      cases returned
  | namedClass name => exact bears_andThen fun _ _ => bears_allocateWith _ _ _
  | namedNameSpace name => exact bears_andThen fun _ _ => bears_allocateWith _ _ _
  | _ => exact bears_allocateWith _ _ _

/-! ## Whole runs -/

namespace History
variable {past : History}

/-- One payload is revised to another by one of these operations. -/
def Revised (ops : List Operation) (handle : Handle) (before after : Payload) : Prop :=
  ∃ op ∈ ops, op.Revised handle before after

theorem later_after (past : History) (ops : List Operation) :
    past.heap.Later (Revised ops) (past.after ops).heap := by
  refine after_keeps (fun between => past.heap.Later (Revised ops) between.heap)
    (.refl past.heap) ?_
  intro between op listed held
  have further : between.heap.Later (Revised ops) (between.perform op).heap :=
    (op.later between.heap).mono fun _ _ _ revised => ⟨op, listed, revised⟩
  exact held.trans further

/-- Revisions leave the kind of a payload. -/
theorem type_eq_of_revised {ops : List Operation} {handle : Handle} {before after : Payload}
    (steps : Relation.ReflTransGen (Revised ops handle) before after) : after.type = before.type := by
  induction steps with
  | refl => rfl
  | tail _ last ih =>
    obtain ⟨op, _, change, revises, rfl⟩ := last
    exact (revises.type_eq _).trans ih

namespace Sound

theorem contains_iff (sound : past.Sound) {handle : Handle} :
    past.heap.contains handle = true ↔ handle ∈ past.issued ∧ handle ∉ past.removed := by
  constructor
  · intro live
    have listed := (sound.issued handle).2 (Heap.issued_of_contains live)
    exact ⟨listed, (sound.live handle listed).1 live⟩
  · rintro ⟨listed, kept⟩
    exact (sound.live handle listed).2 kept

/-- An allocation that is granted returns a handle that no object ever had. -/
theorem allocated (sound : past.Sound) {payload : Payload} {dispatch : Option Handle} {handle : Handle}
    (granted : (past.heap.allocateWith payload dispatch).outcome = .ok handle) :
    handle ∉ past.issued ∧
      (past.heap.allocateWith payload dispatch).heap.payloadAt handle = some payload := by
  obtain ⟨failure, told, -, refused⟩ | grown := past.heap.allocateWith_cases payload dispatch
  · rw [refused] at granted
    cases granted
  · rw [grown] at granted ⊢
    cases granted
    refine ⟨fun listed => past.heap.not_issued_nextHandle ((sound.issued _).1 listed), ?_⟩
    rw [Heap.payloadAt, Heap.get?_grown, if_pos rfl]
    rfl

/-- So does every creation, and the object is there afterwards. -/
theorem created (sound : past.Sound) {creation : Creation} {handle : Handle}
    (granted : (creation.perform past.heap).outcome = .ok handle) :
    handle ∉ past.issued ∧ (past.perform (.create creation)).issued.head? = some handle ∧
      (past.perform (.create creation)).heap.contains handle = true := by
  have sound' := sound.perform (.create creation)
  obtain ⟨older, born⟩ := List.head?_eq_some_iff.1 (creation.bears past.heap handle granted)
  have issued : (past.perform (.create creation)).issued = handle :: (older ++ past.issued) := by
    have told : newborns (creation.perform past.heap).notices ++ past.issued =
        handle :: (older ++ past.issued) := by
      rw [born, List.cons_append]
    exact told
  have distinct := sound'.distinct
  rw [issued] at distinct
  have fresh : handle ∉ past.issued := fun listed =>
    (List.nodup_cons.1 distinct).1 (List.mem_append_right older listed)
  refine ⟨fresh, by rw [issued, List.head?_cons], sound'.contains_iff.2 ⟨?_, ?_⟩⟩
  · rw [issued]
    exact List.mem_cons_self
  · exact fun removed => fresh (sound.removed handle removed)

/-- Handles that are the same are of the same allocation. -/
theorem same_iff (sound : past.Sound) {first second : Nat} {one other : Handle}
    (one_is : past.issued[first]? = some one) (other_is : past.issued[second]? = some other) :
    Value.same (.object one) (.object other) = true ↔ first = second := by
  have inside : first < past.issued.length := (List.getElem?_eq_some_iff.1 one_is).1
  rw [Value.same, beq_iff_eq]
  constructor
  · intro same
    have twice : past.issued[first]? = past.issued[second]? := by rw [one_is, other_is, same]
    exact (List.getElem?_inj inside sound.distinct).1 twice
  · rintro rfl
    exact Option.some.inj (one_is.symm.trans other_is)

end Sound

/-- **Handle safety.** After any run, whatever headers the host has written in it and however it goes
on: no handle was issued twice; a handle finds an object exactly if it was issued and neither freeing
nor sweeping has removed its object; once it finds none it never will again, though its slot is used
again; as long as it finds one, this is of the same kind, and its payload comes from what it was by
revisions of the operations in between. What is allocated next gets a handle that was not issued
before and is found under it. Values of objects are the same exactly if they are of one allocation. -/
theorem handles_run (config : HeapConfig) (ops more : List Operation) :
    let past := run config ops
    let later := run config (ops ++ more)
    past.issued.Nodup ∧
      (∀ handle, past.heap.contains handle = true ↔
        handle ∈ past.issued ∧ handle ∉ past.removed) ∧
      (∀ handle ∈ past.issued, past.heap.get? handle = none → later.heap.get? handle = none) ∧
      (∀ handle before after, past.heap.get? handle = some before →
        later.heap.get? handle = some after →
        after.payload.type = before.payload.type ∧
          Relation.ReflTransGen (Revised more handle) before.payload after.payload) ∧
      (∀ payload dispatch handle,
        (past.heap.allocateWith payload dispatch).outcome = .ok handle →
        handle ∉ past.issued ∧
          (past.heap.allocateWith payload dispatch).heap.payloadAt handle = some payload) ∧
      (∀ creation handle, (creation.perform past.heap).outcome = .ok handle →
        handle ∉ past.issued ∧ (past.perform (.create creation)).issued.head? = some handle ∧
          (past.perform (.create creation)).heap.contains handle = true) ∧
      ∀ (first second : Nat) (one other : Handle), past.issued[first]? = some one →
        past.issued[second]? = some other →
        (Value.same (.object one) (.object other) = true ↔ first = second) := by
  intro past later
  have sound : past.Sound := sound_run config ops
  have onwards : past.heap.Later (Revised more) later.heap := by
    have further := later_after past more
    rwa [← run_append] at further
  refine ⟨sound.distinct, fun _ => sound.contains_iff, ?_, ?_, fun _ _ _ => sound.allocated,
    fun _ _ => sound.created, fun _ _ _ _ => sound.same_iff⟩
  · intro handle listed gone
    cases found : later.heap.get? handle with
    | none => rfl
    | some after =>
      obtain ⟨before, held, _⟩ := onwards.payload handle ((sound.issued handle).1 listed) _
        (Heap.payloadAt_of_get? found)
      rw [Heap.payloadAt, gone] at held
      cases held
  · intro handle before after held found
    have issued := Heap.issued_of_contains (Heap.contains_of_get? held)
    obtain ⟨was, there, steps⟩ := onwards.payload handle issued _ (Heap.payloadAt_of_get? found)
    obtain rfl := Option.some.inj ((Heap.payloadAt_of_get? held).symm.trans there)
    exact ⟨type_eq_of_revised steps, steps⟩

/-- A map is freed and its slot used again, for an array. -/
theorem handles_reused :
    let past := run .default [.create .map, .create (.upvalue 7), .free ⟨⟨0, 0⟩⟩]
    let later := run .default ([.create .map, .create (.upvalue 7), .free ⟨⟨0, 0⟩⟩] ++
      [.create (.array #[]), .closeUpvalues (some ⟨⟨1, 0⟩⟩) 7 (Array.replicate 8 .null)])
    past.issued = [⟨⟨1, 0⟩⟩, ⟨⟨0, 0⟩⟩] ∧ later.heap.get? ⟨⟨0, 0⟩⟩ = none ∧
      later.heap.contains ⟨⟨0, 1⟩⟩ = true ∧ Value.same (.object ⟨⟨1, 0⟩⟩) (.object ⟨⟨0, 0⟩⟩) = false := by
  have safe := handles_run .default [.create .map, .create (.upvalue 7), .free ⟨⟨0, 0⟩⟩]
    [.create (.array #[]), .closeUpvalues (some ⟨⟨1, 0⟩⟩) 7 (Array.replicate 8 .null)]
  have different := safe.2.2.2.2.2.2 0 1 ⟨⟨1, 0⟩⟩ ⟨⟨0, 0⟩⟩ (by decide) (by decide)
  refine ⟨by decide, safe.2.2.1 _ (by decide) (by decide), by decide, ?_⟩
  rw [Bool.eq_false_iff]
  exact fun same => absurd (different.1 same) (by decide)

end History
end ScriptHeap
