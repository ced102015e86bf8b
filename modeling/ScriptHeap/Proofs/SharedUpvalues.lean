import ScriptHeap.Proofs.OpenList
import ScriptHeap.Proofs.Operations

/-! Captured variables are shared. An interpreter passes the head of its list of open upvalues on from one
call to the next, and other operations happen in between. As long as these leave the upvalues on the list
alone, the list has just the slots captured and not closed since, and all captures of a slot between two
closes that reach it get the same upvalue. -/
namespace ScriptHeap

/-- The heap with what an interpreter keeps beside it. -/
structure Interpreter where
  heap : Heap
  /-- Where the list of open upvalues begins. -/
  head : Option Handle
  /-- The slots captured and not closed since. The program keeps no account of them. -/
  captured : List Nat

namespace Interpreter

/-- What happens to the heap of an interpreter. -/
inductive Action where
  | capture (slot : Nat)
  | close (lowest : Nat) (stack : Stack)
  | operate (op : Operation)

/-- Whether an action closes the upvalue over a slot. -/
def Action.Reaches (slot : Nat) : Action → Prop
  | .close lowest _ => lowest ≤ slot
  | _ => False

def start (heap : Heap) : Interpreter := ⟨heap, none, []⟩

def perform (state : Interpreter) : Action → Interpreter
  | .capture slot =>
    let step := state.heap.capture state.head slot
    match step.outcome with
    | .ok found => ⟨step.heap, found.head, slot :: state.captured⟩
    | .error _ => { state with heap := step.heap }
  | .close lowest stack =>
    let step := state.heap.closeUpvalues state.head lowest stack
    match step.outcome with
    | .ok rest => ⟨step.heap, rest, state.captured.filter (· < lowest)⟩
    | .error _ => { state with heap := step.heap }
  | .operate op => { state with heap := (op.perform state.heap).heap }

def after (state : Interpreter) (actions : List Action) : Interpreter := actions.foldl perform state

/-- What the interpreter sees to: it closes slots of the stack only, and lets no upvalue on its list be
freed, linked elsewhere or closed directly. -/
def Permits (state : Interpreter) : Action → Prop
  | .capture _ => True
  | .close lowest stack => ∀ slot ∈ state.captured, lowest ≤ slot → slot < stack.size
  | .operate op => ∀ handle ∈ (state.heap.openUpvalues state.head).map Prod.fst,
    (op.perform state.heap).heap.view? .upvalue handle = state.heap.view? .upvalue handle

def Permitted : Interpreter → List Action → Prop
  | _, [] => True
  | state, action :: later => state.Permits action ∧ (state.perform action).Permitted later

instance : (state : Interpreter) → (action : Action) → Decidable (state.Permits action)
  | _, .capture _ => isTrue trivial
  | state, .close lowest stack =>
    inferInstanceAs (Decidable (∀ slot ∈ state.captured, lowest ≤ slot → slot < stack.size))
  | state, .operate op =>
    inferInstanceAs (Decidable (∀ handle ∈ (state.heap.openUpvalues state.head).map Prod.fst,
      (op.perform state.heap).heap.view? .upvalue handle = state.heap.view? .upvalue handle))

instance Permitted.decide : (state : Interpreter) → (actions : List Action) →
    Decidable (state.Permitted actions)
  | _, [] => isTrue trivial
  | state, action :: later =>
    have : Decidable ((state.perform action).Permitted later) := Permitted.decide _ later
    inferInstanceAs (Decidable (state.Permits action ∧ (state.perform action).Permitted later))

/-! ## What each action keeps -/

/-- The list is in order, and its slots are those captured and not closed since. -/
structure Holds (state : Interpreter) (entries : List (Handle × Nat)) : Prop where
  list : state.heap.OpenList state.head entries
  captured : ∀ slot, slot ∈ state.captured ↔ slot ∈ entries.map Prod.snd

variable {state : Interpreter} {entries : List (Handle × Nat)} {slot lowest : Nat} {stack : Stack}

theorem holds_start (heap : Heap) : (start heap).Holds [] := ⟨heap.openList_nil, by simp [start]⟩

namespace Holds

/-- What was on the list stays on it, and what a capture gives is on it too. -/
theorem capture (holds : state.Holds entries) (slot : Nat) :
    ∃ later, (state.perform (.capture slot)).Holds later ∧ entries ⊆ later ∧
      ∀ found, (state.heap.capture state.head slot).outcome = .ok found →
        (found.upvalue, slot) ∈ later := by
  have captures := holds.list.captures slot
  rw [perform]
  generalize state.heap.capture state.head slot = step at captures ⊢
  cases captures with
  | @shared handle listed =>
    refine ⟨entries, ⟨holds.list, fun other => ?_⟩, List.Subset.refl _, ?_⟩
    · have member : slot ∈ entries.map Prod.snd := List.mem_map.2 ⟨_, listed, rfl⟩
      show other ∈ slot :: state.captured ↔ _
      rw [List.mem_cons, holds.captured other]
      exact ⟨fun either => either.elim (fun same => same ▸ member) id, .inr⟩
    · rintro found ⟨⟩
      exact listed
  | refused unlisted full =>
    exact ⟨entries, ⟨holds.list, holds.captured⟩, List.Subset.refl _, fun found got => nomatch got⟩
  | @inserted created _ _ _ front back unlisted granted fresh place list =>
    refine ⟨front ++ (created, slot) :: back, ⟨list, fun other => ?_⟩, fun entry listed => ?_, ?_⟩
    · rw [List.mem_cons, holds.captured other, place]
      simp only [List.map_append, List.map_cons, List.mem_append, List.mem_cons]
      exact or_left_comm
    · rw [place, List.mem_append] at listed
      exact List.mem_append.2 (listed.imp_right (List.mem_cons_of_mem _))
    · rintro found ⟨⟩
      simp

theorem inside (holds : state.Holds entries) (permits : state.Permits (.close lowest stack)) :
    ∀ entry ∈ entries, lowest ≤ entry.2 → entry.2 < stack.size := fun entry listed =>
  permits entry.2 ((holds.captured entry.2).2 (List.mem_map_of_mem listed))

theorem close (holds : state.Holds entries) (permits : state.Permits (.close lowest stack)) :
    (state.perform (.close lowest stack)).Holds (entries.filter (·.2 < lowest)) := by
  obtain ⟨rest, outcome, list⟩ := (holds.list.closes (holds.inside permits)).list
  simp only [perform, outcome]
  refine ⟨list, fun slot => ?_⟩
  simp only [List.mem_filter, holds.captured, List.mem_map, decide_eq_true_eq]
  constructor
  · rintro ⟨⟨entry, listed, rfl⟩, below⟩
    exact ⟨entry, ⟨listed, below⟩, rfl⟩
  · rintro ⟨entry, ⟨listed, below⟩, rfl⟩
    exact ⟨⟨entry, listed, rfl⟩, below⟩

theorem operate {op : Operation} (holds : state.Holds entries) (permits : state.Permits (.operate op)) :
    (state.perform (.operate op)).Holds entries := by
  refine ⟨holds.list.congr fun entry listed => permits entry.1 ?_, holds.captured⟩
  rw [holds.list.map_fst_openUpvalues]
  exact List.mem_map_of_mem listed

/-- A permitted action keeps the list in order, with every upvalue that it does not reach. -/
theorem perform {action : Action} (holds : state.Holds entries) (permits : state.Permits action) :
    ∃ later, (state.perform action).Holds later ∧
      ∀ entry ∈ entries, ¬ action.Reaches entry.2 → entry ∈ later := by
  cases action with
  | capture slot =>
    obtain ⟨later, held, kept, -⟩ := holds.capture slot
    exact ⟨later, held, fun entry listed _ => kept listed⟩
  | close lowest stack =>
    refine ⟨_, holds.close permits, fun entry listed beyond => ?_⟩
    exact List.mem_filter.2 ⟨listed, by simpa using Nat.lt_of_not_le beyond⟩
  | operate op => exact ⟨entries, holds.operate permits, fun entry listed _ => listed⟩

/-- So does a permitted run. -/
theorem after {actions : List Action} (holds : state.Holds entries)
    (permitted : state.Permitted actions) :
    ∃ later, (state.after actions).Holds later ∧
      ∀ entry ∈ entries, (∀ action ∈ actions, ¬ action.Reaches entry.2) → entry ∈ later := by
  induction actions generalizing state entries with
  | nil => exact ⟨entries, holds, fun entry listed _ => listed⟩
  | cons action actions ih =>
    obtain ⟨middle, held, kept⟩ := holds.perform permitted.1
    obtain ⟨later, holding, keeping⟩ := ih held permitted.2
    refine ⟨later, holding, fun entry listed apart => ?_⟩
    exact keeping entry (kept entry listed (apart action List.mem_cons_self)) fun other member =>
      apart other (List.mem_cons_of_mem _ member)

/-- What was captured once is captured again as long as nothing closes it. -/
theorem capture_again {found : Heap.Capture} {later : List Action} (holds : state.Holds entries)
    (captured : (state.heap.capture state.head slot).outcome = .ok found)
    (permitted : (state.perform (.capture slot)).Permitted later)
    (apart : ∀ action ∈ later, ¬ action.Reaches slot) :
    let last := (state.perform (.capture slot)).after later
    last.heap.capture last.head slot = Step.done last.heap ⟨found.upvalue, last.head⟩ := by
  obtain ⟨middle, held, -, listed⟩ := holds.capture slot
  obtain ⟨entries, holding, kept⟩ := held.after permitted
  exact holding.list.capture_of_mem (kept _ (listed found captured) apart)

end Holds

/-- **Shared upvalues.** After any run of captures, closes and other operations that leave the upvalues on
the list alone, the links from the head lead through live open upvalues over falling slots to an end, and
these are the slots captured and not closed since. A capture gives the upvalue that is on the list and
changes nothing, or puts one new object in its place on the list, or is refused as any upvalue would be; a
close takes the values of the slots that it reaches along, and lets all other upvalues be; and until a slot
is reached by a close, all captures of it give the same upvalue. -/
theorem openList_run (heap : Heap) (actions : List Action)
    (permitted : (start heap).Permitted actions) :
    let state := (start heap).after actions
    ∃ entries, state.heap.OpenList state.head entries ∧
      state.heap.openSlots state.head = entries.map Prod.snd ∧
      (∀ slot, slot ∈ state.captured ↔ slot ∈ entries.map Prod.snd) ∧
      (∀ slot, state.heap.Captures state.head entries slot (state.heap.capture state.head slot)) ∧
      (∀ lowest stack, state.Permits (.close lowest stack) →
        state.heap.Closes entries lowest stack
          (state.heap.closeUpvalues state.head lowest stack)) ∧
      ∀ slot found, (state.heap.capture state.head slot).outcome = .ok found →
        ∀ later, (state.perform (.capture slot)).Permitted later →
          (∀ action ∈ later, ¬ action.Reaches slot) →
          let last := (state.perform (.capture slot)).after later
          last.heap.capture last.head slot = Step.done last.heap ⟨found.upvalue, last.head⟩ := by
  intro state
  obtain ⟨entries, holds, -⟩ := (holds_start heap).after permitted
  exact ⟨entries, holds.list, holds.list.openSlots_eq, holds.captured, holds.list.captures,
    fun lowest stack permits => holds.list.closes (holds.inside permits),
    fun slot found captured later permitted apart => holds.capture_again captured permitted apart⟩

/-- Two slots are captured, with an allocation in between, and the higher one is closed; then a third one
is captured. -/
def sharing : List Action :=
  [.capture 1, .operate (.create .map), .capture 3, .close 2 #[.null, .null, .null, .integer 7],
    .capture 0]

/-- The slot captured first is captured again with the same upvalue, also after another close. -/
theorem openList_sharing :
    let state := (start (.ofConfig .default)).after sharing
    state.heap.openSlots state.head = [1, 0] ∧
      state.heap.view? .upvalue ⟨⟨2, 0⟩⟩ = some ⟨.closed (.integer 7), none⟩ ∧
      let last := (state.perform (.capture 1)).after [.capture 2, .close 2 #[.null, .null, .null]]
      last.heap.capture last.head 1 = Step.done last.heap ⟨⟨⟨0, 0⟩⟩, last.head⟩ := by
  obtain ⟨_, -, -, -, -, -, again⟩ := openList_run (.ofConfig .default) sharing (by decide)
  refine ⟨by decide, by decide, ?_⟩
  refine again 1 ⟨⟨⟨0, 0⟩⟩, some ⟨⟨0, 0⟩⟩⟩ (by decide) _ (by decide) ?_
  simp [Action.Reaches]

/-- An upvalue on the list that is closed directly is neither freed nor linked elsewhere, and stays on the
list. The search stops at it, so the slot behind it is captured a second time while its first upvalue is
on the list and open. -/
theorem openList_severed :
    let before := (start (.ofConfig .default)).after [.capture 0, .capture 1]
    let closing (upvalue : Upvalue) : Upvalue :=
      ((upvalue.close #[.null, .null]).map Prod.snd).toOption.getD upvalue
    let state := before.perform (.operate (.edit .upvalue ⟨⟨1, 0⟩⟩ closing))
    (∀ handle ∈ (before.heap.openUpvalues before.head).map Prod.fst,
        (state.heap.following? handle).isSome = true ∧
          state.heap.following? handle = before.heap.following? handle) ∧
      state.heap.openUpvalues state.head =
        [(⟨⟨1, 0⟩⟩, ⟨.closed .null, some ⟨⟨0, 0⟩⟩⟩), (⟨⟨0, 0⟩⟩, ⟨.opened 0, none⟩)] ∧
      (state.heap.capture state.head 0).outcome = .ok ⟨⟨⟨2, 0⟩⟩, some ⟨⟨2, 0⟩⟩⟩ := by
  decide

end Interpreter
end ScriptHeap
