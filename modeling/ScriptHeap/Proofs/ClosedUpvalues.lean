import ScriptHeap.Proofs.HandleSafety
import ScriptHeap.Proofs.KindAgreement
import ScriptHeap.Proofs.OpenList

/-! Closing is not seen by what reads a captured variable. The stack falls short of a slot that is to be
closed only if it falls short of the highest one, and then no upvalue is closed. Otherwise every upvalue of
the heap reads what it read before; and one that was closed has a value of its own from then on, which
nothing but a write through it changes. -/
namespace ScriptHeap

namespace Upvalue

/-- The upvalue after a write, whether there was anything to write to or not. -/
def set (upvalue : Upvalue) (stack : Stack) (value : Value) : Upvalue :=
  ((upvalue.write? stack value).map Prod.fst).getD upvalue

theorem read_of_closed {upvalue : Upvalue} {value : Value} (closed : upvalue.state = .closed value)
    (stack : Stack) : upvalue.read stack = some value := by
  rw [read, closed]

theorem state_set_of_closed {upvalue : Upvalue} {held : Value} (closed : upvalue.state = .closed held)
    (stack : Stack) (value : Value) : (upvalue.set stack value).state = .closed value := by
  rw [set, write?, closed]
  rfl

theorem slot?_of_closed {upvalue : Upvalue} {value : Value} (closed : upvalue.state = .closed value) :
    upvalue.slot? = none := by
  rw [slot?, closed]

end Upvalue

namespace Heap
variable {heap : Heap} {head : Option Handle} {entries : List (Handle × Nat)} {handle : Handle}
variable {slot lowest : Nat} {stack : Stack} {value : Value} {step : Step (Option Handle)}

/-- The upvalue of a handle, while it lives, is closed with a value. -/
def ClosedWith (heap : Heap) (handle : Handle) (value : Value) : Prop :=
  ∀ upvalue, heap.view? .upvalue handle = some upvalue → upvalue.state = .closed value

/-! ## One close -/

namespace OpenList

/-- Closing is stopped by the highest slot if it is to be closed and the stack does not have it, and then
nothing has happened; or else it is not stopped at all. -/
theorem closeUpvalues_cases (list : heap.OpenList head entries) (lowest : Nat) (stack : Stack) :
    (∃ entry ∈ entries.head?, lowest ≤ entry.2 ∧ stack.size ≤ entry.2 ∧
      heap.closeUpvalues head lowest stack =
        Step.defect heap (.closingPastStackEnd entry.2)) ∨
    (∀ entry ∈ entries.head?, lowest ≤ entry.2 → entry.2 < stack.size) ∧
      heap.Closes entries lowest stack (heap.closeUpvalues head lowest stack) := by
  by_cases inside : ∀ entry ∈ entries.head?, lowest ≤ entry.2 → entry.2 < stack.size
  · refine .inr ⟨inside, list.closes fun one listed reached => ?_⟩
    cases entries with
    | nil => cases listed
    | cons entry entries =>
      -- no slot is higher than the first
      rcases List.mem_cons.mp listed with rfl | later
      · exact inside one rfl reached
      · have below := (List.pairwise_cons.mp list.falling).1 one later
        exact Nat.lt_trans below (inside entry rfl (Nat.le_of_lt (Nat.lt_of_le_of_lt reached below)))
  · simp only [not_forall, Nat.not_lt] at inside
    obtain ⟨entry, first, reached, past⟩ := inside
    refine .inl ⟨entry, first, reached, past, ?_⟩
    obtain ⟨entries, rfl⟩ := List.head?_eq_some_iff.mp first
    obtain ⟨next, seen⟩ := list.exists_view? List.mem_cons_self
    obtain ⟨rfl, -⟩ := list.tail seen
    obtain ⟨count, room⟩ : ∃ count, heap.openCount = count + 1 :=
      Nat.exists_eq_add_one.mpr (Nat.lt_of_lt_of_le Nat.zero_lt_one
        (Nat.le_trans (by simp) list.length_le_openCount))
    have gone : stack[entry.2]? = none := Array.getElem?_eq_none past
    rw [closeUpvalues, room, Heap.closeWithin, seen]
    simp only [Upvalue.slot?, Option.any_some, reached, decide_true, ↓reduceIte, Upvalue.close, gone]

end OpenList

namespace Closes

/-- An upvalue either was on the list and reached, or has not been touched. -/
theorem upvalue_cases (closes : heap.Closes entries lowest stack step)
    (list : heap.OpenList head entries) (handle : Handle) :
    (∃ slot value next, lowest ≤ slot ∧ stack[slot]? = some value ∧
      heap.view? .upvalue handle = some ⟨.opened slot, next⟩ ∧
      step.heap.view? .upvalue handle = some ⟨.closed value, none⟩) ∨
    step.heap.view? .upvalue handle = heap.view? .upvalue handle := by
  by_cases reached : ∃ entry ∈ entries, lowest ≤ entry.2 ∧ entry.1 = handle
  · obtain ⟨entry, listed, high, rfl⟩ := reached
    obtain ⟨object, value, -, held, after⟩ := closes.closed entry listed high
    obtain ⟨next, seen⟩ := list.exists_view? listed
    refine .inl ⟨entry.2, value, next, high, held, seen, ?_⟩
    rw [view?, after]
    rfl
  · refine .inr ?_
    rw [view?, view?, closes.others handle fun entry listed high same =>
      reached ⟨entry, listed, high, same⟩]

/-- Every upvalue reads what it read. -/
theorem read_eq (closes : heap.Closes entries lowest stack step) (list : heap.OpenList head entries)
    (handle : Handle) :
    (step.heap.view? .upvalue handle).map (·.read stack) =
      (heap.view? .upvalue handle).map (·.read stack) := by
  rcases closes.upvalue_cases list handle with ⟨slot, value, next, -, held, seen, after⟩ | same
  · simp only [seen, after, Option.map_some, Upvalue.read, held]
  · rw [same]

theorem slotOf?_eq_none (closes : heap.Closes entries lowest stack step) {entry : Handle × Nat}
    (listed : entry ∈ entries) (reached : lowest ≤ entry.2) : step.heap.slotOf? entry.1 = none := by
  obtain ⟨object, value, -, -, after⟩ := closes.closed entry listed reached
  rw [slotOf?, view?, after]
  rfl

/-- An upvalue that has been closed holds the value of its slot. -/
theorem closedWith (closes : heap.Closes entries lowest stack step)
    (list : heap.OpenList head entries) (before : heap.slotOf? handle = some slot)
    (after : step.heap.slotOf? handle = none) :
    ∃ value, stack[slot]? = some value ∧ step.heap.Issued handle ∧
      step.heap.ClosedWith handle value := by
  rcases closes.upvalue_cases list handle with ⟨own, value, next, -, held, seen, closed⟩ | same
  · rw [slotOf?, seen] at before
    cases before
    refine ⟨value, held, ?_, fun upvalue found => ?_⟩
    · exact issued_of_contains (contains_of_view? (Option.isSome_of_eq_some closed))
    · rw [closed] at found
      cases found
      rfl
  · rw [slotOf?, same] at after
    rw [slotOf?, after] at before
    cases before

end Closes
end Heap

/-! ## From then on -/

namespace Operation
variable {op : Operation} {heap : Heap} {handle : Handle} {value : Value}

/-- The host does not reach into the state of a closed upvalue but by writing through it. -/
def SparesClosed : Operation → Prop
  | .edit .upvalue _ change =>
    ∀ upvalue : Upvalue, upvalue.isOpen = false → Upvalue.state (change upvalue) = upvalue.state
  | _ => True

/-- A revision leaves the value of a closed upvalue. -/
theorem Revises.spares_closed {change : Payload → Payload} (revises : op.Revises handle change)
    (spares : op.SparesClosed) {payload : Payload}
    (closed : ∀ upvalue, Variant.upvalue.project payload = some upvalue → upvalue.state = .closed value)
    (upvalue : Upvalue) (seen : Variant.upvalue.project (change payload) = some upvalue) :
    upvalue.state = .closed value := by
  by_cases aside : op.revisedKind? = some .upvalue
  case neg =>
    rw [revises.project_of_ne aside] at seen
    exact closed upvalue seen
  cases revises with
  | @edit type target change =>
    cases aside
    have edited : (Variant.upvalue.project payload).map change = some upvalue := by
      rw [← seen]
      exact (Variant.upvalue.project_modify change payload).symm
    obtain ⟨held, found, rfl⟩ := Option.map_eq_some_iff.mp edited
    have shut := closed held found
    refine (spares held ?_).trans shut
    rw [Upvalue.isOpen, Upvalue.slot?_of_closed shut]
    rfl
  | capture =>
    rw [Variant.project_modify] at seen
    obtain ⟨held, found, rfl⟩ := Option.map_eq_some_iff.mp seen
    exact closed held found
  | closeUpvalues =>
    rw [Variant.project_modify] at seen
    obtain ⟨held, found, rfl⟩ := Option.map_eq_some_iff.mp seen
    have shut := closed held found
    rw [if_neg (by simp [Upvalue.slot?_of_closed shut])]
    exact shut
  | _ => cases aside

/-- Whatever happens to the heap, an upvalue that is closed stays so, with its value, until it is gone. -/
theorem closedWith_perform (op : Operation) (spares : op.SparesClosed) (issued : heap.Issued handle)
    (closed : heap.ClosedWith handle value) : (op.perform heap).heap.ClosedWith handle value := by
  intro upvalue seen
  rw [Heap.view?_eq_payloadAt] at seen
  obtain ⟨payload, found, projected⟩ := Option.bind_eq_some_iff.mp seen
  obtain ⟨before, held, steps⟩ := (op.later heap).payload handle issued payload found
  have kept : ∀ one, Variant.upvalue.project payload = some one → one.state = .closed value := by
    clear projected found
    induction steps with
    | refl =>
      intro one shown
      apply closed one
      rw [Heap.view?_eq_payloadAt, held, Option.bind_some, shown]
    | tail _ last ih =>
      obtain ⟨change, revises, rfl⟩ := last
      exact revises.spares_closed spares ih
  exact kept upvalue projected

end Operation

/-- What may happen while closures use captured variables: one of them is written through, on whatever
stack there is, or something else happens to the heap. -/
inductive Use where
  | set (target : Handle) (stack : Stack) (value : Value)
  | operate (op : Operation)

namespace Use
variable {heap : Heap} {handle : Handle} {value : Value}

def perform (heap : Heap) : Use → Heap
  | .set target stack value => heap.update .upvalue target (·.set stack value)
  | .operate op => (op.perform heap).heap

/-- The value that is set through an upvalue. -/
def written? (handle : Handle) : Use → Option Value
  | .set target _ value => if target = handle then some value else none
  | .operate _ => none

def SparesClosed : Use → Prop
  | .set .. => True
  | .operate op => op.SparesClosed

/-- A use leaves a closed upvalue with the value set, if one is set through it. -/
theorem closedWith (use : Use) (spares : use.SparesClosed) (issued : heap.Issued handle)
    (closed : heap.ClosedWith handle value) :
    (use.perform heap).Issued handle ∧
      (use.perform heap).ClosedWith handle ((use.written? handle).getD value) := by
  cases use with
  | operate op =>
    exact ⟨(op.later heap).issued handle issued, op.closedWith_perform spares issued closed⟩
  | set target stack new =>
    refine ⟨(heap.issued_modify target _ handle).2 issued, fun upvalue seen => ?_⟩
    rw [perform, Heap.view?_update] at seen
    by_cases same : handle = target
    · subst same
      rw [if_pos rfl] at seen
      obtain ⟨held, found, rfl⟩ := Option.map_eq_some_iff.mp seen
      rw [written?, if_pos rfl]
      exact Upvalue.state_set_of_closed (closed held found) stack new
    · rw [if_neg same] at seen
      rw [written?, if_neg (Ne.symm same)]
      exact closed upvalue seen

/-- So it has the last value set through it, or else the one that it was closed with. -/
theorem closedWith_foldl (uses : List Use) (spares : ∀ use ∈ uses, use.SparesClosed)
    (issued : heap.Issued handle) (closed : heap.ClosedWith handle value) :
    (uses.foldl perform heap).ClosedWith handle
      ((uses.filterMap (written? handle)).getLast?.getD value) := by
  induction uses generalizing heap value with
  | nil => exact closed
  | cons use uses ih =>
    obtain ⟨first, rest⟩ := List.forall_mem_cons.mp spares
    obtain ⟨still, now⟩ := use.closedWith first issued closed
    have last := ih rest still now
    rw [List.foldl_cons]
    cases written : use.written? handle with
    | none =>
      rw [written] at last
      rwa [List.filterMap_cons_none written]
    | some new =>
      rw [written] at last
      rwa [List.filterMap_cons_some written, List.getLast?_cons]

end Use

namespace Heap

/-- **Closing is transparent.** On an open list in order, closing down to a slot fails exactly if the first
upvalue of the list is to be closed and the stack does not have its slot; the failure names that slot, and
the heap is as it was. Otherwise the upvalues of the list that are not below the slot are closed, and every
upvalue of the heap, closed or not, reads on the stack what it read before. Each upvalue that was closed has
the value of its slot, and whatever is written through it or else happens to the heap, it reads the last
value set through it, or the one it was closed with, as long as it lives and whatever the stack has
become. -/
theorem closeUpvalues_transparent (heap : Heap) (head : Option Handle) (entries : List (Handle × Nat))
    (lowest : Nat) (stack : Stack) (list : heap.OpenList head entries) :
    ((∃ failure, (heap.closeUpvalues head lowest stack).outcome = .error failure) ↔
      ∃ entry ∈ entries.head?, lowest ≤ entry.2 ∧ stack.size ≤ entry.2) ∧
    (∀ entry ∈ entries.head?, lowest ≤ entry.2 → stack.size ≤ entry.2 →
      ∃ cause : Defect, heap.closeUpvalues head lowest stack = Step.defect heap cause ∧
        cause.message = "closing upvalue over slot " ++ toString entry.2 ++ " past stack end") ∧
    ∀ rest, (heap.closeUpvalues head lowest stack).outcome = .ok rest →
      let closed := (heap.closeUpvalues head lowest stack).heap
      (∀ handle, (closed.view? .upvalue handle).map (·.read stack) =
        (heap.view? .upvalue handle).map (·.read stack)) ∧
      (∀ entry ∈ entries, lowest ≤ entry.2 → closed.slotOf? entry.1 = none) ∧
      ∀ handle slot, heap.slotOf? handle = some slot → closed.slotOf? handle = none →
        ∃ value, stack[slot]? = some value ∧
          ∀ uses : List Use, (∀ use ∈ uses, use.SparesClosed) →
            ∀ upvalue, (uses.foldl Use.perform closed).view? .upvalue handle = some upvalue →
              ∀ later : Stack, upvalue.read later =
                some ((uses.filterMap (Use.written? handle)).getLast?.getD value) := by
  rcases list.closeUpvalues_cases lowest stack with ⟨entry, first, reached, past, stopped⟩ | ⟨inside, closes⟩
  · refine ⟨?_, ?_, ?_⟩
    · exact iff_of_true ⟨_, by rw [stopped]; rfl⟩ ⟨entry, first, reached, past⟩
    · intro other same _ _
      obtain rfl := Option.some.inj (first.symm.trans same)
      exact ⟨_, stopped, rfl⟩
    · intro rest outcome
      rw [stopped] at outcome
      cases outcome
  · refine ⟨?_, ?_, ?_⟩
    · obtain ⟨rest, outcome, -⟩ := closes.list
      constructor
      · rintro ⟨failure, failed⟩
        rw [outcome] at failed
        cases failed
      · rintro ⟨entry, first, reached, past⟩
        exact absurd (inside entry first reached) (Nat.not_lt.mpr past)
    · intro entry first reached past
      exact absurd (inside entry first reached) (Nat.not_lt.mpr past)
    · intro rest _ closed
      refine ⟨closes.read_eq list, fun entry listed reached => closes.slotOf?_eq_none listed reached,
        fun handle slot before after => ?_⟩
      obtain ⟨value, held, issued, own⟩ := closes.closedWith list before after
      refine ⟨value, held, fun uses spares upvalue found later => ?_⟩
      exact Upvalue.read_of_closed (Use.closedWith_foldl uses spares issued own upvalue found) later

/-- Two slots of a stack are captured, the lower one first. -/
def captured : Heap :=
  let lower := ((ofConfig .default).capture none 0).heap
  (lower.capture (some ⟨⟨0, 0⟩⟩) 2).heap

/-- Without the slot that the higher upvalue is over, nothing can be closed. With it that one is closed, and
reads what is written through it, however short the stack is. -/
theorem closeUpvalues_captured :
    captured.OpenList (some ⟨⟨1, 0⟩⟩) [(⟨⟨1, 0⟩⟩, 2), (⟨⟨0, 0⟩⟩, 0)] ∧
      (∃ failure, (captured.closeUpvalues (some ⟨⟨1, 0⟩⟩) 1 #[.null, .null]).outcome =
        .error failure) ∧
      let step := captured.closeUpvalues (some ⟨⟨1, 0⟩⟩) 1 #[.null, .null, .integer 3]
      step.outcome = .ok (some ⟨⟨0, 0⟩⟩) ∧ step.heap.slotOf? ⟨⟨1, 0⟩⟩ = none ∧
        ∀ upvalue, ((Use.set ⟨⟨1, 0⟩⟩ #[] (.integer 7)).perform step.heap).view? .upvalue ⟨⟨1, 0⟩⟩ =
          some upvalue → ∀ later : Stack, upvalue.read later = some (.integer 7) := by
  have list : captured.OpenList (some ⟨⟨1, 0⟩⟩) [(⟨⟨1, 0⟩⟩, 2), (⟨⟨0, 0⟩⟩, 0)] := by
    refine ⟨.cons ?_ (.cons ?_ .nil), by decide, by decide⟩ <;> decide
  obtain ⟨fails, -⟩ := closeUpvalues_transparent _ _ _ 1 #[.null, .null] list
  obtain ⟨-, -, closes⟩ := closeUpvalues_transparent _ _ _ 1 #[.null, .null, .integer 3] list
  have closed : (captured.closeUpvalues (some ⟨⟨1, 0⟩⟩) 1 #[.null, .null, .integer 3]).outcome =
      .ok (some ⟨⟨0, 0⟩⟩) := by decide
  obtain ⟨value, held, reads⟩ := (closes _ closed).2.2 ⟨⟨1, 0⟩⟩ 2 (by decide) (by decide)
  refine ⟨list, fails.mpr ⟨_, rfl, by decide, by decide⟩, closed, by decide, ?_⟩
  have writing : ∀ use ∈ [Use.set ⟨⟨1, 0⟩⟩ #[] (.integer 7)], use.SparesClosed := by
    simp [Use.SparesClosed]
  exact reads _ writing

end Heap
end ScriptHeap
