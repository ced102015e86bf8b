import ScriptHeap.Classes.Lookup
import ScriptHeap.Heap.OpenUpvalues
import ScriptHeap.Proofs.Counting
import ScriptHeap.Proofs.HeapLedger
import ScriptHeap.Proofs.SweepVisits
import ScriptHeap.Proofs.Unbounded

/-! The rounds of the loops along links. The links may lead anywhere, also back: each visit of a sweep frees
an object or takes off a mark, each round of closing closes an upvalue that was open, and a line of
ancestors is cut off after as many steps as there are objects. So none of the loops needs a bound, and
with the bounds that they have in the model they come to the same. -/
namespace ScriptHeap

/-! ## Sweeping -/

namespace Sweep
variable {sweep after swept : Sweep} {rounds : Nat}

/-- What visits take from the objects and from the marks of the heap they add to the figures, one for each
visit. -/
structure Counts (sweep : Sweep) (visits : Nat) (after : Sweep) : Prop where
  objects : after.heap.objectCount + after.stats.freedObjects =
    sweep.heap.objectCount + sweep.stats.freedObjects
  marks : after.heap.darkCount + after.stats.survivors = sweep.heap.darkCount + sweep.stats.survivors
  visits : after.stats.survivors + after.stats.freedObjects =
    sweep.stats.survivors + sweep.stats.freedObjects + visits

theorem counts_keep {handle : Handle} {object : Object} (found : sweep.heap.get? handle = some object)
    (dark : object.header.dark = true) (next : Option Handle) :
    sweep.Counts 1 (sweep.keep handle next) where
  objects := (sweep.tallies_keep handle next).objects
  marks := by
    have one : (sweep.keep handle next).heap.darkCount + 1 = sweep.heap.darkCount :=
      Heap.count_modify found dark rfl
    have stats : (sweep.keep handle next).stats.survivors = sweep.stats.survivors + 1 := rfl
    omega
  visits := by
    simp only [keep]
    omega

theorem counts_drop {handle : Handle} {object : Object} (found : sweep.heap.get? handle = some object)
    (covered : object.header.type.structSize ≤ sweep.heap.bytes) (light : object.header.dark = false)
    (next : Option Handle) :
    sweep.Counts 1
      (sweep.drop (sweep.heap.discharged object) handle object.header.type.structSize next) where
  objects := (tallies_drop found covered next).objects
  marks := by
    -- the object may be the one let live last, and then its own link is what is changed first
    obtain ⟨held, there, alike⟩ : ∃ held,
        (bypass (sweep.heap.discharged object) sweep.previous next).get? handle = some held ∧
          held.header.dark = false := by
      rw [Heap.get?_bypass]
      have same : (sweep.heap.discharged object).get? handle = some object := found
      rw [same]
      split
      · exact ⟨_, rfl, light⟩
      · exact ⟨_, rfl, light⟩
    have left : (sweep.drop (sweep.heap.discharged object) handle object.header.type.structSize
        next).heap.darkCount = (bypass (sweep.heap.discharged object) sweep.previous next).darkCount :=
      Heap.count_release there alike
    have passed : (bypass (sweep.heap.discharged object) sweep.previous next).darkCount =
        sweep.heap.darkCount := Heap.count_bypass (fun _ _ => rfl) sweep.previous next
    exact congrArg (· + sweep.stats.survivors) (left.trans passed)
  visits := by
    simp only [drop]
    omega

theorem Counts.trans {visits more : Nat} (first : sweep.Counts visits after)
    (second : after.Counts more swept) : sweep.Counts (more + visits) swept where
  objects := second.objects.trans first.objects
  marks := second.marks.trans first.marks
  visits := by
    have one := first.visits
    have other := second.visits
    omega

/-- **A visit after which the walk goes on frees an object or takes off a mark.** -/
theorem visit_counts (goes : sweep.visit = .inl after) : sweep.Counts 1 after := by
  rcases sweep.visit_cases with ⟨-, idle⟩ | ⟨handle, object, -, found,
    ⟨dark, kept⟩ | ⟨light, covered, dropped⟩ | ⟨-, failure, notices, short⟩⟩
  · cases idle.symm.trans goes
  · cases kept.symm.trans goes
    exact counts_keep found dark object.header.next
  · cases dropped.symm.trans goes
    exact counts_drop found covered light object.header.next
  · cases short.symm.trans goes

/-- The visit with which the walk is over has changed nothing, and if it is a failure, it has found a live
object. -/
theorem visit_last {result : Sweep × Option Failure} (ends : sweep.visit = .inr result) :
    sweep.Counts 0 result.1 ∧ result.2.toList.length ≤ sweep.heap.objectCount ∧
      (sweep.heap.objectCount = 0 → result = (sweep, none)) := by
  rcases sweep.visit_cases with ⟨-, idle⟩ | ⟨handle, object, -, found,
    ⟨-, kept⟩ | ⟨-, -, dropped⟩ | ⟨-, failure, notices, short⟩⟩
  · cases idle.symm.trans ends
    exact ⟨⟨rfl, rfl, rfl⟩, Nat.zero_le _, fun _ => rfl⟩
  · cases kept.symm.trans ends
  · cases dropped.symm.trans ends
  · cases short.symm.trans ends
    have live : 0 < sweep.heap.objectCount :=
      sweep.heap.atMost_get? [handle] (List.nodup_singleton handle) (by simp [found])
    exact ⟨⟨rfl, rfl, rfl⟩, live, fun empty => absurd live (by omega)⟩

/-- What is visited in a whole walk is what is freed and what is let live, the same object first let live
and then freed where the chain leads back to it. -/
theorem counts_loop {result : Sweep × Option Failure} (comes : Unbounded.loop visit sweep result rounds) :
    sweep.Counts rounds result.1 ∧ result.2.toList.length ≤ result.1.heap.objectCount := by
  induction comes with
  | last ends =>
    obtain ⟨counts, few, -⟩ := visit_last ends
    rw [heap_of_last ends]
    exact ⟨counts, few⟩
  | again goes rest ih => exact ⟨(visit_counts goes).trans ih.1, ih.2⟩

/-- What a walk with a bound comes to is what the loop comes to. -/
theorem run_endsIn (sweep : Sweep) :
    Unbounded.EndsIn (Unbounded.loop visit sweep) (run sweep.heap.sweepBound sweep) sweep.heap.sweepBound := by
  refine Unbounded.EndsIn.loop (·.heap.sweepBound) (fun sweep => run sweep.heap.sweepBound sweep) ?_ ?_ sweep
  · intro sweep after goes
    obtain ⟨objects, marks, visits⟩ := visit_counts goes
    have one : sweep.heap.sweepBound = after.heap.sweepBound + 1 := by
      simp only [Heap.sweepBound]
      omega
    simp only [one, run_succ, goes]
    exact ⟨Nat.lt_succ_self _, trivial⟩
  · intro sweep result ends
    cases bound : sweep.heap.sweepBound with
    | zero => exact ((visit_last ends).2.2 (Nat.eq_zero_of_add_eq_zero_right bound)).symm
    | succ visits => simp only [run_succ, ends]

/-- What a walk leaves for the heap to do: to set the next threshold, or to report the failure. -/
def conclude (walk : Sweep × Option Failure) : Step SweepStats :=
  match walk.2 with
  | some failure => ⟨.error failure, walk.1.heap, walk.1.notices⟩
  | none =>
    match checkedDouble walk.1.heap.bytes with
    | .error cause => ⟨.error (.defect cause), walk.1.heap, walk.1.notices⟩
    | .ok doubled =>
      let nextCollect := max doubled walk.1.heap.config.collectThreshold.toNat
      { outcome := .ok walk.1.stats
        heap := { walk.1.heap with nextCollect }
        notices := walk.1.notices ++ [.logged (.swept walk.1.stats nextCollect)] }

end Sweep

theorem Heap.sweep_eq_conclude (heap : Heap) :
    heap.sweep = Sweep.conclude (Sweep.run heap.sweepBound (.start heap)) := rfl

/-! ## Closing -/

namespace Heap

/-- One round of closing: an upvalue is closed and the next one follows, or the rest of the list is given. -/
def closing (lowest : Nat) (stack : Stack) (state : Heap × Option Handle) :
    (Heap × Option Handle) ⊕ Step (Option Handle) :=
  match state.2 with
  | none => .inr (Step.done state.1 none)
  | some handle =>
    match state.1.view? .upvalue handle with
    | none => .inr (Step.done state.1 (some handle))
    | some upvalue =>
      if upvalue.slot?.any (lowest ≤ ·) then
        match upvalue.close stack with
        | .error cause => .inr (Step.defect state.1 cause)
        | .ok (_, closed) =>
          .inl (state.1.update .upvalue handle fun _ => { closed with next := none }, upvalue.next)
      else .inr (Step.done state.1 (some handle))

variable {heap : Heap} {lowest : Nat} {stack : Stack} {state next : Heap × Option Handle}
variable {step : Step (Option Handle)}

theorem closeWithin_succ (count : Nat) (state : Heap × Option Handle) :
    closeWithin lowest stack (count + 1) state.1 state.2 =
      match closing lowest stack state with
      | .inl next => closeWithin lowest stack count next.1 next.2
      | .inr step => step := by
  obtain ⟨heap, current⟩ := state
  cases current with
  | none => rfl
  | some handle =>
    simp only [closeWithin, closing]
    cases heap.view? .upvalue handle with
    | none => rfl
    | some upvalue =>
      simp only
      split
      · cases upvalue.close stack <;> rfl
      · rfl

/-- What a round comes to: an open upvalue is closed, or the stack falls short of its slot, or the rest of
the list is given. -/
theorem closing_cases (lowest : Nat) (stack : Stack) (state : Heap × Option Handle) :
    (∃ handle upvalue slot, state.1.view? .upvalue handle = some upvalue ∧
      upvalue.state = .opened slot ∧
        ((∃ value, closing lowest stack state =
            .inl (state.1.update .upvalue handle fun _ => ⟨.closed value, none⟩, upvalue.next)) ∨
          closing lowest stack state =
            .inr (Step.defect state.1 (.closingPastStackEnd slot)))) ∨
    closing lowest stack state = .inr (Step.done state.1 state.2) := by
  obtain ⟨heap, current⟩ := state
  cases current with
  | none => exact .inr rfl
  | some handle =>
    cases seen : heap.view? .upvalue handle with
    | none =>
      right
      simp only [closing, seen]
    | some upvalue =>
      by_cases reached : upvalue.slot?.any (lowest ≤ ·) = true
      · obtain ⟨state, next⟩ := upvalue
        cases state with
        | closed value => cases reached
        | opened slot =>
          refine .inl ⟨handle, _, slot, seen, rfl, ?_⟩
          simp only [closing, seen, reached, ↓reduceIte, Upvalue.close]
          cases stack[slot]? with
          | none => exact .inr rfl
          | some value => exact .inl ⟨value, rfl⟩
      · right
        simp only [closing, seen, reached, Bool.false_eq_true, ↓reduceIte]

private theorem isOpen_of_opened {upvalue : Upvalue} {handle : Handle} {slot : Nat}
    (seen : heap.view? .upvalue handle = some upvalue) (own : upvalue.state = .opened slot) :
    ∃ object, heap.get? handle = some object ∧
      (Variant.upvalue.project object.payload).any (·.isOpen) = true := by
  obtain ⟨object, found, projected⟩ := Option.bind_eq_some_iff.mp seen
  refine ⟨object, found, ?_⟩
  rw [projected, Option.any_some, Upvalue.isOpen, Upvalue.slot?, own]
  rfl

/-- **A round after which closing goes on has closed an upvalue that was open.** -/
theorem openCount_closing (goes : closing lowest stack state = .inl next) :
    next.1.openCount + 1 = state.1.openCount := by
  rcases closing_cases lowest stack state with
    ⟨handle, upvalue, slot, seen, own, ⟨value, closed⟩ | short⟩ | rest
  · cases closed.symm.trans goes
    obtain ⟨object, found, opened⟩ := isOpen_of_opened seen own
    refine count_modify found opened ?_
    rw [Variant.project_modify]
    cases Variant.upvalue.project object.payload <;> rfl
  · cases short.symm.trans goes
  · cases rest.symm.trans goes

/-- The last round changes nothing, and it just gives the rest of the list where no upvalue is open. -/
theorem closing_last (ends : closing lowest stack state = .inr step) :
    step.heap = state.1 ∧ (state.1.openCount = 0 → step = Step.done state.1 state.2) := by
  rcases closing_cases lowest stack state with
    ⟨handle, upvalue, slot, seen, own, ⟨value, closed⟩ | short⟩ | rest
  · cases closed.symm.trans ends
  · cases short.symm.trans ends
    obtain ⟨object, found, opened⟩ := isOpen_of_opened seen own
    have present : 0 < state.1.openCount := count_pos found opened
    exact ⟨rfl, fun closed => absurd present (by omega)⟩
  · cases rest.symm.trans ends
    exact ⟨rfl, fun _ => rfl⟩

/-- Whatever closing comes to, what it has closed was open. -/
theorem openCount_loop {rounds : Nat} (comes : Unbounded.loop (closing lowest stack) state step rounds) :
    step.heap.openCount + rounds = state.1.openCount := by
  induction comes with
  | last ends => rw [(closing_last ends).1, Nat.add_zero]
  | again goes rest ih =>
    have one := openCount_closing goes
    omega

/-- What closing with a bound comes to is what the loop comes to. -/
theorem closeWithin_endsIn (lowest : Nat) (stack : Stack) (state : Heap × Option Handle) :
    Unbounded.EndsIn (Unbounded.loop (closing lowest stack) state)
      (closeWithin lowest stack state.1.openCount state.1 state.2) state.1.openCount := by
  refine Unbounded.EndsIn.loop (fun state => state.1.openCount)
    (fun state => closeWithin lowest stack state.1.openCount state.1 state.2) ?_ ?_ state
  · intro state next goes
    have one := openCount_closing goes
    refine ⟨by omega, ?_⟩
    rw [← one, closeWithin_succ, goes]
  · intro state step ends
    cases bound : state.1.openCount with
    | zero =>
      rw [(closing_last ends).2 bound, closeWithin]
      simp
    | succ count => rw [closeWithin_succ, ends]

end Heap

/-! ## The line of ancestors -/

namespace Heap
variable {α : Type} (heap : Heap)

/-- An iterator over a class and its linked ancestors: where it goes on, and for how many steps at most. -/
structure Line where
  next : Option Handle
  remaining : Nat

def line (start : Handle) : Line := ⟨some start, heap.objectCount⟩

/-- The next one in line, and the line behind it. -/
def pull (line : Line) : Option ((Handle × ClassDef) × Line) :=
  match line.next with
  | none => none
  | some handle =>
    match line.remaining with
    | 0 => none
    | remaining + 1 =>
      match heap.view? .classDef handle with
      | none => none
      | some self => some ((handle, self), ⟨self.parent, remaining⟩)

/-- What the iterator has still to give. -/
def inLine (line : Line) : List (Handle × ClassDef) :=
  trail (heap.view? .classDef) (·.parent) line.remaining line.next

theorem pull_cases (line : Line) :
    (heap.pull line = none ∧ heap.inLine line = []) ∨
      ∃ item rest, heap.pull line = some (item, rest) ∧ rest.remaining < line.remaining ∧
        heap.inLine line = item :: heap.inLine rest := by
  obtain ⟨next, remaining⟩ := line
  cases next with
  | none => exact .inl ⟨rfl, by cases remaining <;> rfl⟩
  | some handle =>
    cases remaining with
    | zero => exact .inl ⟨rfl, rfl⟩
    | succ remaining =>
      cases seen : heap.view? .classDef handle with
      | none => exact .inl ⟨by simp only [pull, seen], by simp only [inLine, trail, seen]⟩
      | some self =>
        refine .inr ⟨(handle, self), ⟨self.parent, remaining⟩, by simp only [pull, seen],
          Nat.lt_succ_self remaining, ?_⟩
        simp only [inLine, trail, seen]

/-- Takes everything from the line, one after the other. -/
def gather (state : Line × List (Handle × ClassDef)) :
    (Line × List (Handle × ClassDef)) ⊕ List (Handle × ClassDef) :=
  match heap.pull state.1 with
  | none => .inr state.2
  | some (item, rest) => .inl (rest, state.2 ++ [item])

/-- Takes from the line until something gives what is sought. -/
def seek (gives : Handle × ClassDef → Option α) (line : Line) : Line ⊕ Option α :=
  match heap.pull line with
  | none => .inr none
  | some (item, rest) =>
    match gives item with
    | some found => .inr (some found)
    | none => .inl rest

theorem gather_endsIn (state : Line × List (Handle × ClassDef)) :
    Unbounded.EndsIn (Unbounded.loop heap.gather state) (state.2 ++ heap.inLine state.1)
      state.1.remaining := by
  refine Unbounded.EndsIn.loop (fun state => state.1.remaining)
    (fun state => state.2 ++ heap.inLine state.1) ?_ ?_ state
  · rintro ⟨line, met⟩ next goes
    rcases heap.pull_cases line with ⟨idle, -⟩ | ⟨item, rest, pulled, less, front⟩
    · simp [gather, idle] at goes
    · simp only [gather, pulled] at goes
      cases goes
      exact ⟨less, by rw [front, List.append_assoc]; rfl⟩
  · rintro ⟨line, met⟩ last ends
    rcases heap.pull_cases line with ⟨idle, finished⟩ | ⟨item, rest, pulled, -, -⟩
    · simp only [gather, idle] at ends
      cases ends
      rw [finished, List.append_nil]
    · simp [gather, pulled] at ends

theorem seek_endsIn (gives : Handle × ClassDef → Option α) (line : Line) :
    Unbounded.EndsIn (Unbounded.loop (heap.seek gives) line) ((heap.inLine line).findSome? gives)
      line.remaining := by
  refine Unbounded.EndsIn.loop (·.remaining) (fun line => (heap.inLine line).findSome? gives) ?_ ?_ line
  · intro line next goes
    rcases heap.pull_cases line with ⟨idle, -⟩ | ⟨item, rest, pulled, less, front⟩
    · simp [seek, idle] at goes
    · simp only [seek, pulled] at goes
      split at goes
      · cases goes
      · next fruitless =>
        cases goes
        exact ⟨less, by rw [front, List.findSome?_cons, fruitless]⟩
  · intro line last ends
    rcases heap.pull_cases line with ⟨idle, finished⟩ | ⟨item, rest, pulled, -, front⟩
    · simp only [seek, idle] at ends
      cases ends
      rw [finished]
      rfl
    · simp only [seek, pulled] at ends
      split at ends
      · next found given =>
        cases ends
        rw [front, List.findSome?_cons, given]
      · cases ends

end Heap

end ScriptHeap
