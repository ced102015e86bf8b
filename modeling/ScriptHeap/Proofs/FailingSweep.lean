import ScriptHeap.Proofs.Shedding
import ScriptHeap.Proofs.StreamCalls

/-! A sweep that stops on the way. Headers may show kinds that the objects are not of, so the account can
fall short of an object before the sweep is through. The objects before it have been dealt with by then,
in full, and neither it nor any of those behind it has been touched. -/
namespace ScriptHeap

/-- An object is its body with its mark and its link. -/
theorem Object.eq_of_body {one other : Object} (same : one.body = other.body) :
    one = { other with
      header := { other.header with dark := one.header.dark, next := one.header.next } } := by
  obtain ⟨⟨type, dark, dispatch, next⟩, payload⟩ := one
  obtain ⟨⟨type', dark', dispatch', next'⟩, payload'⟩ := other
  obtain ⟨⟨rfl, -, rfl, -⟩, rfl⟩ := by simpa only [body, Object.mk.injEq, Header.mk.injEq] using same
  rfl

namespace Sweep
variable {sweep swept : Sweep} {kept pending : List Handle} {handle : Handle} {object : Object}
variable {visits accounted releasing : Nat}

/-! ## One visit -/

/-- The link that leads past a dropped object is that of one let live. -/
theorem Midway.get?_drop (midway : sweep.Midway kept (handle :: pending)) (object : Object)
    {other : Handle} (listed : other ∈ pending) :
    (sweep.heap.takeOut kept.getLast? handle object).heap.get? other = sweep.heap.get? other := by
  rw [Heap.get?_takeOut, if_neg (midway.ne_of_mem listed), if_neg]
  intro last
  have apart := (List.nodup_append.1 midway.chained.path.nodup).2.2
  exact apart other (List.mem_of_getLast? last) other (List.mem_cons_of_mem handle listed) rfl

/-! ## The whole walk -/

/-- A walk has come to an object that the account falls short of. -/
structure StopsAt (sweep : Sweep) (visits : Nat) (kept front : List Handle) (stop : Handle)
    (back : List Handle) (swept : Sweep) (accounted releasing : Nat) : Prop where
  midway : swept.Midway (kept ++ front.filter sweep.heap.isDark) (stop :: back)
  victims : Sweep.victims visits sweep = sweep.heap.doomed front
  light : sweep.heap.isDark stop = false
  size : sweep.heap.sizeAt stop = releasing
  short : accounted < releasing
  left : swept.heap.bytes = accounted
  paid : accounted + ((sweep.heap.doomed front).map sweep.heap.sizeAt).sum = sweep.heap.bytes
  untouched : ∀ handle ∈ stop :: back, swept.heap.get? handle = sweep.heap.get? handle
  nextCollect : swept.heap.nextCollect = sweep.heap.nextCollect

namespace Midway
variable {front back : List Handle} {stop : Handle}

/-- A walk that stops further on has let a marked object live. -/
theorem stopsAt_keep (midway : sweep.Midway kept (handle :: (front ++ stop :: back)))
    (found : sweep.heap.get? handle = some object) (dark : object.header.dark = true)
    (rest : (sweep.keep handle object.header.next).StopsAt visits (kept ++ [handle]) front stop back
      swept accounted releasing) :
    sweep.StopsAt (visits + 1) kept (handle :: front) stop back swept accounted releasing := by
  have marked : sweep.heap.isDark handle = true := by rw [Heap.isDark, found]; exact dark
  have unchanged : ∀ other ∈ front ++ stop :: back,
      (sweep.keep handle object.header.next).heap.isDark other = sweep.heap.isDark other := by
    intro other listed
    simp [isDark_keep, midway.ne_of_mem listed]
  have doomed := midway.doomed_keep found dark (List.subset_append_left front (stop :: back))
  have sizes : (sweep.keep handle object.header.next).heap.sizeAt = sweep.heap.sizeAt :=
    funext (sizeAt_keep sweep handle object.header.next)
  constructor
  case midway =>
    rw [List.filter_cons_of_pos marked, List.append_cons]
    rw [← List.filter_congr fun other listed => unchanged other (List.mem_append_left _ listed)]
    exact rest.midway
  case victims =>
    have current : sweep.current = some handle := midway.current
    simp only [Sweep.victims, current, found, dark, ↓reduceIte]
    rw [rest.victims, doomed]
  case light => rw [← unchanged stop (by simp), rest.light]
  case size => rw [← sizes, rest.size]
  case short => exact rest.short
  case left => exact rest.left
  case paid =>
    rw [doomed, ← sizes]
    exact rest.paid
  case untouched =>
    intro other listed
    rw [rest.untouched other listed, get?_keep, if_neg]
    exact midway.ne_of_mem (List.mem_append_right front listed)
  case nextCollect => exact rest.nextCollect

/-- A walk that stops further on has freed an unmarked object that the account covered. -/
theorem stopsAt_drop (midway : sweep.Midway kept (handle :: (front ++ stop :: back)))
    (found : sweep.heap.get? handle = some object) (light : object.header.dark = false)
    (covered : object.header.type.structSize ≤ sweep.heap.bytes)
    (rest : (sweep.drop (sweep.heap.discharged object) handle object.header.type.structSize
      object.header.next).StopsAt visits kept front stop back swept accounted releasing) :
    sweep.StopsAt (visits + 1) kept (handle :: front) stop back swept accounted releasing := by
  have unmarked : sweep.heap.isDark handle = false := by rw [Heap.isDark, found]; exact light
  have others (other : Handle) (listed : other ∈ front ++ stop :: back) :=
    midway.get?_drop object listed
  have doomed := midway.doomed_drop found light (List.subset_append_left front (stop :: back))
  obtain ⟨middle, victims, lightStop, size, short, left, paid, untouched, nextCollect⟩ := rest
  rw [midway.heap_drop] at middle victims lightStop size paid untouched nextCollect
  constructor
  case midway =>
    rw [List.filter_cons_of_neg (by simp [unmarked])]
    rw [← List.filter_congr fun other listed =>
      Heap.isDark_takeOut (midway.ne_of_mem (List.mem_append_left _ listed))]
    exact middle
  case victims =>
    have current : sweep.current = some handle := midway.current
    simp only [Sweep.victims, current, found, light, Bool.false_eq_true, ↓reduceIte,
      Heap.discharge_of_le covered, Step.done]
    rw [victims, doomed]
  case light =>
    rw [← Heap.isDark_takeOut (midway.ne_of_mem (by simp)), lightStop]
  case size =>
    rw [← Heap.sizeAt_takeOut (midway.ne_of_mem (by simp)), size]
  case short => exact short
  case left => exact left
  case paid =>
    have sizes : ((sweep.heap.takeOut kept.getLast? handle object).heap.doomed front).map
          (sweep.heap.takeOut kept.getLast? handle object).heap.sizeAt =
        ((sweep.heap.takeOut kept.getLast? handle object).heap.doomed front).map
          sweep.heap.sizeAt := by
      refine List.map_congr_left fun other listed => Heap.sizeAt_takeOut (midway.ne_of_mem ?_)
      exact List.mem_append_left _ (List.mem_filter.1 listed).1
    rw [sizes, Heap.bytes_takeOut] at paid
    rw [doomed, List.map_cons, List.sum_cons, Heap.sizeAt_of_get? found]
    omega
  case untouched =>
    intro other listed
    rw [untouched other listed, others other (List.mem_append_right front listed)]
  case nextCollect =>
    rw [nextCollect, Heap.takeOut_fields]
    rfl

/-- The account falls short of the first of the objects that are left. -/
theorem stopsAt_short (midway : sweep.Midway kept (stop :: back))
    (found : sweep.heap.get? stop = some object) (light : object.header.dark = false)
    (short : sweep.heap.bytes < object.header.type.structSize) (notices : List Notice) :
    sweep.StopsAt (visits + 1) kept [] stop back { sweep with notices } sweep.heap.bytes
      object.header.type.structSize where
  midway := by
    rw [List.filter_nil, List.append_nil]
    exact ⟨midway.chained, midway.previous, midway.current, midway.clean⟩
  victims := by
    have current : sweep.current = some stop := midway.current
    simp only [Sweep.victims, current, found, light, Bool.false_eq_true, ↓reduceIte,
      Heap.discharge_of_lt short, Step.after, Step.fail]
    rfl
  light := by rw [Heap.isDark, found]; exact light
  size := Heap.sizeAt_of_get? found
  short := short
  left := rfl
  paid := Nat.add_zero _
  untouched := fun _ _ => rfl
  nextCollect := rfl

/-- A walk that fails stops at an object, with those before it dealt with. -/
theorem stopsAt (midway : sweep.Midway kept pending)
    (failed : Sweep.run visits sweep =
      (swept, some (.error (.accountingUnderflow accounted releasing)))) :
    ∃ front stop back, pending = front ++ stop :: back ∧
      sweep.StopsAt visits kept front stop back swept accounted releasing := by
  induction visits generalizing sweep kept pending with
  | zero => cases failed
  | succ visits ih =>
    cases pending with
    | nil =>
      simp only [Sweep.run, midway.current, List.head?_nil] at failed
      cases failed
    | cons handle pending =>
      have live : sweep.heap.contains handle = true := midway.chained.mem_iff.1 (by simp)
      obtain ⟨object, found⟩ := Option.isSome_iff_exists.1 live
      have current : sweep.current = some handle := midway.current
      cases dark : object.header.dark with
      | true =>
        simp only [Sweep.run, current, found, dark, ↓reduceIte] at failed
        obtain ⟨front, stop, back, rfl, rest⟩ := ih (midway.keep found) failed
        exact ⟨handle :: front, stop, back, rfl, midway.stopsAt_keep found dark rest⟩
      | false =>
        by_cases covered : object.header.type.structSize ≤ sweep.heap.bytes
        · simp only [Sweep.run, current, found, dark, Bool.false_eq_true, ↓reduceIte,
            Heap.discharge_of_le covered, Step.done] at failed
          obtain ⟨front, stop, back, rfl, rest⟩ := ih (midway.drop found _) failed
          exact ⟨handle :: front, stop, back, rfl, midway.stopsAt_drop found dark covered rest⟩
        · have short := Nat.lt_of_not_le covered
          simp only [Sweep.run, current, found, dark, Bool.false_eq_true, ↓reduceIte,
            Heap.discharge_of_lt short, Step.after, Step.fail, Prod.mk.injEq, Option.some.injEq,
            Failure.error.injEq, HeapError.accountingUnderflow.injEq] at failed
          obtain ⟨rfl, rfl, rfl⟩ := failed
          rw [← current]
          exact ⟨[], handle, pending, rfl, midway.stopsAt_short found dark short _⟩

end Midway
end Sweep

namespace Heap
variable {heap rest : Heap} {handle stop : Handle} {order front back : List Handle}
variable {accounted releasing : Nat}

/-- A sweep that finds the account short has walked to an object that it falls short of. -/
theorem Chained.sweep_stopsAt (chained : heap.Chained order)
    (failed : heap.sweep.outcome = .error (.error (.accountingUnderflow accounted releasing))) :
    ∃ swept front stop back, order = front ++ stop :: back ∧
      (Sweep.start heap).StopsAt heap.sweepBound [] front stop back swept accounted releasing ∧
      heap.sweep.heap = swept.heap := by
  cases walk : Sweep.run heap.sweepBound (.start heap) with | mk swept failed?
  cases failed? with
  | some failure =>
    have stopped := sweep_of_failure walk
    rw [stopped] at failed
    obtain rfl := Except.error.inj failed
    obtain ⟨front, stop, back, split, stops⟩ := (Sweep.midway_start chained).stopsAt walk
    exact ⟨swept, front, stop, back, split, stops, by rw [stopped]⟩
  | none =>
    rw [(sweep_of_end walk).2.2] at failed
    split at failed <;> cases failed

/-- An object that has kept its body and has no mark differs by its link. -/
theorem get?_of_bodyAt (same : rest.bodyAt handle = heap.bodyAt handle)
    (light : rest.isDark handle = false) :
    ∃ next, rest.get? handle = (heap.get? handle).map fun object =>
      { object with header := { object.header with dark := false, next } } := by
  rw [bodyAt, bodyAt] at same
  rw [isDark] at light
  cases found : rest.get? handle with
  | none =>
    rw [found, Option.map_none] at same
    rw [Option.map_eq_none_iff.mp same.symm]
    exact ⟨none, rfl⟩
  | some after =>
    rw [found] at same light
    obtain ⟨object, held, bodies⟩ := Option.map_eq_some_iff.mp same.symm
    have unmarked : after.header.dark = false := light
    refine ⟨after.header.next, ?_⟩
    rw [held, Object.eq_of_body bodies.symm, unmarked]
    rfl

/-- **A sweep that stops.** On a chain in order, whatever kinds the headers show, a sweep that finds the
account short has stopped at an unmarked object. The account covered every unmarked object before it, and
what it has left is less than the size that its header shows. Exactly the unmarked objects before it are
gone, and their open streams have been closed, each once; the marked ones before it live without their
marks; it and all behind it are as they were, marks and links included. The chain is in order again and
lists the survivors before it, it, and those behind it, as they stood; and the bytes at which the heap next
asks to be collected are what they were. -/
theorem sweep_short (heap : Heap) (chained : heap.WellChained)
    (failed : heap.sweep.outcome = .error (.error (.accountingUnderflow accounted releasing))) :
    ∃ front stop back, heap.objects = front ++ stop :: back ∧
      heap.isDark stop = false ∧ heap.sizeAt stop = releasing ∧ accounted < releasing ∧
      accounted + ((heap.doomed front).map heap.sizeAt).sum = heap.bytes ∧
      (∀ early one late, front = early ++ one :: late → heap.isDark one = false →
        heap.sizeAt one ≤ heap.bytes - ((heap.doomed early).map heap.sizeAt).sum) ∧
      (∀ handle, heap.sweep.heap.contains handle = true ↔
        heap.contains handle = true ∧ handle ∉ heap.doomed front) ∧
      (heap.doomed front).Nodup ∧
      closedStreams heap.sweep.notices = (heap.doomed front).filterMap heap.openStream? ∧
      (∀ handle ∈ front, heap.isDark handle = true →
        ∃ next, heap.sweep.heap.get? handle = (heap.get? handle).map fun object =>
          { object with header := { object.header with dark := false, next } }) ∧
      (∀ handle ∈ stop :: back, heap.sweep.heap.get? handle = heap.get? handle) ∧
      heap.sweep.heap.WellChained ∧
      heap.sweep.heap.objects = front.filter heap.isDark ++ stop :: back ∧
      heap.sweep.heap.bytes = accounted ∧ heap.sweep.heap.nextCollect = heap.nextCollect := by
  obtain ⟨order, chained⟩ := chained
  obtain ⟨swept, front, stop, back, rfl, stops, left⟩ := chained.sweep_stopsAt failed
  have removals : Operation.sweep.removals heap = heap.doomed front := stops.victims
  obtain ⟨once, closed⟩ := heap.closedStreams_sweep
  have loses := heap.loses_sweep.1
  have sheds := heap.sheds_sweep
  rw [removals] at once closed loses sheds
  have rest : heap.sweep.heap.Chained (front.filter heap.isDark ++ stop :: back) := by
    rw [left]
    exact stops.midway.chained
  refine ⟨front, stop, back, chained.objects_eq, stops.light, stops.size, stops.short, stops.paid, ?_,
    fun handle => loses.contains_iff, once, closed, ?_, ?_, ⟨_, rest⟩, rest.objects_eq, ?_, ?_⟩
  · rintro early one late rfl light
    -- what is before the object and the object itself are among what was paid for
    have paid := stops.paid
    have doomed : heap.doomed (early ++ one :: late) =
        heap.doomed early ++ one :: heap.doomed late := by
      simp [Heap.doomed, light]
    rw [show (Sweep.start heap).heap = heap from rfl, doomed, List.map_append, List.map_cons,
      List.sum_append, List.sum_cons] at paid
    omega
  · intro handle listed dark
    apply get?_of_bodyAt
    · rw [sheds.bodies, if_neg]
      simp [doomed, dark]
    · rw [left]
      apply stops.midway.clean
      exact List.mem_filter.2 ⟨listed, dark⟩
  · rw [left]
    exact stops.untouched
  · rw [left, stops.left]
  · rw [left, stops.nextCollect]
    rfl

/-- A string, an array, a stream and another array, of which the string and the last are marked and the
first array is shown as a class. -/
def misshown : Heap :=
  let text := ((ofConfig .default).takeString []).heap
  let array := (text.newArray #[]).heap
  let stream := (array.newStream ⟨4⟩ true).heap
  let full := (stream.newArray #[]).heap
  let marked := [0, 3].foldl (fun heap index =>
    heap.modifyHeader ⟨⟨index, 0⟩⟩ ({ · with dark := true })) full
  marked.modifyHeader ⟨⟨1, 0⟩⟩ ({ · with type := .classDef })

/-- The newest array lives without its mark, the stream is freed and closed, and the sweep stops at the
other array; the string behind it keeps its mark. -/
theorem sweep_misshown :
    misshown.WellChained ∧
      misshown.sweep.outcome = .error (.error (.accountingUnderflow 156 220)) ∧
      closedStreams misshown.sweep.notices = [⟨4⟩] ∧
      misshown.sweep.heap.objects = [⟨⟨3, 0⟩⟩, ⟨⟨1, 0⟩⟩, ⟨⟨0, 0⟩⟩] ∧
      misshown.sweep.heap.isDark ⟨⟨3, 0⟩⟩ = false ∧ misshown.sweep.heap.isDark ⟨⟨0, 0⟩⟩ = true ∧
      misshown.sweep.heap.WellChained ∧ misshown.sweep.heap.bytes = 156 ∧
      misshown.sweep.heap.nextCollect = misshown.nextCollect := by
  have chained : misshown.WellChained := by decide
  have failed : misshown.sweep.outcome = .error (.error (.accountingUnderflow 156 220)) := by decide
  obtain ⟨front, stop, back, -, -, -, -, -, -, -, -, -, -, -, order, -, left, next⟩ :=
    sweep_short misshown chained failed
  exact ⟨chained, failed, by decide, by decide, by decide, by decide, order, left, next⟩

end Heap
end ScriptHeap
