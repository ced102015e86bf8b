import Mathlib.Algebra.Ring.Nat
import ScriptHeap.Heap.Allocate
import ScriptHeap.Proofs.Marks

/-! A sweep of a chain in order comes to freeing the unmarked objects one after another, from the
newest to the oldest. The sweep walks along the chain once and remembers the last object it let live,
where each single free searches for it from the head; the two agree on the heap they leave, on the
streams they close, and on the failure where the account falls short. -/
namespace ScriptHeap

/-- The failure of a step, if it has no result. -/
def Step.failure? {α : Type} (step : Step α) : Option Failure :=
  match step.outcome with
  | .ok _ => none
  | .error failure => some failure

/-- The streams that the host was asked to close. -/
def closedStreams (notices : List Notice) : List HostStream := notices.filterMap Notice.closedStream?

theorem closedStreams_append (earlier later : List Notice) :
    closedStreams (earlier ++ later) = closedStreams earlier ++ closedStreams later :=
  List.filterMap_append

namespace Heap

/-- The objects among these that a sweep would free. -/
def doomed (heap : Heap) (order : List Handle) : List Handle :=
  order.filter fun handle => !heap.isDark handle

end Heap

namespace Sweep
variable {sweep : Sweep} {kept pending : List Handle} {handle : Handle} {object : Object}
variable {part : List Handle} {visits : Nat}

/-- A sweep that has let some objects live and has the rest of the chain before it. -/
structure Midway (sweep : Sweep) (kept pending : List Handle) : Prop where
  chained : sweep.heap.Chained (kept ++ pending)
  previous : sweep.previous = kept.getLast?
  current : sweep.current = pending.head?
  clean : ∀ handle ∈ kept, sweep.heap.isDark handle = false

theorem midway_start {heap : Heap} {order : List Handle} (chained : heap.Chained order) :
    (start heap).Midway [] order where
  chained := chained
  previous := rfl
  current := chained.path.start_eq_head?
  clean := by simp

/-! ## One visit -/

theorem get?_keep (sweep : Sweep) (handle : Handle) (next : Option Handle) (other : Handle) :
    (sweep.keep handle next).heap.get? other =
      if other = handle then (sweep.heap.get? handle).map Heap.unmarked
      else sweep.heap.get? other :=
  Heap.get?_modify ..

theorem isDark_keep (sweep : Sweep) (handle : Handle) (next : Option Handle) (other : Handle) :
    (sweep.keep handle next).heap.isDark other = (other != handle && sweep.heap.isDark other) := by
  rw [Heap.isDark, get?_keep]
  by_cases same : other = handle
  · cases found : sweep.heap.get? handle <;> simp [same, Heap.unmarked]
  · simp [same, Heap.isDark]

theorem sizeAt_keep (sweep : Sweep) (handle : Handle) (next : Option Handle) (other : Handle) :
    (sweep.keep handle next).heap.sizeAt other = sweep.heap.sizeAt other := by
  rw [Heap.sizeAt, get?_keep]
  by_cases same : other = handle
  · subst same
    cases found : sweep.heap.get? other <;> simp [Heap.sizeAt, found, Heap.unmarked]
  · simp [same, Heap.sizeAt]

/-- A marked object is let live. -/
theorem Midway.keep (midway : sweep.Midway kept (handle :: pending))
    (found : sweep.heap.get? handle = some object) :
    (sweep.keep handle object.header.next).Midway (kept ++ [handle]) pending where
  chained := by
    rw [List.append_assoc]
    refine midway.chained.congr rfl (funext fun other => ?_)
    rw [Heap.successor?, get?_keep]
    by_cases here : other = handle
    · subst here
      simp [Heap.successor?, found, Heap.unmarked]
    · simp [here, Heap.successor?]
  previous := by simp [Sweep.keep]
  current := midway.chained.next_eq found
  clean := by
    intro other listed
    rw [isDark_keep]
    rcases List.mem_append.1 listed with listed | here
    · simp [midway.clean other listed]
    · simp [List.mem_singleton.1 here]

/-- What dropping an object leaves is what freeing it leaves. -/
theorem Midway.heap_drop (midway : sweep.Midway kept (handle :: pending)) (object : Object)
    (size : Nat) :
    (sweep.drop (sweep.heap.discharged object) handle size object.header.next).heap =
      (sweep.heap.takeOut kept.getLast? handle object).heap := by
  rw [drop, midway.previous]
  rfl

theorem Midway.drop (midway : sweep.Midway kept (handle :: pending))
    (found : sweep.heap.get? handle = some object) (size : Nat) :
    (sweep.drop (sweep.heap.discharged object) handle size object.header.next).Midway kept pending where
  chained := by
    rw [midway.heap_drop]
    exact midway.chained.takeOut found
  previous := midway.previous
  current := midway.chained.next_eq found
  clean := by
    intro other listed
    have different := midway.chained.path.ne_of_mem (List.mem_append_left pending listed)
    rw [midway.heap_drop, Heap.isDark_takeOut different]
    exact midway.clean other listed

theorem Midway.ne_of_mem (midway : sweep.Midway kept (handle :: pending)) {other : Handle}
    (listed : other ∈ pending) : other ≠ handle :=
  midway.chained.path.ne_of_mem (List.mem_append_right _ listed)

/-- A visit to one object does not change which of the others behind it are doomed. -/
theorem Midway.doomed_keep (midway : sweep.Midway kept (handle :: pending))
    (found : sweep.heap.get? handle = some object) (dark : object.header.dark = true)
    (before : part ⊆ pending) :
    sweep.heap.doomed (handle :: part) =
      (sweep.keep handle object.header.next).heap.doomed part := by
  have marked : sweep.heap.isDark handle = true := by rw [Heap.isDark, found]; exact dark
  rw [Heap.doomed, Heap.doomed, List.filter_cons_of_neg (by simp [marked])]
  refine List.filter_congr fun other listed => ?_
  simp [isDark_keep, midway.ne_of_mem (before listed)]

theorem Midway.doomed_drop (midway : sweep.Midway kept (handle :: pending))
    (found : sweep.heap.get? handle = some object) (light : object.header.dark = false)
    (before : part ⊆ pending) :
    sweep.heap.doomed (handle :: part) =
      handle :: (sweep.heap.takeOut kept.getLast? handle object).heap.doomed part := by
  have unmarked : sweep.heap.isDark handle = false := by rw [Heap.isDark, found]; exact light
  rw [Heap.doomed, Heap.doomed, List.filter_cons_of_pos (by simp [unmarked])]
  refine congrArg _ (List.filter_congr fun other listed => ?_)
  rw [Heap.isDark_takeOut (midway.ne_of_mem (before listed))]

/-! ## The whole walk -/

/-- A walk has come to what freeing the doomed ones of these objects comes to. -/
structure Frees (sweep : Sweep) (pending : List Handle) (swept : Sweep × Option Failure) : Prop where
  failure : swept.2 = (sweep.heap.freeAll (sweep.heap.doomed pending)).failure?
  heap : swept.1.heap.clearMarks =
    (sweep.heap.freeAll (sweep.heap.doomed pending)).heap.clearMarks
  closed : closedStreams swept.1.notices = closedStreams sweep.notices ++
    closedStreams (sweep.heap.freeAll (sweep.heap.doomed pending)).notices
  clean : swept.2 = none → ∀ handle, swept.1.heap.isDark handle = false
  stats : swept.2 = none → swept.1.stats =
    { freedObjects := sweep.stats.freedObjects + (sweep.heap.doomed pending).length
      freedBytes := sweep.stats.freedBytes + ((sweep.heap.doomed pending).map sweep.heap.sizeAt).sum
      survivors := sweep.stats.survivors + pending.countP sweep.heap.isDark }

variable {swept : Sweep × Option Failure}

theorem Midway.frees_keep (midway : sweep.Midway kept (handle :: pending))
    (found : sweep.heap.get? handle = some object) (dark : object.header.dark = true)
    (rest : (sweep.keep handle object.header.next).Frees pending swept) :
    sweep.Frees (handle :: pending) swept := by
  have marked : sweep.heap.isDark handle = true := by rw [Heap.isDark, found]; exact dark
  have unchanged : ∀ other ∈ pending,
      (sweep.keep handle object.header.next).heap.isDark other = sweep.heap.isDark other := by
    intro other listed
    simp [isDark_keep, midway.ne_of_mem listed]
  have doomed := midway.doomed_keep found dark (List.Subset.refl pending)
  have sizes : (sweep.keep handle object.header.next).heap.sizeAt = sweep.heap.sizeAt :=
    funext (sizeAt_keep sweep handle object.header.next)
  have freed := Heap.freeAll_congr
    (Heap.clearMarks_modifyHeader sweep.heap handle false) (sweep.heap.doomed (handle :: pending))
  have outcome := congrArg Step.failure? freed
  have notices := congrArg Step.notices freed
  have heap := congrArg Step.heap freed
  constructor
  · rw [rest.failure, ← doomed]
    exact outcome
  · rw [rest.heap, ← doomed]
    exact heap
  · rw [rest.closed, ← doomed]
    exact congrArg (closedStreams sweep.notices ++ closedStreams ·) notices
  · exact rest.clean
  · intro finished
    have survivors : pending.countP (sweep.keep handle object.header.next).heap.isDark =
        pending.countP sweep.heap.isDark :=
      List.countP_congr fun other listed => by rw [unchanged other listed]
    rw [rest.stats finished, ← doomed, sizes, survivors, List.countP_cons_of_pos marked]
    simp only [Sweep.keep, SweepStats.mk.injEq, true_and]
    omega

theorem Midway.frees_drop (midway : sweep.Midway kept (handle :: pending))
    (found : sweep.heap.get? handle = some object) (light : object.header.dark = false)
    (covered : object.header.type.structSize ≤ sweep.heap.bytes)
    (rest : (sweep.drop (sweep.heap.discharged object) handle object.header.type.structSize
      object.header.next).Frees pending swept) : sweep.Frees (handle :: pending) swept := by
  have unmarked : sweep.heap.isDark handle = false := by rw [Heap.isDark, found]; exact light
  have left := midway.heap_drop object object.header.type.structSize
  have unchanged : ∀ other ∈ pending,
      (sweep.heap.takeOut kept.getLast? handle object).heap.isDark other =
        sweep.heap.isDark other :=
    fun other listed => Heap.isDark_takeOut (midway.ne_of_mem listed)
  have doomed := midway.doomed_drop found light (List.Subset.refl pending)
  have freed := midway.chained.freeAll_cons found covered
    ((sweep.heap.takeOut kept.getLast? handle object).heap.doomed pending)
  constructor
  · rw [rest.failure, left, doomed, freed]
    rfl
  · rw [rest.heap, left, doomed, freed]
    rfl
  · rw [rest.closed, left, doomed, freed]
    simp only [Sweep.drop, midway.previous, Step.after, closedStreams_append, List.append_assoc]
    rfl
  · exact rest.clean
  · intro finished
    have survivors : pending.countP (sweep.heap.takeOut kept.getLast? handle object).heap.isDark =
        pending.countP sweep.heap.isDark :=
      List.countP_congr fun other listed => by rw [unchanged other listed]
    have sizes : ((sweep.heap.takeOut kept.getLast? handle object).heap.doomed pending).map
          (sweep.heap.takeOut kept.getLast? handle object).heap.sizeAt =
        ((sweep.heap.takeOut kept.getLast? handle object).heap.doomed pending).map
          sweep.heap.sizeAt := by
      refine List.map_congr_left fun other listed => ?_
      exact Heap.sizeAt_takeOut (midway.ne_of_mem (List.mem_filter.1 listed).1)
    rw [rest.stats finished, left, doomed, survivors, sizes,
      List.countP_cons_of_neg (by simp [unmarked])]
    simp only [Sweep.drop, List.length_cons, List.map_cons, List.sum_cons,
      Heap.sizeAt_of_get? found, SweepStats.mk.injEq, and_true]
    omega

/-- The account falls short of an unmarked object. -/
theorem frees_short (found : sweep.heap.get? handle = some object) (light : object.header.dark = false)
    (short : sweep.heap.bytes < object.header.type.structSize) :
    sweep.Frees (handle :: pending)
      ({ sweep with
          notices := sweep.notices ++ [.logged (.accountingUnderflow sweep.heap.bytes
            object.header.type.structSize)] },
        some (.error (.accountingUnderflow sweep.heap.bytes object.header.type.structSize))) := by
  have unmarked : sweep.heap.isDark handle = false := by rw [Heap.isDark, found]; exact light
  have doomed : sweep.heap.doomed (handle :: pending) = handle :: sweep.heap.doomed pending :=
    List.filter_cons_of_pos (by simp [unmarked])
  have freed := Heap.freeAll_cons_of_short found short (sweep.heap.doomed pending)
  constructor
  · rw [doomed, freed]
    rfl
  · rw [doomed, freed]
    rfl
  · rw [doomed, freed, closedStreams_append]
    rfl
  · simp
  · simp

/-- Whatever a sweep has before it, it deals with as single frees would. -/
theorem Midway.run (midway : sweep.Midway kept pending) (room : pending.length ≤ visits) :
    sweep.Frees pending (Sweep.run visits sweep) := by
  induction pending generalizing sweep kept visits with
  | nil =>
    have ended : Sweep.run visits sweep = (sweep, none) := by
      cases visits <;> simp [Sweep.run, midway.current]
    have clean (handle : Handle) : sweep.heap.isDark handle = false := by
      by_cases live : sweep.heap.contains handle = true
      · exact midway.clean handle (by simpa using midway.chained.complete handle live)
      · rw [Heap.contains, Option.not_isSome_iff_eq_none] at live
        rw [Heap.isDark, live]
        rfl
    rw [ended]
    exact ⟨rfl, rfl, by simp [Heap.doomed, Heap.freeAll, Step.done, closedStreams], fun _ => clean,
      fun _ => by simp [Heap.doomed]⟩
  | cons handle pending ih =>
    obtain ⟨visits, rfl⟩ : ∃ fewer, visits = fewer + 1 := ⟨visits - 1, by simp at room; omega⟩
    have room' : pending.length ≤ visits := by simpa using room
    have live : sweep.heap.contains handle = true := midway.chained.mem_iff.1 (by simp)
    obtain ⟨object, found⟩ := Option.isSome_iff_exists.1 live
    have current : sweep.current = some handle := midway.current
    cases dark : object.header.dark with
    | true =>
      simp only [Sweep.run, current, found, dark, ↓reduceIte]
      exact midway.frees_keep found dark (ih (midway.keep found) room')
    | false =>
      by_cases covered : object.header.type.structSize ≤ sweep.heap.bytes
      · simp only [Sweep.run, current, found, dark, Bool.false_eq_true, ↓reduceIte,
          Heap.discharge_of_le covered, Step.done]
        exact midway.frees_drop found dark covered (ih (midway.drop found _) room')
      · have short := Nat.lt_of_not_le covered
        simp only [Sweep.run, current, found, dark, Bool.false_eq_true, ↓reduceIte,
          Heap.discharge_of_lt short, Step.after, Step.fail, List.append_nil]
        rw [← current]
        exact frees_short found dark short

end Sweep

namespace Heap
variable {heap : Heap}

/-- The walk of a sweep over a chain in order. -/
theorem Chained.run {order : List Handle} (chained : heap.Chained order) :
    (Sweep.start heap).Frees order (Sweep.run heap.sweepBound (.start heap)) := by
  refine (Sweep.midway_start chained).run ?_
  rw [chained.length_eq, sweepBound]
  exact Nat.le_add_right ..

/-- There are as many marks along the chain as there are marked objects. -/
theorem Chained.countP_isDark {order : List Handle} (chained : heap.Chained order) :
    order.countP heap.isDark = heap.darkCount := by
  rw [darkCount, ← chained.perm_occupants.countP_eq, List.countP_filterMap]
  refine List.countP_congr fun handle _ => ?_
  rw [isDark]
  cases heap.get? handle <;> rfl

theorem sweep_of_failure {swept : Sweep} {failure : Failure}
    (walk : Sweep.run heap.sweepBound (.start heap) = (swept, some failure)) :
    heap.sweep = ⟨.error failure, swept.heap, swept.notices⟩ := by
  rw [sweep, walk]

/-- A walk that comes to its end leaves its heap, but for the bytes at which to collect next; these
can be set when their number is a machine word. -/
theorem sweep_of_end {swept : Sweep}
    (walk : Sweep.run heap.sweepBound (.start heap) = (swept, none)) :
    heap.sweep.heap = { swept.heap with nextCollect := heap.sweep.heap.nextCollect } ∧
      closedStreams heap.sweep.notices = closedStreams swept.notices ∧
      heap.sweep.outcome = if swept.heap.bytes * 2 < wordLimit then .ok swept.stats
        else .error (.defect .multiplyOverflow) := by
  rw [sweep, walk]
  by_cases fits : swept.heap.bytes * 2 < wordLimit
  · simp only [checkedDouble, fits, ↓reduceIte, closedStreams_append]
    exact ⟨trivial, List.append_nil _, trivial⟩
  · simp only [checkedDouble, fits, ↓reduceIte]
    exact ⟨trivial, trivial, trivial⟩

namespace Chained
variable {order : List Handle}

/-- A sweep leaves what the single frees leave, but for marks and for the bytes at which to collect
next, whether it succeeds or not. -/
theorem clearMarks_sweep (chained : heap.Chained order) :
    heap.sweep.heap.clearMarks =
      { (heap.freeAll (heap.doomed order)).heap.clearMarks with
        nextCollect := heap.sweep.heap.nextCollect } := by
  have left := chained.run.heap
  cases walk : Sweep.run heap.sweepBound (.start heap) with | mk swept failed?
  rw [walk] at left
  have same : (heap.freeAll (heap.doomed order)).heap.clearMarks = swept.heap.clearMarks := left.symm
  rw [same]
  cases failed? with
  | some failure =>
    rw [sweep_of_failure walk]
    rfl
  | none =>
    rw [(sweep_of_end walk).1]
    rfl

/-- Where all the single frees have a result, the sweep has one too, if it can be counted. -/
theorem sweep_of_freed (chained : heap.Chained order)
    (freed : (heap.freeAll (heap.doomed order)).outcome = .ok ()) :
    heap.sweep.heap =
        { (heap.freeAll (heap.doomed order)).heap.clearMarks with
          nextCollect := heap.sweep.heap.nextCollect } ∧
      closedStreams heap.sweep.notices =
        closedStreams (heap.freeAll (heap.doomed order)).notices ∧
      heap.sweep.outcome =
        if (heap.freeAll (heap.doomed order)).heap.bytes * 2 < wordLimit then
          .ok
            { freedObjects := (heap.doomed order).length
              freedBytes := ((heap.doomed order).map heap.sizeAt).sum
              survivors := heap.darkCount }
        else .error (.defect .multiplyOverflow) := by
  have frees := chained.run
  cases walk : Sweep.run heap.sweepBound (.start heap) with | mk swept failed?
  rw [walk] at frees
  have failure : failed? = (heap.freeAll (heap.doomed order)).failure? := frees.failure
  rw [Step.failure?, freed] at failure
  subst failure
  obtain ⟨left, closed, result⟩ := sweep_of_end walk
  have unmarked : swept.heap = (heap.freeAll (heap.doomed order)).heap.clearMarks :=
    (clearMarks_eq_self (frees.clean rfl)).symm.trans frees.heap
  have bytes : swept.heap.bytes = (heap.freeAll (heap.doomed order)).heap.bytes := by
    rw [unmarked, bytes_clearMarks]
  refine ⟨left.trans (by rw [unmarked]), closed.trans frees.closed, ?_⟩
  rw [result, bytes, frees.stats rfl, ← chained.countP_isDark]
  simp [Sweep.start]

/-- Where one of the single frees fails, the sweep fails alike. -/
theorem sweep_of_refused (chained : heap.Chained order) {failure : Failure}
    (refused : (heap.freeAll (heap.doomed order)).outcome = .error failure) :
    heap.sweep.outcome = .error failure := by
  have frees := chained.run
  cases walk : Sweep.run heap.sweepBound (.start heap) with | mk swept failed?
  rw [walk] at frees
  have failed : failed? = (heap.freeAll (heap.doomed order)).failure? := frees.failure
  rw [Step.failure?, refused] at failed
  subst failed
  rw [sweep_of_failure walk]

end Chained

/-- **Sweeping is freeing.** On a chain in order, whatever is marked and whatever kinds the headers
show, a sweep leaves the heap that freeing the unmarked objects one after another and then taking
off all marks leaves, but for the bytes at which it next asks to be collected, closes the same
streams, and counts what it freed and let live. It has a result whenever all those frees have one and
twice what is left can be counted; where one of the frees fails, the sweep fails alike. -/
theorem sweep_eq_freeAll (heap : Heap) (chained : heap.WellChained) :
    let doomed := heap.objects.filter fun handle => !heap.isDark handle
    let freed := heap.freeAll doomed
    match freed.outcome with
    | .ok () =>
      heap.sweep.heap = { freed.heap.clearMarks with nextCollect := heap.sweep.heap.nextCollect } ∧
      closedStreams heap.sweep.notices = closedStreams freed.notices ∧
      heap.sweep.outcome =
        if freed.heap.bytes * 2 < wordLimit then
          .ok
            { freedObjects := doomed.length
              freedBytes := (doomed.map heap.sizeAt).sum
              survivors := heap.darkCount }
        else .error (.defect .multiplyOverflow)
    | .error failure => heap.sweep.outcome = .error failure := by
  obtain ⟨order, chained⟩ := chained
  rw [chained.objects_eq]
  intro doomed freed
  cases outcome : freed.outcome with
  | error failure => exact chained.sweep_of_refused outcome
  | ok => exact chained.sweep_of_freed outcome

/-- A string, an array, a stream and a map, of which the array is marked and the string is shown as
something else. -/
def halfMarked (shown : ObjectType) : Heap :=
  let text := ((ofConfig .default).takeString []).heap
  let array := (text.newArray #[]).heap
  let stream := (array.newStream ⟨4⟩ true).heap
  let marked := stream.newMap.heap.modifyHeader ⟨⟨1, 0⟩⟩ ({ · with dark := true })
  marked.modifyHeader ⟨⟨0, 0⟩⟩ ({ · with type := shown })

/-- Shown as smaller than it is, the string is freed like the others; shown as larger than what is
left on the account, it stops the sweep. -/
theorem sweep_halfMarked :
    closedStreams (halfMarked .native).sweep.notices = [⟨4⟩] ∧
      (halfMarked .native).sweep.outcome = .ok ⟨3, 260, 1⟩ ∧
      (halfMarked .classDef).sweep.outcome = .error (.error (.accountingUnderflow 104 220)) := by
  have freed := sweep_eq_freeAll (halfMarked .native) (by decide)
  have stopped := sweep_eq_freeAll (halfMarked .classDef) (by decide)
  exact ⟨freed.2.1, freed.2.2, stopped⟩

end Heap
end ScriptHeap
