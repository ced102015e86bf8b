import Mathlib.Data.List.Nodup
import ScriptHeap.Proofs.HandleSafety
import ScriptHeap.Proofs.StreamCalls

/-! Streams of the host through a run. A stream that was handed over is closed through its object, or when
its object is freed or swept away, whichever comes first. The object remembers that it is closed, so the
host is asked once and never again, in whatever order these come and whatever else fails on the way. -/
namespace ScriptHeap

/-! ## One stream of the host -/

/-- The streams that are handed over in a run. The host gives a stream away with this, also when the heap
refuses it, so it does so at most once for each. -/
def handedOver (ops : List Operation) : List HostStream :=
  (ops.filterMap Operation.handsOver).map Stream.host

theorem mem_handedOver {ops : List Operation} {host : HostStream} :
    host ∈ handedOver ops ↔ ∃ op ∈ ops, ∃ stream, op.handsOver = some stream ∧ stream.host = host := by
  simp only [handedOver, List.mem_map, List.mem_filterMap]
  constructor
  · rintro ⟨stream, ⟨op, listed, handing⟩, same⟩
    exact ⟨op, listed, stream, handing, same⟩
  · rintro ⟨op, listed, stream, handing, same⟩
    exact ⟨stream, ⟨op, listed, handing⟩, same⟩

/-- A stream that is handed over is so at some point of the run. -/
theorem exists_of_mem_handedOver {ops : List Operation} {host : HostStream}
    (handing : host ∈ handedOver ops) : ∃ sooner op later stream,
      ops = sooner ++ op :: later ∧ op.handsOver = some stream ∧ stream.host = host := by
  obtain ⟨op, listed, stream, handed, same⟩ := mem_handedOver.1 handing
  obtain ⟨sooner, later, parts⟩ := List.append_of_mem listed
  exact ⟨sooner, op, later, stream, parts, handed, same⟩

theorem handedOver_cons {op : Operation} {ops : List Operation} {host : HostStream} :
    host ∈ handedOver (op :: ops) ↔ host ∈ handedOver [op] ∨ host ∈ handedOver ops := by
  simp only [mem_handedOver, List.mem_cons, List.not_mem_nil, or_false, exists_eq_or_imp,
    exists_eq_left]

namespace Heap
variable {heap : Heap} {op : Operation} {host : HostStream} {handle : Handle} {closed : Bool}

/-- No object holds the stream. -/
def Lacks (heap : Heap) (host : HostStream) : Prop :=
  ∀ handle closed, heap.standing? handle ≠ some (host, closed)

/-- This object holds the stream, open or closed, and no other object does. -/
structure Holds (heap : Heap) (host : HostStream) (handle : Handle) (closed : Bool) : Prop where
  own : heap.standing? handle = some (host, closed)
  only : ∀ other state, heap.standing? other = some (host, state) → other = handle

/-- Who holds a stream that is not handed over now has held it before. -/
theorem holder_before (spares : op.SparesStreams) (old : host ∉ handedOver [op])
    (held : (op.perform heap).heap.standing? handle = some (host, closed)) :
    handle ∉ op.removals heap ∧ ∃ state, heap.standing? handle = some (host, state) := by
  rw [op.standing?_perform spares] at held
  split at held
  · obtain ⟨stream, handing, stands⟩ := Option.map_eq_some_iff.1 held
    exact absurd (mem_handedOver.2 ⟨op, by simp, stream, handing, congrArg Prod.fst stands⟩) old
  · split at held
    · cases held
    · next kept =>
      obtain ⟨⟨whose, state⟩, before, same⟩ := Option.map_eq_some_iff.1 held
      obtain rfl : whose = host := congrArg Prod.fst same
      exact ⟨kept, state, before⟩

theorem Lacks.perform (lacks : heap.Lacks host) (spares : op.SparesStreams)
    (old : host ∉ handedOver [op]) : (op.perform heap).heap.Lacks host := by
  intro handle closed held
  obtain ⟨-, state, before⟩ := holder_before spares old held
  exact lacks handle state before

/-- Nobody is called for a stream that no object holds. -/
theorem Lacks.not_called (lacks : heap.Lacks host) (op : Operation) :
    host ∉ closedStreams (op.perform heap).notices := by
  rw [op.closedStreams_perform, List.mem_filterMap]
  rintro ⟨handle, -, opened⟩
  exact lacks handle false (openStream?_eq_some_iff.1 opened)

namespace Holds

/-- The host is called if its stream is open and its object is among those to close, and then once. -/
theorem count_calls (holds : heap.Holds host handle closed) (op : Operation) :
    (closedStreams (op.perform heap).notices).count host =
      if closed = false ∧ handle ∈ op.closings heap then 1 else 0 := by
  have opens (other : Handle) : ((heap.openStream? other).map (· == host)).getD false = true ↔
      closed = false ∧ other = handle := by
    have its : ((heap.openStream? other).map (· == host)).getD false = true ↔
        heap.openStream? other = some host := by cases heap.openStream? other <;> simp
    rw [its, openStream?_eq_some_iff]
    constructor
    · intro stands
      obtain rfl := holds.only other false stands
      exact ⟨(Prod.mk.inj (Option.some.inj (holds.own.symm.trans stands))).2, rfl⟩
    · rintro ⟨rfl, rfl⟩
      exact holds.own
  have closes := op.nodup_closings heap
  rw [op.closedStreams_perform, List.count, List.countP_filterMap]
  split
  · next both =>
    obtain ⟨rfl, listed⟩ := both
    rw [← List.count_eq_one_of_mem closes listed]
    refine List.countP_congr fun other _ => ?_
    rw [opens, beq_iff_eq, and_iff_right rfl]
  · next neither =>
    refine List.countP_eq_zero.2 fun other listed called => neither ?_
    obtain ⟨opened, rfl⟩ := (opens other).1 called
    exact ⟨opened, listed⟩

theorem mem_calls (holds : heap.Holds host handle closed) (op : Operation) :
    host ∈ closedStreams (op.perform heap).notices ↔ closed = false ∧ handle ∈ op.closings heap := by
  rw [← List.count_pos_iff, holds.count_calls op]
  split
  · next both => simp [both]
  · next neither => simp [neither]

theorem removed (holds : heap.Holds host handle closed) (spares : op.SparesStreams)
    (old : host ∉ handedOver [op]) (gone : handle ∈ op.removals heap) :
    (op.perform heap).heap.Lacks host := by
  intro other state held
  obtain ⟨kept, before, was⟩ := holder_before spares old held
  exact kept (holds.only other before was ▸ gone)

theorem kept (holds : heap.Holds host handle closed) (spares : op.SparesStreams)
    (old : host ∉ handedOver [op]) (elder : handle ∉ newborns (op.perform heap).notices)
    (kept : handle ∉ op.removals heap) :
    (op.perform heap).heap.Holds host handle (closed || op.closesStream handle) where
  own := by rw [op.standing?_perform spares, if_neg elder, if_neg kept, holds.own, Option.map_some]
  only := by
    intro other state held
    obtain ⟨-, before, was⟩ := holder_before spares old held
    exact holds.only other before was

end Holds
end Heap

/-! ## Whole runs -/

namespace History
variable {past : History} {ops : List Operation} {host : HostStream} {handle : Handle} {closed : Bool}

/-- The streams that the host is called for in a run from here. -/
def calls (past : History) : List Operation → List HostStream
  | [] => []
  | op :: rest => closedStreams (op.perform past.heap).notices ++ (past.perform op).calls rest

theorem calls_append (past : History) (ops more : List Operation) :
    past.calls (ops ++ more) = past.calls ops ++ (past.after ops).calls more := by
  induction ops generalizing past with
  | nil => rfl
  | cons op ops ih =>
    rw [List.cons_append, calls, ih, calls, List.append_assoc]
    rfl

/-- In a run from here, the stream of this object is closed explicitly while the object lives. -/
def ClosedBy (past : History) (ops : List Operation) (handle : Handle) : Prop :=
  ∃ before later, ops = before ++ .closeStream handle :: later ∧
    (past.after before).heap.contains handle = true

theorem closedBy_cons {op : Operation} :
    past.ClosedBy (op :: ops) handle ↔
      (op.closesStream handle = true ∧ past.heap.contains handle = true) ∨
        (past.perform op).ClosedBy ops handle := by
  constructor
  · rintro ⟨before, later, split, live⟩
    rcases List.cons_eq_append_iff.1 split with ⟨rfl, first⟩ | ⟨before, rfl, rest⟩
    · cases first
      exact .inl ⟨beq_self_eq_true handle, live⟩
    · exact .inr ⟨before, later, rest, live⟩
  · rintro (⟨closes, live⟩ | ⟨before, later, rfl, live⟩)
    · obtain rfl := Operation.closesStream_iff.1 closes
      exact ⟨[], ops, rfl, live⟩
    · exact ⟨op :: before, later, rfl, live⟩

theorem removed_after (past : History) (ops : List Operation) (gone : handle ∈ past.removed) :
    handle ∈ (past.after ops).removed :=
  after_keeps (handle ∈ ·.removed) gone fun _ _ _ held => List.mem_append_right _ held

/-- A stream that no object holds, and that is not handed over, is not called for. -/
theorem lacks_after (lacks : past.heap.Lacks host) (spares : ∀ op ∈ ops, op.SparesStreams)
    (old : host ∉ handedOver ops) : host ∉ past.calls ops ∧ (past.after ops).heap.Lacks host := by
  induction ops generalizing past with
  | nil => exact ⟨List.not_mem_nil, lacks⟩
  | cons op ops ih =>
    obtain ⟨first, rest⟩ := not_or.1 (mt handedOver_cons.2 old)
    have gone : (past.perform op).heap.Lacks host := lacks.perform (spares op List.mem_cons_self) first
    obtain ⟨silent, still⟩ := ih gone (fun op listed => spares op (List.mem_cons_of_mem _ listed)) rest
    rw [calls, List.mem_append, not_or]
    exact ⟨⟨lacks.not_called op, silent⟩, still⟩

/-- What becomes of a stream that an object holds. -/
structure Fate (past : History) (ops : List Operation) (host : HostStream) (handle : Handle)
    (closed : Bool) : Prop where
  once : (past.calls ops).count host ≤ 1
  called : host ∈ past.calls ops ↔
    closed = false ∧ (past.ClosedBy ops handle ∨ handle ∈ (past.after ops).removed)
  flag : ∀ standing, (past.after ops).heap.standing? handle = some standing →
    standing.1 = host ∧ (standing.2 = true ↔ closed = true ∨ host ∈ past.calls ops)
  only : ∀ other state, (past.after ops).heap.standing? other = some (host, state) → other = handle

theorem mem_calls_cons (holds : past.heap.Holds host handle closed) (op : Operation) :
    host ∈ past.calls (op :: ops) ↔
      (closed = false ∧ (op.closesStream handle = true ∨ handle ∈ op.removals past.heap)) ∨
        host ∈ (past.perform op).calls ops := by
  rw [calls, List.mem_append, holds.mem_calls, op.mem_closings]

theorem count_calls_cons (holds : past.heap.Holds host handle closed) (op : Operation) :
    (past.calls (op :: ops)).count host =
      (if closed = false ∧ (op.closesStream handle = true ∨ handle ∈ op.removals past.heap) then 1
        else 0) + ((past.perform op).calls ops).count host := by
  rw [calls, List.count_append, holds.count_calls]
  simp only [op.mem_closings]

namespace Fate
variable {op : Operation}

theorem nil (sound : past.Sound) (holds : past.heap.Holds host handle closed) :
    past.Fate [] host handle closed where
  once := Nat.zero_le 1
  called := by
    have live := sound.contains_iff.1 (Heap.contains_of_standing? holds.own)
    refine iff_of_false List.not_mem_nil ?_
    rintro ⟨-, ⟨before, later, split, -⟩ | gone⟩
    · simp at split
    · exact live.2 gone
  flag := by
    intro standing stands
    obtain rfl := Option.some.inj (holds.own.symm.trans stands)
    simp [calls]
  only := holds.only

/-- The object is taken away, and no object ever holds the stream again. -/
theorem removed (sound : past.Sound) (holds : past.heap.Holds host handle closed)
    (spares : ∀ one ∈ op :: ops, one.SparesStreams) (old : host ∉ handedOver (op :: ops))
    (gone : handle ∈ op.removals past.heap) : past.Fate (op :: ops) host handle closed := by
  obtain ⟨spare, spares⟩ := List.forall_mem_cons.1 spares
  obtain ⟨now, later⟩ := not_or.1 (mt handedOver_cons.2 old)
  have lacks : (past.perform op).heap.Lacks host := holds.removed spare now gone
  obtain ⟨silent, absent⟩ := lacks_after lacks spares later
  have removed : handle ∈ (past.after (op :: ops)).removed :=
    (past.perform op).removed_after ops (List.mem_append_left _ gone)
  constructor
  · rw [count_calls_cons holds, List.count_eq_zero.2 silent]
    split <;> decide
  · simp [mem_calls_cons holds, silent, gone, removed]
  · intro standing stands
    have sound' : (past.after (op :: ops)).Sound := sound.after (op :: ops)
    exact absurd removed (sound'.contains_iff.1 (Heap.contains_of_standing? stands)).2
  · intro other state stands
    exact absurd stands (absent other state)

/-- The object stays, with its stream closed or as it was. -/
theorem kept (holds : past.heap.Holds host handle closed) (stays : handle ∉ op.removals past.heap)
    (rest : (past.perform op).Fate ops host handle (closed || op.closesStream handle)) :
    past.Fate (op :: ops) host handle closed := by
  have live := Heap.contains_of_standing? holds.own
  cases closes : op.closesStream handle with
  | true =>
    rw [closes, Bool.or_true] at rest
    have silent : host ∉ (past.perform op).calls ops := fun called =>
      Bool.noConfusion (rest.called.1 called).1
    constructor
    · rw [count_calls_cons holds, List.count_eq_zero.2 silent]
      split <;> decide
    · simp [mem_calls_cons holds, silent, closes, closedBy_cons, live]
    · intro standing stands
      obtain ⟨whose, now⟩ := rest.flag standing stands
      refine ⟨whose, ?_⟩
      rw [now, mem_calls_cons holds, closes]
      cases closed <;> simp
    · exact rest.only
  | false =>
    rw [closes, Bool.or_false] at rest
    have called : host ∈ past.calls (op :: ops) ↔ host ∈ (past.perform op).calls ops := by
      simp [mem_calls_cons holds, closes, stays]
    constructor
    · rw [count_calls_cons holds]
      simpa [closes, stays] using rest.once
    · rw [called, rest.called, closedBy_cons, closes]
      simp only [Bool.false_eq_true, false_and, false_or]
      rfl
    · rw [called]
      exact rest.flag
    · exact rest.only

end Fate

/-- What becomes of a stream from when an object holds it. -/
theorem fate_after (sound : past.Sound) (holds : past.heap.Holds host handle closed)
    (spares : ∀ op ∈ ops, op.SparesStreams) (old : host ∉ handedOver ops) :
    past.Fate ops host handle closed := by
  induction ops generalizing past closed with
  | nil => exact .nil sound holds
  | cons op ops ih =>
    by_cases gone : handle ∈ op.removals past.heap
    · exact .removed sound holds spares old gone
    · obtain ⟨spare, spares⟩ := List.forall_mem_cons.1 spares
      obtain ⟨now, later⟩ := not_or.1 (mt handedOver_cons.2 old)
      have sound' := sound.perform op
      have listed := (sound.contains_iff.1 (Heap.contains_of_standing? holds.own)).1
      have elder : handle ∉ newborns (op.perform past.heap).notices := fun born =>
        (List.nodup_append.1 sound'.distinct).2.2 handle born handle listed rfl
      exact .kept holds gone (ih sound' (holds.kept spare now elder gone) spares later)

/-! ## From the handing over on -/

theorem lacks_start (config : HeapConfig) (host : HostStream) : (start config).heap.Lacks host :=
  fun _ _ => nofun

/-- What hands a stream over is an allocation. -/
theorem allocates_of_handsOver {op : Operation} {stream : Stream} (handing : op.handsOver = some stream)
    (heap : Heap) :
    ∃ dispatch, op.perform heap = (heap.allocateWith (.stream stream) dispatch).ignore := by
  cases op with
  | create creation =>
    cases creation with
    | stream host writable =>
      cases handing
      exact ⟨_, rfl⟩
    | raw payload =>
      cases payload with
      | stream given =>
        cases handing
        exact ⟨_, rfl⟩
      | _ => cases handing
    | _ => cases handing
  | _ => cases handing

/-- So it fails, or there is one object more, which holds the stream. -/
theorem handed_over (past : History) {op : Operation} {stream : Stream}
    (handing : op.handsOver = some stream) (lacks : past.heap.Lacks stream.host) :
    closedStreams (op.perform past.heap).notices = [] ∧
      ((∃ failure, (op.perform past.heap).outcome = .error failure ∧
          (past.perform op).heap.Lacks stream.host) ∨
        ∃ handle, (past.perform op).issued = handle :: past.issued ∧
          (past.perform op).heap.Holds stream.host handle stream.closed) := by
  obtain ⟨dispatch, allocates⟩ := allocates_of_handsOver handing past.heap
  rw [History.perform, allocates]
  obtain ⟨failure, told, refuses, refused⟩ | granted :=
    past.heap.allocateWith_cases (.stream stream) dispatch
  · rw [refused]
    refine ⟨by cases refuses <;> rfl, .inl ⟨failure, rfl, lacks⟩⟩
  · rw [granted]
    have stands (other : Handle) : (past.heap.grown (.stream stream) dispatch).standing? other =
        if other = past.heap.nextHandle then some stream.standing else past.heap.standing? other := by
      rw [Heap.standing?, Heap.view?_grown]
      split <;> rfl
    refine ⟨rfl, .inr ⟨past.heap.nextHandle, rfl, ?_, ?_⟩⟩
    · exact (stands _).trans (if_pos rfl)
    · intro other state held
      by_contra different
      exact lacks other state (((stands other).trans (if_neg different)).symm.trans held)

/-- Each stream is handed over at one point of the run. -/
theorem handed_over_once {sooner later : List Operation} {op : Operation} {stream : Stream}
    (fresh : (handedOver (sooner ++ op :: later)).Nodup) (handing : op.handsOver = some stream) :
    stream.host ∉ handedOver sooner ∧ stream.host ∉ handedOver later := by
  have parts : handedOver (sooner ++ op :: later) =
      handedOver sooner ++ stream.host :: handedOver later := by
    simp [handedOver, handing]
  rw [parts, List.nodup_middle, List.nodup_cons, List.mem_append, not_or] at fresh
  exact fresh.1

/-- What becomes of a stream that is handed over in a run. -/
theorem fate_run (config : HeapConfig) {sooner later : List Operation} {op : Operation}
    {stream : Stream} (spares : ∀ one ∈ sooner ++ op :: later, one.SparesStreams)
    (fresh : (handedOver (sooner ++ op :: later)).Nodup) (handing : op.handsOver = some stream) :
    let past := run config sooner
    ((start config).calls (sooner ++ op :: later)).count stream.host =
        ((past.perform op).calls later).count stream.host ∧
      ((∃ failure, (op.perform past.heap).outcome = .error failure ∧
          stream.host ∉ (past.perform op).calls later ∧
          ((past.perform op).after later).heap.Lacks stream.host) ∨
        ∃ handle, (past.perform op).issued = handle :: past.issued ∧
          (past.perform op).Fate later stream.host handle stream.closed) := by
  intro past
  obtain ⟨before, after⟩ := handed_over_once fresh handing
  rw [List.forall_mem_append, List.forall_mem_cons] at spares
  obtain ⟨earlier, -, others⟩ := spares
  obtain ⟨uncalled, lacks⟩ := lacks_after (lacks_start config stream.host) earlier before
  obtain ⟨silent, outcomes⟩ := handed_over past handing lacks
  constructor
  · rw [calls_append, calls, List.count_append, List.count_append, List.count_eq_zero.2 uncalled]
    have quiet : closedStreams (op.perform ((start config).after sooner).heap).notices = [] := silent
    rw [quiet, List.count_nil, Nat.zero_add, Nat.zero_add]
    rfl
  · rcases outcomes with ⟨failure, failed, without⟩ | ⟨handle, born, holds⟩
    · exact .inl ⟨failure, failed, lacks_after without others after⟩
    · have sound : (past.perform op).Sound := (sound_run config sooner).perform op
      exact .inr ⟨handle, born, fate_after sound holds others after⟩

theorem run_split (config : HeapConfig) (sooner later : List Operation) (op : Operation) :
    run config (sooner ++ op :: later) = ((run config sooner).perform op).after later :=
  run_append config sooner (op :: later)

section
variable {config : HeapConfig} {ops : List Operation} {host : HostStream}

/-- A stream that is never handed over is never called for, and no object holds it. -/
theorem never_handed_over (spares : ∀ op ∈ ops, op.SparesStreams) (never : host ∉ handedOver ops) :
    host ∉ (start config).calls ops ∧ (run config ops).heap.Lacks host :=
  lacks_after (lacks_start config host) spares never

theorem nodup_calls (spares : ∀ op ∈ ops, op.SparesStreams) (fresh : (handedOver ops).Nodup) :
    ((start config).calls ops).Nodup := by
  rw [List.nodup_iff_count_le_one]
  intro host
  by_cases handing : host ∈ handedOver ops
  · obtain ⟨sooner, op, later, stream, rfl, handed, rfl⟩ := exists_of_mem_handedOver handing
    obtain ⟨counted, ⟨-, -, uncalled, -⟩ | ⟨handle, -, fate⟩⟩ := fate_run config spares fresh handed
    · rw [counted, List.count_eq_zero.2 uncalled]
      exact Nat.zero_le 1
    · rw [counted]
      exact fate.once
  · rw [List.count_eq_zero.2 (never_handed_over spares handing).1]
    exact Nat.zero_le 1

/-- An object of a stream is the one that came into being when the stream was handed over. -/
theorem holder_run (spares : ∀ op ∈ ops, op.SparesStreams) (fresh : (handedOver ops).Nodup)
    {handle : Handle} {closed : Bool}
    (stands : (run config ops).heap.standing? handle = some (host, closed)) :
    ∃ sooner op later stream, ops = sooner ++ op :: later ∧ op.handsOver = some stream ∧
      stream.host = host ∧ ((run config sooner).perform op).issued.head? = some handle := by
  have handing : host ∈ handedOver ops := by
    by_contra never
    exact (never_handed_over spares never).2 handle closed stands
  obtain ⟨sooner, op, later, stream, rfl, handed, rfl⟩ := exists_of_mem_handedOver handing
  refine ⟨sooner, op, later, stream, rfl, handed, rfl, ?_⟩
  rw [run_split] at stands
  obtain ⟨-, ⟨-, -, -, absent⟩ | ⟨born, issued, fate⟩⟩ := fate_run config spares fresh handed
  · exact absurd stands (absent handle closed)
  · rw [issued, fate.only handle closed stands, List.head?_cons]

end

/-- **Streams are closed once.** After any run in which every stream of the host is handed over once, each
of them was called to close at most once. If its allocation failed it was never called. Otherwise it was
called exactly if it was handed over open, and its object was closed explicitly while it lived or was freed
or swept away; and as long as the object lives, it says that it is closed exactly if the call was made, or
if the stream was closed when it was handed over. These are all the calls and all the objects of streams.
From there on every operation calls for the open streams among those that it closes or takes away, so that
one that fails makes no call, unless it is a sweep, which takes away what it had come to. -/
theorem streams_run (config : HeapConfig) (ops : List Operation)
    (spares : ∀ op ∈ ops, op.SparesStreams) (fresh : (handedOver ops).Nodup) :
    let now := run config ops
    let calls := (start config).calls ops
    calls.Nodup ∧
      (∀ sooner op later stream, ops = sooner ++ op :: later → op.handsOver = some stream →
        let past := run config sooner
        (∃ failure, (op.perform past.heap).outcome = .error failure ∧ stream.host ∉ calls) ∨
        ∃ handle, (past.perform op).issued = handle :: past.issued ∧
          (stream.host ∈ calls ↔ stream.closed = false ∧
            ((past.perform op).ClosedBy later handle ∨ handle ∈ now.removed)) ∧
          ∀ held, now.heap.view? .stream handle = some held → held.host = stream.host ∧
            (held.closed = true ↔ stream.closed = true ∨ stream.host ∈ calls)) ∧
      (∀ host ∈ calls, host ∈ handedOver ops) ∧
      (∀ handle held, now.heap.view? .stream handle = some held →
        ∃ sooner op later stream, ops = sooner ++ op :: later ∧ op.handsOver = some stream ∧
          stream.host = held.host ∧
          ((run config sooner).perform op).issued.head? = some handle) ∧
      ∀ op : Operation, closedStreams (op.perform now.heap).notices =
          (op.closings now.heap).filterMap now.heap.openStream? ∧
        ∀ failure, (op.perform now.heap).outcome = .error failure → op ≠ .sweep →
          closedStreams (op.perform now.heap).notices = [] := by
  intro now calls
  refine ⟨nodup_calls spares fresh, ?_, ?_, ?_, ?_⟩
  · rintro sooner op later stream rfl handing
    obtain ⟨counted, fates⟩ := fate_run config spares fresh handing
    have called : stream.host ∈ calls ↔
        stream.host ∈ ((run config sooner).perform op).calls later := by
      rw [← List.count_pos_iff, ← List.count_pos_iff, counted]
    rcases fates with ⟨failure, failed, uncalled, -⟩ | ⟨handle, born, fate⟩
    · exact .inl ⟨failure, failed, mt called.1 uncalled⟩
    · have ends : now = ((run config sooner).perform op).after later := run_split ..
      rw [called, ends]
      refine .inr ⟨handle, born, fate.called, fun held seen => fate.flag held.standing ?_⟩
      rw [Heap.standing?, seen]
      rfl
  · intro host called
    by_contra never
    exact (never_handed_over spares never).1 called
  · intro handle held seen
    have stands : now.heap.standing? handle = some held.standing := by
      rw [Heap.standing?, seen]
      rfl
    exact holder_run spares fresh stands
  · intro op
    refine ⟨op.closedStreams_perform now.heap, fun failure failed completes => ?_⟩
    rw [op.closedStreams_perform, op.closings_of_failed failed completes, List.filterMap_nil]

/-- Room for three objects. -/
def threefold : HeapConfig := { HeapConfig.default with maxObjectCount := 3 }

/-- Four streams, of which the heap takes three. The first is closed, twice; the second is shown as larger
than what is on the account, which stops a sweep in front of it, and goes with the next sweep. -/
def interrupted : List Operation :=
  [.create (.stream ⟨1⟩ true), .create (.stream ⟨2⟩ false), .create (.stream ⟨3⟩ true),
    .create (.stream ⟨4⟩ true), .closeStream ⟨⟨0, 0⟩⟩, .closeStream ⟨⟨0, 0⟩⟩,
    .mark ⟨⟨2, 0⟩⟩ true, .writeType ⟨⟨1, 0⟩⟩ .classDef, .sweep,
    .mark ⟨⟨2, 0⟩⟩ true, .writeType ⟨⟨1, 0⟩⟩ .stream, .sweep]

/-- The third stream is still there, and is closed when its object is freed. -/
theorem streams_interrupted :
    let past := run threefold interrupted
    let calls := (start threefold).calls interrupted
    calls.Nodup ∧ calls = [⟨1⟩, ⟨2⟩] ∧ past.removed = [⟨⟨1, 0⟩⟩, ⟨⟨0, 0⟩⟩] ∧
      closedStreams ((Operation.free ⟨⟨2, 0⟩⟩).perform past.heap).notices = [⟨3⟩] := by
  have closed := streams_run threefold interrupted (by simp [interrupted, Operation.SparesStreams])
    (by decide)
  exact ⟨closed.1, by decide, by decide, (closed.2.2.2.2 (.free ⟨⟨2, 0⟩⟩)).1.trans (by decide)⟩

end History
end ScriptHeap
