import ScriptHeap.Proofs.SweepAsFreeing
import ScriptHeap.Proofs.Views

/-! What an operation does to the streams of the host. It calls for the open streams of the objects that
it closes or takes away, each once; the objects that it closes say so afterwards, and all other streams
stand as they stood. -/
namespace ScriptHeap

/-- What nobody but the stream itself can rewrite: whose it is, and whether it is closed. -/
def Stream.standing (stream : Stream) : HostStream × Bool := (stream.host, stream.closed)

namespace Heap

/-- How the stream of an object stands, if it is the object of one. -/
def standing? (heap : Heap) (handle : Handle) : Option (HostStream × Bool) :=
  (heap.view? .stream handle).map Stream.standing

/-- The host's stream that an object has open. -/
def openStream? (heap : Heap) (handle : Handle) : Option HostStream :=
  (heap.view? .stream handle).bind Stream.host?

variable {heap rest : Heap} {handle target : Handle}

theorem openStream?_eq_some_iff {host : HostStream} :
    heap.openStream? handle = some host ↔ heap.standing? handle = some (host, false) := by
  rw [openStream?, standing?]
  cases heap.view? .stream handle with
  | none => simp
  | some stream => cases closed : stream.closed <;> simp [Stream.host?, Stream.standing, closed]

theorem standing?_congr (same : rest.payloadAt handle = heap.payloadAt handle) :
    rest.standing? handle = heap.standing? handle := by
  rw [standing?, standing?, view?_congr same]

theorem contains_of_standing? {standing : HostStream × Bool}
    (stands : heap.standing? handle = some standing) : heap.contains handle = true := by
  obtain ⟨stream, seen, -⟩ := Option.map_eq_some_iff.1 stands
  exact contains_of_view? (Option.isSome_of_eq_some seen)

/-- Losing objects leaves the streams of the others as they stood. -/
theorem Loses.standing? {gone : List Handle} (loses : heap.Loses gone rest) (handle : Handle) :
    rest.standing? handle = if handle ∈ gone then none else heap.standing? handle := by
  split
  · next lost =>
    rw [Heap.standing?, view?_eq_payloadAt, loses.payloads, if_pos lost]
    rfl
  · next kept => exact standing?_congr ((loses.payloads handle).trans (if_neg kept))

theorem openStream?_congr (same : rest.payloadAt handle = heap.payloadAt handle) :
    rest.openStream? handle = heap.openStream? handle := by
  rw [openStream?, openStream?, view?_congr same]

end Heap

namespace Operation

/-- The stream that an operation hands over, whether the heap takes it or not. -/
def handsOver : Operation → Option Stream
  | .create (.stream host writable) => some (.ofHost host writable)
  | .create (.raw (.stream stream)) => some stream
  | _ => none

/-- An edit of a stream can make it writable or not, and nothing else. -/
def SparesStreams : Operation → Prop
  | .edit .stream _ change => ∀ stream, (change stream).standing = stream.standing
  | _ => True

/-- Whether an operation closes the stream of this object explicitly. -/
def closesStream : Operation → Handle → Bool
  | .closeStream target, handle => target == handle
  | _, _ => false

/-- The objects that an operation closes the streams of, if they are objects of open streams: the one it
names, or those that it takes away. -/
def closings (op : Operation) (heap : Heap) : List Handle :=
  match op with
  | .closeStream target => [target]
  | _ => op.removals heap

end Operation

/-! ## The calls to the host -/

theorem closedStreams_farewell (payload : Payload) :
    closedStreams payload.farewell = ((Variant.stream.project payload).bind Stream.host?).toList := by
  cases payload with
  | function code => rfl
  | stream held =>
    have shown : Variant.stream.project (.stream held) = some held := rfl
    rw [Payload.farewell, shown, Option.bind_some]
    cases held.host? <;> rfl
  | _ => rfl

namespace Heap
variable {heap : Heap}

theorem closedStreams_release (heap : Heap) (target : Handle) :
    closedStreams (heap.release target).notices = (heap.openStream? target).toList := by
  rw [release, openStream?, view?]
  cases heap.get? target with
  | none => rfl
  | some object => exact closedStreams_farewell object.payload

/-- Freeing calls for the object that it takes away, and makes no call when it fails. -/
theorem closedStreams_free (heap : Heap) (target : Handle) :
    closedStreams (heap.free target).notices =
      ((Operation.free target).removals heap).filterMap heap.openStream? := by
  rw [Operation.removals]
  rcases heap.free_cases target with
    ⟨-, refused⟩ | ⟨object, found, ⟨-, refused⟩ | ⟨cause, -, lost⟩ | ⟨unlinked, led, freed⟩⟩
  · rw [refused]
    rfl
  · rw [refused]
    rfl
  · rw [lost]
    rfl
  · have same : unlinked.openStream? target = heap.openStream? target :=
      openStream?_congr ((loses_unlink led).payloads target)
    rw [freed, closedStreams_append, closedStreams_release, same]
    cases called : heap.openStream? target <;> simp [called] <;> rfl

end Heap

namespace Sweep

/-- Dropping an object calls the host if its stream is open. -/
theorem closedStreams_drop (sweep : Sweep) (object : Object) (handle : Handle) (size : Nat)
    (next : Option Handle) :
    closedStreams (sweep.drop (sweep.heap.discharged object) handle size next).notices =
      closedStreams sweep.notices ++ (sweep.heap.openStream? handle).toList := by
  have same : (bypass (sweep.heap.discharged object) sweep.previous next).openStream? handle =
      sweep.heap.openStream? handle :=
    Heap.openStream?_congr ((Heap.loses_bypass _ sweep.previous next).payloads handle)
  rw [drop, closedStreams_append, Heap.closedStreams_release, same]

/-- What a walk takes away is taken away once, and the host is called for what of it is open. -/
theorem closedStreams_run (visits : Nat) (sweep : Sweep) :
    (victims visits sweep).Nodup ∧
      closedStreams (run visits sweep).1.notices = closedStreams sweep.notices ++
        (victims visits sweep).filterMap sweep.heap.openStream? := by
  induction visits generalizing sweep with
  | zero => exact ⟨.nil, (List.append_nil _).symm⟩
  | succ visits ih =>
    cases current : sweep.current with
    | none => simp [victims, run, current]
    | some handle =>
      cases found : sweep.heap.get? handle with
      | none => simp [victims, run, current, found]
      | some object =>
        cases dark : object.header.dark with
        | true =>
          simp only [victims, run, current, found, dark, ↓reduceIte]
          obtain ⟨once, called⟩ := ih (sweep.keep handle object.header.next)
          have same : (sweep.keep handle object.header.next).heap.openStream? =
              sweep.heap.openStream? :=
            funext fun other => Heap.openStream?_congr
              ((sweep.heap.loses_modifyHeader handle ({ · with dark := false })).payloads other)
          rw [same] at called
          exact ⟨once, called⟩
        | false =>
          by_cases covered : object.header.type.structSize ≤ sweep.heap.bytes
          · simp only [victims, run, current, found, dark, Bool.false_eq_true, ↓reduceIte,
              Heap.discharge_of_le covered, Step.done]
            have loses := loses_drop found object.header.type.structSize object.header.next
            generalize dropping : sweep.drop (sweep.heap.discharged object) handle
              object.header.type.structSize object.header.next = dropped at loses ⊢
            obtain ⟨once, called⟩ := ih dropped
            -- what is taken away later is still there, so it is not the object dropped now
            have others : ∀ other ∈ victims visits dropped, other ∉ [handle] := fun other listed =>
              (loses.contains_iff.1 ((takes_run visits dropped).loses.lived other listed)).2
            have same : (victims visits dropped).filterMap dropped.heap.openStream? =
                (victims visits dropped).filterMap sweep.heap.openStream? :=
              List.filterMap_congr fun other listed => Heap.openStream?_congr
                ((loses.payloads other).trans (if_neg (others other listed)))
            constructor
            · exact List.nodup_cons.2 ⟨fun again => others handle again (by simp), once⟩
            · rw [called, same, ← dropping, closedStreams_drop, List.append_assoc,
                List.filterMap_cons]
              cases sweep.heap.openStream? handle <;> rfl
          · have short := Nat.lt_of_not_le covered
            simp only [victims, run, current, found, dark, Bool.false_eq_true, ↓reduceIte,
              Heap.discharge_of_lt short, Step.after, Step.fail, List.append_nil,
              closedStreams_append, List.filterMap_nil]
            exact ⟨.nil, List.append_nil _⟩

end Sweep

namespace Heap
variable {heap : Heap} {op : Operation}

/-- A sweep calls for what it takes away, also if it stops on the way. -/
theorem closedStreams_sweep (heap : Heap) :
    (Operation.sweep.removals heap).Nodup ∧
      closedStreams heap.sweep.notices =
        (Operation.sweep.removals heap).filterMap heap.openStream? := by
  obtain ⟨once, called⟩ := Sweep.closedStreams_run heap.sweepBound (.start heap)
  rw [Operation.removals, sweep]
  cases walk : Sweep.run heap.sweepBound (.start heap) with | mk swept failed?
  rw [walk] at called
  refine ⟨once, ?_⟩
  cases failed? with
  | some failure => exact called
  | none =>
    simp only
    split
    · exact called
    · rw [closedStreams_append, called]
      exact List.append_nil _

end Heap

/-! ## One operation -/

namespace Operation
variable {op : Operation} {heap : Heap} {payload : Payload} {handle : Handle}

theorem Allocates.handsOver {dispatch : Option Handle}
    (allocates : op.Allocates heap payload dispatch) :
    op.handsOver = Variant.stream.project payload := by
  cases allocates with
  | capture => rfl
  | @create creation _ _ allocates =>
    cases creation with
    | raw given =>
      obtain rfl : payload = given := allocates
      cases payload <;> rfl
    | closure =>
      obtain ⟨definition, -, rfl⟩ := allocates
      rfl
    | namedClass => obtain rfl | ⟨text, rfl⟩ := allocates <;> rfl
    | namedNameSpace => obtain rfl | ⟨text, rfl⟩ := allocates <;> rfl
    | _ =>
      cases allocates
      rfl

/-- No revision but closing changes how a stream stands. -/
theorem Revises.standing {change : Payload → Payload} (revises : op.Revises handle change)
    (spares : op.SparesStreams) (closes : ∀ target, op ≠ .closeStream target) (payload : Payload) :
    (Variant.stream.project (change payload)).map Stream.standing =
      (Variant.stream.project payload).map Stream.standing := by
  by_cases aside : op.revisedKind? = some .stream
  · cases revises with
    | closeStream => exact absurd rfl (closes handle)
    | @edit type _ revision =>
      cases aside
      have own : Variant.stream.project (Variant.stream.modify revision payload) =
          (Variant.stream.project payload).map revision := Variant.stream.project_modify ..
      have kept : Stream.standing ∘ revision = Stream.standing := funext spares
      rw [Variant.ofType, own, Option.map_map, kept]
    | _ => cases aside
  · rw [revises.project_of_ne aside]

/-- Operations that neither free nor sweep nor close call nobody, and all streams stand as before, but for
one that was handed over. -/
private theorem standing?_keeping (frees : ∀ target, op ≠ .free target) (sweeps : op ≠ .sweep)
    (closes : ∀ target, op ≠ .closeStream target) (spares : op.SparesStreams) (heap : Heap) :
    closedStreams (op.perform heap).notices = [] ∧
      ∀ handle, (op.perform heap).heap.standing? handle =
        if handle ∈ newborns (op.perform heap).notices then op.handsOver.map Stream.standing
        else heap.standing? handle := by
  have kept : op.Preserves fun told rest => closedStreams told = [] ∧ ∀ handle,
      rest.standing? handle =
        if handle ∈ newborns told then op.handsOver.map Stream.standing
        else heap.standing? handle := by
    constructor
    case allocate =>
      rintro told middle payload dispatch allocates ⟨silent, stands⟩
      obtain ⟨failure, news, refuses, refused⟩ | granted := middle.allocateWith_cases payload dispatch
      · have quiet : closedStreams news = [] := by cases refuses <;> rfl
        rw [Step.Leaves, refused, closedStreams_append, silent, quiet, newborns_append,
          refuses.newborns]
        exact ⟨rfl, stands⟩
      · rw [Step.Leaves, granted, closedStreams_append, silent, newborns_append]
        refine ⟨rfl, fun handle => ?_⟩
        have born : newborns [.logged (.allocated middle.nextHandle payload.type
            payload.type.structSize (middle.bytes + payload.type.structSize))] =
            [middle.nextHandle] := rfl
        rw [Heap.standing?, Heap.view?_grown, born, allocates.handsOver, List.singleton_append]
        by_cases new : handle = middle.nextHandle
        · simp [new]
        · have as_before := stands handle
          rw [allocates.handsOver, Heap.standing?] at as_before
          simpa [new] using as_before
    case free =>
      rintro told middle target same -
      exact absurd same (frees target)
    case sweep =>
      rintro told middle same -
      exact absurd same sweeps
    case clearMarks =>
      rintro told middle - ⟨silent, stands⟩
      refine ⟨silent, fun other => ?_⟩
      rw [← stands, Heap.standing?_congr]
      exact middle.payloadAt_clearMarks other
    case revise =>
      rintro told middle handle change revises ⟨silent, stands⟩
      refine ⟨silent, fun other => ?_⟩
      have revised := middle.payloadAt_revise handle change other
      rw [← stands, Heap.standing?, Heap.standing?, Heap.view?_eq_payloadAt, Heap.view?_eq_payloadAt]
      rw [Heap.revise] at revised
      rw [revised]
      by_cases same : other = handle
      · subst same
        rw [if_pos rfl]
        cases middle.payloadAt other with
        | none => rfl
        | some payload => exact revises.standing spares closes payload
      · rw [if_neg same]
    case stamp =>
      rintro told middle handle change - ⟨silent, stands⟩
      refine ⟨silent, fun other => ?_⟩
      rw [← stands, Heap.standing?_congr]
      exact (middle.loses_modifyHeader handle change).payloads other
    case settle =>
      rintro told middle builtins links - held
      exact held
    case report =>
      rintro told middle notice reports ⟨silent, stands⟩
      rw [closedStreams_append, silent, newborns_append, reports.newborns]
      refine ⟨?_, stands⟩
      cases reports with
      | stream => exact absurd rfl (closes _)
      | _ => rfl
  exact kept.performs ⟨rfl, fun handle => by simp [newborns]⟩

/-- Whatever an operation is, it calls for the open streams among those that it closes. -/
theorem closedStreams_perform (op : Operation) (heap : Heap) :
    closedStreams (op.perform heap).notices = (op.closings heap).filterMap heap.openStream? := by
  cases op with
  | free target => exact heap.closedStreams_free target
  | sweep => exact heap.closedStreams_sweep.2
  | closeStream target =>
    rw [perform, closings, Heap.closeStream?, List.filterMap_cons, List.filterMap_nil, Heap.openStream?]
    cases heap.view? .stream target with
    | none => rfl
    | some stream =>
      simp only [Option.map_some, Option.getD_some, Step.ignore, Option.bind_some]
      cases stream.host? <;> rfl
  | edit => rfl
  | _ => exact (standing?_keeping (by simp) (by simp) (by simp) (by trivial) heap).1

theorem closesStream_iff : op.closesStream handle = true ↔ op = .closeStream handle := by
  cases op <;> simp [closesStream]

theorem nodup_closings (op : Operation) (heap : Heap) : (op.closings heap).Nodup := by
  cases op with
  | free target =>
    change (removals (free target) heap).Nodup
    rw [removals]
    split <;> simp
  | sweep => exact heap.closedStreams_sweep.1
  | closeStream target => exact List.pairwise_singleton ..
  | _ => exact .nil

theorem mem_closings (op : Operation) (heap : Heap) (handle : Handle) :
    handle ∈ op.closings heap ↔ op.closesStream handle = true ∨ handle ∈ op.removals heap := by
  cases op with
  | closeStream target =>
    simp only [closings, closesStream, removals, List.mem_singleton, List.not_mem_nil, or_false,
      beq_iff_eq]
    exact eq_comm
  | _ => simp [closings, closesStream]

end Operation

/-- Closing an object's stream leaves the other streams as they stood. -/
theorem Heap.standing?_closeStream (heap : Heap) (target handle : Handle) :
    ((Operation.closeStream target).perform heap).heap.standing? handle =
      (heap.standing? handle).map fun standing => (standing.1, standing.2 || target == handle) := by
  rw [Operation.perform, Heap.closeStream?]
  cases seen : heap.view? .stream target with
  | none =>
    by_cases same : handle = target
    · subst same
      simp [Step.done, Heap.standing?, seen]
    · simp [Step.done, beq_eq_false_iff_ne.mpr (Ne.symm same)]
  | some stream =>
    simp only [Option.map_some, Option.getD_some, Step.ignore, Heap.standing?, Heap.view?_update]
    by_cases same : handle = target
    · subst same
      simp [seen, Stream.standing, Stream.close]
    · simp only [same, ↓reduceIte, Option.map_map, beq_eq_false_iff_ne.mpr (Ne.symm same),
        Bool.or_false]
      rfl

namespace Operation
variable {op : Operation} {heap : Heap} {handle : Handle}

/-- An operation that fails closes nothing, unless it is a sweep. -/
theorem closings_of_failed (op : Operation) {failure : Failure}
    (failed : (op.perform heap).outcome = .error failure) (completes : op ≠ .sweep) :
    op.closings heap = [] := by
  cases op with
  | free target =>
    have refused : (heap.free target).outcome = .error failure := failed
    change removals (free target) heap = []
    rw [removals, refused]
  | sweep => exact absurd rfl completes
  | closeStream target =>
    rw [perform, Heap.closeStream?] at failed
    cases seen : heap.view? .stream target <;> rw [seen] at failed <;> cases failed
  | _ => rfl

/-- How streams stand after an operation. -/
theorem standing?_perform (spares : op.SparesStreams) (heap : Heap) (handle : Handle) :
    (op.perform heap).heap.standing? handle =
      if handle ∈ newborns (op.perform heap).notices then op.handsOver.map Stream.standing
      else if handle ∈ op.removals heap then none
      else (heap.standing? handle).map fun standing =>
        (standing.1, standing.2 || op.closesStream handle) := by
  have untouched : (heap.standing? handle).map (fun standing => (standing.1, standing.2 || false)) =
      heap.standing? handle := by simp
  cases op with
  | free target =>
    obtain ⟨loses, silent⟩ := heap.loses_free target
    simp only [perform, silent, closesStream, List.not_mem_nil, ↓reduceIte, untouched]
    exact loses.standing? handle
  | sweep =>
    obtain ⟨loses, silent⟩ := heap.loses_sweep
    simp only [perform, Step.ignore, silent, closesStream, List.not_mem_nil, ↓reduceIte, untouched]
    exact loses.standing? handle
  | closeStream target =>
    have silent : newborns ((closeStream target).perform heap).notices = [] := by
      rw [perform, Heap.closeStream?]
      cases heap.view? .stream target with
      | none => rfl
      | some stream =>
        simp only [Option.map_some, Option.getD_some, Step.ignore]
        cases stream.host? <;> rfl
    simp only [silent, removals, closesStream, List.not_mem_nil, ↓reduceIte]
    exact heap.standing?_closeStream target handle
  | _ =>
    rw [(standing?_keeping (by simp) (by simp) (by simp) spares heap).2 handle]
    simp [removals, closesStream]

end Operation

end ScriptHeap
