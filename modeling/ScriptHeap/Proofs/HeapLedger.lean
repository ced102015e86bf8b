import Mathlib.Algebra.GroupWithZero.Nat
import Mathlib.Data.List.Induction
import Mathlib.Data.List.Nodup
import ScriptHeap.Log.Filter
import ScriptHeap.Proofs.Views
import ScriptHeap.Text.Digits

/-! The log of a heap, read as a ledger. Every allocation, every freeing and every sweep that comes to its
end makes one entry after what it reports is done, and nothing else moves the account or the number of
objects. So both can be read off the log, also where operations failed and where kinds in headers were
rewritten. Only a sweep that stops on the way makes no entry for what it has freed. -/
namespace ScriptHeap

/-! ## Reading a log -/

/-- The number that an event gives under a name, or zero where it gives none. -/
def Event.number (event : Event) (name : String) : Nat :=
  ((event.fields.lookup name).bind String.toNat?).getD 0

/-- What a filter lets through of all that is told. -/
def LogFilter.record (filter : LogFilter) (told : List Notice) : List Event :=
  (told.filterMap Notice.event?).filter filter.passes

namespace Ledger

/-- The sum of what the entries with a message give under a name. -/
def total (log : List Event) (message name : String) : Nat :=
  ((log.filter (·.message == message)).map (·.number name)).sum

/-- How many entries have a message. -/
def count (log : List Event) (message : String) : Nat := log.countP (·.message == message)

/-- The bytes on the account, going by the log. -/
def bytes (log : List Event) : Int :=
  total log "allocate" "size" - total log "free" "size" - total log "sweep" "freed_bytes"

/-- The number of objects, going by the log. -/
def objects (log : List Event) : Int :=
  count log "allocate" - count log "free" - total log "sweep" "freed_objects"

theorem total_append (sooner later : List Event) (message name : String) :
    total (sooner ++ later) message name = total sooner message name + total later message name := by
  rw [total, List.filter_append, List.map_append, List.sum_append]
  rfl

theorem bytes_append (sooner later : List Event) :
    bytes (sooner ++ later) = bytes sooner + bytes later := by
  simp only [bytes, total_append]
  omega

theorem objects_append (sooner later : List Event) :
    objects (sooner ++ later) = objects sooner + objects later := by
  simp only [objects, total_append, count, List.countP_append]
  omega

end Ledger

/-! ## Single entries -/

/-- Whether an event is an entry of the ledger. -/
def Event.isEntry : Event → Bool
  | .allocated .. | .freed .. | .swept .. => true
  | _ => false

theorem Event.number_of_lookup {event : Event} {name : String} {n : Nat}
    (given : event.fields.lookup name = some (toString n)) : event.number name = n := by
  have read : (toString n).toNat? = some n := Text.toNat?_repr n
  rw [number, given, Option.bind_some, read, Option.getD_some]

namespace Ledger

section
variable (object : Handle) (type : ObjectType) (size left : Nat)

theorem entry_allocated : bytes [.allocated object type size left] = size ∧
    objects [.allocated object type size left] = 1 ∧
    (Event.allocated object type size left).number "bytes" = left := by
  have charged : (Event.allocated object type size left).number "size" = size := Event.number_of_lookup rfl
  refine ⟨?_, ?_, Event.number_of_lookup rfl⟩ <;> simp [bytes, objects, total, count, Event.message, charged]

theorem entry_freed : bytes [.freed object type size left] = -size ∧
    objects [.freed object type size left] = -1 ∧
    (Event.freed object type size left).number "bytes" = left := by
  have returned : (Event.freed object type size left).number "size" = size := Event.number_of_lookup rfl
  refine ⟨?_, ?_, Event.number_of_lookup rfl⟩ <;> simp [bytes, objects, total, count, Event.message, returned]

theorem entry_swept (stats : SweepStats) (next : Nat) :
    bytes [.swept stats next] = -stats.freedBytes ∧ objects [.swept stats next] = -stats.freedObjects := by
  have freed : (Event.swept stats next).number "freed_objects" = stats.freedObjects :=
    Event.number_of_lookup rfl
  have returned : (Event.swept stats next).number "freed_bytes" = stats.freedBytes :=
    Event.number_of_lookup rfl
  simp [bytes, objects, total, count, Event.message, freed, returned]

/-- What is no entry adds nothing to the sums. -/
theorem of_not_entry {event : Event} (silent : event.isEntry = false) :
    bytes [event] = 0 ∧ objects [event] = 0 ∧ event.message ≠ "allocate" ∧ event.message ≠ "free" := by
  cases event with
  | allocated | freed | swept => cases silent
  | _ => simp [bytes, objects, total, count, Event.message]

end
end Ledger

/-! ## What is told beside the entries -/

/-- Nothing that is told is an entry. -/
def Quiet (told : List Notice) : Prop := ∀ event ∈ told.filterMap Notice.event?, event.isEntry = false

theorem quiet_nil : Quiet [] := by simp [Quiet]

theorem quiet_append {sooner later : List Notice} :
    Quiet (sooner ++ later) ↔ Quiet sooner ∧ Quiet later := by
  simp only [Quiet, List.filterMap_append, List.forall_mem_append]

theorem quiet_logged {event : Event} (silent : event.isEntry = false) : Quiet [.logged event] := by
  intro other told
  obtain rfl := List.mem_singleton.1 told
  exact silent

theorem quiet_farewell (payload : Payload) : Quiet payload.farewell := by
  cases payload with
  | function code => exact quiet_logged rfl
  | stream held =>
    rw [Payload.farewell]
    cases held.host? <;> exact quiet_nil
  | _ => exact quiet_nil

theorem Heap.quiet_release (heap : Heap) (target : Handle) : Quiet (heap.release target).notices := by
  unfold release
  split
  · exact quiet_farewell _
  · exact quiet_nil

theorem Heap.Refuses.quiet {heap : Heap} {size : Nat} {failure : Failure} {told : List Notice}
    (refuses : heap.Refuses size failure told) : Quiet told := by
  cases refuses with
  | objects => exact quiet_logged rfl
  | overflow => exact quiet_nil
  | memory => exact quiet_logged rfl

theorem Operation.Reports.quiet {op : Operation} {notice : Notice} (reports : op.Reports notice) :
    Quiet [notice] := by
  cases reports with
  | stream => exact quiet_nil
  | @batch registry event concerns =>
    refine quiet_logged ?_
    -- entries concern the heap, not the classes
    cases event with
    | allocated | freed | swept => cases concerns
    | _ => rfl
  | _ => exact quiet_logged rfl

/-! ## What is taken from the numbers -/

namespace Heap
variable {heap middle rest : Heap} {object : Object} {target : Handle}

/-- The heap has so many bytes and so many objects less. -/
structure Less (heap : Heap) (bytes objects : Nat) (rest : Heap) : Prop where
  bytes : rest.bytes + bytes = heap.bytes
  objects : rest.objectCount + objects = heap.objectCount

theorem Less.trans {bytes bytes' objects objects' : Nat} (first : heap.Less bytes objects middle)
    (second : middle.Less bytes' objects' rest) : heap.Less (bytes + bytes') (objects + objects') rest where
  bytes := by
    have taken := first.bytes
    have more := second.bytes
    omega
  objects := by
    have taken := first.objects
    have more := second.objects
    omega

theorem less_modify (heap : Heap) (handle : Handle) (change : Object → Object) :
    heap.Less 0 0 (heap.modify handle change) := ⟨rfl, Slots.size_modify ..⟩

theorem less_bypass (heap : Heap) (before next : Option Handle) :
    heap.Less 0 0 (Sweep.bypass heap before next) := by
  cases before with
  | none => exact ⟨rfl, rfl⟩
  | some before => exact heap.less_modify before _

theorem less_discharged (covered : object.header.type.structSize ≤ heap.bytes) :
    heap.Less object.header.type.structSize 0 (heap.discharged object) :=
  ⟨Nat.sub_add_cancel covered, rfl⟩

theorem less_release (live : heap.contains target = true) : heap.Less 0 1 (heap.release target).heap := by
  obtain ⟨object, found⟩ := Option.isSome_iff_exists.1 live
  have held : (heap.store.get? target.toSlotKey).isSome = true := live
  have counted : [target].length ≤ heap.objectCount :=
    heap.atMost_get? [target] (List.nodup_singleton target) (by simp [found])
  rw [release, found]
  constructor
  · rfl
  · rw [objectCount, Slots.size_vacate, if_pos held]
    exact Nat.sub_add_cancel counted

theorem less_unlink {unlinked : Heap} (led : heap.unlink target = .ok unlinked) :
    heap.Less 0 0 unlinked := by
  unfold unlink at led
  split at led
  · cases led
    exact ⟨rfl, rfl⟩
  · split at led
    · cases led
      exact heap.less_modify ..
    · cases led
      exact ⟨rfl, rfl⟩
    · cases led

/-- An object that is taken out and given up takes what its header shows off the account. -/
theorem less_given {unlinked : Heap} (found : heap.get? target = some object)
    (covered : object.header.type.structSize ≤ heap.bytes)
    (led : (heap.discharged object).Less 0 0 unlinked)
    (loses : (heap.discharged object).Loses [] unlinked) :
    heap.Less object.header.type.structSize 1 (unlinked.release target).heap := by
  have live : unlinked.contains target = true :=
    loses.contains_iff.2 ⟨contains_of_get? found, by simp⟩
  have all := ((less_discharged covered).trans led).trans (less_release live)
  simpa using all

end Heap

/-! ## Sweeping -/

namespace Sweep

/-- What is off the account and gone from a walk is what its figures say, and no entry is made. -/
structure Tallies (sweep swept : Sweep) : Prop where
  bytes : swept.heap.bytes + swept.stats.freedBytes = sweep.heap.bytes + sweep.stats.freedBytes
  objects : swept.heap.objectCount + swept.stats.freedObjects =
    sweep.heap.objectCount + sweep.stats.freedObjects
  quiet : Quiet sweep.notices → Quiet swept.notices

theorem Tallies.refl (sweep : Sweep) : sweep.Tallies sweep := ⟨rfl, rfl, id⟩

theorem Tallies.trans {sweep middle swept : Sweep} (first : sweep.Tallies middle)
    (second : middle.Tallies swept) : sweep.Tallies swept where
  bytes := second.bytes.trans first.bytes
  objects := second.objects.trans first.objects
  quiet := second.quiet ∘ first.quiet

theorem tallies_keep (sweep : Sweep) (handle : Handle) (next : Option Handle) :
    sweep.Tallies (sweep.keep handle next) where
  bytes := rfl
  objects := congrArg (· + _) (Slots.size_modify ..)
  quiet := id

theorem tallies_drop {sweep : Sweep} {handle : Handle} {object : Object}
    (found : sweep.heap.get? handle = some object)
    (covered : object.header.type.structSize ≤ sweep.heap.bytes) (next : Option Handle) :
    sweep.Tallies
      (sweep.drop (sweep.heap.discharged object) handle object.header.type.structSize next) := by
  have less := Heap.less_given found covered (Heap.less_bypass _ sweep.previous next)
    (Heap.loses_bypass _ sweep.previous next)
  constructor
  · have taken := less.bytes
    simp only [drop]
    omega
  · have taken := less.objects
    simp only [drop]
    omega
  · intro quiet
    exact quiet_append.2 ⟨quiet, Heap.quiet_release _ handle⟩

theorem tallies_run (visits : Nat) (sweep : Sweep) : sweep.Tallies (run visits sweep).1 := by
  induction visits generalizing sweep with
  | zero => exact .refl sweep
  | succ visits ih =>
    rw [run]
    split
    · exact .refl sweep
    · next handle _ =>
      split
      · exact .refl sweep
      · next object found =>
        split
        · exact (sweep.tallies_keep handle object.header.next).trans (ih _)
        · by_cases covered : object.header.type.structSize ≤ sweep.heap.bytes
          · simp only [Heap.discharge_of_le covered, Step.done]
            exact (tallies_drop found covered object.header.next).trans (ih _)
          · simp only [Heap.discharge_of_lt (Nat.lt_of_not_le covered), Step.after, Step.fail]
            exact ⟨rfl, rfl, fun quiet => quiet_append.2 ⟨quiet, quiet_logged rfl⟩⟩

end Sweep

/-- A sweep that comes to its end makes one entry, at the end, and its figures are right. -/
theorem Heap.sweep_entry {heap : Heap} {stats : SweepStats} (swept : heap.sweep.outcome = .ok stats) :
    heap.Less stats.freedBytes stats.freedObjects heap.sweep.heap ∧
      ∃ told next, Quiet told ∧ heap.sweep.notices = told ++ [.logged (.swept stats next)] := by
  have tallies := Sweep.tallies_run heap.sweepBound (.start heap)
  rw [sweep] at swept ⊢
  cases walk : Sweep.run heap.sweepBound (.start heap) with | mk last failed?
  rw [walk] at swept tallies
  cases failed? with
  | some failure => cases swept
  | none =>
    simp only at swept ⊢
    split at swept
    · cases swept
    · cases swept
      exact ⟨⟨tallies.bytes, tallies.objects⟩, _, _, tallies.quiet quiet_nil, rfl⟩

/-! ## The log and the heap -/

namespace LogFilter
variable {filter : LogFilter}

theorem record_append (sooner later : List Notice) :
    filter.record (sooner ++ later) = filter.record sooner ++ filter.record later := by
  rw [record, List.filterMap_append, List.filter_append]
  rfl

/-- Where the heap is followed to the last detail, everything that it tells is recorded. -/
theorem record_entry (traces : filter.levelAt Subsystem.heap.target = .trace) {event : Event}
    (concerns : event.subsystem = .heap) : filter.record [.logged event] = [event] := by
  have passes : filter.passes event = true := by
    rw [passes, Event.target, concerns, enables, traces]
    cases event.severity <;> rfl
  exact List.filter_cons_of_pos passes

end LogFilter

/-- The account and the number of objects are what the log says, and each account that an entry gives is
what the log says up to there. -/
structure Agrees (log : List Event) (heap : Heap) : Prop where
  bytes : heap.bytes = Ledger.bytes log
  objects : heap.objectCount = Ledger.objects log
  running : ∀ sooner event, sooner ++ [event] <+: log →
    event.message = "allocate" ∨ event.message = "free" →
    (event.number "bytes" : Int) = Ledger.bytes (sooner ++ [event])

namespace Agrees
variable {log : List Event} {heap rest : Heap} {filter : LogFilter}

/-- One more entry, or an event that is none. -/
theorem record (agrees : Agrees log heap) {event : Event}
    (bytes : rest.bytes = heap.bytes + Ledger.bytes [event])
    (objects : rest.objectCount = heap.objectCount + Ledger.objects [event])
    (running : event.message = "allocate" ∨ event.message = "free" → event.number "bytes" = rest.bytes) :
    Agrees (log ++ [event]) rest := by
  have total : rest.bytes = Ledger.bytes (log ++ [event]) := by
    rw [bytes, agrees.bytes, Ledger.bytes_append]
  constructor
  · exact total
  · rw [objects, agrees.objects, Ledger.objects_append]
  · intro sooner other early moves
    rcases List.prefix_concat_iff.1 early with last | early
    · obtain ⟨rfl, same⟩ := List.append_inj' last rfl
      obtain rfl := List.singleton_inj.1 same
      rw [running moves, total]
    · exact agrees.running sooner other early moves

/-- Events that are no entries change nothing. -/
theorem events (agrees : Agrees log heap) {more : List Event}
    (silent : ∀ event ∈ more, event.isEntry = false) : Agrees (log ++ more) heap := by
  induction more using List.reverseRecOn with
  | nil => rwa [List.append_nil]
  | append_singleton more event ih =>
    obtain ⟨bytes, objects, apart⟩ := Ledger.of_not_entry (silent event (by simp))
    rw [← List.append_assoc]
    refine (ih fun other listed => silent other (by simp [listed])).record ?_ ?_ ?_
    · rw [bytes, Int.add_zero]
    · rw [objects, Int.add_zero]
    · rintro (same | same)
      · exact absurd same apart.1
      · exact absurd same apart.2

theorem quiet (agrees : Agrees log heap) {told : List Notice} (quiet : Quiet told) :
    Agrees (log ++ filter.record told) heap :=
  agrees.events fun event listed => quiet event (List.mem_filter.1 listed).1

/-- A heap with the same numbers. -/
theorem congr (agrees : Agrees log heap) (bytes : rest.bytes = heap.bytes)
    (objects : rest.objectCount = heap.objectCount) : Agrees log rest where
  bytes := by rw [bytes, agrees.bytes]
  objects := by rw [objects, agrees.objects]
  running := agrees.running

theorem allocateWith (traces : filter.levelAt Subsystem.heap.target = .trace) (agrees : Agrees log heap)
    (payload : Payload) (dispatch : Option Handle) :
    Agrees (log ++ filter.record (heap.allocateWith payload dispatch).notices)
      (heap.allocateWith payload dispatch).heap := by
  rcases heap.allocateWith_cases payload dispatch with ⟨failure, told, refuses, refused⟩ | granted
  · rw [refused]
    exact agrees.quiet refuses.quiet
  · have more : (heap.grown payload dispatch).objectCount = heap.objectCount + 1 := Slots.size_insert ..
    obtain ⟨bytes, objects, left⟩ := Ledger.entry_allocated heap.nextHandle payload.type
      payload.type.structSize (heap.bytes + payload.type.structSize)
    rw [granted, LogFilter.record_entry traces rfl]
    refine agrees.record ?_ ?_ fun _ => left
    · rw [bytes]
      rfl
    · rw [objects, more]
      rfl

theorem free (traces : filter.levelAt Subsystem.heap.target = .trace) (agrees : Agrees log heap)
    (target : Handle) :
    Agrees (log ++ filter.record (heap.free target).notices) (heap.free target).heap := by
  rcases heap.free_cases target with
    ⟨-, refused⟩ | ⟨object, found, ⟨-, refused⟩ | ⟨cause, -, lost⟩ | ⟨unlinked, led, freed⟩⟩
  · rw [refused]
    exact agrees.quiet quiet_nil
  · rw [refused]
    exact agrees.quiet (quiet_logged rfl)
  · rw [lost]
    exact agrees.quiet quiet_nil
  · have covered : object.header.type.structSize ≤ heap.bytes := by
      by_contra short
      rw [Heap.free_of_short found (Nat.lt_of_not_le short)] at freed
      cases congrArg Step.outcome freed
    have less := Heap.less_given found covered (Heap.less_unlink led) (Heap.loses_unlink led)
    obtain ⟨bytes, objects, left⟩ := Ledger.entry_freed target object.header.type
      object.header.type.structSize (unlinked.release target).heap.bytes
    have entered : Agrees
        (log ++ filter.record (unlinked.release target).notices ++
          [.freed target object.header.type object.header.type.structSize
            (unlinked.release target).heap.bytes])
        (unlinked.release target).heap := by
      refine (agrees.quiet (unlinked.quiet_release target)).record ?_ ?_ fun _ => left
      · have taken := less.bytes
        omega
      · have taken := less.objects
        omega
    rwa [freed, LogFilter.record_append, LogFilter.record_entry traces rfl, ← List.append_assoc]

theorem sweep (traces : filter.levelAt Subsystem.heap.target = .trace) (agrees : Agrees log heap)
    {stats : SweepStats} (swept : heap.sweep.outcome = .ok stats) :
    Agrees (log ++ filter.record heap.sweep.notices) heap.sweep.heap := by
  obtain ⟨less, told, next, quiet, entry⟩ := Heap.sweep_entry swept
  obtain ⟨bytes, objects⟩ := Ledger.entry_swept stats next
  rw [entry, LogFilter.record_append, LogFilter.record_entry traces rfl, ← List.append_assoc]
  refine (agrees.quiet quiet).record ?_ ?_ ?_
  · have taken := less.bytes
    omega
  · have taken := less.objects
    omega
  · rintro (other | other) <;> simp [Event.message] at other

end Agrees

/-- A sweep comes to its end. -/
def Operation.Completes (heap : Heap) (op : Operation) : Prop :=
  op = .sweep → ∃ stats, heap.sweep.outcome = .ok stats

/-- An operation enters what it does. -/
theorem Agrees.perform {log : List Event} {heap : Heap} {filter : LogFilter} {op : Operation}
    (traces : filter.levelAt Subsystem.heap.target = .trace) (agrees : Agrees log heap)
    (completes : op.Completes heap) :
    Agrees (log ++ filter.record (op.perform heap).notices) (op.perform heap).heap := by
  by_cases sweeps : op = .sweep
  · obtain ⟨stats, swept⟩ := completes sweeps
    subst sweeps
    exact agrees.sweep traces swept
  · have kept : op.Preserves fun told rest => Agrees (log ++ filter.record told) rest := by
      constructor
      case allocate =>
        intro told rest payload dispatch _ agrees
        rw [Step.Leaves, LogFilter.record_append, ← List.append_assoc]
        exact agrees.allocateWith traces payload dispatch
      case free =>
        intro told rest target _ agrees
        rw [Step.Leaves, LogFilter.record_append, ← List.append_assoc]
        exact agrees.free traces target
      case sweep =>
        intro told rest same
        exact absurd same sweeps
      case clearMarks =>
        intro told rest _ agrees
        exact agrees.congr rfl (Slots.size_mapAll ..)
      case revise =>
        intro told rest handle change _ agrees
        exact agrees.congr rfl (Slots.size_modify ..)
      case stamp =>
        intro told rest handle change _ agrees
        exact agrees.congr rfl (Slots.size_modify ..)
      case settle =>
        intro told rest builtins links _ agrees
        exact agrees.congr rfl rfl
      case report =>
        intro told rest notice reports agrees
        rw [LogFilter.record_append, ← List.append_assoc]
        exact agrees.quiet reports.quiet
    refine kept.performs ?_
    rwa [show filter.record [] = [] from rfl, List.append_nil]

/-! ## Whole runs -/

namespace History

/-- All that is told in a run from here, in order. -/
def told (past : History) : List Operation → List Notice
  | [] => []
  | op :: ops => (op.perform past.heap).notices ++ (past.perform op).told ops

/-- The log of a run from the making of the heap on. -/
def log (config : HeapConfig) (filter : LogFilter) (ops : List Operation) : List Event :=
  filter.record ((Heap.create config).notices ++ (start config).told ops)

theorem agrees_after {past : History} {log : List Event} {filter : LogFilter} {ops : List Operation}
    (traces : filter.levelAt Subsystem.heap.target = .trace) (agrees : Agrees log past.heap)
    (completes : past.Throughout (fun heap op => op.Completes heap) ops) :
    Agrees (log ++ filter.record (past.told ops)) (past.after ops).heap := by
  induction ops generalizing past log with
  | nil => exact agrees.quiet quiet_nil
  | cons op ops ih =>
    have first := agrees.perform traces completes.1
    rw [told, LogFilter.record_append, ← List.append_assoc]
    exact ih first completes.2

theorem agrees_ofConfig (config : HeapConfig) : Agrees [] (Heap.ofConfig config) where
  bytes := rfl
  objects := rfl
  running := by
    intro sooner event early
    simp at early

/-- **Complete ledger.** In the log of any run in which the heap's events are recorded down to the last
detail and every sweep comes to its end, the bytes on the account are what the entries on allocations
give as sizes, less what those on freeings give, less what those on sweeps give as freed; the objects are
counted by the entries alike; and the account that an entry on an allocation or a freeing gives is what
the log comes to with that entry. Other operations may fail, and the host may rewrite whatever it can. -/
theorem ledger_run (config : HeapConfig) (filter : LogFilter) {ops : List Operation}
    (traces : filter.levelAt Subsystem.heap.target = .trace)
    (completes : (start config).Throughout (fun heap op => op.Completes heap) ops) :
    let heap := (run config ops).heap
    let entries := log config filter ops
    heap.bytes = Ledger.bytes entries ∧ heap.objectCount = Ledger.objects entries ∧
      ∀ sooner event, sooner ++ [event] <+: entries →
        event.message = "allocate" ∨ event.message = "free" →
        event.number "bytes" = Ledger.bytes (sooner ++ [event]) := by
  intro heap entries
  have created : Quiet (Heap.create config).notices := quiet_logged rfl
  have begins : Agrees (filter.record (Heap.create config).notices) (start config).heap :=
    (agrees_ofConfig config).quiet created
  have agrees := agrees_after traces begins completes
  rw [← LogFilter.record_append] at agrees
  exact ⟨agrees.bytes, agrees.objects, agrees.running⟩

/-- A heap in which there is no room for a class beside a map. -/
def cramped : HeapConfig := { HeapConfig.default with maxMemorySize := 300 }

/-- Everything that the heap tells, and of the rest what is remarkable. -/
def everything : LogFilter := .ofConfig { LogConfig.default with heap := some .trace }

/-- A map that is shown as something small is freed, once in vain. Of a class there is no more than its
name, which outlives a sweep, and another text does not. -/
def eventful : List Operation :=
  [.create .map, .writeType ⟨⟨0, 0⟩⟩ .native, .free ⟨⟨0, 0⟩⟩, .free ⟨⟨0, 0⟩⟩, .create (.namedClass "a"),
    .mark ⟨⟨0, 1⟩⟩ true, .create (.text "b"), .sweep]

example : (log cramped everything eventful).map Event.message =
    ["heap created", "allocate", "free", "allocate", "memory limit exceeded", "allocate", "sweep"] := by
  decide

/-- Most of the map is still on the account, and the log says so. -/
theorem ledger_eventful :
    (run cramped eventful).heap.bytes = 188 ∧
      Ledger.bytes (log cramped everything eventful) = 188 ∧
      Ledger.objects (log cramped everything eventful) = 1 := by
  have completes :
      (start cramped).Throughout (fun heap op => op.Completes heap) eventful := by
    refine ⟨?_, ?_, ?_, ?_, ?_, ?_, ?_, fun _ => ⟨⟨1, 52, 1⟩, by decide⟩, trivial⟩ <;> rintro ⟨⟩
  obtain ⟨bytes, objects, -⟩ := ledger_run cramped everything (by decide) completes
  exact ⟨by decide, bytes.symm.trans (by decide), objects.symm.trans (by decide)⟩

end History
end ScriptHeap
