import ScriptHeap.Proofs.ChunkContents

/-! How much memory a chunk has, and whose. A borrowed chunk counts as full at whatever length the host's
buffers have, so its first write has to grow it, and growing is what makes the memory its own. From then on
the capacity doubles when it is used up; it begins at any length, so it need not be a power of two, but more
than half of it is used unless it is the least there is. -/
namespace ScriptHeap

namespace Chunk
variable {chunk : Chunk}

/-! ## One operation -/

theorem size_write (chunk : Chunk) (byte : UInt8) (line : UInt32) :
    (chunk.write byte line).size = chunk.size + 1 := by
  rw [size, code_write, Array.size_push]
  rfl

theorem capacity_write (chunk : Chunk) (byte : UInt8) (line : UInt32) :
    (chunk.write byte line).capacity =
      if chunk.isFull then nextCapacity chunk.capacity else chunk.capacity := by
  rw [write, reserve]
  split <;> rfl

theorem isFull_iff : chunk.isFull = true ↔ chunk.capacity ≤ chunk.size := by
  rw [isFull, decide_eq_true_eq, Nat.lt_succ_iff]

/-- Growing leaves nothing out: the next capacity is no less. -/
theorem le_nextCapacity (capacity : Nat) : capacity ≤ nextCapacity capacity := by
  rw [nextCapacity]
  split <;> omega

/-- Memory that holds the code with no more to spare than is used, or is the least there is; an empty chunk
has none. -/
structure Snug (chunk : Chunk) : Prop where
  fits : chunk.size ≤ chunk.capacity
  emptied : chunk.size = 0 → chunk.capacity = 0
  filled : 0 < chunk.size → minCapacity ≤ chunk.capacity ∧
    (chunk.capacity = minCapacity ∨ chunk.capacity < 2 * chunk.size)

/-- Growing from exactly full, which borrowed memory always is. -/
theorem snug_write_of_tight (tight : chunk.capacity = chunk.size) (byte : UInt8) (line : UInt32) :
    (chunk.write byte line).Snug := by
  have size := chunk.size_write byte line
  have capacity : (chunk.write byte line).capacity = nextCapacity chunk.size := by
    rw [capacity_write, if_pos (isFull_iff.mpr (Nat.le_of_eq tight)), tight]
  rw [nextCapacity, minCapacity] at capacity
  constructor
  · rw [size, capacity]
    split <;> omega
  · omega
  · intro _
    rw [size, capacity, minCapacity]
    split <;> omega

theorem Snug.write (snug : chunk.Snug) (byte : UInt8) (line : UInt32) :
    (chunk.write byte line).Snug := by
  by_cases full : chunk.isFull = true
  · exact snug_write_of_tight (Nat.le_antisymm (isFull_iff.mp full) snug.fits) byte line
  · have size := chunk.size_write byte line
    have capacity : (chunk.write byte line).capacity = chunk.capacity := by
      rw [capacity_write, if_neg full]
    rw [isFull_iff, Nat.not_le] at full
    -- there is room, so there is memory
    have used : 0 < chunk.size := by
      refine Nat.pos_of_ne_zero fun none => ?_
      have := snug.emptied none
      omega
    obtain ⟨least, spare⟩ := snug.filled used
    constructor
    · omega
    · omega
    · intro _
      rw [size, capacity]
      exact ⟨least, by omega⟩

theorem snug_of_empty (none : chunk.size = 0) (nothing : chunk.capacity = 0) : chunk.Snug where
  fits := by omega
  emptied _ := nothing
  filled some := by omega

/-- Memory of its own goes when it is freed, and all that was in it. -/
theorem snug_free (owns : chunk.ownsMemory = true) : chunk.free.Snug := by
  rw [free, if_pos owns]
  exact snug_of_empty rfl rfl

end Chunk

namespace ChunkHistory
variable {past : ChunkHistory}

/-- The flag of a chunk tells whose memory it has. The host's is as it was lent, and full; its own is
snug. -/
structure Housed (past : ChunkHistory) : Prop where
  flagged : past.chunk.codeBuffer.isOwned = past.chunk.ownsMemory ∧
    past.chunk.lineBuffer.isOwned = past.chunk.ownsMemory
  borrowed : past.chunk.ownsMemory = false → ∃ code lines, past.lent = some (code, lines) ∧
    code.size = lines.size ∧ past.chunk.codeBuffer = .borrowed code ∧
    past.chunk.lineBuffer = .borrowed lines ∧ past.chunk.size = code.size ∧
    past.chunk.capacity = code.size
  own : past.chunk.ownsMemory = true → past.chunk.Snug

/-- What is known of the contents tells all but how much memory of its own a chunk has. -/
theorem Sound.housed (sound : past.Sound) (own : past.chunk.ownsMemory = true → past.chunk.Snug) :
    past.Housed := by
  constructor
  case flagged =>
    rw [sound.owns]
    cases owned : past.owns with
    | true => exact sound.copied owned
    | false =>
      obtain ⟨code, lines, -, code', lines', -⟩ := sound.borrowed owned
      rw [code', lines']
      exact ⟨rfl, rfl⟩
  case borrowed =>
    intro borrows
    obtain ⟨code, lines, lent, code', lines', capacity⟩ :=
      sound.borrowed (sound.owns.symm.trans borrows)
    have sizeCode : past.chunk.code.size = code.size := by rw [Chunk.code, code', Buffer.contents]
    have sizeLines : past.chunk.lines.size = lines.size := by rw [Chunk.lines, lines', Buffer.contents]
    refine ⟨code, lines, lent, ?_, code', lines', sizeCode, capacity⟩
    rw [← sizeCode, ← sizeLines, sound.alike]
  case own => exact own

namespace Housed

theorem fits (housed : past.Housed) : past.chunk.size ≤ past.chunk.capacity := by
  cases owns : past.chunk.ownsMemory with
  | true => exact (housed.own owns).fits
  | false =>
    obtain ⟨code, lines, -, -, -, -, size, capacity⟩ := housed.borrowed owns
    rw [size, capacity]

/-- A write to borrowed memory has to grow the chunk first. -/
theorem isFull (housed : past.Housed) (borrows : past.chunk.ownsMemory = false) :
    past.chunk.isFull = true := by
  obtain ⟨code, lines, -, -, -, -, size, capacity⟩ := housed.borrowed borrows
  rw [Chunk.isFull_iff, size, capacity]

theorem reserve (housed : past.Housed) (borrows : past.chunk.ownsMemory = false) :
    past.chunk.reserve = past.chunk.grow := if_pos (housed.isFull borrows)

/-- With room for a byte, what is pushed to is the chunk's own. -/
theorem reserved (housed : past.Housed) :
    past.chunk.reserve.codeBuffer.isOwned = true ∧ past.chunk.reserve.lineBuffer.isOwned = true ∧
      past.chunk.reserve.ownsMemory = true := by
  cases owns : past.chunk.ownsMemory with
  | true =>
    obtain ⟨code, lines⟩ := housed.flagged
    rw [Chunk.reserve]
    split
    · exact ⟨rfl, rfl, rfl⟩
    · exact ⟨code.trans owns, lines.trans owns, owns⟩
  | false =>
    rw [housed.reserve owns]
    exact ⟨rfl, rfl, rfl⟩

theorem snug_write (housed : past.Housed) (byte : UInt8) (line : UInt32) :
    (past.chunk.write byte line).Snug := by
  cases owns : past.chunk.ownsMemory with
  | true => exact (housed.own owns).write byte line
  | false =>
    obtain ⟨code, lines, -, -, -, -, size, capacity⟩ := housed.borrowed owns
    exact Chunk.snug_write_of_tight (capacity.trans size.symm) byte line

/-- What an action leaves as memory of the chunk's own is snug again. -/
theorem snug_perform (housed : past.Housed) (action : ChunkAction)
    (owns : (action.perform past.chunk).ownsMemory = true) : (action.perform past.chunk).Snug := by
  cases action with
  | write byte line => exact housed.snug_write byte line
  | writeOp op line => exact housed.snug_write op.byte line
  | addConstant value =>
    obtain ⟨fits, emptied, filled⟩ := housed.own owns
    exact ⟨fits, emptied, filled⟩
  | free => exact Chunk.snug_free (past.chunk.ownsMemory_free.symm.trans owns)

end Housed

/-- Memory that a chunk owns it owns for good. -/
theorem ownsMemory_perform {chunk : Chunk} (owns : chunk.ownsMemory = true) (action : ChunkAction) :
    (action.perform chunk).ownsMemory = true := by
  have written (byte : UInt8) (line : UInt32) : (chunk.write byte line).ownsMemory = true := by
    rw [Chunk.ownsMemory_write, owns, Bool.or_true]
  cases action with
  | write byte line => exact written byte line
  | writeOp op line => exact written op.byte line
  | addConstant value => exact owns
  | free => exact chunk.ownsMemory_free.trans owns

end ChunkHistory

namespace ChunkStep
open ChunkHistory

theorem housed_run (steps : List ChunkStep) : ∀ past ∈ run steps, past.Housed := by
  have each : ∀ past ∈ run steps,
      past.Sound ∧ (past.chunk.ownsMemory = true → past.chunk.Snug) := by
    apply forall_run
    · exact ⟨sound_ofNothing, fun _ => Chunk.snug_of_empty rfl rfl⟩
    · intro code lines chunk made
      refine ⟨sound_ofLent made, fun owns => ?_⟩
      rw [Chunk.failsafe] at made
      split at made
      · cases made
        cases owns
      · cases made
    · intro past action known
      obtain ⟨sound, own⟩ := known
      exact ⟨sound.perform action, (sound.housed own).snug_perform action⟩
  intro past listed
  exact (each past listed).1.housed (each past listed).2

/-- No step takes memory from a chunk that owns it. -/
theorem ownsMemory_step {bench : List ChunkHistory} {index : Nat} {past : ChunkHistory}
    (found : bench[index]? = some past) (owns : past.chunk.ownsMemory = true) (step : ChunkStep) :
    ∃ later, (step.perform bench)[index]? = some later ∧ later.chunk.ownsMemory = true := by
  by_cases acts : ∃ action, step = .act index action
  · obtain ⟨action, rfl⟩ := acts
    refine ⟨past.perform action, ?_, ownsMemory_perform owns action⟩
    rw [perform, List.getElem?_modify_eq, found]
    rfl
  · obtain ⟨inside, -⟩ := List.getElem?_eq_some_iff.mp found
    refine ⟨past, ?_, owns⟩
    rw [getElem?_perform inside fun action same => acts ⟨action, same⟩, found]

theorem ownsMemory_run_append (steps more : List ChunkStep) {index : Nat} {past : ChunkHistory}
    (found : (run steps)[index]? = some past) (owns : past.chunk.ownsMemory = true) :
    ∃ later, (run (steps ++ more))[index]? = some later ∧ later.chunk.ownsMemory = true := by
  induction more using List.reverseRecOn with
  | nil =>
    rw [List.append_nil]
    exact ⟨past, found, owns⟩
  | append_singleton more step ih =>
    obtain ⟨middle, found, owns⟩ := ih
    rw [← List.append_assoc, run_concat]
    exact ownsMemory_step found owns step

/-- **A chunk's capacity fits its memory, and its flag tells whose that is.** Whatever chunks a host
begins, borrows buffers of any length for, copies, writes to and frees, none has more code than capacity,
so that growing never asks for less room than is used. A chunk that does not own its memory has the host's
buffers, and is full, so its next write grows it; once there is room for a write, memory and flag are the
chunk's own, so nothing is copied behind the flag's back. Memory of its own is none for an empty chunk,
and for another the least there is, or more than half used. A chunk that owns its memory does so for good,
and so do its copies. -/
theorem capacity_run (steps more : List ChunkStep) :
    (∀ past ∈ run steps,
      past.chunk.size ≤ past.chunk.capacity ∧
      (past.chunk.ownsMemory = false →
        (∃ code lines, past.lent = some (code, lines) ∧ code.size = lines.size ∧
          past.chunk.codeBuffer = .borrowed code ∧ past.chunk.lineBuffer = .borrowed lines ∧
          past.chunk.size = code.size ∧ past.chunk.capacity = code.size) ∧
        past.chunk.reserve = past.chunk.grow) ∧
      (past.chunk.reserve.codeBuffer.isOwned = true ∧ past.chunk.reserve.lineBuffer.isOwned = true ∧
        ∀ byte line, (past.chunk.write byte line).ownsMemory = true) ∧
      (past.chunk.ownsMemory = true →
        (past.chunk.size = 0 → past.chunk.capacity = 0) ∧
        (0 < past.chunk.size → minCapacity ≤ past.chunk.capacity ∧
          (past.chunk.capacity = minCapacity ∨ past.chunk.capacity < 2 * past.chunk.size))) ∧
      past.chunk.code.size ≤ past.chunk.grow.capacity ∧
      past.chunk.lines.size ≤ past.chunk.grow.capacity) ∧
    ∀ index past, (run steps)[index]? = some past → past.chunk.ownsMemory = true →
      (∃ later, (run (steps ++ more))[index]? = some later ∧ later.chunk.ownsMemory = true) ∧
      ∃ copy, (run (steps ++ [.copy index]))[(run steps).length]? = some copy ∧
        copy.chunk.ownsMemory = true := by
  refine ⟨fun past listed => ?_, fun index past found owns => ⟨?_, past, ?_, owns⟩⟩
  · have housed := housed_run steps past listed
    obtain ⟨code, lines, owned⟩ := housed.reserved
    have room : past.chunk.size ≤ past.chunk.grow.capacity :=
      housed.fits.trans (Chunk.le_nextCapacity past.chunk.capacity)
    refine ⟨housed.fits, fun borrows => ⟨housed.borrowed borrows, housed.reserve borrows⟩,
      ⟨code, lines, fun _ _ => owned⟩,
      fun owns => ⟨(housed.own owns).emptied, (housed.own owns).filled⟩, room, ?_⟩
    rw [(sound_run steps past listed).alike]
    exact room
  · exact ownsMemory_run_append steps more found owns
  · rw [run_concat, perform, found, List.getElem?_append_right le_rfl, Nat.sub_self]
    rfl

/-- A chunk over ten bytes of the host, which is no power of two, and a copy of it. The one is written to,
the other stays with the host. -/
def lentTen : List ChunkStep :=
  [.lend (Array.replicate 10 0x3A) (Array.replicate 10 7), .copy 0, .act 0 (.writeOp .pop 3)]

/-- The written one owns its memory even when that is freed and the chunk is written to again. -/
theorem capacity_lentTen :
    let written := (run lentTen).get ⟨0, by decide⟩
    let kept := (run lentTen).get ⟨1, by decide⟩
    written.chunk.capacity = 20 ∧ written.chunk.capacity < 2 * written.chunk.size ∧
      kept.chunk.capacity = 10 ∧ kept.chunk.reserve = kept.chunk.grow ∧
      ∃ later, (run (lentTen ++ [.act 0 .free, .act 0 (.write 0x0B 9)]))[0]? = some later ∧
        later.chunk.ownsMemory = true := by
  intro written kept
  obtain ⟨holds, owning⟩ := capacity_run lentTen [.act 0 .free, .act 0 (.write 0x0B 9)]
  obtain ⟨-, -, -, filled, -⟩ := holds written (List.get_mem ..)
  obtain ⟨-, borrowed, -⟩ := holds kept (List.get_mem ..)
  have capacity : written.chunk.capacity = 20 := by decide
  refine ⟨capacity, ?_, by decide, (borrowed (by decide)).2, (owning 0 written rfl (by decide)).1⟩
  rcases ((filled (by decide)).2 (by decide)).2 with least | spare
  · rw [capacity] at least
    cases least
  · exact spare

end ChunkStep
end ScriptHeap
