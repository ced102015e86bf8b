import Mathlib.Data.List.DropRight
import Mathlib.Data.List.Induction
import ScriptHeap.Chunk

/-! What a chunk holds. A chunk begins empty or over buffers of the host, is written to, freed and copied
in any order, and its contents are told from what was done to it alone: what it began with, or nothing
once its own memory was freed, and then the bytes and lines written since. Buffers of the host are read
until the first write, and never written. -/
namespace ScriptHeap

theorem Opcode.ofByte_byte (op : Opcode) : Opcode.ofByte op.byte = .ok op := by
  cases op <;> rfl

/-! ## One operation -/

namespace Chunk

theorem code_write (chunk : Chunk) (byte : UInt8) (line : UInt32) :
    (chunk.write byte line).code = chunk.code.push byte := by
  rw [write, reserve]
  split <;> rfl

theorem lines_write (chunk : Chunk) (byte : UInt8) (line : UInt32) :
    (chunk.write byte line).lines = chunk.lines.push line := by
  rw [write, reserve]
  split <;> rfl

theorem constants_write (chunk : Chunk) (byte : UInt8) (line : UInt32) :
    (chunk.write byte line).constants = chunk.constants := by
  rw [write, reserve]
  split <;> rfl

/-- A chunk comes to own its memory when it has to grow. -/
theorem ownsMemory_write (chunk : Chunk) (byte : UInt8) (line : UInt32) :
    (chunk.write byte line).ownsMemory = (chunk.isFull || chunk.ownsMemory) := by
  rw [write, reserve]
  split
  · next full =>
    rw [full]
    rfl
  · next room =>
    rw [Bool.not_eq_true] at room
    rw [room]
    rfl

theorem code_free (chunk : Chunk) :
    chunk.free.code = if chunk.ownsMemory then #[] else chunk.code := by
  rw [free]
  split <;> rfl

theorem lines_free (chunk : Chunk) :
    chunk.free.lines = if chunk.ownsMemory then #[] else chunk.lines := by
  rw [free]
  split <;> rfl

theorem constants_free (chunk : Chunk) : chunk.free.constants = #[] := by
  rw [free]
  split <;> rfl

theorem ownsMemory_free (chunk : Chunk) : chunk.free.ownsMemory = chunk.ownsMemory := by
  rw [free]
  split <;> rfl

/-- Opcodes are written with a line each. -/
def writeOps (chunk : Chunk) (ops : List (Opcode × UInt32)) : Chunk :=
  ops.foldl (fun chunk op => chunk.writeOp op.1 op.2) chunk

theorem code_writeOps (chunk : Chunk) (ops : List (Opcode × UInt32)) :
    (chunk.writeOps ops).code.toList = chunk.code.toList ++ ops.map (·.1.byte) := by
  induction ops generalizing chunk with
  | nil => exact (List.append_nil _).symm
  | cons op ops ih =>
    have first : (chunk.writeOp op.1 op.2).code.toList = chunk.code.toList ++ [op.1.byte] := by
      rw [writeOp, code_write, Array.toList_push]
    rw [writeOps, List.foldl_cons, ← writeOps, ih, first, List.map_cons, List.append_assoc,
      List.singleton_append]

/-- Opcodes that were written are read back, and nothing is read past them. -/
theorem opAt?_writeOps (chunk : Chunk) (ops : List (Opcode × UInt32)) (index : Nat) :
    (chunk.writeOps ops).opAt? (chunk.size + index) = ops[index]?.map fun op => .ok op.1 := by
  have length : chunk.code.toList.length = chunk.size := rfl
  rw [opAt?, byteAt?, ← Array.getElem?_toList, code_writeOps, ← length,
    List.getElem?_append_right (Nat.le_add_right ..), Nat.add_sub_cancel_left, List.getElem?_map,
    Option.map_map]
  congr 1
  funext op
  exact Opcode.ofByte_byte op.1

end Chunk

/-! ## The past of a chunk -/

/-- What is done to a chunk. -/
inductive ChunkAction where
  | write (byte : UInt8) (line : UInt32)
  | writeOp (op : Opcode) (line : UInt32)
  | addConstant (value : Value)
  | free
deriving DecidableEq

namespace ChunkAction

def perform : ChunkAction → Chunk → Chunk
  | write byte line, chunk => chunk.write byte line
  | writeOp op line, chunk => chunk.writeOp op line
  | addConstant value, chunk => (chunk.addConstant value).2
  | free, chunk => chunk.free

/-- The byte and the line that are written. -/
def written? : ChunkAction → Option (UInt8 × UInt32)
  | write byte line => some (byte, line)
  | writeOp op line => some (op.byte, line)
  | _ => none

def added? : ChunkAction → Option Value
  | addConstant value => some value
  | _ => none

def writes (action : ChunkAction) : Bool := action.written?.isSome

def frees : ChunkAction → Bool
  | free => true
  | _ => false

end ChunkAction

/-- A chunk with what has been done to it, or before to the chunk it is a copy of. -/
structure ChunkHistory where
  chunk : Chunk
  /-- The host's code and lines, if it began over such. -/
  lent : Option (Array UInt8 × Array UInt32)
  actions : List ChunkAction
deriving DecidableEq

namespace ChunkHistory

def perform (past : ChunkHistory) (action : ChunkAction) : ChunkHistory :=
  { past with chunk := action.perform past.chunk, actions := past.actions ++ [action] }

section
variable (past : ChunkHistory)

/-- The chunk's memory is its own: it began without the host's, or was written to. -/
def owns : Bool := past.lent.isNone || past.actions.any ChunkAction.writes

/-- What was done while the memory was its own. -/
def own : List ChunkAction :=
  if past.lent.isNone then past.actions else past.actions.dropWhile (!·.writes)

/-- Its own memory was freed at some time. -/
def emptied : Bool := past.own.any ChunkAction.frees

/-- The bytes and lines written to its own memory, since that was last freed. -/
def written : List (UInt8 × UInt32) :=
  (past.own.rtakeWhile (!·.frees)).filterMap ChunkAction.written?

def code : List UInt8 :=
  (if past.emptied then [] else (past.lent.elim #[] Prod.fst).toList) ++ past.written.map Prod.fst

def lines : List UInt32 :=
  (if past.emptied then [] else (past.lent.elim #[] Prod.snd).toList) ++ past.written.map Prod.snd

/-- The values added since the last free, whoever owned the memory. -/
def constants : List Value :=
  (past.actions.rtakeWhile (!·.frees)).filterMap ChunkAction.added?

end

/-! ## What one more action does to the account -/

variable {past : ChunkHistory} {action : ChunkAction}

theorem owns_perform (past : ChunkHistory) (action : ChunkAction) :
    (past.perform action).owns = (past.owns || action.writes) := by
  simp [owns, perform, Bool.or_assoc]

theorem own_of_not_owns (lent : past.owns = false) : past.own = [] := by
  rw [owns, Bool.or_eq_false_iff, List.any_eq_false] at lent
  simpa [own, lent.1, List.dropWhile_eq_nil_iff] using lent.2

/-- As long as nothing is written to the host's memory, nothing counts as done to the chunk's own. -/
theorem own_perform (past : ChunkHistory) (action : ChunkAction) :
    (past.perform action).own =
      if (past.perform action).owns then past.own ++ [action] else past.own := by
  rw [owns_perform, own, own, owns, perform]
  cases past.lent with
  | none => rfl
  | some buffers =>
    simp only [Option.isNone_some, Bool.false_or, Bool.false_eq_true, ↓reduceIte, List.dropWhile_append]
    cases written : past.actions.any ChunkAction.writes with
    | true =>
      obtain ⟨first, listed, writes⟩ := List.any_eq_true.mp written
      have some_left : (past.actions.dropWhile (!·.writes)).isEmpty = false := by
        rw [List.isEmpty_eq_false_iff, ne_eq, List.dropWhile_eq_nil_iff]
        exact fun none => absurd (none first listed) (by simp [writes])
      rw [some_left]
      rfl
    | false =>
      have none_left : past.actions.dropWhile (!·.writes) = [] := by
        rw [List.dropWhile_eq_nil_iff]
        simpa using written
      rw [none_left]
      cases writes : action.writes <;> simp [writes]

theorem emptied_perform (past : ChunkHistory) (action : ChunkAction) :
    (past.perform action).emptied = (past.emptied || past.owns && action.frees) := by
  rw [emptied, own_perform, owns_perform, emptied]
  cases held : past.owns with
  | true => simp
  | false =>
    rw [own_of_not_owns held]
    cases action <;> rfl

theorem written_perform (past : ChunkHistory) (action : ChunkAction) :
    (past.perform action).written =
      if past.owns && action.frees then [] else past.written ++ action.written?.toList := by
  rw [written, own_perform, owns_perform, written]
  cases held : past.owns with
  | true =>
    rw [Bool.true_or, if_pos rfl, List.rtakeWhile_concat]
    cases action <;> simp [ChunkAction.frees, ChunkAction.written?]
  | false =>
    rw [own_of_not_owns held]
    cases action <;> rfl

theorem code_perform (past : ChunkHistory) (action : ChunkAction) :
    (past.perform action).code =
      if past.owns && action.frees then [] else past.code ++ (action.written?.map Prod.fst).toList := by
  rw [code, emptied_perform, written_perform, code, perform]
  cases past.owns && action.frees with
  | true => simp
  | false => cases action <;> simp [ChunkAction.written?]

theorem lines_perform (past : ChunkHistory) (action : ChunkAction) :
    (past.perform action).lines =
      if past.owns && action.frees then [] else past.lines ++ (action.written?.map Prod.snd).toList := by
  rw [lines, emptied_perform, written_perform, lines, perform]
  cases past.owns && action.frees with
  | true => simp
  | false => cases action <;> simp [ChunkAction.written?]

theorem constants_perform (past : ChunkHistory) (action : ChunkAction) :
    (past.perform action).constants =
      if action.frees then [] else past.constants ++ action.added?.toList := by
  rw [constants, perform, List.rtakeWhile_concat, constants]
  cases action <;> simp [ChunkAction.frees, ChunkAction.added?]

/-! ## The account tells the contents -/

/-- The chunk holds what the account of its past says, and reads the host's buffers as they were lent for
as long as it does not own its memory. -/
structure Sound (past : ChunkHistory) : Prop where
  code : past.chunk.code.toList = past.code
  lines : past.chunk.lines.toList = past.lines
  constants : past.chunk.constants.toList = past.constants
  alike : past.chunk.lines.size = past.chunk.code.size
  owns : past.chunk.ownsMemory = past.owns
  lent : ∀ code lines, past.lent = some (code, lines) → past.owns = false →
    past.chunk.codeBuffer = .borrowed code ∧ past.chunk.lineBuffer = .borrowed lines ∧
      past.chunk.capacity = code.size
  copied : past.owns = true →
    past.chunk.codeBuffer.isOwned = true ∧ past.chunk.lineBuffer.isOwned = true

/-- An empty chunk. -/
def ofNothing : ChunkHistory := ⟨.empty, none, []⟩

theorem sound_ofNothing : ofNothing.Sound where
  code := rfl
  lines := rfl
  constants := rfl
  alike := rfl
  owns := rfl
  lent := by simp [ofNothing]
  copied := fun _ => ⟨rfl, rfl⟩

theorem sound_ofLent {code : Array UInt8} {lines : Array UInt32} {chunk : Chunk}
    (made : Chunk.failsafe code lines = .ok chunk) : Sound ⟨chunk, some (code, lines), []⟩ := by
  rw [Chunk.failsafe] at made
  split at made
  · next same =>
    cases made
    constructor
    case code => exact (List.append_nil _).symm
    case lines => exact (List.append_nil _).symm
    case constants => rfl
    case alike => exact same.symm
    case owns => rfl
    case lent =>
      intro code' lines' begun _
      cases begun
      exact ⟨rfl, rfl, rfl⟩
    case copied => exact fun owns => nomatch owns
  · cases made

namespace Sound

theorem borrowed (sound : past.Sound) (borrows : past.owns = false) :
    ∃ code lines, past.lent = some (code, lines) ∧ past.chunk.codeBuffer = .borrowed code ∧
      past.chunk.lineBuffer = .borrowed lines ∧ past.chunk.capacity = code.size := by
  have begun := borrows
  rw [ChunkHistory.owns, Bool.or_eq_false_iff, Option.isNone_eq_false_iff] at begun
  obtain ⟨⟨code, lines⟩, lent⟩ := Option.isSome_iff_exists.mp begun.1
  exact ⟨code, lines, lent, sound.lent code lines lent borrows⟩

/-- A chunk over the host's buffers has no room, so its first write copies them. -/
theorem isFull (sound : past.Sound) (borrows : past.owns = false) : past.chunk.isFull = true := by
  obtain ⟨code, -, -, borrowed, -, capacity⟩ := sound.borrowed borrows
  have size : past.chunk.size = code.size := by rw [Chunk.size, Chunk.code, borrowed, Buffer.contents]
  rw [Chunk.isFull, size, capacity, decide_eq_true_eq]
  exact Nat.lt_succ_self _

theorem write (sound : past.Sound) {byte : UInt8} {line : UInt32}
    (writes : action.written? = some (byte, line))
    (same : action.perform past.chunk = past.chunk.write byte line) : (past.perform action).Sound := by
  have chunk : (past.perform action).chunk = past.chunk.write byte line := same
  have keeps : action.frees = false := by
    cases action with
    | free => cases writes
    | _ => rfl
  have adds : action.added? = none := by
    cases action with
    | addConstant value => cases writes
    | _ => rfl
  have owns : (past.perform action).owns = true := by
    rw [owns_perform, ChunkAction.writes, writes, Option.isSome_some, Bool.or_true]
  constructor
  case code =>
    rw [chunk, Chunk.code_write, Array.toList_push, sound.code, code_perform, keeps, writes,
      Bool.and_false]
    rfl
  case lines =>
    rw [chunk, Chunk.lines_write, Array.toList_push, sound.lines, lines_perform, keeps, writes,
      Bool.and_false]
    rfl
  case constants =>
    rw [chunk, Chunk.constants_write, sound.constants, constants_perform, keeps, adds]
    exact (List.append_nil _).symm
  case alike =>
    rw [chunk, Chunk.lines_write, Chunk.code_write, Array.size_push, Array.size_push, sound.alike]
  case owns =>
    rw [chunk, Chunk.ownsMemory_write, owns, sound.owns]
    cases borrows : past.owns with
    | true => exact Bool.or_true _
    | false => rw [sound.isFull borrows, Bool.true_or]
  case lent =>
    intro _ _ _ borrows
    rw [owns] at borrows
    cases borrows
  case copied =>
    rw [chunk]
    exact fun _ => ⟨rfl, rfl⟩

theorem addConstant (sound : past.Sound) (value : Value) :
    (past.perform (.addConstant value)).Sound := by
  have keeps : (ChunkAction.addConstant value).frees = false := rfl
  have owns : (past.perform (.addConstant value)).owns = past.owns := by
    rw [owns_perform]
    exact Bool.or_false _
  constructor
  case code =>
    rw [code_perform, keeps, Bool.and_false]
    exact sound.code.trans (List.append_nil _).symm
  case lines =>
    rw [lines_perform, keeps, Bool.and_false]
    exact sound.lines.trans (List.append_nil _).symm
  case constants =>
    rw [constants_perform, ← sound.constants]
    exact Array.toList_push
  case alike => exact sound.alike
  case owns => exact sound.owns.trans owns.symm
  case lent =>
    rw [owns]
    exact sound.lent
  case copied =>
    rw [owns]
    exact sound.copied

/-- Freeing empties the chunk's own memory, and leaves the host's. -/
theorem free (sound : past.Sound) : (past.perform .free).Sound := by
  have chunk : (past.perform .free).chunk = past.chunk.free := rfl
  have owns : (past.perform .free).owns = past.owns := by
    rw [owns_perform]
    exact Bool.or_false _
  constructor
  case code =>
    rw [chunk, Chunk.code_free, code_perform, sound.owns]
    cases past.owns with
    | true => rfl
    | false => exact sound.code.trans (List.append_nil _).symm
  case lines =>
    rw [chunk, Chunk.lines_free, lines_perform, sound.owns]
    cases past.owns with
    | true => rfl
    | false => exact sound.lines.trans (List.append_nil _).symm
  case constants =>
    rw [chunk, Chunk.constants_free, constants_perform]
    rfl
  case alike =>
    rw [chunk, Chunk.lines_free, Chunk.code_free]
    split
    · rfl
    · exact sound.alike
  case owns => rw [chunk, Chunk.ownsMemory_free, owns, sound.owns]
  case lent =>
    intro code lines begun borrows
    rw [owns] at borrows
    have kept : past.chunk.free = { past.chunk with constants := #[] } := by
      rw [Chunk.free, if_neg (by rw [sound.owns, borrows]; exact Bool.false_ne_true)]
    rw [chunk, kept]
    exact sound.lent code lines begun borrows
  case copied =>
    intro own
    rw [owns] at own
    rw [chunk, Chunk.free, if_pos (sound.owns.trans own)]
    exact ⟨rfl, rfl⟩

theorem perform (sound : past.Sound) (action : ChunkAction) : (past.perform action).Sound := by
  cases action with
  | write byte line => exact sound.write rfl rfl
  | writeOp op line => exact sound.write rfl rfl
  | addConstant value => exact sound.addConstant value
  | free => exact sound.free

end Sound
end ChunkHistory

/-! ## Chunks side by side -/

/-- What a host does with its chunks, which are numbered as they come to be. -/
inductive ChunkStep where
  | begin
  | lend (code : Array UInt8) (lines : Array UInt32)
  | copy (index : Nat)
  | act (index : Nat) (action : ChunkAction)

namespace ChunkStep

/-- Buffers of different lengths make no chunk, and what there is none of cannot be copied. -/
def perform : ChunkStep → List ChunkHistory → List ChunkHistory
  | begin, bench => bench ++ [.ofNothing]
  | lend code lines, bench =>
    match Chunk.failsafe code lines with
    | .ok chunk => bench ++ [⟨chunk, some (code, lines), []⟩]
    | .error _ => bench
  | copy index, bench => bench ++ bench[index]?.toList
  | act index action, bench => bench.modify index (·.perform action)

def run (steps : List ChunkStep) : List ChunkHistory :=
  steps.foldl (fun bench step => step.perform bench) []

theorem run_concat (steps : List ChunkStep) (step : ChunkStep) :
    run (steps ++ [step]) = step.perform (run steps) := List.foldl_concat ..

/-- What holds of every chunk as it begins, and is kept by every action on one, holds throughout a run. -/
theorem forall_run {holds : ChunkHistory → Prop} (begun : holds .ofNothing)
    (lent : ∀ code lines chunk, Chunk.failsafe code lines = .ok chunk →
      holds ⟨chunk, some (code, lines), []⟩)
    (kept : ∀ past action, holds past → holds (past.perform action)) (steps : List ChunkStep) :
    ∀ past ∈ run steps, holds past := by
  induction steps using List.reverseRecOn with
  | nil => exact fun _ listed => nomatch listed
  | append_singleton steps step ih =>
    rw [run_concat]
    intro past listed
    cases step with
    | begin =>
      rcases List.mem_append.mp listed with old | new
      · exact ih past old
      · rw [List.mem_singleton.mp new]
        exact begun
    | lend code lines =>
      rw [perform] at listed
      split at listed
      · next chunk made =>
        rcases List.mem_append.mp listed with old | new
        · exact ih past old
        · rw [List.mem_singleton.mp new]
          exact lent code lines chunk made
      · exact ih past listed
    | copy index =>
      rcases List.mem_append.mp listed with old | new
      · exact ih past old
      · exact ih past (List.mem_of_getElem? (Option.mem_toList.mp new))
    | act index action =>
      obtain ⟨place, found⟩ := List.mem_iff_getElem?.mp listed
      rw [perform, List.getElem?_modify] at found
      obtain ⟨before, held, rfl⟩ := Option.map_eq_some_iff.mp found
      have own := ih before (List.mem_of_getElem? held)
      split
      · exact kept before action own
      · exact own

theorem sound_run (steps : List ChunkStep) : ∀ past ∈ run steps, past.Sound :=
  forall_run ChunkHistory.sound_ofNothing (fun _ _ _ made => ChunkHistory.sound_ofLent made)
    (fun _ action sound => sound.perform action) steps

/-- A step that does not act on a chunk leaves it. -/
theorem getElem?_perform {bench : List ChunkHistory} {step : ChunkStep} {index : Nat}
    (inside : index < bench.length) (apart : ∀ action, step ≠ .act index action) :
    (step.perform bench)[index]? = bench[index]? := by
  cases step with
  | begin => exact List.getElem?_append_left inside
  | lend code lines =>
    rw [perform]
    split
    · exact List.getElem?_append_left inside
    · rfl
  | copy other => exact List.getElem?_append_left inside
  | act other action =>
    have different : other ≠ index := by
      rintro rfl
      exact apart action rfl
    simp [perform, different]

theorem length_le_perform (step : ChunkStep) (bench : List ChunkHistory) :
    bench.length ≤ (step.perform bench).length := by
  cases step with
  | lend code lines =>
    rw [perform]
    split
    · simp
    · exact le_rfl
  | act index action => rw [perform, List.length_modify]
  | _ => simp [perform]

/-- What is not acted on stays as it is, whatever is done to other chunks. -/
theorem getElem?_run_append (steps more : List ChunkStep) {index : Nat}
    (inside : index < (run steps).length)
    (apart : ∀ step ∈ more, ∀ action, step ≠ .act index action) :
    (run (steps ++ more))[index]? = (run steps)[index]? := by
  rw [run, List.foldl_append, ← run]
  generalize run steps = bench at inside
  induction more generalizing bench with
  | nil => rfl
  | cons step more ih =>
    have first := getElem?_perform inside (apart step (by simp))
    have room := Nat.lt_of_lt_of_le inside (step.length_le_perform bench)
    have later := ih (fun step listed => apart step (by simp [listed])) (step.perform bench) room
    exact later.trans first

/-- **A chunk holds what was put into it.** Whatever chunks a host begins, borrows buffers for, copies,
writes to and frees, each holds code and lines of one length, which are what it began with followed by
the bytes and lines written, in order; freeing empties them if the memory is its own, and leaves the
host's. Its constants are those added since it was last freed, and the next one gets their number.
Opcodes that are written are read back from where they were written. Buffers of the host are those that
were lent until the first write, and from then on the chunk has copies of its own. A copy is what the
chunk was, and no chunk is changed but by what is done to itself. -/
theorem contents_run (steps : List ChunkStep) :
    (∀ past ∈ run steps,
      past.chunk.lines.size = past.chunk.code.size ∧
      past.chunk.code.toList = past.code ∧
      past.chunk.lines.toList = past.lines ∧
      past.chunk.ownsMemory = past.owns ∧
      past.chunk.free.code.toList = (if past.owns then [] else past.code) ∧
      past.chunk.free.lines.toList = (if past.owns then [] else past.lines) ∧
      past.chunk.constants.toList = past.constants ∧
      (∀ value, (past.chunk.addConstant value).1 = past.constants.length) ∧
      (∀ ops index, (past.chunk.writeOps ops).opAt? (past.chunk.size + index) =
        ops[index]?.map fun op => .ok op.1) ∧
      (past.owns = true →
        past.chunk.codeBuffer.isOwned = true ∧ past.chunk.lineBuffer.isOwned = true) ∧
      ∀ code lines, past.lent = some (code, lines) → past.owns = false →
        past.chunk.codeBuffer = .borrowed code ∧ past.chunk.lineBuffer = .borrowed lines) ∧
    (∀ index past, (run steps)[index]? = some past →
      (run (steps ++ [.copy index]))[(run steps).length]? = some past) ∧
    ∀ more index, index < (run steps).length →
      (∀ step ∈ more, ∀ action, step ≠ .act index action) →
      (run (steps ++ more))[index]? = (run steps)[index]? := by
  refine ⟨fun past listed => ?_, fun index past found => ?_,
    fun more index inside apart => getElem?_run_append steps more inside apart⟩
  · have sound := sound_run steps past listed
    refine ⟨sound.alike, sound.code, sound.lines, sound.owns, ?_, ?_, sound.constants, ?_,
      past.chunk.opAt?_writeOps, sound.copied, ?_⟩
    · rw [Chunk.code_free, sound.owns, ← sound.code]
      split <;> rfl
    · rw [Chunk.lines_free, sound.owns, ← sound.lines]
      split <;> rfl
    · intro value
      rw [← sound.constants]
      rfl
    · intro code lines begun borrows
      obtain ⟨code, lines, -⟩ := sound.lent code lines begun borrows
      exact ⟨code, lines⟩
  · rw [run_concat, perform, found, List.getElem?_append_right le_rfl, Nat.sub_self]
    rfl

/-- A chunk over two bytes of the host and a copy of it. The one is written to, freed and written to again,
and both are freed while the other was never written to. -/
def lentTwice : List ChunkStep :=
  [.lend #[0x3A, 0x0B] #[7, 9], .copy 0, .act 0 (.writeOp .pop 3), .act 1 (.addConstant .null),
    .act 0 .free, .act 0 (.writeOp .add 4), .act 1 .free]

/-- The one has only what was written last, and the other still reads what was lent. -/
theorem contents_lentTwice :
    let written := (run lentTwice).get ⟨0, by decide⟩
    let kept := (run lentTwice).get ⟨1, by decide⟩
    written.chunk.code.toList = [0x16] ∧ written.chunk.lineBuffer.isOwned = true ∧
      kept.chunk.codeBuffer = .borrowed #[0x3A, 0x0B] ∧ kept.chunk.constants.toList = [] ∧
      (run (lentTwice ++ [.act 0 .free]))[1]? = (run lentTwice)[1]? := by
  intro written kept
  obtain ⟨holds, -, apart⟩ := contents_run lentTwice
  obtain ⟨-, code, -, -, -, -, -, -, -, copied, -⟩ := holds written (List.get_mem ..)
  obtain ⟨-, -, -, -, -, -, constants, -, -, -, lent⟩ := holds kept (List.get_mem ..)
  refine ⟨code.trans (by decide), (copied (by decide)).2, (lent _ #[7, 9] (by decide) (by decide)).1,
    constants.trans (by decide), apart [.act 0 .free] 1 (by decide) ?_⟩
  intro step listed action
  rw [List.mem_singleton.mp listed]
  rintro ⟨⟩

end ChunkStep
end ScriptHeap
