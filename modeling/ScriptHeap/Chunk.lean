import ScriptHeap.Log.Event
import ScriptHeap.Opcode
import ScriptHeap.Value

/-! Chunks of code: instruction bytes, the source line of every byte, and a pool of constants. A
failsafe chunk borrows its bytes and lines from the host and copies them when it is first written to. -/
namespace ScriptHeap

/-! ## Capacity -/

def minCapacity : Nat := 8

/-- The capacity that follows a full one. -/
def nextCapacity (capacity : Nat) : Nat :=
  if capacity < minCapacity then minCapacity else capacity * 2

/-- The capacity that follows any given one, if a machine word can hold it. -/
def growCapacity (capacity : Nat) : Except Defect Nat :=
  if capacity < minCapacity then .ok minCapacity else checkedDouble capacity

/-! ## Buffers -/

/-- Contents that belong to the host, or that the chunk owns. -/
inductive Buffer (α : Type) where
  | borrowed (contents : Array α)
  | owned (contents : Array α)
deriving DecidableEq, Repr

namespace Buffer
variable {α : Type}

def contents : Buffer α → Array α
  | borrowed contents => contents
  | owned contents => contents

def isOwned : Buffer α → Bool
  | borrowed _ => false
  | owned _ => true

/-- Appending leaves the host's contents alone: what is appended to is a copy. -/
def push (buffer : Buffer α) (item : α) : Buffer α := owned (buffer.contents.push item)

end Buffer

structure Chunk where
  codeBuffer : Buffer UInt8
  lineBuffer : Buffer UInt32
  constants : Array Value
  /-- The capacity that code and lines share. -/
  capacity : Nat
  ownsMemory : Bool
deriving DecidableEq, Repr

namespace Chunk

def empty : Chunk := ⟨.owned #[], .owned #[], #[], 0, true⟩

instance : Inhabited Chunk := ⟨empty⟩

/-- A chunk over buffers of the host, which have to be equally long. -/
def failsafe (code : Array UInt8) (lines : Array UInt32) : Except Defect Chunk :=
  if code.size = lines.size then .ok ⟨.borrowed code, .borrowed lines, #[], code.size, false⟩
  else .error (.failsafeLengths code.size lines.size)

/-! ## Reading -/

def code (chunk : Chunk) : Array UInt8 := chunk.codeBuffer.contents

def lines (chunk : Chunk) : Array UInt32 := chunk.lineBuffer.contents

/-- How many bytes have been written. -/
def size (chunk : Chunk) : Nat := chunk.code.size

def isEmpty (chunk : Chunk) : Bool := chunk.code.isEmpty

def constant? (chunk : Chunk) (index : Nat) : Option Value := chunk.constants[index]?

def byteAt? (chunk : Chunk) (offset : Nat) : Option UInt8 := chunk.code[offset]?

def lineAt? (chunk : Chunk) (offset : Nat) : Option UInt32 := chunk.lines[offset]?

/-- The byte at an offset, decoded. -/
def opAt? (chunk : Chunk) (offset : Nat) : Option (Except UnknownOpcode Opcode) :=
  (chunk.byteAt? offset).map Opcode.ofByte

/-! ## Writing -/

/-- No byte more fits. -/
def isFull (chunk : Chunk) : Bool := chunk.capacity < chunk.size + 1

/-- Moves code and lines into owned buffers of the next capacity. -/
def grow (chunk : Chunk) : Chunk :=
  { chunk with
    codeBuffer := .owned chunk.code
    lineBuffer := .owned chunk.lines
    capacity := nextCapacity chunk.capacity
    ownsMemory := true }

/-- Room for one more byte. -/
def reserve (chunk : Chunk) : Chunk := if chunk.isFull then chunk.grow else chunk

/-- Appends a byte and the line it comes from. -/
def write (chunk : Chunk) (byte : UInt8) (line : UInt32) : Chunk :=
  let roomy := chunk.reserve
  { roomy with
    codeBuffer := roomy.codeBuffer.push byte
    lineBuffer := roomy.lineBuffer.push line }

def writeOp (chunk : Chunk) (op : Opcode) (line : UInt32) : Chunk := chunk.write op.byte line

/-- What a write reports: growth, and before it the copying of borrowed buffers. -/
def writeEvents (chunk : Chunk) : List Event :=
  if chunk.isFull then
    (if chunk.ownsMemory then [] else [.failsafeCopied chunk.size])
      ++ [.chunkGrown chunk.capacity (nextCapacity chunk.capacity)]
  else []

/-- Appends a constant and gives its index. Equal constants are kept apart. -/
def addConstant (chunk : Chunk) (value : Value) : Nat × Chunk :=
  (chunk.constants.size, { chunk with constants := chunk.constants.push value })

/-! ## Freeing -/

/-- Drops the constants, and the code and lines with them if the chunk owns those. -/
def free (chunk : Chunk) : Chunk :=
  if chunk.ownsMemory then
    { chunk with codeBuffer := .owned #[], lineBuffer := .owned #[], constants := #[], capacity := 0 }
  else { chunk with constants := #[] }

def freeEvents (chunk : Chunk) : List Event := [.chunkFreed chunk.ownsMemory]

end Chunk
end ScriptHeap
