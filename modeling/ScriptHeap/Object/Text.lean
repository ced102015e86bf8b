import ScriptHeap.Hash

/-! Strings of scripts: byte strings that never change, with their hash computed once. -/
namespace ScriptHeap

/-- The bytes with a zero byte behind them, and the hash of the bytes alone. -/
structure StringObject where
  buffer : List UInt8
  hash : NameHash
deriving DecidableEq, Repr

namespace StringObject

/-- Adopts a buffer: hashes it as it is and then puts the zero byte behind it. -/
def take (bytes : List UInt8) : StringObject :=
  let hash := fnv1a bytes
  ⟨bytes ++ [0], hash⟩

/-- Copies a buffer of someone else's into one of its own that ends with the zero byte. -/
def copy (bytes : List UInt8) : StringObject where
  buffer := bytes.foldr (· :: ·) [0]
  hash := fnv1a bytes

/-- How many bytes there are before the zero byte. -/
def size (string : StringObject) : Nat := string.buffer.length - 1

def isEmpty (string : StringObject) : Bool := string.size == 0

def bytes (string : StringObject) : List UInt8 := string.buffer.take string.size

/-- The text, if the bytes are UTF-8. -/
def text? (string : StringObject) : Option String := Text.ofUtf8? string.bytes

/-- The text with U+FFFD for whatever is not UTF-8. -/
def lossyText (string : StringObject) : String := Text.ofUtf8Lossy string.bytes

/-- Equality of contents, decided by the hashes where those differ. -/
def sameContent (a b : StringObject) : Bool := a.hash == b.hash && a.bytes == b.bytes

end StringObject
end ScriptHeap
