import ScriptHeap.Text.Utf8

/-! Name hashes. Every name a script uses is known to the tables by its 32-bit FNV-1a hash; two names
with one hash are one key. -/
namespace ScriptHeap

/-- The hash of a name, and the key of every table. -/
abbrev NameHash := UInt32

/-- The hash of the empty string. -/
def fnvBasis : NameHash := 0x811C9DC5

/-- The odd factor each byte is multiplied in with. -/
def fnvPrime : NameHash := 0x01000193

/-- A byte enters the hash by exclusive or and one multiplication modulo 2 ^ 32. -/
def fnvStep (hash : NameHash) (byte : UInt8) : NameHash := (hash ^^^ byte.toUInt32) * fnvPrime

/-- FNV-1a over a byte string. -/
def fnv1a (bytes : List UInt8) : NameHash := bytes.foldl fnvStep fnvBasis

/-- The hash of a name is that of its UTF-8 bytes. -/
def hashName (name : String) : NameHash := fnv1a (Text.utf8 name)

end ScriptHeap
