import ScriptHeap.Json.Reader

/-! Limits of a heap, as the host configures them. -/
namespace ScriptHeap

structure HeapConfig where
  /-- Slots the host expects to need. It is a hint and bounds nothing, but memory is asked for at once for
  as many slots, so a heap can be created only where there is that much. -/
  initialCapacity : UInt64
  /-- How many objects may live at once. -/
  maxObjectCount : UInt64
  /-- How many bytes may be charged at once. -/
  maxMemorySize : UInt64
  /-- The charged bytes at which a heap first asks to be collected. -/
  collectThreshold : UInt64
deriving DecidableEq, Repr

namespace HeapConfig

def default : HeapConfig where
  initialCapacity := 256
  maxObjectCount := 100000
  maxMemorySize := 1024 * 1024 * 1024
  collectThreshold := 1024 * 1024

instance : Inhabited HeapConfig := ⟨default⟩

def ofJson? (json : Json) : Option HeapConfig :=
  if json.isRecord 4 then do
    let initialCapacity ← json.field? 0 "initial_capacity" default.initialCapacity Json.word?
    let maxObjectCount ← json.field? 1 "max_object_count" default.maxObjectCount Json.word?
    let maxMemorySize ← json.field? 2 "max_memory_size" default.maxMemorySize Json.word?
    let collectThreshold ← json.field? 3 "collect_threshold" default.collectThreshold Json.word?
    some { initialCapacity, maxObjectCount, maxMemorySize, collectThreshold }
  else none

/-- Reads a configuration from JSON text. -/
def read? (text : String) : Option HeapConfig := (Json.read? text).bind ofJson?

/-- The fields in order, without blanks. -/
def write (config : HeapConfig) : String :=
  "\x7b\"initial_capacity\":" ++ toString config.initialCapacity
    ++ ",\"max_object_count\":" ++ toString config.maxObjectCount
    ++ ",\"max_memory_size\":" ++ toString config.maxMemorySize
    ++ ",\"collect_threshold\":" ++ toString config.collectThreshold ++ "\x7d"

end HeapConfig
end ScriptHeap
