import ScriptHeap.Config.Heap
import ScriptHeap.Config.Log
import ScriptHeap.Failure

/-! What the engine reports about itself. -/
namespace ScriptHeap

/-- How grave an event is. -/
inductive Severity where
  | error
  | warn
  | info
  | debug
  | trace
deriving DecidableEq, Repr

namespace Severity

/-- From the gravest to the least. -/
def all : List Severity := [error, warn, info, debug, trace]

def name : Severity → String
  | error => "ERROR"
  | warn => "WARN"
  | info => "INFO"
  | debug => "DEBUG"
  | trace => "TRACE"

/-- The quietest level that lets the event through. -/
def level : Severity → LogLevel
  | error => .error
  | warn => .warn
  | info => .info
  | debug => .debug
  | trace => .trace

end Severity

/-- What one sweep did: how much it freed, and how many objects it let live. -/
structure SweepStats where
  freedObjects : Nat
  freedBytes : Nat
  survivors : Nat
deriving DecidableEq, Repr

inductive Event where
  | heapCreated (config : HeapConfig)
  | objectLimitExceeded (limit : Nat)
  | memoryLimitExceeded (limit attempted : Nat)
  | allocated (object : Handle) (type : ObjectType) (size bytes : Nat)
  | freed (object : Handle) (type : ObjectType) (size bytes : Nat)
  | accountingUnderflow (accounted releasing : Nat)
  | builtinRegistered (type : ObjectType) (implementation : Handle)
  | swept (stats : SweepStats) (nextCollect : Nat)
  | failsafeCopied (length : Nat)
  | chunkGrown (oldCapacity newCapacity : Nat)
  | chunkFreed (ownsMemory : Bool)
  | parentResolved (child parent : Handle) (parentHash : NameHash)
  | resolutionFailed (child parent : Handle) (cause : HeapError)
  | pendingResolved (linked : Nat)
deriving DecidableEq, Repr

namespace Event

def subsystem : Event → Subsystem
  | failsafeCopied .. | chunkGrown .. | chunkFreed .. => .chunk
  | parentResolved .. | resolutionFailed .. | pendingResolved .. => .classes
  | _ => .heap

def target (event : Event) : String := event.subsystem.target

def severity : Event → Severity
  | accountingUnderflow .. => .error
  | objectLimitExceeded .. | memoryLimitExceeded .. | resolutionFailed .. => .warn
  | heapCreated .. | builtinRegistered .. | swept .. | parentResolved .. | pendingResolved .. => .debug
  | allocated .. | freed .. | failsafeCopied .. | chunkGrown .. | chunkFreed .. => .trace

def message : Event → String
  | heapCreated .. => "heap created"
  | objectLimitExceeded .. => "object limit exceeded"
  | memoryLimitExceeded .. => "memory limit exceeded"
  | allocated .. => "allocate"
  | freed .. => "free"
  | accountingUnderflow .. => "heap accounting underflow"
  | builtinRegistered .. => "builtin class registered"
  | swept .. => "sweep"
  | failsafeCopied .. => "failsafe chunk copied into owned buffers"
  | chunkGrown .. => "chunk grown"
  | chunkFreed .. => "chunk freed"
  | parentResolved .. => "parent resolved"
  | resolutionFailed .. => "parent resolution failed"
  | pendingResolved .. => "pending classes resolved"

/-- The particulars of an event, by name. -/
def fields : Event → List (String × String)
  | heapCreated config =>
    [("initial_capacity", toString config.initialCapacity),
      ("max_object_count", toString config.maxObjectCount),
      ("max_memory_size", toString config.maxMemorySize)]
  | objectLimitExceeded limit => [("limit", toString limit)]
  | memoryLimitExceeded limit attempted =>
    [("limit", toString limit), ("attempted", toString attempted)]
  | allocated object type size bytes | freed object type size bytes =>
    [("obj", object.text), ("obj_type", type.name), ("size", toString size),
      ("bytes", toString bytes)]
  | accountingUnderflow accounted releasing =>
    [("accounted", toString accounted), ("releasing", toString releasing)]
  | builtinRegistered type implementation =>
    [("obj_type", type.name), ("class", implementation.text)]
  | swept stats nextCollect =>
    [("freed_objects", toString stats.freedObjects), ("freed_bytes", toString stats.freedBytes),
      ("survivors", toString stats.survivors), ("next_collect", toString nextCollect)]
  | failsafeCopied length => [("len", toString length)]
  | chunkGrown oldCapacity newCapacity =>
    [("old_capacity", toString oldCapacity), ("new_capacity", toString newCapacity)]
  | chunkFreed ownsMemory => [("owns_memory", toString ownsMemory)]
  | parentResolved child parent parentHash =>
    [("class", child.text), ("parent", parent.text), ("parent_hash", toString parentHash)]
  | resolutionFailed child parent cause =>
    [("class", child.text), ("parent", parent.text), ("error", cause.message)]
  | pendingResolved linked => [("linked", toString linked)]

end Event
end ScriptHeap
