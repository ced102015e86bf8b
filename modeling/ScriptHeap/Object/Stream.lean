/-! Streams of the host, as far as the heap deals with them: they have to be closed, once. -/
namespace ScriptHeap

/-- A stream that the host opened, by number. -/
structure HostStream where
  id : Nat
deriving DecidableEq, Repr

structure Stream where
  host : HostStream
  writable : Bool
  closed : Bool
deriving DecidableEq, Repr

namespace Stream

def ofHost (host : HostStream) (writable : Bool) : Stream := ⟨host, writable, false⟩

/-- The host's stream, while it is open. -/
def host? (stream : Stream) : Option HostStream := if stream.closed then none else some stream.host

/-- The stream closed. What the host is to close is `host?` from before. -/
def close (stream : Stream) : Stream := { stream with closed := true }

end Stream
end ScriptHeap
