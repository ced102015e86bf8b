import ScriptHeap.Log.Event
import ScriptHeap.Object.Stream

/-! What an operation on the heap tells the outside world. -/
namespace ScriptHeap

inductive Notice where
  | logged (event : Event)
  /-- The host is asked to close a stream of its own. -/
  | closeStream (stream : HostStream)
deriving DecidableEq, Repr

namespace Notice

def event? : Notice → Option Event
  | logged event => some event
  | closeStream _ => none

def closedStream? : Notice → Option HostStream
  | logged _ => none
  | closeStream stream => some stream

end Notice
end ScriptHeap
