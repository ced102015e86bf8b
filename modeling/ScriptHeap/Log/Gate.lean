import ScriptHeap.Log.Filter

/-! The gate of an installed logger, which is asked whether the debugging events of a subsystem are
wanted. Its own filter decides, and no later logger replaces it. A logger that comes too late is heard
all the same when the gate has settled before: until the next one comes, what its filter lets through is
wanted too. -/
namespace ScriptHeap

structure LogGate where
  filter : LogFilter
  /-- The filter of the latest logger that was refused, unless the gate has settled after it. -/
  refused? : Option LogFilter
  settled : Bool
deriving DecidableEq, Repr

namespace LogGate

def ofFilter (filter : LogFilter) : LogGate := ⟨filter, none, false⟩

/-- The filters that are heard. -/
def filters (gate : LogGate) : List LogFilter := gate.filter :: gate.refused?.toList

/-- A logger that comes too late takes the place of the one that was refused before it. -/
def refuse (gate : LogGate) (filter : LogFilter) : LogGate := { gate with refused? := some filter }

/-- What a question leaves behind. The gate settles on the first one that could be answered with yes
for some target, and it drops the logger that was refused until then. -/
def settle (gate : LogGate) : LogGate :=
  if !gate.settled && gate.filters.any (·.reaches .debug) then ⟨gate.filter, none, true⟩ else gate

/-- Whether the debugging events of a subsystem are wanted. -/
def wants (gate : LogGate) (subsystem : Subsystem) : Bool :=
  gate.settle.filters.any (·.enables subsystem.target .debug)

@[simp] theorem filter_refuse (gate : LogGate) (filter : LogFilter) :
    (gate.refuse filter).filter = gate.filter := rfl

@[simp] theorem filter_settle (gate : LogGate) : gate.settle.filter = gate.filter := by
  unfold settle
  split <;> rfl

end LogGate
end ScriptHeap
