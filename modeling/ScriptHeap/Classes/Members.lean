import ScriptHeap.Heap.Basic

/-! The tables in which objects keep their members. -/
namespace ScriptHeap

inductive MemberTable where
  | methods
  | fields
deriving DecidableEq, Repr

namespace MemberTable

def all : List MemberTable := [methods, fields]

def name : MemberTable → String
  | methods => "methods"
  | fields => "fields"

/-- A table of a payload. Only classes have methods; classes, instances and namespaces have fields. -/
def of? : MemberTable → Payload → Option (Table Value)
  | methods, .classDef self => some self.methods
  | fields, .classDef self => some self.fields
  | fields, .classInstance self => some self.fields
  | fields, .nameSpace space => some space.fields
  | _, _ => none

/-- The payload with a table exchanged, where it has that table. -/
def exchange (table : Table Value) : MemberTable → Payload → Payload
  | methods, .classDef self => .classDef { self with methods := table }
  | fields, .classDef self => .classDef { self with fields := table }
  | fields, .classInstance self => .classInstance { self with fields := table }
  | fields, .nameSpace space => .nameSpace { space with fields := table }
  | _, payload => payload

end MemberTable

namespace Heap

/-- A table of an object that is expected to be alive; none if it has no such table. -/
def memberTable (heap : Heap) (handle : Handle) (which : MemberTable) :
    Except HeapError (Option (Table Value)) :=
  match heap.require handle with
  | .ok object => .ok (which.of? object.payload)
  | .error cause => .error cause

/-- Exchanges a table of an object, where it has that table. -/
def setMemberTable (heap : Heap) (handle : Handle) (which : MemberTable) (table : Table Value) :
    Heap :=
  heap.modify handle fun object =>
    { object with payload := which.exchange table object.payload }

end Heap
end ScriptHeap
