import ScriptHeap.Slots

/-! Handles: how values and objects refer to what the heap and the link table hold. -/
namespace ScriptHeap

/-- A reference to an object. Equal handles mean the same object, as no handle is issued twice. -/
structure Handle extends SlotKey
deriving DecidableEq, Repr, Inhabited

/-- The printed form of a handle. -/
def Handle.text (handle : Handle) : String :=
  "#" ++ toString handle.index ++ ":" ++ toString handle.generation

/-- A reference to a linked host cell. -/
structure LinkId extends SlotKey
deriving DecidableEq, Repr, Inhabited

def LinkId.text (id : LinkId) : String := toString id.index ++ ":" ++ toString id.generation

end ScriptHeap
