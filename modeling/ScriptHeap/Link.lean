import ScriptHeap.Decimal.Basic
import ScriptHeap.Handle

/-! Links. The host lends its own number cells to scripts: it registers a cell, scripts hold the id,
and every read or write through the id reaches the cell itself. The cells live with the host; the
table only knows which cell an id stands for. -/
namespace ScriptHeap

/-- A host cell's number, separate for integer and decimal cells. -/
abbrev CellId := Nat

/-- The contents of all cells of the host. -/
structure HostCells where
  integers : CellId → Int32
  decimals : CellId → Decimal

namespace HostCells

/-- Every cell holds zero. -/
def zero : HostCells := ⟨fun _ => 0, fun _ => ⟨0⟩⟩

def writeInteger (cells : HostCells) (cell : CellId) (n : Int32) : HostCells :=
  { cells with integers := fun other => if other = cell then n else cells.integers other }

def writeDecimal (cells : HostCells) (cell : CellId) (d : Decimal) : HostCells :=
  { cells with decimals := fun other => if other = cell then d else cells.decimals other }

end HostCells

/-- The cell an id stands for. -/
inductive LinkedCell where
  | integer (cell : CellId)
  | decimal (cell : CellId)
deriving DecidableEq, Repr

/-- The registered cells. A vacated id stays void for ever, as long as its slot is not vacated so often
that generations wrap around. -/
abbrev LinkTable := Slots LinkedCell

namespace LinkTable

/-- Registers a cell under a new id. -/
def register (table : LinkTable) (cell : LinkedCell) : LinkId × LinkTable :=
  (⟨table.nextKey⟩, table.insert cell)

/-- The cell an id stands for, while it is registered. -/
def cell? (table : LinkTable) (id : LinkId) : Option LinkedCell := table.get? id.toSlotKey

/-- Withdraws an id; there is no table to give when it is not registered. -/
def unregister? (table : LinkTable) (id : LinkId) : Option LinkTable :=
  if (table.cell? id).isSome then some (table.vacate id.toSlotKey) else none

def readInteger (table : LinkTable) (cells : HostCells) (id : LinkId) : Option Int32 :=
  match table.cell? id with
  | some (.integer cell) => some (cells.integers cell)
  | _ => none

def readDecimal (table : LinkTable) (cells : HostCells) (id : LinkId) : Option Decimal :=
  match table.cell? id with
  | some (.decimal cell) => some (cells.decimals cell)
  | _ => none

/-- The host's cells after a write; none when the id stands for no integer cell. -/
def writeInteger? (table : LinkTable) (cells : HostCells) (id : LinkId) (n : Int32) :
    Option HostCells :=
  match table.cell? id with
  | some (.integer cell) => some (cells.writeInteger cell n)
  | _ => none

/-- The host's cells after a write; none when the id stands for no decimal cell. -/
def writeDecimal? (table : LinkTable) (cells : HostCells) (id : LinkId) (d : Decimal) :
    Option HostCells :=
  match table.cell? id with
  | some (.decimal cell) => some (cells.writeDecimal cell d)
  | _ => none

end LinkTable
end ScriptHeap
