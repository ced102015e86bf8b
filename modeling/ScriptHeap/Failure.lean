import ScriptHeap.Handle
import ScriptHeap.Hash
import ScriptHeap.ObjectType
import ScriptHeap.Text.Hex

/-! Two ways to fail. A heap error is an answer: the heap refuses a request and says why. A defect is a
call outside its contract, such as reading a null as an integer; it has no answer at all. Which calls
these are is said for a debugging build, which checks sums and products for overflow and stops where
an asserted condition fails. -/
namespace ScriptHeap

inductive HeapError where
  | objectLimitExceeded (limit attempted : Nat)
  | memoryLimitExceeded (limit attempted : Nat)
  /-- The handle's object is gone, or never was. -/
  | invalidHandle (handle : Handle)
  | accountingUnderflow (accounted releasing : Nat)
  | wrongObjectType (expected found : ObjectType)
  | parentHashMismatch (expected found : NameHash)
  | inheritanceCycle
deriving DecidableEq, Repr

/-- The short name of an error. -/
def HeapError.name : HeapError → String
  | .objectLimitExceeded .. => "ObjectLimitExceeded"
  | .memoryLimitExceeded .. => "MemoryLimitExceeded"
  | .invalidHandle .. => "InvalidHandle"
  | .accountingUnderflow .. => "AccountingUnderflow"
  | .wrongObjectType .. => "WrongObjectType"
  | .parentHashMismatch .. => "ParentHashMismatch"
  | .inheritanceCycle => "InheritanceCycle"

def HeapError.message : HeapError → String
  | .objectLimitExceeded limit attempted =>
    s!"object limit exceeded: limit {limit}, attempted {attempted}"
  | .memoryLimitExceeded limit attempted =>
    s!"memory limit exceeded: limit {limit} bytes, attempted {attempted} bytes"
  | .invalidHandle handle => "invalid object handle " ++ handle.text
  | .accountingUnderflow accounted releasing =>
    s!"heap accounting underflow: {accounted} bytes accounted, releasing {releasing}"
  | .wrongObjectType expected found =>
    "wrong object type: expected " ++ expected.name ++ ", found " ++ found.name
  | .parentHashMismatch expected found =>
    "parent hash mismatch: class expects " ++ Text.hex 8 expected.toNat
      ++ ", candidate is " ++ Text.hex 8 found.toNat
  | .inheritanceCycle => "inheritance cycle"

/-- The four accesses that insist on a number of one kind. -/
inductive NumericAccess where
  | asInteger
  | asDecimal
  | setInteger
  | setDecimal
deriving DecidableEq, Repr

def NumericAccess.name : NumericAccess → String
  | asInteger => "as_integer"
  | asDecimal => "as_decimal"
  | setInteger => "set_integer"
  | setDecimal => "set_decimal"

/-- Why a debugging build gives no answer. But for an endless search these are checks that other builds
leave out: there sums and products wrap around, and what follows an assertion is done although it fails. -/
inductive Defect where
  | addOverflow
  | multiplyOverflow
  /-- A numeric access on a value of a kind, named as scripts name it, that has no such number. -/
  | notNumeric (access : NumericAccess) (typeName : String)
  | staleIntegerLink
  | staleDecimalLink
  | closingPastStackEnd (slot : Nat)
  | failsafeLengths (code lines : Nat)
  /-- Links written from outside form a ring that the search never leaves. -/
  | endlessSearch
deriving DecidableEq, Repr

def Defect.message : Defect → String
  | addOverflow => "attempt to add with overflow"
  | multiplyOverflow => "attempt to multiply with overflow"
  | notNumeric access typeName => access.name ++ " on " ++ typeName ++ " value"
  | staleIntegerLink => "write through a stale integer link"
  | staleDecimalLink => "write through a stale decimal link"
  | closingPastStackEnd slot => s!"closing upvalue over slot {slot} past stack end"
  | failsafeLengths code lines =>
    "assertion \x60left == right\x60 failed: failsafe code/lines length mismatch\n  left: "
      ++ toString code ++ "\n right: " ++ toString lines
  | endlessSearch => "search along a ring of links"

/-- Why an operation gave no result. -/
inductive Failure where
  | error (cause : HeapError)
  | defect (cause : Defect)
deriving DecidableEq, Repr

/-! ## Machine sizes -/

/-- Sizes and counts stay below this bound, the first that a machine word cannot hold. -/
def wordLimit : Nat := UInt64.size

/-- A sum, as a debugging build takes it. -/
def checkedAdd (a b : Nat) : Except Defect Nat :=
  if a + b < wordLimit then .ok (a + b) else .error .addOverflow

/-- Twice a number, as a debugging build takes it. -/
def checkedDouble (a : Nat) : Except Defect Nat :=
  if a * 2 < wordLimit then .ok (a * 2) else .error .multiplyOverflow

end ScriptHeap
