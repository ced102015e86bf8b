import ScriptHeap.Failure

/-! The counter of charged bytes. -/
namespace ScriptHeap

structure Accounting where
  bytes : Nat
deriving DecidableEq, Repr, Inhabited

namespace Accounting

def zero : Accounting := ⟨0⟩

def charge (accounting : Accounting) (size : Nat) : Except Defect Accounting :=
  (checkedAdd accounting.bytes size).map Accounting.mk

/-- Takes bytes off the counter, which cannot give more than it has. -/
def release (accounting : Accounting) (size : Nat) : Except HeapError Accounting :=
  if size ≤ accounting.bytes then .ok ⟨accounting.bytes - size⟩
  else .error (.accountingUnderflow accounting.bytes size)

end Accounting
end ScriptHeap
