import ScriptHeap.Failure
import ScriptHeap.Link

/-! Values of scripts. Numbers are held by value, objects by handle, and linked numbers by the id of a
host cell that is read afresh each time. -/
namespace ScriptHeap

inductive Value where
  | null
  | integer (n : Int32)
  | decimal (d : Decimal)
  | object (handle : Handle)
  | linkedInteger (id : LinkId)
  | linkedDecimal (id : LinkId)
deriving DecidableEq, Repr, Inhabited

/-- A value's tag. -/
inductive ValueType where
  | null
  | integer
  | decimal
  | object
  | linkedInteger
  | linkedDecimal
deriving DecidableEq, Repr

namespace ValueType

def all : List ValueType := [null, integer, decimal, object, linkedInteger, linkedDecimal]

/-- The kind scripts are told: a linked number is a number. -/
def name : ValueType → String
  | null => "Null"
  | integer | linkedInteger => "Integer"
  | decimal | linkedDecimal => "Decimal"
  | object => "Object"

/-- The tag itself, which tells linked numbers apart. -/
def tag : ValueType → String
  | linkedInteger => "LinkedInteger"
  | linkedDecimal => "LinkedDecimal"
  | type => type.name

end ValueType

namespace Value

instance : Coe Int32 Value := ⟨integer⟩

instance : Coe Decimal Value := ⟨decimal⟩

instance : Coe Handle Value := ⟨object⟩

def type : Value → ValueType
  | null => .null
  | integer _ => .integer
  | decimal _ => .decimal
  | object _ => .object
  | linkedInteger _ => .linkedInteger
  | linkedDecimal _ => .linkedDecimal

def typeName (value : Value) : String := value.type.name

def asObject : Value → Option Handle
  | object handle => some handle
  | _ => none

/-- Equality as scripts see it: only within one tag, decimals numerically, objects by identity. Nulls
and linked numbers equal nothing, themselves included. -/
def same : Value → Value → Bool
  | integer a, integer b => a == b
  | decimal a, decimal b => a.same b
  | object a, object b => a == b
  | _, _ => false

/-! ## Numeric access -/

section
variable (links : LinkTable) (cells : HostCells)

/-- The integer a value is or stands for at this moment. -/
def tryInteger : Value → Option Int32
  | integer n => some n
  | linkedInteger id => links.readInteger cells id
  | _ => none

/-- The decimal a value is or stands for at this moment. -/
def tryDecimal : Value → Option Decimal
  | decimal d => some d
  | linkedDecimal id => links.readDecimal cells id
  | _ => none

/-- The integer of a value that the caller knows to have one. -/
def asInteger (value : Value) : Except Defect Int32 :=
  match value.tryInteger links cells with
  | some n => .ok n
  | none => .error (.notNumeric .asInteger value.typeName)

/-- The decimal of a value that the caller knows to have one. -/
def asDecimal (value : Value) : Except Defect Decimal :=
  match value.tryDecimal links cells with
  | some d => .ok d
  | none => .error (.notNumeric .asDecimal value.typeName)

/-- Writes an integer: into the value itself, or through its link into the host's cell. -/
def setInteger (value : Value) (n : Int32) : Except Defect (Value × HostCells) :=
  match value with
  | integer _ => .ok (integer n, cells)
  | linkedInteger id =>
    match links.writeInteger? cells id n with
    | some written => .ok (linkedInteger id, written)
    | none => .error .staleIntegerLink
  | other => .error (.notNumeric .setInteger other.typeName)

/-- Writes a decimal: into the value itself, or through its link into the host's cell. -/
def setDecimal (value : Value) (d : Decimal) : Except Defect (Value × HostCells) :=
  match value with
  | decimal _ => .ok (decimal d, cells)
  | linkedDecimal id =>
    match links.writeDecimal? cells id d with
    | some written => .ok (linkedDecimal id, written)
    | none => .error .staleDecimalLink
  | other => .error (.notNumeric .setDecimal other.typeName)

end
end Value
end ScriptHeap
