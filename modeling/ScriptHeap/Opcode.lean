import ScriptHeap.Text.Hex

/-! The catalogue of opcodes: the closed set of instruction codes, their names and what they are for.
How operands are laid out and what executing one does is the interpreter's business. -/
namespace ScriptHeap

/-- What an instruction works on. -/
inductive OpGroup where
  | stack
  | literal
  | global
  | property
  | classes
  | control
  | arithmetic
  | bitwise
  | logical
  | comparison
  | collection
  | modules
  | value
  | debug
  | internal
deriving DecidableEq, Repr

def OpGroup.name : OpGroup → String
  | stack => "Stack"
  | literal => "Literal"
  | global => "Global"
  | property => "Property"
  | classes => "Class"
  | control => "Control"
  | arithmetic => "Arithmetic"
  | bitwise => "Bitwise"
  | logical => "Logical"
  | comparison => "Comparison"
  | collection => "Collection"
  | modules => "Module"
  | value => "Value"
  | debug => "Debug"
  | internal => "Internal"

inductive Opcode where
  | error
  | constant
  | defineGlobal
  | getProperty
  | setProperty
  | getGlobal
  | setGlobal
  | getLocal
  | setLocal
  | printStack
  | inherit
  | returnOp
  | method
  | classOp
  | call
  | super
  | invoke
  | jump
  | jumpIfFalse
  | jumpBack
  | pop
  | copy
  | add
  | subtract
  | multiply
  | divide
  | modulo
  | negate
  | increment
  | decrement
  | bitshiftLeft
  | bitshiftRight
  | null
  | trueOp
  | falseOp
  | bwNot
  | bwAnd
  | bwOr
  | bwXor
  | lgNot
  | lgAnd
  | lgOr
  | equal
  | equalNot
  | greater
  | greaterEqual
  | less
  | lessEqual
  | print
  | enum
  | saveValue
  | loadValue
  | withOp
  | getElement
  | setElement
  | newArray
  | newMap
  | switchTable
  | failsafe
  | event
  | typeof
  | new
  | importOp
  | switch
  | popn
  | hasProperty
  | importModule
  | sync
deriving DecidableEq, Repr

/-- A line of the catalogue. -/
structure OpcodeInfo where
  byte : UInt8
  name : String
  group : OpGroup
deriving DecidableEq, Repr

namespace Opcode

/-- The catalogue. Instructions are numbered without gaps from zero; the sentinel `sync` stands apart
at the greatest byte. -/
def info : Opcode → OpcodeInfo
  | error => ⟨0x00, "ERROR", .internal⟩
  | constant => ⟨0x01, "CONSTANT", .stack⟩
  | defineGlobal => ⟨0x02, "DEFINE_GLOBAL", .global⟩
  | getProperty => ⟨0x03, "GET_PROPERTY", .property⟩
  | setProperty => ⟨0x04, "SET_PROPERTY", .property⟩
  | getGlobal => ⟨0x05, "GET_GLOBAL", .global⟩
  | setGlobal => ⟨0x06, "SET_GLOBAL", .global⟩
  | getLocal => ⟨0x07, "GET_LOCAL", .stack⟩
  | setLocal => ⟨0x08, "SET_LOCAL", .stack⟩
  | printStack => ⟨0x09, "PRINT_STACK", .debug⟩
  | inherit => ⟨0x0A, "INHERIT", .classes⟩
  | returnOp => ⟨0x0B, "RETURN", .control⟩
  | method => ⟨0x0C, "METHOD", .classes⟩
  | classOp => ⟨0x0D, "CLASS", .classes⟩
  | call => ⟨0x0E, "CALL", .control⟩
  | super => ⟨0x0F, "SUPER", .classes⟩
  | invoke => ⟨0x10, "INVOKE", .classes⟩
  | jump => ⟨0x11, "JUMP", .control⟩
  | jumpIfFalse => ⟨0x12, "JUMP_IF_FALSE", .control⟩
  | jumpBack => ⟨0x13, "JUMP_BACK", .control⟩
  | pop => ⟨0x14, "POP", .stack⟩
  | copy => ⟨0x15, "COPY", .stack⟩
  | add => ⟨0x16, "ADD", .arithmetic⟩
  | subtract => ⟨0x17, "SUBTRACT", .arithmetic⟩
  | multiply => ⟨0x18, "MULTIPLY", .arithmetic⟩
  | divide => ⟨0x19, "DIVIDE", .arithmetic⟩
  | modulo => ⟨0x1A, "MODULO", .arithmetic⟩
  | negate => ⟨0x1B, "NEGATE", .arithmetic⟩
  | increment => ⟨0x1C, "INCREMENT", .arithmetic⟩
  | decrement => ⟨0x1D, "DECREMENT", .arithmetic⟩
  | bitshiftLeft => ⟨0x1E, "BITSHIFT_LEFT", .bitwise⟩
  | bitshiftRight => ⟨0x1F, "BITSHIFT_RIGHT", .bitwise⟩
  | null => ⟨0x20, "NULL", .literal⟩
  | trueOp => ⟨0x21, "TRUE", .literal⟩
  | falseOp => ⟨0x22, "FALSE", .literal⟩
  | bwNot => ⟨0x23, "BW_NOT", .bitwise⟩
  | bwAnd => ⟨0x24, "BW_AND", .bitwise⟩
  | bwOr => ⟨0x25, "BW_OR", .bitwise⟩
  | bwXor => ⟨0x26, "BW_XOR", .bitwise⟩
  | lgNot => ⟨0x27, "LG_NOT", .logical⟩
  | lgAnd => ⟨0x28, "LG_AND", .logical⟩
  | lgOr => ⟨0x29, "LG_OR", .logical⟩
  | equal => ⟨0x2A, "EQUAL", .comparison⟩
  | equalNot => ⟨0x2B, "EQUAL_NOT", .comparison⟩
  | greater => ⟨0x2C, "GREATER", .comparison⟩
  | greaterEqual => ⟨0x2D, "GREATER_EQUAL", .comparison⟩
  | less => ⟨0x2E, "LESS", .comparison⟩
  | lessEqual => ⟨0x2F, "LESS_EQUAL", .comparison⟩
  | print => ⟨0x30, "PRINT", .debug⟩
  | enum => ⟨0x31, "ENUM", .value⟩
  | saveValue => ⟨0x32, "SAVE_VALUE", .value⟩
  | loadValue => ⟨0x33, "LOAD_VALUE", .value⟩
  | withOp => ⟨0x34, "WITH", .value⟩
  | getElement => ⟨0x35, "GET_ELEMENT", .collection⟩
  | setElement => ⟨0x36, "SET_ELEMENT", .collection⟩
  | newArray => ⟨0x37, "NEW_ARRAY", .collection⟩
  | newMap => ⟨0x38, "NEW_MAP", .collection⟩
  | switchTable => ⟨0x39, "SWITCH_TABLE", .control⟩
  | failsafe => ⟨0x3A, "FAILSAFE", .internal⟩
  | event => ⟨0x3B, "EVENT", .internal⟩
  | typeof => ⟨0x3C, "TYPEOF", .value⟩
  | new => ⟨0x3D, "NEW", .classes⟩
  | importOp => ⟨0x3E, "IMPORT", .modules⟩
  | switch => ⟨0x3F, "SWITCH", .control⟩
  | popn => ⟨0x40, "POPN", .stack⟩
  | hasProperty => ⟨0x41, "HAS_PROPERTY", .property⟩
  | importModule => ⟨0x42, "IMPORT_MODULE", .modules⟩
  | sync => ⟨0xFF, "SYNC", .internal⟩

/-- Every opcode once, in order of its byte. -/
def all : List Opcode :=
  [error, constant, defineGlobal, getProperty, setProperty, getGlobal, setGlobal, getLocal,
    setLocal, printStack, inherit, returnOp, method, classOp, call, super, invoke, jump,
    jumpIfFalse, jumpBack, pop, copy, add, subtract, multiply, divide, modulo, negate, increment,
    decrement, bitshiftLeft, bitshiftRight, null, trueOp, falseOp, bwNot, bwAnd, bwOr, bwXor,
    lgNot, lgAnd, lgOr, equal, equalNot, greater, greaterEqual, less, lessEqual, print, enum,
    saveValue, loadValue, withOp, getElement, setElement, newArray, newMap, switchTable, failsafe,
    event, typeof, new, importOp, switch, popn, hasProperty, importModule, sync]

def byte (op : Opcode) : UInt8 := op.info.byte

def name (op : Opcode) : String := op.info.name

def group (op : Opcode) : OpGroup := op.info.group

/-- The sentinel is no instruction. -/
def isSentinel (op : Opcode) : Bool := op == sync

/-- The byte of the sentinel. -/
def syncByte : UInt8 := 0xFF

end Opcode

/-- A byte that encodes no opcode. -/
structure UnknownOpcode where
  byte : UInt8
deriving DecidableEq, Repr

def UnknownOpcode.message (unknown : UnknownOpcode) : String :=
  "unknown opcode " ++ Text.hex 2 unknown.byte.toNat

/-- The opcode that a byte encodes. -/
def Opcode.ofByte (byte : UInt8) : Except UnknownOpcode Opcode :=
  match all.find? (·.byte == byte) with
  | some op => .ok op
  | none => .error ⟨byte⟩

end ScriptHeap
