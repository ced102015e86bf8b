import ScriptHeap.Json.Reader

/-! How much each part of the engine reports. -/
namespace ScriptHeap

/-- How much is let through: a level lets through itself and everything graver. -/
inductive LogLevel where
  | off
  | error
  | warn
  | info
  | debug
  | trace
deriving DecidableEq, Repr

namespace LogLevel

def all : List LogLevel := [off, error, warn, info, debug, trace]

def name : LogLevel → String
  | off => "off"
  | error => "error"
  | warn => "warn"
  | info => "info"
  | debug => "debug"
  | trace => "trace"

/-- Higher is more talkative. -/
def verbosity : LogLevel → Nat
  | off => 0
  | error => 1
  | warn => 2
  | info => 3
  | debug => 4
  | trace => 5

def ofName? (name : String) : Option LogLevel := all.find? (·.name == name)

/-- A level is written as its name, or as an object that has the name for its only key and null for
its value. -/
def ofJson? : Json → Option LogLevel
  | .string (some name) => ofName? name
  | .object [(some name, .null)] => ofName? name
  | _ => none

end LogLevel

/-- The parts of the engine that report under a target of their own. -/
inductive Subsystem where
  | heap
  | chunk
  | classes
deriving DecidableEq, Repr

namespace Subsystem

def all : List Subsystem := [heap, chunk, classes]

def name : Subsystem → String
  | heap => "heap"
  | chunk => "chunk"
  | classes => "class"

def target (subsystem : Subsystem) : String := "kiln::" ++ subsystem.name

end Subsystem

/-- A level for everything, and levels of their own for the subsystems that want one. -/
structure LogConfig where
  overall : LogLevel
  heap : Option LogLevel
  chunk : Option LogLevel
  classes : Option LogLevel
deriving DecidableEq, Repr

namespace LogConfig

def default : LogConfig := ⟨.info, none, none, none⟩

instance : Inhabited LogConfig := ⟨default⟩

def ownLevel (config : LogConfig) : Subsystem → Option LogLevel
  | .heap => config.heap
  | .chunk => config.chunk
  | .classes => config.classes

/-- A subsystem without a level of its own follows the overall one. -/
def levelFor (config : LogConfig) (subsystem : Subsystem) : LogLevel :=
  (config.ownLevel subsystem).getD config.overall

def ofJson? (json : Json) : Option LogConfig :=
  if json.isRecord 4 then do
    let own := Json.nullable? LogLevel.ofJson?
    let overall ← json.field? 0 "global" default.overall LogLevel.ofJson?
    let heap ← json.field? 1 "heap" default.heap own
    let chunk ← json.field? 2 "chunk" default.chunk own
    let classes ← json.field? 3 "class" default.classes own
    some { overall, heap, chunk, classes }
  else none

/-- Reads a configuration from JSON text. -/
def read? (text : String) : Option LogConfig := (Json.read? text).bind ofJson?

private def writeOwn : Option LogLevel → String
  | some level => "\"" ++ level.name ++ "\""
  | none => "null"

/-- The fields in order, without blanks. -/
def write (config : LogConfig) : String :=
  "\x7b\"global\":\"" ++ config.overall.name ++ "\",\"heap\":" ++ writeOwn config.heap
    ++ ",\"chunk\":" ++ writeOwn config.chunk ++ ",\"class\":" ++ writeOwn config.classes ++ "\x7d"

end LogConfig
end ScriptHeap
