import ScriptHeap.Heap.Basic
import ScriptHeap.Log.Gate

/-! Settings of the whole process. The configuration and the logger are set at most once each, and a
configuration that is not set has a default. -/
namespace ScriptHeap

structure Config where
  heap : HeapConfig
  log : LogConfig
deriving DecidableEq, Repr

def Config.default : Config := ⟨.default, .default⟩

instance : Inhabited Config := ⟨.default⟩

/-- The two cells. -/
structure Settings where
  config? : Option Config
  gate? : Option LogGate
deriving DecidableEq, Repr

inductive SettingsError where
  | alreadyInitialized
  | loggerInstalled
deriving DecidableEq, Repr

def SettingsError.message : SettingsError → String
  | alreadyInitialized => "config already initialized"
  | loggerInstalled => "a logger is already installed"

namespace Settings

/-- Nothing has been set yet. -/
def fresh : Settings := ⟨none, none⟩

def isInitialized (settings : Settings) : Bool := settings.config?.isSome

def configOrDefault (settings : Settings) : Config := settings.config?.getD .default

/-- A heap with the process's own limits. -/
def newHeap (settings : Settings) : Heap := .ofConfig settings.configOrDefault.heap

/-- Sets the configuration. -/
def init (settings : Settings) (config : Config) : Except SettingsError Unit × Settings :=
  match settings.config? with
  | none => (.ok (), { settings with config? := some config })
  | some _ => (.error .alreadyInitialized, settings)

/-- Installs a logger that follows a log configuration. -/
def installLogger (settings : Settings) (log : LogConfig) : Except SettingsError Unit × Settings :=
  match settings.gate? with
  | none => (.ok (), { settings with gate? := some (.ofFilter (.ofConfig log)) })
  | some gate =>
    (.error .loggerInstalled, { settings with gate? := some (gate.refuse (.ofConfig log)) })

/-- Installs a logger that follows the process's own configuration. -/
def initLogger (settings : Settings) : Except SettingsError Unit × Settings :=
  settings.installLogger settings.configOrDefault.log

/-- Sets the configuration and then installs its logger. The configuration stays set when a logger is
already there. -/
def initWithLogger (settings : Settings) (config : Config) : Except SettingsError Unit × Settings :=
  match settings.init config with
  | (.ok (), initialized) => initialized.installLogger config.log
  | refused => refused

/-- Whether a subsystem's debugging events are wanted. -/
def isEnabled (settings : Settings) (subsystem : Subsystem) : Bool :=
  settings.gate?.any (·.wants subsystem)

/-- The settings once the subsystems have been asked after. -/
def afterAsking (settings : Settings) : Settings :=
  { settings with gate? := settings.gate?.map (·.settle) }

end Settings
end ScriptHeap
