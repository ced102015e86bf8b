import ScriptHeap.Settings

/-! Settings over runs of calls. The configuration is set by the first call that brings one, and the logger by
the first call that comes to installing one; later calls change neither. One call may come to both, and then
it sets the configuration even if it fails, since a logger is already there. -/
namespace ScriptHeap

/-- The filter of the installed logger. -/
def Settings.filter? (settings : Settings) : Option LogFilter := settings.gate?.map (·.filter)

/-- What a host may do to the settings of the process. -/
inductive SettingsCall where
  | init (config : Config)
  | initWithLogger (config : Config)
  | initLogger
  | installLogger (log : LogConfig)
  /-- To ask which subsystems' debugging events are wanted. -/
  | ask

namespace SettingsCall

def perform (call : SettingsCall) (settings : Settings) : Except SettingsError Unit × Settings :=
  match call with
  | init config => settings.init config
  | initWithLogger config => settings.initWithLogger config
  | initLogger => settings.initLogger
  | installLogger log => settings.installLogger log
  | ask => (.ok (), settings.afterAsking)

/-- The settings once these calls have been made. -/
def after (settings : Settings) (calls : List SettingsCall) : Settings :=
  calls.foldl (fun settings call => (call.perform settings).2) settings

def run (calls : List SettingsCall) : Settings := after .fresh calls

theorem run_append (calls later : List SettingsCall) : run (calls ++ later) = after (run calls) later :=
  List.foldl_append

/-! ## What calls bring -/

/-- The configuration that a call brings. -/
def offer? : SettingsCall → Option Config
  | init config | initWithLogger config => some config
  | initLogger | installLogger _ | ask => none

/-- The configuration of the first call that brings one. -/
def firstOffer? (calls : List SettingsCall) : Option Config := calls.findSome? offer?

/-- The log configuration with which a call comes to installing a logger. A call that brings a configuration
when there is one does not come that far, and one that brings nothing goes by what is there. -/
def request? (config? : Option Config) : SettingsCall → Option LogConfig
  | initWithLogger config => if config?.isNone then some config.log else none
  | initLogger => some (config?.getD .default).log
  | installLogger log => some log
  | init _ | ask => none

/-- The log configurations with which calls come to installing a logger, one after another. -/
def requestsFrom (config? : Option Config) : List SettingsCall → List LogConfig
  | [] => []
  | call :: calls => (call.request? config?).toList ++ requestsFrom (config?.or call.offer?) calls

def requests (calls : List SettingsCall) : List LogConfig := requestsFrom none calls

/-! ## One call -/

section
variable {settings : Settings} {call : SettingsCall} {config : Config} {log : LogConfig}

theorem config?_installLogger (settings : Settings) (log : LogConfig) :
    (settings.installLogger log).2.config? = settings.config? := by
  rw [Settings.installLogger]
  split <;> rfl

/-- The first logger stays, also when a later one is refused. -/
theorem filter?_installLogger (settings : Settings) (log : LogConfig) :
    (settings.installLogger log).2.filter? = settings.filter?.or (some (.ofConfig log)) := by
  rw [Settings.installLogger, Settings.filter?, Settings.filter?]
  split
  · next absent =>
    rw [absent]
    rfl
  · next gate held =>
    rw [held]
    rfl

/-- Installing fails just where a logger is there. -/
theorem outcome_installLogger (settings : Settings) (log : LogConfig) :
    (settings.installLogger log).1 =
      if settings.filter?.isSome then .error .loggerInstalled else .ok () := by
  rw [Settings.installLogger, Settings.filter?]
  split
  · next absent =>
    rw [absent]
    rfl
  · next gate held =>
    rw [held]
    rfl

/-- A configuration that comes too late is refused, and nothing else happens. -/
theorem perform_late (brings : call.offer? = some config) (late : settings.config?.isSome = true) :
    call.perform settings = (.error .alreadyInitialized, settings) := by
  obtain ⟨held, there⟩ := Option.isSome_iff_exists.1 late
  cases call with
  | init => rw [perform, Settings.init, there]
  | initWithLogger => rw [perform, Settings.initWithLogger, Settings.init, there]
  | _ => cases brings

/-- A call that comes to installing a logger does so when its configuration is set. -/
theorem perform_request (asks : call.request? settings.config? = some log) :
    call.perform settings =
      { settings with config? := settings.config?.or call.offer? }.installLogger log := by
  cases call with
  | initWithLogger config =>
    rw [request?] at asks
    split at asks
    · next unset =>
      cases asks
      rw [perform, Settings.initWithLogger, Settings.init, Option.isNone_iff_eq_none.1 unset]
      rfl
    · cases asks
  | initLogger =>
    cases asks
    rw [offer?, Option.or_none]
    rfl
  | installLogger log =>
    cases asks
    rw [offer?, Option.or_none]
    rfl
  | _ => cases asks

/-- A call that does not come to installing a logger leaves the filter. -/
theorem perform_quiet (quiet : call.request? settings.config? = none) :
    (call.perform settings).2.config? = settings.config?.or call.offer? ∧
      (call.perform settings).2.filter? = settings.filter? := by
  by_cases late : settings.config?.isSome = true ∧ call.offer?.isSome = true
  · obtain ⟨config, brings⟩ := Option.isSome_iff_exists.1 late.2
    rw [perform_late brings late.1, Option.or_of_isSome late.1]
    exact ⟨rfl, rfl⟩
  · cases call with
    | init config =>
      have unset : settings.config? = none := by simpa [offer?] using late
      rw [perform, Settings.init, unset]
      exact ⟨rfl, rfl⟩
    | initWithLogger config =>
      have unset : settings.config? = none := by simpa [offer?] using late
      rw [request?, unset] at quiet
      cases quiet
    | ask =>
      rw [offer?, Option.or_none, Settings.filter?, Settings.filter?]
      refine ⟨rfl, ?_⟩
      simp [perform, Settings.afterAsking, Function.comp_def]
    | _ => cases quiet

/-- A call brings its configuration where there is none. -/
theorem config?_perform (settings : Settings) (call : SettingsCall) :
    (call.perform settings).2.config? = settings.config?.or call.offer? := by
  cases asks : call.request? settings.config? with
  | none => exact (perform_quiet asks).1
  | some log => rw [perform_request asks, config?_installLogger]

/-- A call that comes to installing a logger gives the filter where there is none. -/
theorem filter?_perform (settings : Settings) (call : SettingsCall) :
    (call.perform settings).2.filter? =
      settings.filter?.or ((call.request? settings.config?).map .ofConfig) := by
  cases asks : call.request? settings.config? with
  | none => rw [(perform_quiet asks).2, Option.map_none, Option.or_none]
  | some log =>
    rw [perform_request asks, filter?_installLogger]
    rfl

end

/-! ## Runs -/

theorem config?_after (settings : Settings) (calls : List SettingsCall) :
    (after settings calls).config? = settings.config?.or (firstOffer? calls) := by
  induction calls generalizing settings with
  | nil => exact (Option.or_none ..).symm
  | cons call calls ih =>
    have first : firstOffer? (call :: calls) = call.offer?.or (firstOffer? calls) := by
      rw [firstOffer?, List.findSome?_cons]
      cases call.offer? <;> rfl
    rw [first, ← Option.or_assoc, ← config?_perform]
    exact ih (call.perform settings).2

theorem filter?_after (settings : Settings) (calls : List SettingsCall) :
    (after settings calls).filter? =
      settings.filter?.or ((requestsFrom settings.config? calls).head?.map .ofConfig) := by
  induction calls generalizing settings with
  | nil => exact (Option.or_none ..).symm
  | cons call calls ih =>
    have first : (requestsFrom settings.config? (call :: calls)).head? =
        (call.request? settings.config?).or
          (requestsFrom (call.perform settings).2.config? calls).head? := by
      rw [requestsFrom, List.head?_append, Option.head?_toList, config?_perform]
    rw [first, Option.map_or, ← Option.or_assoc, ← filter?_perform]
    exact ih (call.perform settings).2

theorem config?_run (calls : List SettingsCall) : (run calls).config? = firstOffer? calls :=
  config?_after .fresh calls

theorem filter?_run (calls : List SettingsCall) :
    (run calls).filter? = (requests calls).head?.map .ofConfig :=
  filter?_after .fresh calls

/-- **Each cell is written once.** After any calls the configuration in force is that of the first call that
brought one, and the default as long as there is none; the filter is that of the first call that came to
installing a logger, by the log configuration of that call. Neither changes any more, whatever else is called.
A call that brings a configuration to where there is one is refused and does nothing; one that comes first
sets it, also when it goes on to a logger and finds one installed. -/
theorem cells_run (calls : List SettingsCall) :
    let settings := run calls
    settings.config? = firstOffer? calls ∧
    settings.isInitialized = (firstOffer? calls).isSome ∧
    settings.configOrDefault = (firstOffer? calls).getD .default ∧
    settings.newHeap = .ofConfig ((firstOffer? calls).getD .default).heap ∧
    settings.filter? = (requests calls).head?.map .ofConfig ∧
    (∀ later,
      (∀ config, settings.config? = some config → (run (calls ++ later)).config? = some config) ∧
      ∀ filter, settings.filter? = some filter → (run (calls ++ later)).filter? = some filter) ∧
    (∀ (call : SettingsCall) (config : Config), call.offer? = some config →
      (firstOffer? calls).isSome = true →
        call.perform settings = (.error .alreadyInitialized, settings)) ∧
    (∀ config, firstOffer? calls = none →
      settings.init config = (.ok (), { settings with config? := some config }) ∧
      (settings.initWithLogger config).2.config? = some config) ∧
    ∀ (call : SettingsCall) (log : LogConfig), call.request? (firstOffer? calls) = some log →
      (call.perform settings).1 =
        if (requests calls).isEmpty then .ok () else .error .loggerInstalled := by
  intro settings
  have held : settings.config? = firstOffer? calls := config?_run calls
  have filtered : settings.filter? = (requests calls).head?.map .ofConfig := filter?_run calls
  refine ⟨held, ?_, ?_, ?_, filtered, ?_, ?_, ?_, ?_⟩
  · rw [Settings.isInitialized, held]
  · rw [Settings.configOrDefault, held]
  · rw [Settings.newHeap, Settings.configOrDefault, held]
  · intro later
    rw [run_append, config?_after, filter?_after]
    exact ⟨fun config there => by rw [there, Option.some_or], fun filter there => by rw [there, Option.some_or]⟩
  · intro call config brings late
    exact perform_late brings (by rwa [held])
  · intro config unset
    have free : settings.config? = none := held.trans unset
    constructor
    · rw [Settings.init, free]
    · have set := config?_perform settings (.initWithLogger config)
      rwa [free, Option.none_or] at set
  · intro call log asks
    rw [← held] at asks
    rw [perform_request asks, outcome_installLogger]
    have there : ({ settings with config? := settings.config?.or call.offer? } : Settings).filter?.isSome =
        !(requests calls).isEmpty := by
      have same : ({ settings with config? := settings.config?.or call.offer? } : Settings).filter? =
        settings.filter? := rfl
      rw [same, filtered]
      cases requests calls <;> rfl
    rw [there]
    cases (requests calls).isEmpty <;> rfl

/-- A few objects, and not a word about them. -/
def quiet : Config := ⟨{ HeapConfig.default with maxObjectCount := 8 }, ⟨.off, none, none, none⟩⟩

/-- A call that finds a logger installed sets the configuration and fails. The one after it is refused, and
the logger goes by the default to the end. -/
theorem cells_halfDone :
    let calls := [.ask, .initLogger, .initWithLogger quiet]
    ((run [.ask, .initLogger]).initWithLogger quiet).1 = .error .loggerInstalled ∧
      ((run [.ask, .initLogger]).initWithLogger quiet).2.config? = some quiet ∧
      (run calls).newHeap = .ofConfig quiet.heap ∧
      (run calls).initWithLogger .default = (.error .alreadyInitialized, run calls) ∧
      (run (calls ++ [.ask, .init .default, .installLogger quiet.log])).config? = some quiet ∧
      (run (calls ++ [.ask, .init .default, .installLogger quiet.log])).filter? =
        some (.ofConfig .default) := by
  intro calls
  obtain ⟨-, -, -, -, -, -, -, sets, answers⟩ := cells_run [.ask, .initLogger]
  obtain ⟨config, -, -, heap, filter, stays, refused, -, -⟩ := cells_run calls
  obtain ⟨configStays, filterStays⟩ := stays [.ask, .init .default, .installLogger quiet.log]
  exact ⟨answers (.initWithLogger quiet) quiet.log rfl, (sets quiet rfl).2, heap,
    refused (.initWithLogger .default) .default rfl rfl, configStays quiet config,
    filterStays (.ofConfig .default) filter⟩

end SettingsCall
end ScriptHeap
