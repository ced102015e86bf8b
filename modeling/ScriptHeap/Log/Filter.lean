import ScriptHeap.Log.Event

/-! Which events are let through. A filter has directives for targets and their extensions, and the
most specific directive that covers a target decides. -/
namespace ScriptHeap

/-- A directive covers every target that begins with its own. -/
structure LogDirective where
  target : String
  level : LogLevel
deriving DecidableEq, Repr

structure LogFilter where
  overall : LogLevel
  directives : List LogDirective
deriving DecidableEq, Repr

namespace LogFilter

/-- Adds a directive in place of an earlier one for the same target. -/
def direct (filter : LogFilter) (directive : LogDirective) : LogFilter :=
  { filter with
    directives := filter.directives.filter (·.target != directive.target) ++ [directive] }

/-- The filter that a configuration describes. -/
def ofConfig (config : LogConfig) : LogFilter :=
  Subsystem.all.foldl
    (fun filter subsystem => filter.direct ⟨subsystem.target, config.levelFor subsystem⟩)
    ⟨config.overall, []⟩

/-- Whether a directive covers a target. -/
def covers (directive : LogDirective) (target : String) : Bool :=
  directive.target.toList.isPrefixOf target.toList

/-- The longest of the directives that cover a target. -/
def mostSpecific? (filter : LogFilter) (target : String) : Option LogDirective :=
  (filter.directives.filter (covers · target)).foldl
    (fun best directive =>
      match best with
      | some found => if found.target.length < directive.target.length then some directive else best
      | none => some directive)
    none

/-- The level that applies to a target. -/
def levelAt (filter : LogFilter) (target : String) : LogLevel :=
  ((filter.mostSpecific? target).map (·.level)).getD filter.overall

/-- Whether an event of a target and severity is let through. -/
def enables (filter : LogFilter) (target : String) (severity : Severity) : Bool :=
  severity.level.verbosity ≤ (filter.levelAt target).verbosity

/-- Whether events of a severity are let through for some target. -/
def reaches (filter : LogFilter) (severity : Severity) : Bool :=
  (filter.overall :: filter.directives.map (·.level)).any (severity.level.verbosity ≤ ·.verbosity)

def passes (filter : LogFilter) (event : Event) : Bool :=
  filter.enables event.target event.severity

end LogFilter
end ScriptHeap
