import Mathlib.Data.List.Induction
import ScriptHeap.Log.Filter

/-! What a configuration lets through, for any target. A target that begins with that of a subsystem goes by
the level of the subsystem, own or inherited, and every other target by the overall level. No target begins
with those of two subsystems, so nothing hangs on the order in which they are given their levels. -/
namespace ScriptHeap

/-! ## The most specific directive -/

namespace LogFilter

/-- The longer one of the best directive so far and another. -/
def moreSpecific (best : Option LogDirective) (directive : LogDirective) : Option LogDirective :=
  match best with
  | some found => if found.target.length < directive.target.length then some directive else best
  | none => some directive

theorem mostSpecific?_eq_foldl (filter : LogFilter) (target : String) :
    filter.mostSpecific? target =
      (filter.directives.filter (covers · target)).foldl moreSpecific none := rfl

/-- A directive among some that is at least as long as each of them. -/
def Longest (directives : List LogDirective) (directive : LogDirective) : Prop :=
  directive ∈ directives ∧ ∀ other ∈ directives, other.target.length ≤ directive.target.length

theorem foldl_moreSpecific_cases (directives : List LogDirective) :
    (directives = [] ∧ directives.foldl moreSpecific none = none) ∨
      ∃ directive, directives.foldl moreSpecific none = some directive ∧ Longest directives directive := by
  induction directives using List.reverseRecOn with
  | nil => exact .inl ⟨rfl, rfl⟩
  | append_singleton directives last ih =>
    right
    rw [List.foldl_append, List.foldl_cons, List.foldl_nil]
    rcases ih with ⟨rfl, none⟩ | ⟨best, found, listed, longest⟩
    · rw [none]
      exact ⟨last, rfl, by simp, by simp⟩
    · rw [found, moreSpecific]
      split
      · next longer =>
        refine ⟨last, rfl, by simp, fun other member => ?_⟩
        rcases List.mem_append.1 member with sooner | own
        · exact Nat.le_trans (longest other sooner) (Nat.le_of_lt longer)
        · exact Nat.le_of_eq (by rw [List.mem_singleton.1 own])
      · next shorter =>
        refine ⟨best, rfl, by simp [listed], fun other member => ?_⟩
        rcases List.mem_append.1 member with sooner | own
        · exact longest other sooner
        · rw [List.mem_singleton.1 own]
          exact Nat.le_of_not_lt shorter

/-- The most specific directive is the longest of those that cover the target, and there is one as soon as
any covers it. -/
theorem mostSpecific?_cases (filter : LogFilter) (target : String) :
    (filter.mostSpecific? target = none ∧ ∀ directive ∈ filter.directives, ¬ covers directive target) ∨
      ∃ directive, filter.mostSpecific? target = some directive ∧
        Longest (filter.directives.filter (covers · target)) directive := by
  rw [mostSpecific?_eq_foldl]
  rcases foldl_moreSpecific_cases (filter.directives.filter (covers · target)) with ⟨empty, none⟩ | found
  · exact .inl ⟨none, List.filter_eq_nil_iff.1 empty⟩
  · exact .inr found

theorem covers_iff {directive : LogDirective} {target : String} :
    covers directive target = true ↔ ∃ rest, target = directive.target ++ rest := by
  rw [covers, List.isPrefixOf_iff_prefix]
  constructor
  · rintro ⟨rest, split⟩
    refine ⟨String.ofList rest, String.toList_inj.1 ?_⟩
    rw [String.toList_append, String.toList_ofList, split]
  · rintro ⟨rest, rfl⟩
    exact ⟨rest.toList, String.toList_append.symm⟩

theorem enables_iff {filter : LogFilter} {target : String} {severity : Severity} :
    filter.enables target severity = true ↔
      severity.level.verbosity ≤ (filter.levelAt target).verbosity := by
  rw [enables, decide_eq_true_eq]

end LogFilter

/-! ## Targets of subsystems -/

namespace Subsystem

/-- The target is that of the subsystem, or goes on from there. -/
def Begins (subsystem : Subsystem) (target : String) : Prop := ∃ rest, target = subsystem.target ++ rest

theorem mem_all (subsystem : Subsystem) : subsystem ∈ all := by
  cases subsystem <;> decide

theorem eq_of_front {one other : Subsystem} (front : one.target.toList <+: other.target.toList) :
    one = other := by
  cases one <;> cases other <;> first | rfl | exact absurd front (by decide)

theorem target_inj {one other : Subsystem} (same : one.target = other.target) : one = other :=
  eq_of_front (same ▸ List.prefix_refl _)

/-- No target begins with those of two subsystems. -/
theorem Begins.unique {one other : Subsystem} {target : String} (first : one.Begins target)
    (second : other.Begins target) : one = other := by
  obtain ⟨rest, rfl⟩ := first
  obtain ⟨more, same⟩ := second
  have front : one.target.toList <+: (one.target ++ rest).toList :=
    ⟨rest.toList, String.toList_append.symm⟩
  have front' : other.target.toList <+: (one.target ++ rest).toList :=
    ⟨more.toList, by rw [same, String.toList_append]⟩
  rcases List.prefix_or_prefix_of_prefix front front' with shorter | shorter
  · exact eq_of_front shorter
  · exact (eq_of_front shorter).symm

end Subsystem

/-! ## The filter of a configuration -/

namespace LogConfig

/-- The filter with a directive for each of these subsystems, given one after another. -/
def filterFor (config : LogConfig) (order : List Subsystem) : LogFilter :=
  order.foldl (fun filter subsystem => filter.direct ⟨subsystem.target, config.levelFor subsystem⟩)
    ⟨config.overall, []⟩

theorem ofConfig_eq_filterFor (config : LogConfig) :
    LogFilter.ofConfig config = config.filterFor Subsystem.all := rfl

theorem filterFor_concat (config : LogConfig) (order : List Subsystem) (last : Subsystem) :
    config.filterFor (order ++ [last]) =
      (config.filterFor order).direct ⟨last.target, config.levelFor last⟩ := by
  rw [filterFor, List.foldl_append]
  rfl

theorem overall_filterFor (config : LogConfig) (order : List Subsystem) :
    (config.filterFor order).overall = config.overall := by
  induction order using List.reverseRecOn with
  | nil => rfl
  | append_singleton order last ih => rw [filterFor_concat, LogFilter.direct, ih]

/-- There is one directive for each of the subsystems, whichever of them came first or came twice. -/
theorem mem_directives_filterFor {config : LogConfig} {order : List Subsystem} {directive : LogDirective} :
    directive ∈ (config.filterFor order).directives ↔
      ∃ subsystem ∈ order, directive = ⟨subsystem.target, config.levelFor subsystem⟩ := by
  induction order using List.reverseRecOn with
  | nil => simp [filterFor]
  | append_singleton order last ih =>
    rw [filterFor_concat, LogFilter.direct]
    simp only [List.mem_append, List.mem_filter, List.mem_singleton, ih, bne_iff_ne]
    constructor
    · rintro (⟨⟨subsystem, listed, rfl⟩, -⟩ | rfl)
      · exact ⟨subsystem, .inl listed, rfl⟩
      · exact ⟨last, .inr rfl, rfl⟩
    · rintro ⟨subsystem, listed, rfl⟩
      by_cases same : subsystem = last
      · exact .inr (by rw [same])
      · exact .inl ⟨⟨subsystem, listed.resolve_right same, rfl⟩, fun alike => same (Subsystem.target_inj alike)⟩

variable {config : LogConfig} {order : List Subsystem} {subsystem : Subsystem} {target : String}

/-- Either no subsystem that has its level begins the target, or the most specific directive is the one of
a subsystem that does. -/
theorem mostSpecific?_filterFor_cases (config : LogConfig) (order : List Subsystem) (target : String) :
    ((config.filterFor order).mostSpecific? target = none ∧
        ∀ subsystem ∈ order, ¬ subsystem.Begins target) ∨
      ∃ subsystem, subsystem.Begins target ∧ (config.filterFor order).mostSpecific? target =
        some ⟨subsystem.target, config.levelFor subsystem⟩ := by
  rcases (config.filterFor order).mostSpecific?_cases target with ⟨none, uncovered⟩ | ⟨found, best, member, -⟩
  · refine .inl ⟨none, fun subsystem listed begins => ?_⟩
    have directed : ⟨subsystem.target, config.levelFor subsystem⟩ ∈ (config.filterFor order).directives :=
      mem_directives_filterFor.2 ⟨subsystem, listed, rfl⟩
    exact uncovered _ directed (LogFilter.covers_iff.2 begins)
  · obtain ⟨present, covers⟩ := List.mem_filter.1 member
    obtain ⟨subsystem, -, rfl⟩ := mem_directives_filterFor.1 present
    exact .inr ⟨subsystem, LogFilter.covers_iff.1 covers, best⟩

theorem levelAt_of_begins (listed : subsystem ∈ order) (begins : subsystem.Begins target) :
    (config.filterFor order).levelAt target = config.levelFor subsystem := by
  rw [LogFilter.levelAt]
  rcases config.mostSpecific?_filterFor_cases order target with ⟨-, foreign⟩ | ⟨other, begins', best⟩
  · exact absurd begins (foreign subsystem listed)
  · rw [best, begins'.unique begins]
    rfl

theorem levelAt_of_foreign (foreign : ∀ subsystem : Subsystem, ¬ subsystem.Begins target) :
    (config.filterFor order).levelAt target = config.overall := by
  rw [LogFilter.levelAt]
  rcases config.mostSpecific?_filterFor_cases order target with ⟨none, -⟩ | ⟨other, begins, -⟩
  · rw [none, overall_filterFor]
    rfl
  · exact absurd begins (foreign other)

/-- Once every subsystem has its level, it does not matter in which order they were given. -/
theorem levelAt_filterFor (complete : ∀ subsystem, subsystem ∈ order) (target : String) :
    (config.filterFor order).levelAt target = (LogFilter.ofConfig config).levelAt target := by
  rw [ofConfig_eq_filterFor]
  by_cases foreign : ∀ subsystem : Subsystem, ¬ subsystem.Begins target
  · rw [levelAt_of_foreign foreign, levelAt_of_foreign foreign]
  · obtain ⟨subsystem, begins⟩ := Classical.not_forall_not.1 foreign
    rw [levelAt_of_begins (complete subsystem) begins, levelAt_of_begins subsystem.mem_all begins]

/-- The configuration with a level of its own for a subsystem, or with none. -/
def withOwn (config : LogConfig) (level? : Option LogLevel) : Subsystem → LogConfig
  | .heap => { config with heap := level? }
  | .chunk => { config with chunk := level? }
  | .classes => { config with classes := level? }

theorem overall_withOwn (config : LogConfig) (level? : Option LogLevel) (subsystem : Subsystem) :
    (config.withOwn level? subsystem).overall = config.overall := by
  cases subsystem <;> rfl

theorem levelFor_withOwn (config : LogConfig) (level? : Option LogLevel) (subsystem other : Subsystem) :
    (config.withOwn level? subsystem).levelFor other =
      if other = subsystem then level?.getD config.overall else config.levelFor other := by
  cases subsystem <;> cases other <;> rfl

/-- A filter hangs only on the levels that apply. -/
theorem ofConfig_congr {one other : LogConfig} (overall : one.overall = other.overall)
    (levels : one.levelFor = other.levelFor) : LogFilter.ofConfig one = LogFilter.ofConfig other := by
  rw [LogFilter.ofConfig, LogFilter.ofConfig, overall, levels]

end LogConfig

/-- **Levels by subsystem.** The filter of a configuration lets an event through exactly if its severity is
within the level of the subsystem that its target begins with, and within the overall level if it begins with
none; there is never more than one. The subsystems may be given their levels in any order, and one that is
given the overall level is as good as one without a level of its own. -/
theorem levels_bySubsystem (config : LogConfig) (target : String) :
    (∀ (subsystem : Subsystem) (rest : String), target = "kiln::" ++ subsystem.name ++ rest →
      ∀ severity, (LogFilter.ofConfig config).enables target severity = true ↔
        severity.level.verbosity ≤ (config.levelFor subsystem).verbosity) ∧
    ((∀ (subsystem : Subsystem) (rest : String), target ≠ "kiln::" ++ subsystem.name ++ rest) →
      ∀ severity, (LogFilter.ofConfig config).enables target severity = true ↔
        severity.level.verbosity ≤ config.overall.verbosity) ∧
    (∀ (one other : Subsystem) (rest more : String), target = "kiln::" ++ one.name ++ rest →
      target = "kiln::" ++ other.name ++ more → one = other) ∧
    (∀ order : List Subsystem, (∀ subsystem, subsystem ∈ order) → ∀ severity,
      (config.filterFor order).enables target severity =
        (LogFilter.ofConfig config).enables target severity) ∧
    ∀ subsystem : Subsystem, LogFilter.ofConfig (config.withOwn (some config.overall) subsystem) =
      LogFilter.ofConfig (config.withOwn none subsystem) := by
  refine ⟨?_, ?_, ?_, ?_, ?_⟩
  · intro subsystem rest begins severity
    rw [LogFilter.enables_iff, LogConfig.ofConfig_eq_filterFor,
      LogConfig.levelAt_of_begins subsystem.mem_all ⟨rest, begins⟩]
  · intro foreign severity
    rw [LogFilter.enables_iff, LogConfig.ofConfig_eq_filterFor,
      LogConfig.levelAt_of_foreign fun subsystem ⟨rest, begins⟩ => foreign subsystem rest begins]
  · intro one other rest more first second
    exact Subsystem.Begins.unique ⟨rest, first⟩ ⟨more, second⟩
  · intro order complete severity
    rw [LogFilter.enables, LogConfig.levelAt_filterFor complete, LogFilter.enables]
  · intro subsystem
    refine LogConfig.ofConfig_congr ?_ (funext fun other => ?_)
    · rw [LogConfig.overall_withOwn, LogConfig.overall_withOwn]
    · rw [LogConfig.levelFor_withOwn, LogConfig.levelFor_withOwn]
      rfl

/-- The overall level, levels of their own for two subsystems, and one that inherits. -/
def mixedLevels : LogConfig := ⟨.warn, some .trace, some .off, none⟩

/-- Targets that go on where that of a subsystem ends, and one that ends a letter too soon. -/
theorem levels_nearMisses :
    (LogFilter.ofConfig mixedLevels).enables "kiln::heapsort" .trace = true ∧
      (LogFilter.ofConfig mixedLevels).enables "kiln::chunk" .error = false ∧
      (LogFilter.ofConfig mixedLevels).enables "kiln::class::parent" .info = false ∧
      (LogFilter.ofConfig mixedLevels).enables "kiln::hea" .warn = true ∧
      (mixedLevels.filterFor [.classes, .heap, .chunk, .heap]).enables "kiln::heapsort" .trace = true := by
  obtain ⟨heap, -, -, orders, -⟩ := levels_bySubsystem mixedLevels "kiln::heapsort"
  have chunk := (levels_bySubsystem mixedLevels "kiln::chunk").1 .chunk "" rfl .error
  have classes := (levels_bySubsystem mixedLevels "kiln::class::parent").1 .classes "::parent" rfl .info
  have sorted := (heap .heap "sort" rfl .trace).2 (by decide)
  have foreign : ∀ (subsystem : Subsystem) (rest : String), "kiln::hea" ≠ "kiln::" ++ subsystem.name ++ rest := by
    intro subsystem rest same
    have lengths := congrArg String.length same
    rw [String.length_append] at lengths
    have shorter : "kiln::hea".length < ("kiln::" ++ subsystem.name).length := by
      cases subsystem <;> decide
    omega
  refine ⟨sorted, ?_, ?_, ?_, ?_⟩
  · exact Bool.eq_false_iff.2 fun enabled => absurd (chunk.1 enabled) (by decide)
  · exact Bool.eq_false_iff.2 fun enabled => absurd (classes.1 enabled) (by decide)
  · exact ((levels_bySubsystem mixedLevels "kiln::hea").2.1 foreign .warn).2 (by decide)
  · rw [orders _ fun subsystem => by cases subsystem <;> decide]
    exact sorted

end ScriptHeap
