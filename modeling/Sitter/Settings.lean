/-
# `Sitter.Settings` — the cached settings of the server

Every setting is read from an option's text the first time it is asked for and
then kept in a member of the server; `clear_cache` forgets it when
fluid-settings announces a new value.

The three `error_report_*_priority` options hold a pair `priority[,span]` and
are read by three near-copies of one routine.  `PriorityOption` is what the
copies differ in, `PriorityOption.load` the routine; low and medium are this
routine at their own values.  Critical is not:

    three or more pieces     low, medium: the third is ignored
                             critical: `return false`, that is priority 0 for
                             this call, with the defaults left in the cache
    a priority out of range  low, medium: the bound it crossed
                             critical: the default

A text such as `","` has no piece at all; `prio_span[0]` is then read past the
end of an empty list.  A getter that does so has no value (`none`).
-/
import Sitter.Server

namespace Sitter

namespace Server

/-! ## The statistics settings -/

def minimumStatisticsFrequency : Int := 60
def defaultStatisticsFrequency : Int := 60
def minimumStatisticsPeriod : Int := 3600
def defaultStatisticsPeriod : Int := 604800
def roundStatisticsPeriod : Int := 3600
def defaultStatisticsTtl : Int := 604800
def minimumStatisticsTtl : Int := 3600
def defaultErrorReportSettleTime : Int := 300
def minimumErrorReportSettleTime : Int := 60

/-- A duration in seconds; a text that is none, and a negative one, give the
default. -/
def readDuration (lib : Advgetopt) (text : String) (default : Int) : Int :=
  match lib.duration text with
  | none => default
  | some duration => if secondsOf duration < 0 then default else secondsOf duration

/-- `get_statistics_frequency` -/
def getStatisticsFrequency (lib : Advgetopt) (s : Server) : Int × Server :=
  if s.statisticsFrequency ≤ 0 then
    let frequency := readDuration lib (s.opts.getString "statistics_frequency")
      defaultStatisticsFrequency
    let s := { s with statisticsFrequency := max minimumStatisticsFrequency frequency }
    (s.statisticsFrequency, s)
  else (s.statisticsFrequency, s)

/-- The period rounded up to a whole number of hours. -/
def roundPeriod (period : Int) : Int :=
  (int64 (period + (roundStatisticsPeriod - 1))).tdiv roundStatisticsPeriod * roundStatisticsPeriod

/-- `get_statistics_period` -/
def getStatisticsPeriod (lib : Advgetopt) (s : Server) : Int × Server :=
  if s.statisticsPeriod ≤ 0 then
    let period := readDuration lib (s.opts.getString "statistics_period") defaultStatisticsPeriod
    let s := { s with statisticsPeriod := roundPeriod (max minimumStatisticsPeriod period) }
    (s.statisticsPeriod, s)
  else (s.statisticsPeriod, s)

/-- `get_statistics_ttl` -/
def getStatisticsTtl (lib : Advgetopt) (s : Server) : Int × Server :=
  if s.statisticsTtl < 0 then
    let text := s.opts.getString "statistics_ttl"
    let s :=
      if text = "off" then { s with statisticsTtl := 0 }
      else if text = "use-period" then
        let period := getStatisticsPeriod lib s
        { period.2 with statisticsTtl := period.1 }
      else
        let ttl := readDuration lib text defaultStatisticsTtl
        { s with statisticsTtl := max minimumStatisticsTtl ttl }
    (s.statisticsTtl, s)
  else (s.statisticsTtl, s)

/-! ## The settle time -/

/-- `get_error_report_settle_time`.  A text that is not a duration leaves the
cache empty: the getter then returns -1. -/
def getErrorReportSettleTime (lib : Advgetopt) (s : Server) : Int × Server :=
  if s.errorReportSettleTime < 0 then
    match lib.duration (s.opts.getString "error_report_settle_time") with
    | none => (s.errorReportSettleTime, s)
    | some duration =>
        let seconds := secondsOf duration
        let settleTime := if seconds < 0 then defaultErrorReportSettleTime else seconds
        let s := { s with
          errorReportSettleTime := max minimumErrorReportSettleTime settleTime }
        (s.errorReportSettleTime, s)
  else (s.errorReportSettleTime, s)

end Server

/-! ## Priorities and spans -/

/-- What the options of the three levels differ in. -/
structure PriorityOption where
  name : String
  defaultPriority : Int
  minimumPriority : Int
  maximumPriority : Int
  /-- what a priority below the minimum becomes -/
  belowMinimum : Int
  /-- what a priority above the maximum becomes -/
  aboveMaximum : Int
  defaultSpan : Int
  minimumSpan : Int
  /-- a span that is replaced by the default -/
  rejectsSpan : Int → Bool

namespace PriorityOption

def low : PriorityOption where
  name := "error_report_low_priority"
  defaultPriority := 10
  minimumPriority := 1
  maximumPriority := 50
  belowMinimum := 1
  aboveMaximum := 50
  defaultSpan := 604800
  minimumSpan := 86400
  rejectsSpan span := span ≤ 0

def medium : PriorityOption where
  name := "error_report_medium_priority"
  defaultPriority := 50
  minimumPriority := 10
  maximumPriority := 90
  belowMinimum := 10
  aboveMaximum := 90
  defaultSpan := 259200
  minimumSpan := 3600
  rejectsSpan span := span < 0

def critical : PriorityOption where
  name := "error_report_critical_priority"
  defaultPriority := 90
  minimumPriority := 1
  maximumPriority := 100
  belowMinimum := 90
  aboveMaximum := 90
  defaultSpan := 86400
  minimumSpan := 300
  rejectsSpan span := span < 0

variable (o : PriorityOption) (lib : Advgetopt)

/-- The first piece. -/
def readPriority (text : String) : Int :=
  match lib.integer text with
  | none => o.defaultPriority
  | some priority =>
      if priority < o.minimumPriority then o.belowMinimum
      else if priority > o.maximumPriority then o.aboveMaximum
      else priority

/-- The second piece. -/
def readSpan (text : String) : Int :=
  match lib.duration text with
  | none => o.defaultSpan
  | some duration =>
      if o.rejectsSpan (secondsOf duration) then o.defaultSpan
      else if secondsOf duration < o.minimumSpan then o.minimumSpan
      else secondsOf duration

/-- The span of a list of pieces, when there is a second one with something in
it. -/
def spanOf (pieces : List String) : Int :=
  match pieces[1]? with
  | none => o.defaultSpan
  | some text => if text = "" then o.defaultSpan else o.readSpan lib text

/-- The pair an option's text stands for. -/
def load (text : String) : Option (Int × Int) :=
  if text = "" then some (o.defaultPriority, o.defaultSpan)
  else
    let pieces := lib.splitString text [","]
    pieces[0]?.map fun first => (o.readPriority lib first, o.spanOf lib pieces)

end PriorityOption

namespace Server

variable (lib : Advgetopt)

/-- `get_error_report_low_priority` -/
def getErrorReportLowPriority (s : Server) : Option (Int × Server) :=
  if s.errorReportLowPriority < 0 then
    (PriorityOption.low.load lib (s.opts.getString PriorityOption.low.name)).map fun pair =>
      (pair.1, { s with errorReportLowPriority := pair.1, errorReportLowSpan := pair.2 })
  else some (s.errorReportLowPriority, s)

/-- `get_error_report_low_span` -/
def getErrorReportLowSpan (s : Server) : Option (Int × Server) :=
  (s.getErrorReportLowPriority lib).map fun r => (r.2.errorReportLowSpan, r.2)

/-- `get_error_report_medium_priority` -/
def getErrorReportMediumPriority (s : Server) : Option (Int × Server) :=
  if s.errorReportMediumPriority < 0 then
    (PriorityOption.medium.load lib (s.opts.getString PriorityOption.medium.name)).map fun pair =>
      (pair.1, { s with errorReportMediumPriority := pair.1, errorReportMediumSpan := pair.2 })
  else some (s.errorReportMediumPriority, s)

/-- `get_error_report_medium_span` -/
def getErrorReportMediumSpan (s : Server) : Option (Int × Server) :=
  (s.getErrorReportMediumPriority lib).map fun r => (r.2.errorReportMediumSpan, r.2)

/-- `get_error_report_critical_priority` -/
def getErrorReportCriticalPriority (s : Server) : Option (Int × Server) :=
  if s.errorReportCriticalPriority < 0 then
    let o := PriorityOption.critical
    let text := s.opts.getString o.name
    if text ≠ "" ∧ (lib.splitString text [","]).length > 2 then
      -- `return false`: the defaults are in the cache by now
      some (0, { s with
        errorReportCriticalPriority := o.defaultPriority
        errorReportCriticalSpan := o.defaultSpan })
    else
      (o.load lib text).map fun pair =>
        (pair.1, { s with
          errorReportCriticalPriority := pair.1
          errorReportCriticalSpan := pair.2 })
  else some (s.errorReportCriticalPriority, s)

/-- `get_error_report_critical_span` -/
def getErrorReportCriticalSpan (s : Server) : Option (Int × Server) :=
  (s.getErrorReportCriticalPriority lib).map fun r => (r.2.errorReportCriticalSpan, r.2)

/-- `clear_cache` -/
def clearCache (s : Server) (name : String) : Server :=
  match name with
  | "error-report-settle-time" => { s with errorReportSettleTime := -1 }
  | "error-report-low-priority" =>
      { s with errorReportLowPriority := -1, errorReportLowSpan := -1 }
  | "error-report-medium-priority" =>
      { s with errorReportMediumPriority := -1, errorReportMediumSpan := -1 }
  | "error-report-critical-priority" =>
      { s with errorReportCriticalPriority := -1, errorReportCriticalSpan := -1 }
  | "statistics-frequency" => { s with statisticsFrequency := -1 }
  -- the TTL may make use of the statistics period
  | "statistics-period" => { s with statisticsPeriod := -1, statisticsTtl := -1 }
  | "statistics-ttl" => { s with statisticsTtl := -1 }
  | _ => s

end Server

/-! ## What a priority option can give

The pieces of an option are clamped, or replaced by a default, so what comes
out is in range for every text. -/

/-- The constants of an option fit together. -/
structure PriorityOption.Sane (o : PriorityOption) : Prop where
  positive : 0 < o.minimumPriority
  default_low : o.minimumPriority ≤ o.defaultPriority
  default_high : o.defaultPriority ≤ o.maximumPriority
  below_low : o.minimumPriority ≤ o.belowMinimum
  below_high : o.belowMinimum ≤ o.maximumPriority
  above_low : o.minimumPriority ≤ o.aboveMaximum
  above_high : o.aboveMaximum ≤ o.maximumPriority
  span_default : o.minimumSpan ≤ o.defaultSpan
  span_fits : o.defaultSpan < 2 ^ 63

theorem low_sane : PriorityOption.low.Sane := by constructor <;> decide
theorem medium_sane : PriorityOption.medium.Sane := by constructor <;> decide
theorem critical_sane : PriorityOption.critical.Sane := by constructor <;> decide

/-- A priority and a span an option may hold. -/
structure PriorityOption.Holds (o : PriorityOption) (pair : Int × Int) : Prop where
  priority_low : o.minimumPriority ≤ pair.1
  priority_high : pair.1 ≤ o.maximumPriority
  span_low : o.minimumSpan ≤ pair.2
  span_fits : pair.2 < 2 ^ 63

section Load

variable {o : PriorityOption} (lib : Advgetopt)

theorem defaults_hold (ho : o.Sane) : o.Holds (o.defaultPriority, o.defaultSpan) :=
  ⟨ho.default_low, ho.default_high, ho.span_default, ho.span_fits⟩

theorem readPriority_range (ho : o.Sane) (text : String) :
    o.minimumPriority ≤ o.readPriority lib text ∧ o.readPriority lib text ≤ o.maximumPriority := by
  simp only [PriorityOption.readPriority]
  split
  · exact ⟨ho.default_low, ho.default_high⟩
  · split
    · exact ⟨ho.below_low, ho.below_high⟩
    · split
      · exact ⟨ho.above_low, ho.above_high⟩
      · next hlo hhi => exact ⟨Int.not_lt.mp hlo, Int.not_lt.mp hhi⟩

theorem readSpan_range (ho : o.Sane) (text : String) :
    o.minimumSpan ≤ o.readSpan lib text ∧ o.readSpan lib text < 2 ^ 63 := by
  have hdefault := ho.span_fits
  simp only [PriorityOption.readSpan]
  split
  · exact ⟨ho.span_default, hdefault⟩
  · next duration _ =>
      have hfits := secondsOf_lt duration
      split
      · exact ⟨ho.span_default, hdefault⟩
      · split
        · exact ⟨le_refl _, lt_of_le_of_lt ho.span_default hdefault⟩
        · next hlo => exact ⟨Int.not_lt.mp hlo, hfits⟩

theorem spanOf_range (ho : o.Sane) (pieces : List String) :
    o.minimumSpan ≤ o.spanOf lib pieces ∧ o.spanOf lib pieces < 2 ^ 63 := by
  simp only [PriorityOption.spanOf]
  split
  · exact ⟨ho.span_default, ho.span_fits⟩
  · split
    · exact ⟨ho.span_default, ho.span_fits⟩
    · exact readSpan_range lib ho _

variable {lib}

/-- **Whatever the text, the pair that is loaded is in range.** -/
theorem load_holds (ho : o.Sane) {text : String} {pair : Int × Int}
    (h : o.load lib text = some pair) : o.Holds pair := by
  simp only [PriorityOption.load] at h
  split at h
  · cases h
    exact defaults_hold ho
  · obtain ⟨first, -, rfl⟩ := Option.map_eq_some_iff.mp h
    have hpriority := readPriority_range lib ho first
    have hspan := spanOf_range lib ho (lib.splitString text [","])
    exact ⟨hpriority.1, hpriority.2, hspan.1, hspan.2⟩

end Load

/-! ## The pairs behind the getters

A getter returns a member of the pair its option stands for and leaves that
pair in the cache.  The pair only depends on the option's text and on the
option's own cache. -/

/-- The pair a getter of low or medium goes by: what is cached, else what the
option's text stands for. -/
def PriorityOption.pair (o : PriorityOption) (lib : Advgetopt) (s : Server)
    (cached : Int × Int) : Option (Int × Int) :=
  if cached.1 < 0 then o.load lib (s.opts.getString o.name) else some cached

namespace Server

variable (lib : Advgetopt)

def lowPair (s : Server) : Option (Int × Int) :=
  PriorityOption.low.pair lib s (s.errorReportLowPriority, s.errorReportLowSpan)

def mediumPair (s : Server) : Option (Int × Int) :=
  PriorityOption.medium.pair lib s (s.errorReportMediumPriority, s.errorReportMediumSpan)

/-- What the critical getter returns, and the pair it leaves in the cache. -/
def criticalRead (s : Server) : Option (Int × Int × Int) :=
  if s.errorReportCriticalPriority < 0 then
    if s.opts.getString PriorityOption.critical.name ≠ "" ∧
        (lib.splitString (s.opts.getString PriorityOption.critical.name) [","]).length > 2 then
      some (0, PriorityOption.critical.defaultPriority, PriorityOption.critical.defaultSpan)
    else
      (PriorityOption.critical.load lib (s.opts.getString PriorityOption.critical.name)).map
        fun pair => (pair.1, pair)
  else some (s.errorReportCriticalPriority, s.errorReportCriticalPriority,
    s.errorReportCriticalSpan)

def cacheLow (s : Server) (pair : Int × Int) : Server :=
  { s with errorReportLowPriority := pair.1, errorReportLowSpan := pair.2 }

def cacheMedium (s : Server) (pair : Int × Int) : Server :=
  { s with errorReportMediumPriority := pair.1, errorReportMediumSpan := pair.2 }

def cacheCritical (s : Server) (pair : Int × Int) : Server :=
  { s with errorReportCriticalPriority := pair.1, errorReportCriticalSpan := pair.2 }

variable {lib}

theorem getLow_eq (s : Server) :
    s.getErrorReportLowPriority lib = (s.lowPair lib).map fun pair => (pair.1, s.cacheLow pair) := by
  simp only [getErrorReportLowPriority, lowPair, PriorityOption.pair, cacheLow]
  split <;> rfl

theorem getMedium_eq (s : Server) :
    s.getErrorReportMediumPriority lib =
      (s.mediumPair lib).map fun pair => (pair.1, s.cacheMedium pair) := by
  simp only [getErrorReportMediumPriority, mediumPair, PriorityOption.pair, cacheMedium]
  split <;> rfl

theorem getCritical_eq (s : Server) :
    s.getErrorReportCriticalPriority lib =
      (s.criticalRead lib).map fun r => (r.1, s.cacheCritical r.2) := by
  simp only [getErrorReportCriticalPriority, criticalRead, cacheCritical]
  split
  · split
    · rfl
    · rw [Option.map_map]
      rfl
  · rfl

/-! What the getters return, without the server after them. -/

theorem getLow_fst (s : Server) :
    (s.getErrorReportLowPriority lib).map Prod.fst = (s.lowPair lib).map Prod.fst := by
  rw [getLow_eq, Option.map_map]
  rfl

theorem getLowSpan_fst (s : Server) :
    (s.getErrorReportLowSpan lib).map Prod.fst = (s.lowPair lib).map Prod.snd := by
  rw [getErrorReportLowSpan, getLow_eq, Option.map_map, Option.map_map]
  rfl

theorem getMedium_fst (s : Server) :
    (s.getErrorReportMediumPriority lib).map Prod.fst = (s.mediumPair lib).map Prod.fst := by
  rw [getMedium_eq, Option.map_map]
  rfl

theorem getMediumSpan_fst (s : Server) :
    (s.getErrorReportMediumSpan lib).map Prod.fst = (s.mediumPair lib).map Prod.snd := by
  rw [getErrorReportMediumSpan, getMedium_eq, Option.map_map, Option.map_map]
  rfl

theorem getCritical_fst (s : Server) :
    (s.getErrorReportCriticalPriority lib).map Prod.fst = (s.criticalRead lib).map Prod.fst := by
  rw [getCritical_eq, Option.map_map]
  rfl

theorem getCriticalSpan_fst (s : Server) :
    (s.getErrorReportCriticalSpan lib).map Prod.fst =
      (s.criticalRead lib).map fun r => r.2.2 := by
  rw [getErrorReportCriticalSpan, getCritical_eq, Option.map_map, Option.map_map]
  rfl

/-- The priority that is returned is the one that is cached, or 0. -/
theorem criticalRead_priority {s : Server} {r : Int × Int × Int}
    (h : s.criticalRead lib = some r) : r.1 = r.2.1 ∨ r.1 = 0 := by
  simp only [criticalRead] at h
  split at h
  · split at h
    · cases h
      exact Or.inr rfl
    · obtain ⟨pair, -, rfl⟩ := Option.map_eq_some_iff.mp h
      exact Or.inl rfl
  · cases h
    exact Or.inl rfl

/-! A pair that was just cached is the one a getter finds, or reads again. -/

theorem pair_again {o : PriorityOption} {s s' : Server} {cached pair : Int × Int}
    (hopts : s'.opts = s.opts) (h : o.pair lib s cached = some pair) :
    o.pair lib s' pair = some pair := by
  simp only [PriorityOption.pair] at h ⊢
  by_cases hneg : pair.1 < 0
  · have hcached : cached.1 < 0 := by
      by_contra hcached
      rw [if_neg hcached] at h
      cases h
      exact hcached hneg
    rw [if_pos hcached] at h
    rw [if_pos hneg, hopts]
    exact h
  · rw [if_neg hneg]

theorem lowPair_cacheLow {s : Server} {pair : Int × Int} (h : s.lowPair lib = some pair) :
    (s.cacheLow pair).lowPair lib = some pair :=
  pair_again rfl h

theorem mediumPair_cacheMedium {s : Server} {pair : Int × Int}
    (h : s.mediumPair lib = some pair) : (s.cacheMedium pair).mediumPair lib = some pair :=
  pair_again rfl h

theorem criticalRead_cacheCritical {s : Server} {r : Int × Int × Int}
    (h : s.criticalRead lib = some r) :
    ∃ priority, (s.cacheCritical r.2).criticalRead lib = some (priority, r.2) := by
  by_cases hneg : r.2.1 < 0
  · have hs : s.errorReportCriticalPriority < 0 := by
      by_contra hcached
      rw [criticalRead, if_neg hcached] at h
      cases h
      exact hcached hneg
    refine ⟨r.1, ?_⟩
    rw [criticalRead, if_pos hs] at h
    rw [criticalRead, if_pos (show (s.cacheCritical r.2).errorReportCriticalPriority < 0 from hneg)]
    exact h
  · refine ⟨r.2.1, ?_⟩
    rw [criticalRead,
      if_neg (show ¬ (s.cacheCritical r.2).errorReportCriticalPriority < 0 from hneg)]
    rfl

end Server

/-! ## The caches stay in range

A cache is filled by a getter or emptied, and a getter fills it with what it
has clamped. -/

/-- A cached pair is one its option may hold; a negative priority is an empty
cache. -/
def PriorityOption.Caches (o : PriorityOption) (priority span : Int) : Prop :=
  0 ≤ priority → o.Holds (priority, span)

theorem caches_empty (o : PriorityOption) (span : Int) : o.Caches (-1) span :=
  fun h => absurd h (by decide)

structure Server.SettingsOk (s : Server) : Prop where
  low : PriorityOption.low.Caches s.errorReportLowPriority s.errorReportLowSpan
  medium : PriorityOption.medium.Caches s.errorReportMediumPriority s.errorReportMediumSpan
  critical : PriorityOption.critical.Caches s.errorReportCriticalPriority s.errorReportCriticalSpan

namespace Server

variable {lib : Advgetopt} {s : Server}

theorem create_settingsOk (opts : Options) : (create opts).SettingsOk :=
  ⟨caches_empty _ _, caches_empty _ _, caches_empty _ _⟩

theorem pair_holds {o : PriorityOption} (ho : o.Sane) {cached pair : Int × Int}
    (hcached : o.Caches cached.1 cached.2) (h : o.pair lib s cached = some pair) :
    o.Holds pair := by
  simp only [PriorityOption.pair] at h
  split at h
  · exact load_holds ho h
  · next hset =>
      cases h
      exact hcached (Int.not_lt.mp hset)

theorem SettingsOk.lowPair_holds (hs : s.SettingsOk) {pair : Int × Int}
    (h : s.lowPair lib = some pair) : PriorityOption.low.Holds pair :=
  pair_holds low_sane hs.low h

theorem SettingsOk.mediumPair_holds (hs : s.SettingsOk) {pair : Int × Int}
    (h : s.mediumPair lib = some pair) : PriorityOption.medium.Holds pair :=
  pair_holds medium_sane hs.medium h

theorem SettingsOk.criticalRead_holds (hs : s.SettingsOk) {r : Int × Int × Int}
    (h : s.criticalRead lib = some r) : PriorityOption.critical.Holds r.2 := by
  simp only [criticalRead] at h
  split at h
  · split at h
    · cases h
      exact defaults_hold critical_sane
    · obtain ⟨pair, hload, rfl⟩ := Option.map_eq_some_iff.mp h
      exact load_holds critical_sane hload
  · next hcached =>
      cases h
      exact hs.critical (Int.not_lt.mp hcached)

theorem SettingsOk.cacheLow (hs : s.SettingsOk) {pair : Int × Int}
    (h : PriorityOption.low.Holds pair) : (s.cacheLow pair).SettingsOk :=
  ⟨fun _ => h, hs.medium, hs.critical⟩

theorem SettingsOk.cacheMedium (hs : s.SettingsOk) {pair : Int × Int}
    (h : PriorityOption.medium.Holds pair) : (s.cacheMedium pair).SettingsOk :=
  ⟨hs.low, fun _ => h, hs.critical⟩

theorem SettingsOk.cacheCritical (hs : s.SettingsOk) {pair : Int × Int}
    (h : PriorityOption.critical.Holds pair) : (s.cacheCritical pair).SettingsOk :=
  ⟨hs.low, hs.medium, fun _ => h⟩

theorem SettingsOk.clearCache (hs : s.SettingsOk) (name : String) :
    (s.clearCache name).SettingsOk := by
  simp only [Server.clearCache]
  split
  case h_2 => exact ⟨caches_empty _ _, hs.medium, hs.critical⟩
  case h_3 => exact ⟨hs.low, caches_empty _ _, hs.critical⟩
  case h_4 => exact ⟨hs.low, hs.medium, caches_empty _ _⟩
  all_goals exact ⟨hs.low, hs.medium, hs.critical⟩

end Server

/-! ## Runs of getters, changes and `clear_cache` -/

inductive SettingsCall where
  | statisticsFrequency
  | statisticsPeriod
  | statisticsTtl
  | lowPriority
  | mediumPriority
  | criticalPriority
  | settleTime
  | clearCache (name : String)
  /-- the options' texts change; the server is told by `clear_cache`, or not -/
  | change (opts : Options)

/-- One call; the output is what a getter returned.  A getter without a value
leaves the server as it was. -/
def settings (lib : Advgetopt) : Machine.Step Server SettingsCall (Option Int) := fun s call =>
  let answer (r : Option (Int × Server)) : Server × Option Int :=
    match r with
    | none => (s, none)
    | some (value, s') => (s', some value)
  match call with
  | .statisticsFrequency => answer (some (s.getStatisticsFrequency lib))
  | .statisticsPeriod => answer (some (s.getStatisticsPeriod lib))
  | .statisticsTtl => answer (some (s.getStatisticsTtl lib))
  | .lowPriority => answer (s.getErrorReportLowPriority lib)
  | .mediumPriority => answer (s.getErrorReportMediumPriority lib)
  | .criticalPriority => answer (s.getErrorReportCriticalPriority lib)
  | .settleTime => answer (some (s.getErrorReportSettleTime lib))
  | .clearCache name => (s.clearCache name, none)
  | .change opts => ({ s with opts := opts }, none)

section Getters

variable {lib : Advgetopt} {s : Server}

theorem frequency_settingsOk (hs : s.SettingsOk) : (s.getStatisticsFrequency lib).2.SettingsOk := by
  simp only [Server.getStatisticsFrequency]
  split <;> exact ⟨hs.low, hs.medium, hs.critical⟩

theorem period_settingsOk (lib : Advgetopt) (hs : s.SettingsOk) :
    (s.getStatisticsPeriod lib).2.SettingsOk := by
  simp only [Server.getStatisticsPeriod]
  split <;> exact ⟨hs.low, hs.medium, hs.critical⟩

theorem ttl_settingsOk (hs : s.SettingsOk) : (s.getStatisticsTtl lib).2.SettingsOk := by
  have hperiod := period_settingsOk lib hs
  simp only [Server.getStatisticsTtl]
  split
  · split
    · exact ⟨hs.low, hs.medium, hs.critical⟩
    · split
      · exact ⟨hperiod.low, hperiod.medium, hperiod.critical⟩
      · exact ⟨hs.low, hs.medium, hs.critical⟩
  · exact hs

theorem settleTime_settingsOk (hs : s.SettingsOk) :
    (s.getErrorReportSettleTime lib).2.SettingsOk := by
  simp only [Server.getErrorReportSettleTime]
  split
  · split <;> exact ⟨hs.low, hs.medium, hs.critical⟩
  · exact hs

end Getters

theorem settings_step {lib : Advgetopt} (s : Server) (call : SettingsCall) (hs : s.SettingsOk) :
    (settings lib s call).1.SettingsOk := by
  cases call with
  | statisticsFrequency => exact frequency_settingsOk hs
  | statisticsPeriod => exact period_settingsOk lib hs
  | statisticsTtl => exact ttl_settingsOk hs
  | lowPriority =>
      simp only [settings, Server.getLow_eq]
      cases h : s.lowPair lib with
      | none => exact hs
      | some pair => exact hs.cacheLow (hs.lowPair_holds h)
  | mediumPriority =>
      simp only [settings, Server.getMedium_eq]
      cases h : s.mediumPair lib with
      | none => exact hs
      | some pair => exact hs.cacheMedium (hs.mediumPair_holds h)
  | criticalPriority =>
      simp only [settings, Server.getCritical_eq]
      cases h : s.criticalRead lib with
      | none => exact hs
      | some r => exact hs.cacheCritical (hs.criticalRead_holds h)
  | settleTime => exact settleTime_settingsOk hs
  | clearCache name => exact hs.clearCache name
  | change opts => exact ⟨hs.low, hs.medium, hs.critical⟩

/-- **The caches are in range in every state a server gets into.** -/
theorem settings_final (lib : Advgetopt) (opts : Options) (calls : List SettingsCall) :
    (Machine.final (settings lib) (Server.create opts) calls).SettingsOk :=
  Machine.final_invariant (A := fun _ => True)
    (fun s call hs _ => settings_step s call hs) (Server.create_settingsOk opts)
    (fun _ _ => trivial)

end Sitter
