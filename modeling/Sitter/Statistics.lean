/-
# `Sitter.Statistics` — are the cached statistics settings up to date?

Three getters keep what they read.  The frequency and the period count as
cached when they are positive, the TTL when it is not negative: 0 is "off".
With `use-period` the TTL is a copy of the period, so a new period has to
empty two caches.

When fluid-settings announces a new value, advgetopt has the new text already
and the messenger passes the option's name, written with dashes, to
`clear_cache`.  `Server.Coherent` is what every call keeps: what is cached is
what a server with empty caches would read from the options of now.  Then a
getter cannot tell a cache from none (`statistics_coherent`).
-/
import Sitter.Settings

namespace Sitter

open Machine

/-! ## New values -/

/-- `option_with_dashes`: advgetopt takes `_` and `-` in an option's name for
the same. -/
def optionWithDashes (name : String) : String :=
  String.ofList (name.toList.map fun c => if c = '_' then '-' else c)

/-- The options after one of them was given a text. -/
def Options.assign (opts : Options) (name text : String) : Options where
  isDefined n := optionWithDashes n = optionWithDashes name || opts.isDefined n
  getString n := if optionWithDashes n = optionWithDashes name then text else opts.getString n

/-- What fluid-settings may announce. -/
inductive FluidSettingsStatus where
  | newValue
  | value
  | default
  | undefined
  | deleted
  | updated
  | registered
  | ready
  | timeout
  | unavailable
  deriving DecidableEq, Repr

namespace Server

/-- `messenger::fluid_settings_changed`.  `fluid_ready` starts a timer. -/
def fluidSettingsChanged (s : Server) (status : FluidSettingsStatus) (name : String) : Server :=
  match status with
  -- after a SET from another service
  | .newValue => s.clearCache name
  | _ => s

/-- An option is given a text and the server hears of it. -/
def newValue (s : Server) (name text : String) : Server :=
  { s with opts := s.opts.assign name text }.fluidSettingsChanged .newValue
    (optionWithDashes name)

end Server

inductive StatisticsCall where
  | frequency
  | period
  | ttl
  | newValue (name text : String)
  | clearCache (name : String)

/-- One call; the output is what a getter returned. -/
def statistics (lib : Advgetopt) : Step Server StatisticsCall (Option Int) := fun s call =>
  let answer (r : Int × Server) : Server × Option Int := (r.2, some r.1)
  match call with
  | .frequency => answer (s.getStatisticsFrequency lib)
  | .period => answer (s.getStatisticsPeriod lib)
  | .ttl => answer (s.getStatisticsTtl lib)
  | .newValue name text => (s.newValue name text, none)
  | .clearCache name => (s.clearCache name, none)

/-! ## What `clear_cache` empties -/

section ClearCache

variable (s : Server) (name : String)

theorem clearCache_opts : (s.clearCache name).opts = s.opts := by
  simp only [Server.clearCache]
  split <;> rfl

theorem clearCache_frequency :
    (s.clearCache name).statisticsFrequency =
      if name = "statistics-frequency" then -1 else s.statisticsFrequency := by
  simp only [Server.clearCache]
  split <;> simp_all

theorem clearCache_period :
    (s.clearCache name).statisticsPeriod =
      if name = "statistics-period" then -1 else s.statisticsPeriod := by
  simp only [Server.clearCache]
  split <;> simp_all

theorem clearCache_ttl :
    (s.clearCache name).statisticsTtl =
      if name = "statistics-period" ∨ name = "statistics-ttl" then -1 else s.statisticsTtl := by
  simp only [Server.clearCache]
  split <;> simp_all

end ClearCache

/-! ## A server with empty caches -/

section Fresh

variable (lib : Advgetopt)

def freshFrequency (opts : Options) : Int := ((Server.create opts).getStatisticsFrequency lib).1
def freshPeriod (opts : Options) : Int := ((Server.create opts).getStatisticsPeriod lib).1
def freshTtl (opts : Options) : Int := ((Server.create opts).getStatisticsTtl lib).1

variable {lib}

theorem freshFrequency_congr {opts opts' : Options}
    (h : opts.getString "statistics_frequency" = opts'.getString "statistics_frequency") :
    freshFrequency lib opts = freshFrequency lib opts' := by
  simp [freshFrequency, Server.getStatisticsFrequency, Server.create, h]

theorem freshPeriod_congr {opts opts' : Options}
    (h : opts.getString "statistics_period" = opts'.getString "statistics_period") :
    freshPeriod lib opts = freshPeriod lib opts' := by
  simp [freshPeriod, Server.getStatisticsPeriod, Server.create, h]

theorem freshTtl_eq (opts : Options) :
    freshTtl lib opts =
      if opts.getString "statistics_ttl" = "off" then 0
      else if opts.getString "statistics_ttl" = "use-period" then freshPeriod lib opts
      else max Server.minimumStatisticsTtl
        (Server.readDuration lib (opts.getString "statistics_ttl") Server.defaultStatisticsTtl) := by
  have hempty : (Server.create opts).statisticsTtl < 0 := Int.negSucc_lt_zero 0
  have hopts : (Server.create opts).opts = opts := rfl
  simp only [freshTtl, freshPeriod, Server.getStatisticsTtl, if_pos hempty, hopts]
  split
  · rfl
  · split <;> rfl

theorem freshTtl_congr {opts opts' : Options}
    (httl : opts.getString "statistics_ttl" = opts'.getString "statistics_ttl")
    (hperiod : opts.getString "statistics_period" = opts'.getString "statistics_period") :
    freshTtl lib opts = freshTtl lib opts' := by
  rw [freshTtl_eq, freshTtl_eq, httl, freshPeriod_congr hperiod]

theorem assign_getString_ne {opts : Options} {n name : String} (text : String)
    (h : optionWithDashes name ≠ optionWithDashes n) :
    (opts.assign name text).getString n = opts.getString n := by
  simp only [Options.assign, if_neg h.symm]

end Fresh

/-! ## Coherence

What is cached is what a server with empty caches reads from the options.  The
getters fill the caches with that, and new values empty them. -/

/-- Where something is cached, it is what would be read now. -/
structure Server.Coherent (lib : Advgetopt) (s : Server) : Prop where
  frequency : 0 < s.statisticsFrequency → s.statisticsFrequency = freshFrequency lib s.opts
  period : 0 < s.statisticsPeriod → s.statisticsPeriod = freshPeriod lib s.opts
  ttl : 0 ≤ s.statisticsTtl → s.statisticsTtl = freshTtl lib s.opts

section Coherent

variable {lib : Advgetopt} {s : Server}

theorem create_coherent (opts : Options) : (Server.create opts).Coherent lib :=
  ⟨nofun, nofun, nofun⟩

theorem getStatisticsFrequency_spec (hs : s.Coherent lib) :
    (s.getStatisticsFrequency lib).1 = freshFrequency lib s.opts ∧
      (s.getStatisticsFrequency lib).2.Coherent lib := by
  by_cases hcached : s.statisticsFrequency ≤ 0
  · have hvalue : (s.getStatisticsFrequency lib).1 = freshFrequency lib s.opts := by
      simp [freshFrequency, Server.getStatisticsFrequency, Server.create, hcached]
    refine ⟨hvalue, ?_⟩
    simp only [Server.getStatisticsFrequency, if_pos hcached] at hvalue ⊢
    exact ⟨fun _ => hvalue, hs.period, hs.ttl⟩
  · simp only [Server.getStatisticsFrequency, if_neg hcached]
    exact ⟨hs.frequency (Int.not_le.mp hcached), hs⟩

theorem getStatisticsPeriod_opts : (s.getStatisticsPeriod lib).2.opts = s.opts := by
  simp only [Server.getStatisticsPeriod]
  split <;> rfl

theorem getStatisticsPeriod_spec (hs : s.Coherent lib) :
    (s.getStatisticsPeriod lib).1 = freshPeriod lib s.opts ∧
      (s.getStatisticsPeriod lib).2.Coherent lib := by
  by_cases hcached : s.statisticsPeriod ≤ 0
  · have hvalue : (s.getStatisticsPeriod lib).1 = freshPeriod lib s.opts := by
      simp [freshPeriod, Server.getStatisticsPeriod, Server.create, hcached]
    refine ⟨hvalue, ?_⟩
    simp only [Server.getStatisticsPeriod, if_pos hcached] at hvalue ⊢
    exact ⟨hs.frequency, fun _ => hvalue, hs.ttl⟩
  · simp only [Server.getStatisticsPeriod, if_neg hcached]
    exact ⟨hs.period (Int.not_le.mp hcached), hs⟩

theorem getStatisticsTtl_spec (hs : s.Coherent lib) :
    (s.getStatisticsTtl lib).1 = freshTtl lib s.opts ∧
      (s.getStatisticsTtl lib).2.Coherent lib := by
  by_cases hcached : s.statisticsTtl < 0
  · obtain ⟨hperiod, hcoherent⟩ := getStatisticsPeriod_spec hs
    have hopts : (s.getStatisticsPeriod lib).2.opts = s.opts := getStatisticsPeriod_opts
    have hfresh : freshTtl lib s.opts = _ := freshTtl_eq s.opts
    simp only [Server.getStatisticsTtl, if_pos hcached]
    split
    · next hoff =>
        rw [if_pos hoff] at hfresh
        exact ⟨hfresh.symm, hs.frequency, hs.period, fun _ => hfresh.symm⟩
    · next hoff =>
        rw [if_neg hoff] at hfresh
        split
        · next huse =>
            -- the period fills its own cache on the way
            rw [if_pos huse, ← hperiod] at hfresh
            refine ⟨hfresh.symm, hcoherent.frequency, hcoherent.period, ?_⟩
            intro _
            rw [hopts]
            exact hfresh.symm
        · next huse =>
            rw [if_neg huse] at hfresh
            exact ⟨hfresh.symm, hs.frequency, hs.period, fun _ => hfresh.symm⟩
  · simp only [Server.getStatisticsTtl, if_neg hcached]
    exact ⟨hs.ttl (Int.not_lt.mp hcached), hs⟩

theorem Server.Coherent.clearCache (hs : s.Coherent lib) (name : String) :
    (s.clearCache name).Coherent lib := by
  have hempty : ¬ (0 : Int) < -1 ∧ ¬ (0 : Int) ≤ -1 := by decide
  refine ⟨?_, ?_, ?_⟩
  · rw [clearCache_frequency, clearCache_opts]
    split
    · exact fun h => absurd h hempty.1
    · exact hs.frequency
  · rw [clearCache_period, clearCache_opts]
    split
    · exact fun h => absurd h hempty.1
    · exact hs.period
  · rw [clearCache_ttl, clearCache_opts]
    split
    · exact fun h => absurd h hempty.2
    · exact hs.ttl

theorem Server.Coherent.newValue (hs : s.Coherent lib) (name text : String) :
    (s.newValue name text).Coherent lib := by
  have hempty : ¬ (0 : Int) < -1 ∧ ¬ (0 : Int) ≤ -1 := by decide
  have hkeep : ∀ {n dashed : String}, optionWithDashes n = dashed →
      ¬ optionWithDashes name = dashed →
      (s.opts.assign name text).getString n = s.opts.getString n := by
    intro n dashed hn hname
    exact assign_getString_ne text (hn ▸ hname)
  simp only [Server.newValue, Server.fluidSettingsChanged]
  refine ⟨?_, ?_, ?_⟩
  · rw [clearCache_frequency, clearCache_opts]
    split
    · exact fun h => absurd h hempty.1
    · next hname =>
        rw [freshFrequency_congr (hkeep (by decide) hname)]
        exact hs.frequency
  · rw [clearCache_period, clearCache_opts]
    split
    · exact fun h => absurd h hempty.1
    · next hname =>
        rw [freshPeriod_congr (hkeep (by decide) hname)]
        exact hs.period
  · rw [clearCache_ttl, clearCache_opts]
    split
    · exact fun h => absurd h hempty.2
    · next hname =>
        obtain ⟨hperiod, httl⟩ := not_or.mp hname
        rw [freshTtl_congr (hkeep (by decide) httl) (hkeep (by decide) hperiod)]
        exact hs.ttl

/-- Every call keeps the caches coherent. -/
theorem statistics_step (hs : s.Coherent lib) (call : StatisticsCall) :
    (statistics lib s call).1.Coherent lib := by
  cases call with
  | frequency => exact (getStatisticsFrequency_spec hs).2
  | period => exact (getStatisticsPeriod_spec hs).2
  | ttl => exact (getStatisticsTtl_spec hs).2
  | newValue name text => exact hs.newValue name text
  | clearCache name => exact hs.clearCache name

/-- A coherent server answers as one with empty caches does. -/
theorem statistics_output (hs : s.Coherent lib) (call : StatisticsCall) :
    (statistics lib s call).2 = (statistics lib (Server.create s.opts) call).2 := by
  cases call with
  | frequency => exact congrArg some (getStatisticsFrequency_spec hs).1
  | period => exact congrArg some (getStatisticsPeriod_spec hs).1
  | ttl => exact congrArg some (getStatisticsTtl_spec hs).1
  | newValue name text => rfl
  | clearCache name => rfl

/-- With `use-period` the TTL is the period. -/
theorem statistics_usePeriod (hs : s.Coherent lib)
    (huse : s.opts.getString "statistics_ttl" = "use-period") :
    (statistics lib s .ttl).2 = some (freshPeriod lib s.opts) := by
  have hoff : s.opts.getString "statistics_ttl" ≠ "off" := by
    rw [huse]
    decide
  have hfresh := (getStatisticsTtl_spec hs).1
  rw [freshTtl_eq, if_neg hoff, if_pos huse] at hfresh
  exact congrArg some hfresh

end Coherent

/-- **No getter ever returns a stale value**, in any order of getters, new
values and `clear_cache` calls, and with `use-period` the TTL follows the
period. -/
theorem statistics_coherent (lib : Advgetopt) (opts : Options) (calls : List StatisticsCall) :
    ∀ e ∈ trace (statistics lib) (Server.create opts) calls,
      e.output = (statistics lib (Server.create e.before.opts) e.input).2 ∧
        (e.input = .ttl → e.before.opts.getString "statistics_ttl" = "use-period" →
          e.output = some (freshPeriod lib e.before.opts)) := by
  refine trace_forall (I := fun s => s.Coherent lib) (A := fun _ => True) ?_
    (create_coherent opts) (fun _ _ => trivial)
  intro s call hs _
  refine ⟨statistics_step hs call, statistics_output hs call, ?_⟩
  rintro rfl huse
  exact statistics_usePeriod hs huse

/-- A server whose time to live was its period, a week, and the period a new
one. -/
def usePeriodServer : Server :=
  final (statistics .decimal) (Server.create Options.unset)
    [.newValue "statistics_ttl" "use-period", .ttl, .newValue "statistics_period" "7200"]

/-- Its time to live follows the period. -/
theorem statistics_coherent_use_period :
    (statistics .decimal usePeriodServer .ttl).2 =
        (statistics .decimal (Server.create usePeriodServer.opts) .ttl).2 ∧
      (statistics .decimal usePeriodServer .ttl).2 = some 7200 := by
  obtain ⟨hfresh, hperiod⟩ := statistics_coherent .decimal Options.unset
    [.newValue "statistics_ttl" "use-period", .ttl, .newValue "statistics_period" "7200", .ttl]
    (event (statistics .decimal) usePeriodServer .ttl)
    (List.mem_cons_of_mem _ (List.mem_cons_of_mem _ (List.mem_cons_of_mem _ List.mem_cons_self)))
  exact ⟨hfresh, (hperiod rfl rfl).trans (by decide)⟩

end Sitter
