/-
# `Sitter.ErrorCoherence` — cached error-report settings and new values

`Statistics` is about the getters that cache one value each.  A priority and
its span are cached together, and emptied together: `clear_cache` knows the name
of the priority only, and there is no option of the span.

    what is cached      is what would be read now, for all seven settings
    what is returned    is what a server with empty caches returns

The second does not follow from the first for one getter.  A critical pair of
more than two pieces is 0 when it is read, but its default of 90 is what stays
in the cache, and what is returned from then on (`errorGetters_coherent`).
-/
import Sitter.ErrorSettings
import Sitter.Statistics

namespace Sitter

open Machine

inductive ErrorGetterCall where
  | get (g : ErrorSetting)
  | newValue (name text : String)
  | clearCache (name : String)

/-- One call; the output is what a getter returned. -/
def errorGetters (lib : Advgetopt) : Step Server ErrorGetterCall (Option Int) := fun s call =>
  match call with
  | .get g =>
      match g.read lib s with
      | none => (s, none)
      | some (value, s') => (s', some value)
  | .newValue name text => (s.newValue name text, none)
  | .clearCache name => (s.clearCache name, none)

/-- The text of the critical option has two pieces at most. -/
def CriticalPair (lib : Advgetopt) (opts : Options) : Prop :=
  opts.getString PriorityOption.critical.name = "" ∨
    (lib.splitString (opts.getString PriorityOption.critical.name) [","]).length ≤ 2

instance decCriticalPair (lib : Advgetopt) (opts : Options) : Decidable (CriticalPair lib opts) :=
  inferInstanceAs (Decidable (_ ∨ _))

/-! ## What a getter does

The six getters of pairs and the one of the settle time change their own cache
only.  The cases are listed once, and each fact about any getter goes over
them. -/

/-- A getter goes by a pair, which it leaves in the caches, and returns one of
the two. -/
inductive Reads (lib : Advgetopt) (s : Server) : ErrorSetting → Int → Server → Prop
  | settleTime : Reads lib s .settleTime (s.getErrorReportSettleTime lib).1
      (s.getErrorReportSettleTime lib).2
  | lowPriority {pair : Int × Int} (hpair : s.lowPair lib = some pair) :
      Reads lib s .lowPriority pair.1 (s.cacheLow pair)
  | lowSpan {pair : Int × Int} (hpair : s.lowPair lib = some pair) :
      Reads lib s .lowSpan pair.2 (s.cacheLow pair)
  | mediumPriority {pair : Int × Int} (hpair : s.mediumPair lib = some pair) :
      Reads lib s .mediumPriority pair.1 (s.cacheMedium pair)
  | mediumSpan {pair : Int × Int} (hpair : s.mediumPair lib = some pair) :
      Reads lib s .mediumSpan pair.2 (s.cacheMedium pair)
  | criticalPriority {r : Int × Int × Int} (hread : s.criticalRead lib = some r) :
      Reads lib s .criticalPriority r.1 (s.cacheCritical r.2)
  | criticalSpan {r : Int × Int × Int} (hread : s.criticalRead lib = some r) :
      Reads lib s .criticalSpan r.2.2 (s.cacheCritical r.2)

theorem reads_of_read {lib : Advgetopt} {s s' : Server} {g : ErrorSetting} {value : Int}
    (h : g.read lib s = some (value, s')) : Reads lib s g value s' := by
  cases g with
  | settleTime =>
      have hvalue : (s.getErrorReportSettleTime lib).1 = value :=
        congrArg Prod.fst (Option.some.inj h)
      have hserver : (s.getErrorReportSettleTime lib).2 = s' :=
        congrArg Prod.snd (Option.some.inj h)
      rw [← hvalue, ← hserver]
      exact .settleTime
  | lowPriority =>
      rw [ErrorSetting.read, Server.getLow_eq] at h
      obtain ⟨pair, hpair, heq⟩ := Option.map_eq_some_iff.mp h
      cases heq
      exact .lowPriority hpair
  | lowSpan =>
      rw [ErrorSetting.read, Server.getErrorReportLowSpan, Server.getLow_eq, Option.map_map] at h
      obtain ⟨pair, hpair, heq⟩ := Option.map_eq_some_iff.mp h
      cases heq
      exact .lowSpan hpair
  | mediumPriority =>
      rw [ErrorSetting.read, Server.getMedium_eq] at h
      obtain ⟨pair, hpair, heq⟩ := Option.map_eq_some_iff.mp h
      cases heq
      exact .mediumPriority hpair
  | mediumSpan =>
      rw [ErrorSetting.read, Server.getErrorReportMediumSpan, Server.getMedium_eq,
        Option.map_map] at h
      obtain ⟨pair, hpair, heq⟩ := Option.map_eq_some_iff.mp h
      cases heq
      exact .mediumSpan hpair
  | criticalPriority =>
      rw [ErrorSetting.read, Server.getCritical_eq] at h
      obtain ⟨r, hread, heq⟩ := Option.map_eq_some_iff.mp h
      cases heq
      exact .criticalPriority hread
  | criticalSpan =>
      rw [ErrorSetting.read, Server.getErrorReportCriticalSpan, Server.getCritical_eq,
        Option.map_map] at h
      obtain ⟨r, hread, heq⟩ := Option.map_eq_some_iff.mp h
      cases heq
      exact .criticalSpan hread

/-! ## What `clear_cache` empties -/

section ClearCache

variable (s : Server) (name : String)

theorem clearCache_settle :
    (s.clearCache name).errorReportSettleTime =
      if name = "error-report-settle-time" then -1 else s.errorReportSettleTime := by
  simp only [Server.clearCache]
  split <;> simp_all

theorem clearCache_low :
    ((s.clearCache name).errorReportLowPriority, (s.clearCache name).errorReportLowSpan) =
      if name = "error-report-low-priority" then (-1, -1)
      else (s.errorReportLowPriority, s.errorReportLowSpan) := by
  simp only [Server.clearCache]
  split <;> simp_all

theorem clearCache_medium :
    ((s.clearCache name).errorReportMediumPriority, (s.clearCache name).errorReportMediumSpan) =
      if name = "error-report-medium-priority" then (-1, -1)
      else (s.errorReportMediumPriority, s.errorReportMediumSpan) := by
  simp only [Server.clearCache]
  split <;> simp_all

theorem clearCache_critical :
    ((s.clearCache name).errorReportCriticalPriority,
        (s.clearCache name).errorReportCriticalSpan) =
      if name = "error-report-critical-priority" then (-1, -1)
      else (s.errorReportCriticalPriority, s.errorReportCriticalSpan) := by
  simp only [Server.clearCache]
  split <;> simp_all

end ClearCache

/-! ## A server with empty caches -/

section Fresh

variable (lib : Advgetopt)

def freshSettleTime (opts : Options) : Int :=
  ((Server.create opts).getErrorReportSettleTime lib).1

def freshLow (opts : Options) : Option (Int × Int) := (Server.create opts).lowPair lib
def freshMedium (opts : Options) : Option (Int × Int) := (Server.create opts).mediumPair lib

/-- The pair that the critical getter leaves in the cache. -/
def freshCritical (opts : Options) : Option (Int × Int) :=
  ((Server.create opts).criticalRead lib).map Prod.snd

variable {lib} {opts opts' : Options}

theorem freshSettleTime_congr
    (h : opts.getString "error_report_settle_time" = opts'.getString "error_report_settle_time") :
    freshSettleTime lib opts = freshSettleTime lib opts' := by
  simp only [freshSettleTime, Server.getErrorReportSettleTime, Server.create, h]
  cases lib.duration (opts'.getString "error_report_settle_time") <;> rfl

theorem freshLow_congr
    (h : opts.getString PriorityOption.low.name = opts'.getString PriorityOption.low.name) :
    freshLow lib opts = freshLow lib opts' := by
  simp only [freshLow, Server.lowPair, PriorityOption.pair, Server.create, h]
  rfl

theorem freshMedium_congr
    (h : opts.getString PriorityOption.medium.name = opts'.getString PriorityOption.medium.name) :
    freshMedium lib opts = freshMedium lib opts' := by
  simp only [freshMedium, Server.mediumPair, PriorityOption.pair, Server.create, h]
  rfl

theorem freshCritical_congr (h : opts.getString PriorityOption.critical.name =
    opts'.getString PriorityOption.critical.name) :
    freshCritical lib opts = freshCritical lib opts' := by
  simp only [freshCritical, Server.criticalRead, Server.create, h]
  rfl

end Fresh

/-! ## Coherence

A cache is empty or has what a server with empty caches would read.  The
critical getter is the exception: where its text has more than two pieces, its
first call returns another priority than the one that is cached. -/

/-- Where something is cached, it is what would be read now. -/
structure Server.ErrorCoherent (lib : Advgetopt) (s : Server) : Prop where
  settleTime : 0 ≤ s.errorReportSettleTime → freshSettleTime lib s.opts = s.errorReportSettleTime
  /-- a getter without a duration returns the mark of an empty cache -/
  unset : s.errorReportSettleTime < 0 → s.errorReportSettleTime = -1
  low : 0 ≤ s.errorReportLowPriority →
    freshLow lib s.opts = some (s.errorReportLowPriority, s.errorReportLowSpan)
  medium : 0 ≤ s.errorReportMediumPriority →
    freshMedium lib s.opts = some (s.errorReportMediumPriority, s.errorReportMediumSpan)
  critical : 0 ≤ s.errorReportCriticalPriority →
    freshCritical lib s.opts = some (s.errorReportCriticalPriority, s.errorReportCriticalSpan)

section Coherent

variable {lib : Advgetopt} {s : Server}

theorem create_errorCoherent (opts : Options) : (Server.create opts).ErrorCoherent lib :=
  ⟨nofun, fun _ => rfl, nofun, nofun, nofun⟩

theorem Server.ErrorCoherent.lowPair (hs : s.ErrorCoherent lib) :
    s.lowPair lib = freshLow lib s.opts := by
  by_cases hcached : s.errorReportLowPriority < 0
  · exact if_pos hcached
  · rw [hs.low (Int.not_lt.mp hcached)]
    exact if_neg hcached

theorem Server.ErrorCoherent.mediumPair (hs : s.ErrorCoherent lib) :
    s.mediumPair lib = freshMedium lib s.opts := by
  by_cases hcached : s.errorReportMediumPriority < 0
  · exact if_pos hcached
  · rw [hs.medium (Int.not_lt.mp hcached)]
    exact if_neg hcached

/-- A first call reads what a server with empty caches reads. -/
theorem criticalRead_first (hcached : s.errorReportCriticalPriority < 0) :
    s.criticalRead lib = (Server.create s.opts).criticalRead lib := by
  have hempty : (Server.create s.opts).errorReportCriticalPriority < 0 := Int.negSucc_lt_zero 0
  rw [Server.criticalRead, Server.criticalRead, if_pos hcached, if_pos hempty]
  rfl

theorem Server.ErrorCoherent.criticalPair (hs : s.ErrorCoherent lib) :
    (s.criticalRead lib).map Prod.snd = freshCritical lib s.opts := by
  by_cases hcached : s.errorReportCriticalPriority < 0
  · rw [criticalRead_first hcached]
    rfl
  · rw [hs.critical (Int.not_lt.mp hcached), Server.criticalRead, if_neg hcached]
    rfl

/-- With two pieces the priority that is returned is the one that is cached. -/
theorem criticalRead_two {opts : Options} (htwo : CriticalPair lib opts) :
    (Server.create opts).criticalRead lib = (freshCritical lib opts).map fun p => (p.1, p) := by
  have hempty : (Server.create opts).errorReportCriticalPriority < 0 := Int.negSucc_lt_zero 0
  have hfew : ¬ ((Server.create opts).opts.getString PriorityOption.critical.name ≠ "" ∧
      (lib.splitString ((Server.create opts).opts.getString PriorityOption.critical.name)
        [","]).length > 2) := by
    rintro ⟨hne, hmany⟩
    rcases htwo with hnone | hfew
    · exact hne hnone
    · exact absurd hmany (Nat.not_lt.mpr hfew)
  rw [freshCritical, Server.criticalRead, if_pos hempty, if_neg hfew, Option.map_map,
    Option.map_map]
  rfl

theorem Server.ErrorCoherent.criticalRead (hs : s.ErrorCoherent lib)
    (htwo : CriticalPair lib s.opts) :
    s.criticalRead lib = (Server.create s.opts).criticalRead lib := by
  by_cases hcached : s.errorReportCriticalPriority < 0
  · exact criticalRead_first hcached
  · rw [criticalRead_two htwo, hs.critical (Int.not_lt.mp hcached), Server.criticalRead,
      if_neg hcached]
    rfl

/-! ## The getters -/

theorem getErrorReportSettleTime_spec (hs : s.ErrorCoherent lib) :
    (s.getErrorReportSettleTime lib).1 = freshSettleTime lib s.opts ∧
      (s.getErrorReportSettleTime lib).2.ErrorCoherent lib := by
  by_cases hcached : s.errorReportSettleTime < 0
  · have hvalue : (s.getErrorReportSettleTime lib).1 = freshSettleTime lib s.opts := by
      have hempty : (Server.create s.opts).errorReportSettleTime < 0 := Int.negSucc_lt_zero 0
      have hopts : (Server.create s.opts).opts = s.opts := rfl
      rw [freshSettleTime, Server.getErrorReportSettleTime, Server.getErrorReportSettleTime,
        if_pos hcached, if_pos hempty, hopts]
      cases lib.duration (s.opts.getString "error_report_settle_time") with
      | none => exact hs.unset hcached
      | some duration => rfl
    refine ⟨hvalue, ?_⟩
    rw [Server.getErrorReportSettleTime, if_pos hcached] at hvalue ⊢
    cases hduration : lib.duration (s.opts.getString "error_report_settle_time") with
    | none => exact hs
    | some duration =>
        rw [hduration] at hvalue
        refine ⟨fun _ => hvalue.symm, fun hneg => ?_, hs.low, hs.medium, hs.critical⟩
        exact absurd hneg (Int.not_lt.mpr ((by decide : (0 : Int) ≤ 60).trans (le_max_left _ _)))
  · rw [Server.getErrorReportSettleTime, if_neg hcached]
    exact ⟨(hs.settleTime (Int.not_lt.mp hcached)).symm, hs⟩

theorem Server.ErrorCoherent.cacheLow (hs : s.ErrorCoherent lib) {pair : Int × Int}
    (h : s.lowPair lib = some pair) : (s.cacheLow pair).ErrorCoherent lib :=
  ⟨hs.settleTime, hs.unset, fun _ => hs.lowPair.symm.trans h, hs.medium, hs.critical⟩

theorem Server.ErrorCoherent.cacheMedium (hs : s.ErrorCoherent lib) {pair : Int × Int}
    (h : s.mediumPair lib = some pair) : (s.cacheMedium pair).ErrorCoherent lib :=
  ⟨hs.settleTime, hs.unset, hs.low, fun _ => hs.mediumPair.symm.trans h, hs.critical⟩

theorem Server.ErrorCoherent.cacheCritical (hs : s.ErrorCoherent lib) {r : Int × Int × Int}
    (h : s.criticalRead lib = some r) : (s.cacheCritical r.2).ErrorCoherent lib := by
  refine ⟨hs.settleTime, hs.unset, hs.low, hs.medium, fun _ => ?_⟩
  have hpair := hs.criticalPair
  rw [h] at hpair
  exact hpair.symm

theorem read_coherent (hs : s.ErrorCoherent lib) {g : ErrorSetting} {value : Int} {s' : Server}
    (h : g.read lib s = some (value, s')) : s'.ErrorCoherent lib := by
  cases reads_of_read h with
  | settleTime => exact (getErrorReportSettleTime_spec hs).2
  | lowPriority hpair | lowSpan hpair => exact hs.cacheLow hpair
  | mediumPriority hpair | mediumSpan hpair => exact hs.cacheMedium hpair
  | criticalPriority hread | criticalSpan hread => exact hs.cacheCritical hread

/-- A coherent server answers as one with empty caches does, but for the
critical priority of three pieces. -/
theorem read_fresh (hs : s.ErrorCoherent lib) (g : ErrorSetting)
    (htwo : g = .criticalPriority → CriticalPair lib s.opts) :
    (g.read lib s).map Prod.fst = (g.read lib (Server.create s.opts)).map Prod.fst := by
  have hopts : (Server.create s.opts).opts = s.opts := rfl
  cases g with
  | settleTime => exact congrArg some (getErrorReportSettleTime_spec hs).1
  | lowPriority =>
      rw [ErrorSetting.read, ErrorSetting.read, Server.getLow_eq, Server.getLow_eq, hs.lowPair,
        Option.map_map, Option.map_map]
      rfl
  | lowSpan =>
      simp only [ErrorSetting.read, Server.getErrorReportLowSpan, Server.getLow_eq, hs.lowPair,
        Option.map_map]
      rfl
  | mediumPriority =>
      rw [ErrorSetting.read, ErrorSetting.read, Server.getMedium_eq, Server.getMedium_eq,
        hs.mediumPair, Option.map_map, Option.map_map]
      rfl
  | mediumSpan =>
      simp only [ErrorSetting.read, Server.getErrorReportMediumSpan, Server.getMedium_eq,
        hs.mediumPair, Option.map_map]
      rfl
  | criticalPriority =>
      rw [ErrorSetting.read, ErrorSetting.read, Server.getCritical_eq, Server.getCritical_eq,
        hs.criticalRead (htwo rfl), Option.map_map, Option.map_map]
      rfl
  | criticalSpan =>
      have hspan : ∀ s : Server, (s.getErrorReportCriticalSpan lib).map Prod.fst =
          ((s.criticalRead lib).map Prod.snd).map Prod.snd := by
        intro s
        rw [Server.getErrorReportCriticalSpan, Server.getCritical_eq, Option.map_map,
          Option.map_map, Option.map_map]
        rfl
      rw [ErrorSetting.read, ErrorSetting.read, hspan, hspan, hs.criticalPair]
      rfl

/-! ## New values

`clear_cache` empties the caches of the option it is called for, so what is
cached never comes from an earlier text. -/

theorem pair_kept {fresh fresh' : Option (Int × Int)} (pair pair' : Int × Int)
    (hnew : pair' = (-1, -1) ∨ pair' = pair ∧ fresh' = fresh)
    (hold : 0 ≤ pair.1 → fresh = some pair) : 0 ≤ pair'.1 → fresh' = some pair' := by
  intro hcached
  rcases hnew with rfl | ⟨rfl, rfl⟩
  · exact absurd hcached (by decide)
  · exact hold hcached

theorem Server.ErrorCoherent.change (hs : s.ErrorCoherent lib) {opts : Options} {dashed : String}
    (hkeep : ∀ n, optionWithDashes n ≠ dashed → opts.getString n = s.opts.getString n) :
    ({ s with opts := opts }.clearCache dashed).ErrorCoherent lib := by
  have hopts := clearCache_opts { s with opts := opts } dashed
  have hsettle := clearCache_settle { s with opts := opts } dashed
  have hlow := clearCache_low { s with opts := opts } dashed
  have hmedium := clearCache_medium { s with opts := opts } dashed
  have hcritical := clearCache_critical { s with opts := opts } dashed
  generalize ({ s with opts := opts } : Server).clearCache dashed = s' at *
  refine ⟨?_, ?_, pair_kept (_, s.errorReportLowSpan) (_, s'.errorReportLowSpan) ?_ hs.low,
    pair_kept (_, s.errorReportMediumSpan) (_, s'.errorReportMediumSpan) ?_ hs.medium,
    pair_kept (_, s.errorReportCriticalSpan) (_, s'.errorReportCriticalSpan) ?_ hs.critical⟩
  · intro hcached
    rw [hsettle] at hcached ⊢
    split at hcached
    · exact absurd hcached (by decide)
    · next hname =>
        rw [if_neg hname, hopts, freshSettleTime_congr (hkeep _ (Ne.symm hname))]
        exact hs.settleTime hcached
  · intro hcached
    rw [hsettle] at hcached ⊢
    split at hcached
    · next hname => exact if_pos hname
    · next hname => exact (if_neg hname).trans (hs.unset hcached)
  · by_cases hname : dashed = "error-report-low-priority"
    · exact Or.inl (hlow.trans (if_pos hname))
    · refine Or.inr ⟨hlow.trans (if_neg hname), ?_⟩
      rw [hopts]
      exact freshLow_congr (hkeep _ (Ne.symm hname))
  · by_cases hname : dashed = "error-report-medium-priority"
    · exact Or.inl (hmedium.trans (if_pos hname))
    · refine Or.inr ⟨hmedium.trans (if_neg hname), ?_⟩
      rw [hopts]
      exact freshMedium_congr (hkeep _ (Ne.symm hname))
  · by_cases hname : dashed = "error-report-critical-priority"
    · exact Or.inl (hcritical.trans (if_pos hname))
    · refine Or.inr ⟨hcritical.trans (if_neg hname), ?_⟩
      rw [hopts]
      exact freshCritical_congr (hkeep _ (Ne.symm hname))

theorem Server.ErrorCoherent.newValue (hs : s.ErrorCoherent lib) (name text : String) :
    (s.newValue name text).ErrorCoherent lib :=
  hs.change fun _ hname => assign_getString_ne text (Ne.symm hname)

theorem Server.ErrorCoherent.clearCache (hs : s.ErrorCoherent lib) (name : String) :
    (s.clearCache name).ErrorCoherent lib :=
  hs.change fun _ _ => rfl

/-- Every call keeps the caches coherent. -/
theorem errorGetters_step (hs : s.ErrorCoherent lib) (call : ErrorGetterCall) :
    (errorGetters lib s call).1.ErrorCoherent lib := by
  cases call with
  | get g =>
      rw [errorGetters]
      split
      · exact hs
      · next hread => exact read_coherent hs hread
  | newValue name text => exact hs.newValue name text
  | clearCache name => exact hs.clearCache name

theorem errorGetters_output (s : Server) (g : ErrorSetting) :
    (errorGetters lib s (.get g)).2 = (g.read lib s).map Prod.fst := by
  simp only [errorGetters]
  split <;> simp_all

/-- What is returned where the text has more than two pieces. -/
theorem criticalPriority_many (hs : s.ErrorCoherent lib) (hmany : ¬ CriticalPair lib s.opts) :
    (errorGetters lib s (.get .criticalPriority)).2 =
      some (if s.errorReportCriticalPriority < 0 then 0 else 90) := by
  obtain ⟨hne, hlength⟩ := not_or.mp hmany
  have hthree : s.opts.getString PriorityOption.critical.name ≠ "" ∧
      (lib.splitString (s.opts.getString PriorityOption.critical.name) [","]).length > 2 :=
    ⟨hne, Nat.not_le.mp hlength⟩
  have hfirst : ∀ s' : Server, s'.opts = s.opts → s'.errorReportCriticalPriority < 0 →
      s'.criticalRead lib =
        some (0, PriorityOption.critical.defaultPriority, PriorityOption.critical.defaultSpan) := by
    intro s' hopts hempty
    rw [Server.criticalRead, if_pos hempty, hopts, if_pos hthree]
  rw [errorGetters_output, ErrorSetting.read, Server.getCritical_eq, Option.map_map]
  split
  · next hempty =>
      rw [hfirst s rfl hempty]
      rfl
  · next hcached =>
      have hpair := hs.critical (Int.not_lt.mp hcached)
      rw [freshCritical, hfirst (Server.create s.opts) rfl (Int.negSucc_lt_zero 0)] at hpair
      have hninety : (90 : Int) = s.errorReportCriticalPriority :=
        congrArg Prod.fst (Option.some.inj hpair)
      rw [Server.criticalRead, if_neg hcached, hninety]
      rfl

end Coherent

/-- **No getter of an error-report setting returns a stale value**, in any order
of getters, new values and `clear_cache` calls.  Only a critical priority of
more than two pieces is 0 when it is read, and 90 from then on. -/
theorem errorGetters_coherent (lib : Advgetopt) (opts : Options) (calls : List ErrorGetterCall) :
    ∀ e ∈ trace (errorGetters lib) (Server.create opts) calls,
      (e.input ≠ .get .criticalPriority ∨ CriticalPair lib e.before.opts →
        e.output = (errorGetters lib (Server.create e.before.opts) e.input).2) ∧
      (e.input = .get .criticalPriority → ¬ CriticalPair lib e.before.opts →
        e.output = some (if e.before.errorReportCriticalPriority < 0 then 0 else 90)) := by
  refine trace_forall (I := fun s => s.ErrorCoherent lib) (A := fun _ => True) ?_
    (create_errorCoherent opts) (fun _ _ => trivial)
  intro s call hs _
  refine ⟨errorGetters_step hs call, ?_, ?_⟩
  · intro htwo
    rw [event_before, event_input] at *
    cases call with
    | newValue name text => rfl
    | clearCache name => rfl
    | get g =>
        rw [event_output, errorGetters_output, errorGetters_output]
        refine read_fresh hs g ?_
        rintro rfl
        exact htwo.resolve_left fun hne => hne rfl
  · intro hcall hmany
    obtain rfl : call = .get .criticalPriority := hcall
    exact criticalPriority_many hs hmany

/-- A server that was given three pieces, and that has read them once. -/
def threePieceServer : Server :=
  (errorGetters .decimal ((Server.create Options.unset).newValue "error_report_critical_priority"
    "95,86400,1") (.get .criticalPriority)).1

/-- It was 0 for that once. -/
theorem errorGetters_coherent_three :
    (errorGetters .decimal threePieceServer (.get .criticalPriority)).2 =
      some (if threePieceServer.errorReportCriticalPriority < 0 then 0 else 90) :=
  (errorGetters_coherent .decimal Options.unset
    [.newValue "error_report_critical_priority" "95,86400,1", .get .criticalPriority,
      .get .criticalPriority] _
    (List.mem_cons_of_mem _ (List.mem_cons_of_mem _ List.mem_cons_self))).2 rfl (by decide)

end Sitter
