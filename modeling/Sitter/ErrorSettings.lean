/-
# `Sitter.ErrorSettings` — are the error-report settings usable?

Seven values are asked for: the settle time, and a priority and a span at each
of three levels.  What is asked of a getter is that it has a value, that the
value is in the range of its setting, and that a getter which is called twice
gives the same value twice.

The caches are in range whatever the options say (`Server.ErrorCachesOk`), so
what can go wrong is a first call.  Three texts make it go wrong:

    a settle time that is not a duration    -1 is returned, nothing is cached
    a pair of no pieces, as in `","`        `prio_span[0]` past the end
    a critical pair of three pieces         0 is returned, and 90 from then on

`ErrorSetting.Readable` excludes these and nothing else (`errorSettings_iff`).
-/
import Sitter.Settings

namespace Sitter

open Machine

inductive ErrorSetting where
  | settleTime
  | lowPriority
  | lowSpan
  | mediumPriority
  | mediumSpan
  | criticalPriority
  | criticalSpan
  deriving DecidableEq, Repr

namespace ErrorSetting

def InRange (v : Int) : ErrorSetting → Prop
  | .settleTime => 60 ≤ v
  | .lowPriority => 1 ≤ v ∧ v ≤ 50
  | .lowSpan => 86400 ≤ v
  | .mediumPriority => 10 ≤ v ∧ v ≤ 90
  | .mediumSpan => 3600 ≤ v
  | .criticalPriority => 1 ≤ v ∧ v ≤ 100
  | .criticalSpan => 300 ≤ v

def read (lib : Advgetopt) (s : Server) : ErrorSetting → Option (Int × Server)
  | .settleTime => some (s.getErrorReportSettleTime lib)
  | .lowPriority => s.getErrorReportLowPriority lib
  | .lowSpan => s.getErrorReportLowSpan lib
  | .mediumPriority => s.getErrorReportMediumPriority lib
  | .mediumSpan => s.getErrorReportMediumSpan lib
  | .criticalPriority => s.getErrorReportCriticalPriority lib
  | .criticalSpan => s.getErrorReportCriticalSpan lib

def cached (s : Server) : ErrorSetting → Int
  | .settleTime => s.errorReportSettleTime
  | .lowPriority => s.errorReportLowPriority
  | .lowSpan => s.errorReportLowSpan
  | .mediumPriority => s.errorReportMediumPriority
  | .mediumSpan => s.errorReportMediumSpan
  | .criticalPriority => s.errorReportCriticalPriority
  | .criticalSpan => s.errorReportCriticalSpan

/-- The member that says whether a setting is cached: a span goes with its
priority. -/
def mark (s : Server) : ErrorSetting → Int
  | .settleTime => s.errorReportSettleTime
  | .lowPriority | .lowSpan => s.errorReportLowPriority
  | .mediumPriority | .mediumSpan => s.errorReportMediumPriority
  | .criticalPriority | .criticalSpan => s.errorReportCriticalPriority

end ErrorSetting

/-! ## Runs -/

inductive ErrorSettingCall where
  | get (g : ErrorSetting)
  | clearCache (name : String)
  /-- the options' texts change -/
  | change (opts : Options)

/-- A server, and what each getter returned since the last `clear_cache` or
change of an option. -/
structure ErrorReading where
  server : Server
  returned : ErrorSetting → Option Int

def ErrorReading.start (opts : Options) : ErrorReading := ⟨Server.create opts, fun _ => none⟩

/-- One call; the output is what a getter returned. -/
def errorSettings (lib : Advgetopt) : Step ErrorReading ErrorSettingCall (Option Int) :=
  fun r call =>
    match call with
    | .get g =>
        match g.read lib r.server with
        | none => (r, none)
        | some (v, s) => (⟨s, Function.update r.returned g (some v)⟩, some v)
    | .clearCache name => (⟨r.server.clearCache name, fun _ => none⟩, none)
    | .change opts => (⟨{ r.server with opts := opts }, fun _ => none⟩, none)

/-- What is asked of a getter: a value, in range, and the same as before. -/
def ErrorSettingUsable (e : Event ErrorReading ErrorSettingCall (Option Int)) : Prop :=
  match e.input with
  | .get g => ∃ v, e.output = some v ∧ g.InRange v ∧ ∀ w, e.before.returned g = some w → v = w
  | _ => True

/-! ## What can be read

A getter of a pair fails on a text that has separators but no piece, such as a
lone comma. -/

/-- The text of a pair is empty or has a piece. -/
def PriorityOption.HasPiece (o : PriorityOption) (lib : Advgetopt) (opts : Options) : Prop :=
  opts.getString o.name = "" ∨ lib.splitString (opts.getString o.name) [","] ≠ []

/-- The setting is cached, or its text is one the getter gets on with. -/
def ErrorSetting.Readable (lib : Advgetopt) (s : Server) (g : ErrorSetting) : Prop :=
  0 ≤ g.mark s ∨
    match g with
    | .settleTime => (lib.duration (s.opts.getString "error_report_settle_time")).isSome
    | .lowPriority | .lowSpan => PriorityOption.low.HasPiece lib s.opts
    | .mediumPriority | .mediumSpan => PriorityOption.medium.HasPiece lib s.opts
    | .criticalSpan => PriorityOption.critical.HasPiece lib s.opts
    -- the priority is 0 for this once when there are more than two pieces
    | .criticalPriority => PriorityOption.critical.HasPiece lib s.opts ∧
        (s.opts.getString PriorityOption.critical.name = "" ∨
          (lib.splitString (s.opts.getString PriorityOption.critical.name) [","]).length ≤ 2)

def ErrorSettingReadable (lib : Advgetopt)
    (e : Event ErrorReading ErrorSettingCall (Option Int)) : Prop :=
  match e.input with
  | .get g => g.Readable lib e.before.server
  | _ => True

/-! ## The caches -/

/-- What is cached is in range. -/
structure Server.ErrorCachesOk (s : Server) : Prop where
  settings : s.SettingsOk
  settleTime : 0 ≤ s.errorReportSettleTime → 60 ≤ s.errorReportSettleTime

section Caches

variable {lib : Advgetopt} {s s' : Server} {g : ErrorSetting} {v : Int}

theorem create_errorCachesOk (opts : Options) : (Server.create opts).ErrorCachesOk :=
  ⟨Server.create_settingsOk opts, nofun⟩

theorem clearCache_settleTime (s : Server) (name : String) :
    (s.clearCache name).errorReportSettleTime = -1 ∨
      (s.clearCache name).errorReportSettleTime = s.errorReportSettleTime := by
  simp only [Server.clearCache]
  split
  case h_1 => exact Or.inl rfl
  all_goals exact Or.inr rfl

theorem Server.ErrorCachesOk.clearCache (hs : s.ErrorCachesOk) (name : String) :
    (s.clearCache name).ErrorCachesOk := by
  refine ⟨hs.settings.clearCache name, ?_⟩
  rcases clearCache_settleTime s name with h | h
  · rw [h]
    exact nofun
  · rw [h]
    exact hs.settleTime

/-- A cached setting is in range. -/
theorem cached_inRange (hs : s.ErrorCachesOk) (hmark : 0 ≤ g.mark s) : g.InRange (g.cached s) := by
  cases g with
  | settleTime => exact hs.settleTime hmark
  | lowPriority => exact ⟨(hs.settings.low hmark).priority_low, (hs.settings.low hmark).priority_high⟩
  | lowSpan => exact (hs.settings.low hmark).span_low
  | mediumPriority =>
      exact ⟨(hs.settings.medium hmark).priority_low, (hs.settings.medium hmark).priority_high⟩
  | mediumSpan => exact (hs.settings.medium hmark).span_low
  | criticalPriority =>
      exact ⟨(hs.settings.critical hmark).priority_low, (hs.settings.critical hmark).priority_high⟩
  | criticalSpan => exact (hs.settings.critical hmark).span_low

theorem read_cached (hmark : 0 ≤ g.mark s) : g.read lib s = some (g.cached s, s) := by
  have hset := Int.not_lt.mpr hmark
  cases g with
  | settleTime => exact congrArg some (if_neg hset)
  | lowPriority => exact if_neg hset
  | lowSpan => exact congrArg (Option.map _) (if_neg hset)
  | mediumPriority => exact if_neg hset
  | mediumSpan => exact congrArg (Option.map _) (if_neg hset)
  | criticalPriority => exact if_neg hset
  | criticalSpan => exact congrArg (Option.map _) (if_neg hset)

end Caches

/-! ## First calls

What a getter does with an empty cache, for each of the seven settings.  Later
calls return what the first one has cached. -/

/-- What a first call leaves: the setting is cached, the caches are in range
and no other cache has moved. -/
structure ErrorSetting.Filled (g : ErrorSetting) (s s' : Server) : Prop where
  mark : 0 ≤ g.mark s'
  caches : s'.ErrorCachesOk
  others : ∀ h : ErrorSetting, 0 ≤ h.mark s → h.cached s' = h.cached s ∧ h.mark s' = h.mark s

section FirstCall

variable {lib : Advgetopt} {s : Server}

theorem load_isSome {o : PriorityOption} {opts : Options} :
    (o.load lib (opts.getString o.name)).isSome ↔ o.HasPiece lib opts := by
  simp only [PriorityOption.load, PriorityOption.HasPiece]
  split
  · next h => simp [h]
  · next h => simp [h, List.ne_nil_iff_length_pos]

theorem settleTime_first (hs : s.ErrorCachesOk) (hmark : s.errorReportSettleTime < 0)
    (h : (lib.duration (s.opts.getString "error_report_settle_time")).isSome) :
    ∃ s', s.getErrorReportSettleTime lib = (s'.errorReportSettleTime, s') ∧
      ErrorSetting.settleTime.Filled s s' := by
  obtain ⟨duration, hduration⟩ := Option.isSome_iff_exists.mp h
  simp only [Server.getErrorReportSettleTime, if_pos hmark, hduration]
  refine ⟨{ s with errorReportSettleTime := _ }, rfl, ?_, ⟨?_, ?_⟩, ?_⟩
  · exact le_max_of_le_left (by decide)
  · exact ⟨hs.settings.low, hs.settings.medium, hs.settings.critical⟩
  · exact fun _ => le_max_left _ _
  · intro g hg
    cases g with
    | settleTime => exact absurd hg (Int.not_le.mpr hmark)
    | _ => exact ⟨rfl, rfl⟩

theorem low_first (hs : s.ErrorCachesOk) (hmark : s.errorReportLowPriority < 0)
    (h : PriorityOption.low.HasPiece lib s.opts) :
    ∃ pair, s.lowPair lib = some pair ∧ ErrorSetting.lowPriority.Filled s (s.cacheLow pair) := by
  obtain ⟨pair, hload⟩ := Option.isSome_iff_exists.mp (load_isSome.mpr h)
  have hpair : s.lowPair lib = some pair := (if_pos hmark).trans hload
  have hholds := hs.settings.lowPair_holds hpair
  refine ⟨pair, hpair, ?_, ⟨hs.settings.cacheLow hholds, hs.settleTime⟩, ?_⟩
  · exact le_trans (by decide) hholds.priority_low
  · intro g hg
    cases g with
    | lowPriority => exact absurd hg (Int.not_le.mpr hmark)
    | lowSpan => exact absurd hg (Int.not_le.mpr hmark)
    | _ => exact ⟨rfl, rfl⟩

theorem medium_first (hs : s.ErrorCachesOk) (hmark : s.errorReportMediumPriority < 0)
    (h : PriorityOption.medium.HasPiece lib s.opts) :
    ∃ pair, s.mediumPair lib = some pair ∧
      ErrorSetting.mediumPriority.Filled s (s.cacheMedium pair) := by
  obtain ⟨pair, hload⟩ := Option.isSome_iff_exists.mp (load_isSome.mpr h)
  have hpair : s.mediumPair lib = some pair := (if_pos hmark).trans hload
  have hholds := hs.settings.mediumPair_holds hpair
  refine ⟨pair, hpair, ?_, ⟨hs.settings.cacheMedium hholds, hs.settleTime⟩, ?_⟩
  · exact le_trans (by decide) hholds.priority_low
  · intro g hg
    cases g with
    | mediumPriority => exact absurd hg (Int.not_le.mpr hmark)
    | mediumSpan => exact absurd hg (Int.not_le.mpr hmark)
    | _ => exact ⟨rfl, rfl⟩

/-- The pair of critical is cached in any case; its priority is what is
returned when there are no more than two pieces. -/
theorem critical_first (hs : s.ErrorCachesOk) (hmark : s.errorReportCriticalPriority < 0)
    (h : PriorityOption.critical.HasPiece lib s.opts) :
    ∃ r, s.criticalRead lib = some r ∧
      ErrorSetting.criticalPriority.Filled s (s.cacheCritical r.2) ∧
      (s.opts.getString PriorityOption.critical.name = "" ∨
        (lib.splitString (s.opts.getString PriorityOption.critical.name) [","]).length ≤ 2 →
          r.1 = r.2.1) := by
  obtain ⟨pair, hload⟩ := Option.isSome_iff_exists.mp (load_isSome.mpr h)
  have hfilled : ∀ r, s.criticalRead lib = some r →
      ErrorSetting.criticalPriority.Filled s (s.cacheCritical r.2) := by
    intro r hr
    have hholds := hs.settings.criticalRead_holds hr
    refine ⟨?_, ⟨hs.settings.cacheCritical hholds, hs.settleTime⟩, ?_⟩
    · exact le_trans (by decide) hholds.priority_low
    · intro g hg
      cases g with
      | criticalPriority => exact absurd hg (Int.not_le.mpr hmark)
      | criticalSpan => exact absurd hg (Int.not_le.mpr hmark)
      | _ => exact ⟨rfl, rfl⟩
  by_cases hthree : s.opts.getString PriorityOption.critical.name ≠ "" ∧
      (lib.splitString (s.opts.getString PriorityOption.critical.name) [","]).length > 2
  · have hr := (if_pos hmark).trans (if_pos hthree) (a := s.criticalRead lib)
    refine ⟨_, hr, hfilled _ hr, ?_⟩
    intro hfew
    rcases hfew with hempty | hlength
    · exact absurd hempty hthree.1
    · exact absurd hthree.2 (Nat.not_lt.mpr hlength)
  · have hr : s.criticalRead lib = some (pair.1, pair) := by
      rw [Server.criticalRead, if_pos hmark, if_neg hthree, hload]
      rfl
    exact ⟨_, hr, hfilled _ hr, fun _ => rfl⟩

/-- **A readable setting is returned from the cache it is in by then.** -/
theorem read_readable {g : ErrorSetting} (hs : s.ErrorCachesOk) (h : g.Readable lib s) :
    ∃ s', g.read lib s = some (g.cached s', s') ∧ g.Filled s s' := by
  by_cases hmark : 0 ≤ g.mark s
  · exact ⟨s, read_cached hmark, hmark, hs, fun _ _ => ⟨rfl, rfl⟩⟩
  have hfirst := h.resolve_left hmark
  have hempty := Int.not_le.mp hmark
  cases g with
  | settleTime =>
      obtain ⟨s', hread, hfilled⟩ := settleTime_first hs hempty hfirst
      exact ⟨s', congrArg some hread, hfilled⟩
  | lowPriority =>
      obtain ⟨pair, hpair, hfilled⟩ := low_first hs hempty hfirst
      refine ⟨_, ?_, hfilled⟩
      rw [ErrorSetting.read, Server.getLow_eq, hpair]
      rfl
  | lowSpan =>
      obtain ⟨pair, hpair, hfilled⟩ := low_first hs hempty hfirst
      refine ⟨_, ?_, hfilled.mark, hfilled.caches, hfilled.others⟩
      rw [ErrorSetting.read, Server.getErrorReportLowSpan, Server.getLow_eq, hpair]
      rfl
  | mediumPriority =>
      obtain ⟨pair, hpair, hfilled⟩ := medium_first hs hempty hfirst
      refine ⟨_, ?_, hfilled⟩
      rw [ErrorSetting.read, Server.getMedium_eq, hpair]
      rfl
  | mediumSpan =>
      obtain ⟨pair, hpair, hfilled⟩ := medium_first hs hempty hfirst
      refine ⟨_, ?_, hfilled.mark, hfilled.caches, hfilled.others⟩
      rw [ErrorSetting.read, Server.getErrorReportMediumSpan, Server.getMedium_eq, hpair]
      rfl
  | criticalPriority =>
      obtain ⟨r, hr, hfilled, hreturned⟩ := critical_first hs hempty hfirst.1
      refine ⟨_, ?_, hfilled⟩
      rw [ErrorSetting.read, Server.getCritical_eq, hr, Option.map_some, hreturned hfirst.2]
      rfl
  | criticalSpan =>
      obtain ⟨r, hr, hfilled, -⟩ := critical_first hs hempty hfirst
      refine ⟨_, ?_, hfilled.mark, hfilled.caches, hfilled.others⟩
      rw [ErrorSetting.read, Server.getErrorReportCriticalSpan, Server.getCritical_eq, hr]
      rfl

theorem load_none {o : PriorityOption} {opts : Options} (h : ¬ o.HasPiece lib opts) :
    o.load lib (opts.getString o.name) = none :=
  Option.not_isSome_iff_eq_none.mp (mt load_isSome.mp h)

theorem criticalRead_none (hmark : s.errorReportCriticalPriority < 0)
    (h : ¬ PriorityOption.critical.HasPiece lib s.opts) : s.criticalRead lib = none := by
  have hpieces : ¬ (lib.splitString
      (s.opts.getString PriorityOption.critical.name) [","]).length > 2 := by
    obtain ⟨-, hsplit⟩ := not_or.mp h
    rw [not_not.mp hsplit]
    exact Nat.not_lt_zero 2
  have hload := load_none h
  rw [Server.criticalRead, if_pos hmark, if_neg (fun hthree => hpieces hthree.2), hload]
  rfl

/-- **A setting that is not readable gives no value, or one out of range.** -/
theorem read_unreadable {g : ErrorSetting} (h : ¬ g.Readable lib s) {v : Int} {s' : Server}
    (hread : g.read lib s = some (v, s')) : ¬ g.InRange v := by
  obtain ⟨hmark, hfirst⟩ := not_or.mp h
  have hempty := Int.not_le.mp hmark
  cases g with
  | settleTime =>
      have hduration := Option.not_isSome_iff_eq_none.mp hfirst
      have hneg : s.errorReportSettleTime < 0 := hempty
      have hvalue : s.errorReportSettleTime = v := by
        simp only [ErrorSetting.read, Server.getErrorReportSettleTime, if_pos hneg, hduration,
          Option.some.injEq, Prod.mk.injEq] at hread
        exact hread.1
      simp only [ErrorSetting.InRange]
      omega
  | lowPriority =>
      have hpair : s.lowPair lib = none := (if_pos hempty).trans (load_none hfirst)
      simp [ErrorSetting.read, Server.getLow_eq, hpair] at hread
  | lowSpan =>
      have hpair : s.lowPair lib = none := (if_pos hempty).trans (load_none hfirst)
      simp [ErrorSetting.read, Server.getErrorReportLowSpan, Server.getLow_eq, hpair] at hread
  | mediumPriority =>
      have hpair : s.mediumPair lib = none := (if_pos hempty).trans (load_none hfirst)
      simp [ErrorSetting.read, Server.getMedium_eq, hpair] at hread
  | mediumSpan =>
      have hpair : s.mediumPair lib = none := (if_pos hempty).trans (load_none hfirst)
      simp [ErrorSetting.read, Server.getErrorReportMediumSpan, Server.getMedium_eq, hpair]
        at hread
  | criticalPriority =>
      by_cases hpiece : PriorityOption.critical.HasPiece lib s.opts
      · -- three pieces: the call returns `false`, which is 0
        have hthree := not_or.mp (not_and.mp hfirst hpiece)
        have hr : s.criticalRead lib = some (0, PriorityOption.critical.defaultPriority,
            PriorityOption.critical.defaultSpan) := by
          exact (if_pos hempty).trans (if_pos ⟨hthree.1, Nat.not_le.mp hthree.2⟩)
        have hvalue : 0 = v := by
          simp only [ErrorSetting.read, Server.getCritical_eq, hr, Option.map_some,
            Option.some.injEq, Prod.mk.injEq] at hread
          exact hread.1
        simp only [ErrorSetting.InRange]
        omega
      · have hr := criticalRead_none hempty hpiece
        simp [ErrorSetting.read, Server.getCritical_eq, hr] at hread
  | criticalSpan =>
      have hr := criticalRead_none hempty hfirst
      simp [ErrorSetting.read, Server.getErrorReportCriticalSpan, Server.getCritical_eq, hr]
        at hread

end FirstCall

/-! ## Runs -/

/-- The caches are in range, and what a getter has returned is cached. -/
structure ErrorReading.Holds (r : ErrorReading) : Prop where
  caches : r.server.ErrorCachesOk
  returned : ∀ g w, r.returned g = some w → 0 ≤ g.mark r.server ∧ g.cached r.server = w

theorem errorReading_start_holds (opts : Options) : (ErrorReading.start opts).Holds where
  caches := create_errorCachesOk opts
  returned _ _ h := absurd h.symm (Option.some_ne_none _)

section Runs

variable {lib : Advgetopt} {r : ErrorReading}

/-- What a readable getter does. -/
theorem get_readable {g : ErrorSetting} (hr : r.Holds) (h : g.Readable lib r.server) :
    ∃ s', errorSettings lib r (.get g) =
        (⟨s', Function.update r.returned g (some (g.cached s'))⟩, some (g.cached s')) ∧
      g.Filled r.server s' := by
  obtain ⟨s', hread, hfilled⟩ := read_readable hr.caches h
  exact ⟨s', by simp only [errorSettings, hread], hfilled⟩

theorem errorSettings_step (hr : r.Holds) (call : ErrorSettingCall)
    (h : ErrorSettingReadable lib (event (errorSettings lib) r call)) :
    (errorSettings lib r call).1.Holds := by
  cases call with
  | get g =>
      obtain ⟨s', hstep, hfilled⟩ := get_readable hr h
      rw [hstep]
      refine ⟨hfilled.caches, ?_⟩
      intro g' w hw
      by_cases hg : g' = g
      · subst hg
        simp only [Function.update_self, Option.some.injEq] at hw
        exact ⟨hfilled.mark, hw⟩
      · simp only [Function.update_of_ne hg] at hw
        obtain ⟨hmark, hcached⟩ := hr.returned g' w hw
        obtain ⟨hsame, hsame_mark⟩ := hfilled.others g' hmark
        exact ⟨le_of_le_of_eq hmark hsame_mark.symm, hsame.trans hcached⟩
  | clearCache name => exact ⟨hr.caches.clearCache name, nofun⟩
  | change opts =>
      obtain ⟨⟨hlow, hmedium, hcritical⟩, hsettle⟩ := hr.caches
      exact ⟨⟨⟨hlow, hmedium, hcritical⟩, hsettle⟩, nofun⟩

/-- One call is usable exactly when its setting is readable. -/
theorem usable_iff_readable (hr : r.Holds) (call : ErrorSettingCall) :
    ErrorSettingUsable (event (errorSettings lib) r call) ↔
      ErrorSettingReadable lib (event (errorSettings lib) r call) := by
  cases call with
  | get g =>
      constructor
      · rintro ⟨v, hout, hrange, -⟩
        by_contra hunreadable
        simp only [event_output, errorSettings] at hout
        cases hread : g.read lib r.server with
        | none => simp [hread] at hout
        | some p =>
            simp only [hread, Option.some.injEq] at hout
            subst hout
            exact read_unreadable hunreadable hread hrange
      · intro h
        obtain ⟨s', hstep, hfilled⟩ := get_readable hr h
        refine ⟨g.cached s', by rw [event_output, hstep], ?_, ?_⟩
        · exact cached_inRange hfilled.caches hfilled.mark
        · intro w hw
          obtain ⟨hmark, hcached⟩ := hr.returned g w hw
          exact (hfilled.others g hmark).1.trans hcached
  | clearCache name => exact Iff.rfl
  | change opts => exact Iff.rfl

end Runs

/-- **The settings are usable in exactly the runs whose getters find something
they can read.** -/
theorem errorSettings_iff (lib : Advgetopt) (opts : Options) (calls : List ErrorSettingCall) :
    (∀ e ∈ trace (errorSettings lib) (ErrorReading.start opts) calls, ErrorSettingUsable e) ↔
      ∀ e ∈ trace (errorSettings lib) (ErrorReading.start opts) calls,
        ErrorSettingReadable lib e :=
  trace_forall_iff (I := ErrorReading.Holds) (fun _ call hr => usable_iff_readable hr call)
    (fun _ call hr h => errorSettings_step hr call h)
    (errorReading_start_holds opts) calls

/-- A pair that is only a comma is read past its end. -/
theorem errorSettings_comma :
    ¬ ∀ e ∈ trace (errorSettings Advgetopt.decimal)
        (ErrorReading.start (Options.unset.replace "error_report_low_priority" ","))
        [.get .lowPriority], ErrorSettingUsable e := by
  intro hall
  obtain ⟨v, hout, -⟩ := hall _ List.mem_cons_self
  have hnone : (event (errorSettings Advgetopt.decimal)
      (ErrorReading.start (Options.unset.replace "error_report_low_priority" ","))
      (.get .lowPriority)).output = none := by decide
  exact absurd (hout.symm.trans hnone) (Option.some_ne_none v)

end Sitter
