/-
# `Sitter.ReportError` — when the worker sends an email

`sitter_worker::report_error` is called at the end of a pass with errors.  It
has four ways out:

    the pass's greatest priority is below the low priority     nothing happens
    the span of that priority has not elapsed                  nothing happens
    an email address is missing                                the file is written
    otherwise                                                  the file is written, and the
                                                               email is sent

The file is `last_email_time.txt` in the cache directory: the time of the last
email, as text.  It is all that stays from one call to the next, restarts
included, so it is the state of a run (`reporter`); the server, with whatever
options and caches it has at that time, is an input.

On runs whose calls have both addresses and a working file the reporter is the
throttle of `Base.Throttle` (`reporter_simulates`), and the spacing of emails is
the throttle's (`emailThrottle`).

The third way out is on the wrong side of the write: a call that sends nothing
takes the span of the next email with it (`suppressedMail_iff` says when).
-/
import Sitter.Settings
import Sitter.Base.Throttle

namespace Sitter

open Machine

/-- `libmimemail::email`, as far as the worker fills it. -/
structure Email where
  sender : String
  recipient : String
  urgent : Bool
  subject : String
  headers : List (String × String)
  htmlBody : String
  attachment : String
  attachmentHeaders : List (String × String)
  deriving DecidableEq, Repr

/-- What one call of `report_error` meets: the server, the clock, whether the
file can be read and written, and the texts that go into the email. -/
structure Report where
  server : Server
  now : Int
  startDate : Int
  readable : Bool
  writable : Bool
  json : String
  hostname : String
  version : String

structure ReportResult where
  server : Server
  file : Option String
  email : Option Email

/-- The subject counts the errors. -/
def Report.subject (r : Report) (errorCount : Int) : String :=
  "sitter: found " ++ toString errorCount ++ " error"
    ++ (if errorCount = 1 then "" else "s") ++ " on " ++ r.hostname

/-- The email with its body and its attachment. -/
def Report.email (r : Report) (s : Server) (fromEmail administratorEmail : String) : Email where
  sender := fromEmail
  recipient := administratorEmail
  urgent := true
  subject := r.subject s.getErrorCount
  headers := [("X-Sitter-Version", r.version)]
  htmlBody := "<p>" ++ r.json ++ "</p>"
  attachment := r.json
  attachmentHeaders := [("Content-Disposition", "sitter.json"),
    ("X-Start-Date", toString r.startDate)]

/-- The span that goes with the greatest priority of a pass: critical, else
medium, else low. -/
def Server.reportSpan (lib : Advgetopt) (s : Server) (maxErrorPriority : Int) :
    Option (Int × Server) :=
  (s.getErrorReportLowSpan lib).bind fun low =>
    (low.2.getErrorReportCriticalPriority lib).bind fun critical =>
      if maxErrorPriority ≥ critical.1 then critical.2.getErrorReportCriticalSpan lib
      else
        (critical.2.getErrorReportMediumPriority lib).bind fun medium =>
          if maxErrorPriority ≥ medium.1 then medium.2.getErrorReportMediumSpan lib
          else some (low.1, medium.2)

/-- The time that is stored in the file, when there is one that can be
decoded. -/
def lastMailDate (lib : Advgetopt) (file : Option String) : Option Int :=
  file.bind lib.integer

/-- The span has elapsed, or nothing is known of an earlier email. -/
def spanElapsed (lib : Advgetopt) (file : Option String) (now span : Int) : Bool :=
  match lastMailDate lib file with
  | none => true
  | some last => !decide (int64 (now - last) < span)

/-- `report_error`.  `none`: one of the getters read past the end of its
list. -/
def reportError (lib : Advgetopt) (file : Option String) (r : Report) : Option ReportResult :=
  (r.server.getErrorReportLowPriority lib).bind fun low =>
    if low.2.getMaxErrorPriority < low.1 then some ⟨low.2, file, none⟩
    else
      (low.2.reportSpan lib low.2.getMaxErrorPriority).map fun span =>
        if spanElapsed lib (readAll r.readable file) r.now span.1 then
          -- first save the time when we are sending the email
          let file := writeAll r.writable file (toString r.now)
          let fromEmail := span.2.getServerParameter "from_email"
          let administratorEmail := span.2.getServerParameter "administrator_email"
          if fromEmail = "" ∨ administratorEmail = "" then ⟨span.2, file, none⟩
          else ⟨span.2, file, some (r.email span.2 fromEmail administratorEmail)⟩
        else ⟨span.2, file, none⟩

/-! ## What a call decides, and what it does then

A call is due by the priorities and the span, and then it sends if there are
two addresses.  The time is written before the addresses are looked at. -/

def Server.MailSet (s : Server) : Prop :=
  s.getServerParameter "from_email" ≠ "" ∧ s.getServerParameter "administrator_email" ≠ ""

instance decMailSet (s : Server) : Decidable s.MailSet :=
  inferInstanceAs (Decidable (_ ∧ _))

/-- The span of the call's priority, when that priority is at least the low
priority. -/
def Report.span (lib : Advgetopt) (r : Report) : Option Int :=
  (r.server.getErrorReportLowPriority lib).bind fun low =>
    if low.2.getMaxErrorPriority < low.1 then none
    else (low.2.reportSpan lib low.2.getMaxErrorPriority).map Prod.fst

/-- The call gets past the priorities and the span. -/
def Report.due (lib : Advgetopt) (file : Option String) (r : Report) : Bool :=
  match r.span lib with
  | none => false
  | some span => spanElapsed lib (readAll r.readable file) r.now span

/-- What the getters of the three priorities leave alone: the options, and what
is cached of the statistics settings. -/
def Server.besideReports (s : Server) : Options × Int × Int × Int :=
  (s.opts, s.statisticsFrequency, s.statisticsPeriod, s.statisticsTtl)

section Options

variable {lib : Advgetopt} {s s' : Server} {value : Int}

/-- The getters put the pair they go by into the caches, and no more. -/
theorem besideReports_of_map {α : Type} {o : Option α} {f : α → Int × Server}
    (hf : ∀ a, (f a).2.besideReports = s.besideReports) (h : o.map f = some (value, s')) :
    s'.besideReports = s.besideReports := by
  obtain ⟨a, -, ha⟩ := Option.map_eq_some_iff.mp h
  rw [← hf a, ha]

theorem getLow_besideReports (h : s.getErrorReportLowPriority lib = some (value, s')) :
    s'.besideReports = s.besideReports :=
  besideReports_of_map (fun _ => rfl) (Server.getLow_eq s ▸ h)

theorem getMedium_besideReports (h : s.getErrorReportMediumPriority lib = some (value, s')) :
    s'.besideReports = s.besideReports :=
  besideReports_of_map (fun _ => rfl) (Server.getMedium_eq s ▸ h)

theorem getCritical_besideReports (h : s.getErrorReportCriticalPriority lib = some (value, s')) :
    s'.besideReports = s.besideReports :=
  besideReports_of_map (fun _ => rfl) (Server.getCritical_eq s ▸ h)

theorem reportSpan_besideReports {priority : Int}
    (h : s.reportSpan lib priority = some (value, s')) : s'.besideReports = s.besideReports := by
  obtain ⟨⟨low, s₁⟩, hlow, h⟩ := Option.bind_eq_some_iff.mp h
  obtain ⟨⟨_, _⟩, hget, hpair⟩ := Option.map_eq_some_iff.mp hlow
  cases hpair
  have h₁ := getLow_besideReports hget
  obtain ⟨⟨critical, s₂⟩, hcritical, h⟩ := Option.bind_eq_some_iff.mp h
  have h₂ := getCritical_besideReports hcritical
  dsimp only at h
  split at h
  · obtain ⟨⟨_, s₃⟩, hget, hpair⟩ := Option.map_eq_some_iff.mp h
    cases hpair
    rw [getCritical_besideReports hget, h₂, h₁]
  · obtain ⟨⟨medium, s₃⟩, hmedium, h⟩ := Option.bind_eq_some_iff.mp h
    have h₃ := getMedium_besideReports hmedium
    dsimp only at h
    split at h
    · obtain ⟨⟨_, s₄⟩, hget, hpair⟩ := Option.map_eq_some_iff.mp h
      cases hpair
      rw [getMedium_besideReports hget, h₃, h₂, h₁]
    · cases h
      rw [h₃, h₂, h₁]

/-- A call changes no more of the server than its getters do. -/
theorem reportError_besideReports {file : Option String} {r : Report} {res : ReportResult}
    (h : reportError lib file r = some res) :
    res.server.besideReports = r.server.besideReports := by
  obtain ⟨⟨low, s₁⟩, hlow, h⟩ := Option.bind_eq_some_iff.mp h
  have h₁ := getLow_besideReports hlow
  dsimp only at h
  split at h
  · cases h
    exact h₁
  · obtain ⟨⟨span, s₂⟩, hspan, hres⟩ := Option.map_eq_some_iff.mp h
    have h₂ := reportSpan_besideReports hspan
    have hserver : res.server = s₂ := by
      rw [← hres]
      dsimp only
      split
      · split <;> rfl
      · rfl
    rw [hserver, h₂, h₁]

theorem mailSet_congr (h : s'.opts = s.opts) : s'.MailSet ↔ s.MailSet := by
  simp only [Server.MailSet, Server.getServerParameter, h]

end Options

/-- **What a call does**: nothing, unless it is due; then the file is written,
and the email is sent if both addresses are set. -/
theorem reportError_cases (lib : Advgetopt) (file : Option String) (r : Report) :
    (reportError lib file r = none ∧ r.due lib file = false) ∨
    ∃ res, reportError lib file r = some res ∧
      ((r.due lib file = false ∧ res.file = file ∧ res.email = none) ∨
       (r.due lib file = true ∧ res.file = writeAll r.writable file (toString r.now) ∧
         (res.email.isSome ↔ r.server.MailSet))) := by
  simp only [reportError, Report.due, Report.span]
  cases hlow : r.server.getErrorReportLowPriority lib with
  | none => exact Or.inl ⟨rfl, rfl⟩
  | some low =>
      simp only [Option.bind_some]
      by_cases hp : low.2.getMaxErrorPriority < low.1
      · rw [if_pos hp, if_pos hp]
        exact Or.inr ⟨_, rfl, Or.inl ⟨rfl, rfl, rfl⟩⟩
      · rw [if_neg hp, if_neg hp]
        cases hspan : low.2.reportSpan lib low.2.getMaxErrorPriority with
        | none => exact Or.inl ⟨rfl, rfl⟩
        | some span =>
            have hopts : span.2.opts = r.server.opts := congrArg Prod.fst
              ((reportSpan_besideReports hspan).trans (getLow_besideReports hlow))
            have hmail := mailSet_congr hopts
            simp only [Option.map_some]
            refine Or.inr ⟨_, rfl, ?_⟩
            cases hdue : spanElapsed lib (readAll r.readable file) r.now span.1 with
            | false => exact Or.inl ⟨rfl, rfl, rfl⟩
            | true =>
                refine Or.inr ⟨rfl, ?_⟩
                simp only [if_true]
                split
                · next hmissing =>
                    refine ⟨rfl, iff_of_false (fun h => Bool.noConfusion h) ?_⟩
                    rw [← hmail]
                    rintro ⟨hfrom, hadmin⟩
                    exact hmissing.elim hfrom hadmin
                · next hset =>
                    rw [not_or] at hset
                    exact ⟨rfl, iff_of_true rfl (hmail.mp hset)⟩

/-- Runs of calls: the state is the file, the output the email. -/
def reporter (lib : Advgetopt) : Step (Option String) Report (Option Email) := fun file r =>
  match reportError lib file r with
  | none => (file, none)
  | some res => (res.file, res.email)

theorem reporter_not_due {lib : Advgetopt} {file : Option String} {r : Report}
    (h : r.due lib file = false) : reporter lib file r = (file, none) := by
  simp only [reporter]
  rcases reportError_cases lib file r with ⟨hnone, -⟩ | ⟨res, hres, ⟨-, hfile, hemail⟩ | ⟨hdue, -⟩⟩
  · rw [hnone]
  · rw [hres]
    exact Prod.ext hfile hemail
  · rw [h] at hdue
    nomatch hdue

theorem reporter_due {lib : Advgetopt} {file : Option String} {r : Report}
    (h : r.due lib file = true) :
    (reporter lib file r).1 = writeAll r.writable file (toString r.now) ∧
      ((reporter lib file r).2.isSome ↔ r.server.MailSet) := by
  simp only [reporter]
  rcases reportError_cases lib file r with ⟨-, hdue⟩ | ⟨res, hres, ⟨hdue, -⟩ | ⟨-, hfile, hemail⟩⟩
  · rw [h] at hdue
    nomatch hdue
  · rw [h] at hdue
    nomatch hdue
  · rw [hres]
    exact ⟨hfile, hemail⟩

/-! ## The reporter is a throttle

With a file that works, what is sent and what is stored are what a throttle
does with the requests of the calls.  What holds of throttles then holds of the
emails. -/

/-- A value the clock can have. -/
def IsTime (t : Int) : Prop := 0 ≤ t ∧ t < 2 ^ 63

/-- What the file holds, if it can be decoded, was a time of the clock. -/
def StoresTime (lib : Advgetopt) (file : Option String) : Prop :=
  ∀ t, lastMailDate lib file = some t → IsTime t

/-- A call with both addresses set and with a file that works. -/
structure Report.Deliverable (r : Report) : Prop where
  mailSet : r.server.MailSet
  readable : r.readable = true
  writable : r.writable = true
  isTime : IsTime r.now

/-- What the throttle sees of a call. -/
def Report.request (lib : Advgetopt) (r : Report) : Throttle.Request Int :=
  ⟨r.now, (r.span lib).isSome, (r.span lib).getD 0⟩

section Simulation

variable {lib : Advgetopt} {file : Option String} {r : Report}

theorem spanElapsed_iff {now : Int} (hnow : IsTime now) (hfile : StoresTime lib file)
    (span : Int) :
    spanElapsed lib file now span = true ↔
      Throttle.Elapsed (lastMailDate lib file) now span := by
  simp only [spanElapsed, Throttle.Elapsed]
  cases hlast : lastMailDate lib file with
  | none => simp
  | some last =>
      obtain ⟨hnow₀, hnow₁⟩ := hnow
      obtain ⟨hlast₀, hlast₁⟩ := hfile last hlast
      have hexact : int64 (now - last) = now - last := int64_of_range (by omega) (by omega)
      simp [hexact]

theorem due_iff_opens (hr : r.Deliverable) (hfile : StoresTime lib file) :
    r.due lib file = true ↔ Throttle.Opens (lastMailDate lib file) (r.request lib) := by
  simp only [Report.due, Throttle.Opens, Report.request]
  rw [hr.readable, readAll_true]
  cases r.span lib with
  | none => simp
  | some span => simpa using spanElapsed_iff hr.isTime hfile span

/-- **One call is one step of the throttle.** -/
theorem reporter_simulates (hlib : lib.ReadsBack) (hr : r.Deliverable)
    (hfile : StoresTime lib file) :
    StoresTime lib (reporter lib file r).1 ∧
      lastMailDate lib (reporter lib file r).1 =
        (Throttle.gate (lastMailDate lib file) (r.request lib)).1 ∧
      (reporter lib file r).2.isSome =
        (Throttle.gate (lastMailDate lib file) (r.request lib)).2 := by
  cases hdue : r.due lib file with
  | true =>
      obtain ⟨hwrite, hsend⟩ := reporter_due hdue
      have hopen := (due_iff_opens hr hfile).mp hdue
      rw [hr.writable, writeAll_true] at hwrite
      have hlast : lastMailDate lib (reporter lib file r).1 = some r.now := by
        rw [hwrite]
        exact hlib r.now hr.isTime.1 hr.isTime.2
      rw [Throttle.gate_open hopen, hlast, hsend.mpr hr.mailSet]
      refine ⟨?_, rfl, rfl⟩
      intro t ht
      rw [hlast] at ht
      cases ht
      exact hr.isTime
  | false =>
      have hshut : ¬ Throttle.Opens (lastMailDate lib file) (r.request lib) := by
        rw [← due_iff_opens hr hfile, hdue]
        exact Bool.noConfusion
      rw [reporter_not_due hdue, Throttle.gate_shut hshut]
      exact ⟨hfile, rfl, rfl⟩

theorem trace_reporter (hlib : lib.ReadsBack) (hfile : StoresTime lib file)
    {reports : List Report} (hok : ∀ r ∈ reports, r.Deliverable) :
    (trace (reporter lib) file reports).map
        (Event.map (lastMailDate lib) (Report.request lib) Option.isSome) =
      trace Throttle.gate (lastMailDate lib file) (reports.map (Report.request lib)) := by
  refine trace_simulates (I := StoresTime lib) (A := Report.Deliverable) ?_ hfile hok
  intro f r hf hr
  exact reporter_simulates hlib hr hf

end Simulation

/-! ## The tiers

In the words of the settings the priorities are divided into three tiers, each
with its span.  A call asks for the medium pair only if its priority is below
the critical one, so nothing is asked of that option otherwise. -/

/-- What the six getters return. -/
structure Tiers where
  low : Int
  lowSpan : Int
  medium : Int
  mediumSpan : Int
  critical : Int
  criticalSpan : Int
  deriving DecidableEq, Repr

/-- The span of a priority. -/
def Tiers.span (t : Tiers) (priority : Int) : Int :=
  if priority ≥ t.critical then t.criticalSpan
  else if priority ≥ t.medium then t.mediumSpan
  else t.lowSpan

/-- The getters that this priority takes return the values of the tiers. -/
structure Server.Selects (lib : Advgetopt) (s : Server) (priority : Int) (t : Tiers) : Prop where
  low : (s.getErrorReportLowPriority lib).map Prod.fst = some t.low
  lowSpan : (s.getErrorReportLowSpan lib).map Prod.fst = some t.lowSpan
  critical : (s.getErrorReportCriticalPriority lib).map Prod.fst = some t.critical
  criticalSpan : (s.getErrorReportCriticalSpan lib).map Prod.fst = some t.criticalSpan
  medium : priority < t.critical →
    (s.getErrorReportMediumPriority lib).map Prod.fst = some t.medium
  mediumSpan : priority < t.critical →
    (s.getErrorReportMediumSpan lib).map Prod.fst = some t.mediumSpan

section Selects

variable {lib : Advgetopt} {s : Server} {r : Report} {t : Tiers}

theorem selects_iff {priority : Int} :
    s.Selects lib priority t ↔
      s.lowPair lib = some (t.low, t.lowSpan) ∧
      (∃ cached, s.criticalRead lib = some (t.critical, cached, t.criticalSpan)) ∧
      (priority < t.critical → s.mediumPair lib = some (t.medium, t.mediumSpan)) := by
  have hpair : ∀ {o : Option (Int × Int)} {a b : Int},
      o = some (a, b) ↔ o.map Prod.fst = some a ∧ o.map Prod.snd = some b := by
    intro o a b
    cases o <;> simp [Prod.ext_iff]
  have hread : ∀ {o : Option (Int × Int × Int)} {a b : Int},
      (∃ cached, o = some (a, cached, b)) ↔
        o.map Prod.fst = some a ∧ o.map (fun c => c.2.2) = some b := by
    intro o a b
    cases o <;> simp [Prod.ext_iff]
  constructor
  · rintro ⟨hlow, hlowSpan, hcritical, hcriticalSpan, hmedium, hmediumSpan⟩
    rw [Server.getLow_fst] at hlow
    rw [Server.getLowSpan_fst] at hlowSpan
    rw [Server.getMedium_fst] at hmedium
    rw [Server.getMediumSpan_fst] at hmediumSpan
    rw [Server.getCritical_fst] at hcritical
    rw [Server.getCriticalSpan_fst] at hcriticalSpan
    exact ⟨hpair.mpr ⟨hlow, hlowSpan⟩, hread.mpr ⟨hcritical, hcriticalSpan⟩,
      fun h => hpair.mpr ⟨hmedium h, hmediumSpan h⟩⟩
  · rintro ⟨hlow, hcritical, hmedium⟩
    obtain ⟨hlow, hlowSpan⟩ := hpair.mp hlow
    obtain ⟨hcritical, hcriticalSpan⟩ := hread.mp hcritical
    exact ⟨(Server.getLow_fst s).trans hlow, (Server.getLowSpan_fst s).trans hlowSpan,
      (Server.getCritical_fst s).trans hcritical,
      (Server.getCriticalSpan_fst s).trans hcriticalSpan,
      fun h => (Server.getMedium_fst s).trans (hpair.mp (hmedium h)).1,
      fun h => (Server.getMediumSpan_fst s).trans (hpair.mp (hmedium h)).2⟩

/-- **The span that is chosen**, by the pairs of the server the choice began
with. -/
theorem reportSpan_fst {low : Int × Int} (hlow : s.lowPair lib = some low) (priority : Int) :
    ((s.cacheLow low).reportSpan lib priority).map Prod.fst =
      (s.criticalRead lib).bind fun critical =>
        if priority ≥ critical.1 then some critical.2.2
        else (s.mediumPair lib).map fun medium =>
          if priority ≥ medium.1 then medium.2 else low.2 := by
  have hlowAgain := Server.lowPair_cacheLow hlow
  simp only [Server.reportSpan]
  simp only [Server.getErrorReportLowSpan, Server.getLow_eq, hlowAgain, Option.map_some,
    Option.bind_some, Server.getCritical_eq]
  -- only an option's own cache decides what its getter finds, so each reading
  -- below is one of the readings of `s`
  rw [show ((s.cacheLow low).cacheLow low).criticalRead lib = s.criticalRead lib from rfl]
  cases hcritical : s.criticalRead lib with
  | none => rfl
  | some critical =>
      obtain ⟨again, hagain⟩ := Server.criticalRead_cacheCritical hcritical
      simp only [Option.map_some, Option.bind_some]
      split
      · simp only [Server.getErrorReportCriticalSpan, Server.getCritical_eq]
        rw [show (((s.cacheLow low).cacheLow low).cacheCritical critical.2).criticalRead lib =
          some (again, critical.2) from hagain]
        rfl
      · simp only [Server.getMedium_eq]
        rw [show (((s.cacheLow low).cacheLow low).cacheCritical critical.2).mediumPair lib =
          s.mediumPair lib from rfl]
        cases hmedium : s.mediumPair lib with
        | none => rfl
        | some medium =>
            have hmediumAgain := Server.mediumPair_cacheMedium hmedium
            simp only [Option.map_some, Option.bind_some]
            split
            · simp only [Server.getErrorReportMediumSpan, Server.getMedium_eq]
              rw [show ((((s.cacheLow low).cacheLow low).cacheCritical critical.2).cacheMedium
                medium).mediumPair lib = some medium from hmediumAgain]
              rfl
            · rfl

/-- **The span of a call is that of the tier its priority is in**, from the low
priority on. -/
theorem span_eq_some_iff {span : Int} :
    r.span lib = some span ↔
      ∃ t, r.server.Selects lib r.server.getMaxErrorPriority t ∧
        t.low ≤ r.server.getMaxErrorPriority ∧ t.span r.server.getMaxErrorPriority = span := by
  have hspan : r.span lib = (r.server.lowPair lib).bind fun low =>
      if r.server.getMaxErrorPriority < low.1 then none
      else ((r.server.cacheLow low).reportSpan lib r.server.getMaxErrorPriority).map Prod.fst := by
    rw [Report.span, Server.getLow_eq, Option.bind_map]
    rfl
  rw [hspan]
  generalize r.server.getMaxErrorPriority = priority
  constructor
  · intro h
    obtain ⟨low, hlow, h⟩ := Option.bind_eq_some_iff.mp h
    split at h
    · cases h
    · next hge =>
        rw [reportSpan_fst hlow] at h
        obtain ⟨critical, hcritical, h⟩ := Option.bind_eq_some_iff.mp h
        split at h
        · next hreached =>
            refine ⟨⟨low.1, low.2, 0, 0, critical.1, critical.2.2⟩, selects_iff.mpr
              ⟨hlow, ⟨critical.2.1, hcritical⟩, ?_⟩, Int.not_lt.mp hge, ?_⟩
            · exact fun hbelow => absurd hreached (Int.not_le.mpr hbelow)
            · rw [Tiers.span, if_pos hreached]
              exact Option.some.inj h
        · next hbelow =>
            obtain ⟨medium, hmedium, rfl⟩ := Option.map_eq_some_iff.mp h
            refine ⟨⟨low.1, low.2, medium.1, medium.2, critical.1, critical.2.2⟩,
              selects_iff.mpr ⟨hlow, ⟨critical.2.1, hcritical⟩, fun _ => hmedium⟩,
              Int.not_lt.mp hge, ?_⟩
            rw [Tiers.span, if_neg hbelow]
  · rintro ⟨t, hselects, hge, rfl⟩
    obtain ⟨hlow, ⟨cached, hcritical⟩, hmedium⟩ := selects_iff.mp hselects
    rw [hlow, Option.bind_some, if_neg (Int.not_lt.mpr hge), reportSpan_fst hlow, hcritical,
      Option.bind_some, Tiers.span]
    dsimp only
    split
    · rfl
    · next hbelow =>
        rw [hmedium (Int.not_le.mp hbelow)]
        rfl

end Selects

/-- What lets a call send, in the words of the settings: the greatest priority
of the pass reaches the low priority, and the span of its tier has passed since
the stored time, if there is one. -/
def Report.Permitted (lib : Advgetopt) (last : Option Int) (r : Report) : Prop :=
  ∃ t, r.server.Selects lib r.server.getMaxErrorPriority t ∧
    t.low ≤ r.server.getMaxErrorPriority ∧
    ∀ time, last = some time → t.span r.server.getMaxErrorPriority ≤ r.now - time

theorem opens_iff_permitted {lib : Advgetopt} {last : Option Int} {r : Report} :
    Throttle.Opens last (r.request lib) ↔ r.Permitted lib last := by
  simp only [Throttle.Opens, Report.request, Report.Permitted, Throttle.Elapsed]
  constructor
  · rintro ⟨hsome, helapsed⟩
    obtain ⟨span, hspan⟩ := Option.isSome_iff_exists.mp hsome
    obtain ⟨t, hselects, hge, rfl⟩ := span_eq_some_iff.mp hspan
    rw [hspan, Option.getD_some] at helapsed
    exact ⟨t, hselects, hge, helapsed⟩
  · rintro ⟨t, hselects, hge, helapsed⟩
    have hspan := span_eq_some_iff.mpr ⟨t, hselects, hge, rfl⟩
    simp only [hspan, Option.isSome_some, Option.getD_some, true_and]
    exact helapsed

/-- **The email throttle.**  In a run with a clock that does not go back, a
call sends exactly when it is permitted, and any two emails are apart by the
span the second call selected. -/
theorem emailThrottle (lib : Advgetopt) (hlib : lib.ReadsBack) (file : Option String)
    (hfile : StoresTime lib file) (reports : List Report)
    (hclock : reports.Pairwise (fun r r' => r.now ≤ r'.now))
    (hok : ∀ r ∈ reports, r.Deliverable) :
    (∀ e ∈ trace (reporter lib) file reports,
      e.output.isSome ↔ e.input.Permitted lib (lastMailDate lib e.before)) ∧
    (trace (reporter lib) file reports).Pairwise (fun e e' =>
      e.output.isSome → e'.output.isSome → e.input.now < e'.input.now →
        ∀ t, e'.input.server.Selects lib e'.input.server.getMaxErrorPriority t →
          t.span e'.input.server.getMaxErrorPriority ≤ e'.input.now - e.input.now) := by
  have hpermitted : ∀ e ∈ trace (reporter lib) file reports,
      e.output.isSome ↔ e.input.Permitted lib (lastMailDate lib e.before) := by
    refine trace_forall ?_ hfile hok
    intro f r hf hr
    obtain ⟨hnext, -, hout⟩ := reporter_simulates hlib hr hf
    refine ⟨hnext, ?_⟩
    rw [event_output, event_input, event_before, hout, Throttle.gate_output_iff,
      opens_iff_permitted]
  refine ⟨hpermitted, ?_⟩
  have hmono : (reports.map (Report.request lib)).Pairwise (fun r r' => r.now ≤ r'.now) :=
    List.pairwise_map.mpr hclock
  have hspaced := Throttle.trace_spaced hmono (lastMailDate lib file)
  rw [← trace_reporter hlib hfile hok, List.pairwise_map] at hspaced
  refine hspaced.imp_of_mem ?_
  intro e e' _ he' h hsent hsent' _ t hselects
  have hgap := h hsent hsent'
  -- what was sent had reached the low priority
  obtain ⟨t', hselects', hge, -⟩ := (hpermitted e' he').mp hsent'
  have hlow : t'.low = t.low := Option.some.inj (hselects'.low.symm.trans hselects.low)
  have hspan := span_eq_some_iff.mpr ⟨t, hselects, hlow ▸ hge, rfl⟩
  simpa only [Event.map, Report.request, hspan, Option.getD_some] using hgap

/-- Options that leave every setting at its default and give the two
addresses. -/
def Options.mail (fromEmail administratorEmail : String) : Options where
  isDefined _ := true
  getString name :=
    match name with
    | "from_email" => fromEmail
    | "administrator_email" => administratorEmail
    | _ => ""

/-- A call at `now` on a server just started with these options, after a pass
whose greatest priority was `priority`. -/
def Report.fresh (opts : Options) (priority now : Int) : Report where
  server := { Server.create opts with errorCount := 1, maxErrorPriority := priority }
  now := now
  startDate := now
  readable := true
  writable := true
  json := "{}"
  hostname := "host"
  version := "1.0"

/-- Two critical passes more than a day apart. -/
theorem emailThrottle_two_days :
    let reports := [Report.fresh (Options.mail "a@x.net" "b@x.net") 95 1700000000,
      Report.fresh (Options.mail "a@x.net" "b@x.net") 95 1700090000]
    (∀ e ∈ trace (reporter .decimal) none reports,
      e.output.isSome ↔ e.input.Permitted .decimal (lastMailDate .decimal e.before)) ∧
    (trace (reporter .decimal) none reports).Pairwise (fun e e' =>
      e.output.isSome → e'.output.isSome → e.input.now < e'.input.now →
        ∀ t, e'.input.server.Selects .decimal e'.input.server.getMaxErrorPriority t →
          t.span e'.input.server.getMaxErrorPriority ≤ e'.input.now - e.input.now) := by
  refine emailThrottle .decimal Advgetopt.decimal_readsBack none (fun _ h => nomatch h) _ ?_ ?_
  · simp [Report.fresh]
  · intro r hr
    simp only [List.mem_cons, List.not_mem_nil, or_false] at hr
    rcases hr with rfl | rfl <;> exact ⟨by decide, rfl, rfl, by decide, by decide⟩

/-! ## A call that sends nothing -/

/-- The call leaves the span alone if it sends nothing: it is not due, or both
addresses are set, or the write fails or writes the text that is there. -/
def SparesSpan (lib : Advgetopt) (e : Event (Option String) Report (Option Email)) : Prop :=
  e.input.due lib e.before = true →
    e.input.server.MailSet ∨ e.input.writable = false ∨ e.before = some (toString e.input.now)

theorem sparesSpan_iff (lib : Advgetopt) (file : Option String) (r : Report) :
    ((reporter lib file r).2 = none → (reporter lib file r).1 = file) ↔
      SparesSpan lib (event (reporter lib) file r) := by
  simp only [SparesSpan, event_input, event_before]
  cases hdue : r.due lib file with
  | false =>
      rw [reporter_not_due hdue]
      exact iff_of_true (fun _ => rfl) (fun h => nomatch h)
  | true =>
      obtain ⟨hwrite, hsend⟩ := reporter_due hdue
      rw [hwrite, ← Option.not_isSome_iff_eq_none, hsend]
      constructor
      · intro h _
        by_cases hmail : r.server.MailSet
        · exact Or.inl hmail
        · have hsame := h hmail
          cases hwritable : r.writable with
          | false => exact Or.inr (Or.inl rfl)
          | true =>
              rw [hwritable, writeAll_true] at hsame
              exact Or.inr (Or.inr hsame.symm)
      · intro h hmail
        rcases h rfl with hset | hwritable | hsame
        · exact absurd hset hmail
        · rw [hwritable, writeAll_false]
        · cases r.writable with
          | false => rfl
          | true => rw [writeAll_true, hsame]

/-- **The stored time moves only with an email, in exactly the runs whose calls
all spare the span.** -/
theorem suppressedMail_iff (lib : Advgetopt) (file : Option String) (reports : List Report) :
    (∀ e ∈ trace (reporter lib) file reports, e.output = none → e.after = e.before) ↔
      ∀ e ∈ trace (reporter lib) file reports, SparesSpan lib e :=
  trace_forall_iff (I := fun _ => True) (fun f r _ => sparesSpan_iff lib f r)
    (fun _ _ _ _ => trivial) trivial reports

/-- Without an administrator's address nothing is sent, yet the time is
stored; the call an hour later, which has the address, meets a young file. -/
theorem suppressedMail_missing_address :
    ¬ ∀ e ∈ trace (reporter .decimal) none
        [Report.fresh (Options.mail "a@x.net" "") 95 1700000000,
          Report.fresh (Options.mail "a@x.net" "b@x.net") 95 1700003600],
      e.output = none → e.after = e.before := by
  intro hall
  have hsame := hall _ List.mem_cons_self (by decide)
  exact absurd hsame (by decide)

end Sitter
