/-
# `Sitter.PassReport` — the email says what the document says

The subject of an email gives a number of errors, the worker's decisions go by
a greatest priority, and the document that is attached has the errors
themselves.  The first two are counters of the server, and the third is what the
plugins put in the document.

For a pass of the plugins that gets to its end they are the same
(`runPlugins_true`), since calm actions leave the entries to `append_error` and
none of the getters between the plugins and the email touches a counter.  So it
is for every pass of a daemon (`reports_true`).
-/
import Sitter.ErrorCoherence
import Sitter.PluginPass

namespace Sitter

open Document Machine

/-! ## The getters of a report -/

/-- The settings one of which is the span of a report. -/
def ErrorSetting.spans : List ErrorSetting := [.lowSpan, .mediumSpan, .criticalSpan]

section Getters

variable {lib : Advgetopt} {I : Server → Prop}

/-- **The rule for choosing a span.**  What every getter keeps is kept, and the
span is one that a getter returned. -/
theorem reportSpan_invariant
    (hget : ∀ (g : ErrorSetting) (s : Server) (value : Int) (s' : Server), I s →
      g.read lib s = some (value, s') → I s')
    {s s' : Server} {priority span : Int} (hs : I s)
    (h : s.reportSpan lib priority = some (span, s')) :
    I s' ∧ ∃ g ∈ ErrorSetting.spans, ∃ t t', I t ∧ g.read lib t = some (span, t') := by
  obtain ⟨⟨low, s₁⟩, hlow, h⟩ := Option.bind_eq_some_iff.mp h
  have h₁ : I s₁ := hget .lowSpan s low s₁ hs hlow
  obtain ⟨⟨critical, s₂⟩, hcritical, h⟩ := Option.bind_eq_some_iff.mp h
  have h₂ : I s₂ := hget .criticalPriority s₁ critical s₂ h₁ hcritical
  dsimp only at h
  split at h
  · exact ⟨hget .criticalSpan s₂ span s' h₂ h, .criticalSpan, by decide, s₂, s', h₂, h⟩
  · obtain ⟨⟨medium, s₃⟩, hmedium, h⟩ := Option.bind_eq_some_iff.mp h
    have h₃ : I s₃ := hget .mediumPriority s₂ medium s₃ h₂ hmedium
    dsimp only at h
    split at h
    · exact ⟨hget .mediumSpan s₃ span s' h₃ h, .mediumSpan, by decide, s₃, s', h₃, h⟩
    · cases h
      exact ⟨h₃, .lowSpan, by decide, s, s₁, hs, hlow⟩

end Getters

/-! ## Nothing touches the counters between the plugins and the email -/

/-- The two counters. -/
def Server.counters (s : Server) : Int × Int := (s.errorCount, s.maxErrorPriority)

section Counters

variable {lib : Advgetopt} {s s' : Server}

theorem settleTime_counters (lib : Advgetopt) (s : Server) :
    (s.getErrorReportSettleTime lib).2.counters = s.counters := by
  simp only [Server.getErrorReportSettleTime]
  split
  · split <;> rfl
  · rfl

theorem read_counters {g : ErrorSetting} {value : Int} (h : g.read lib s = some (value, s')) :
    s'.counters = s.counters := by
  cases reads_of_read h with
  | settleTime => exact settleTime_counters lib s
  | _ => rfl

/-- A call keeps the counters, and its email is made of them. -/
theorem reportError_counters {file : Option String} {r : Report} {res : ReportResult}
    (h : reportError lib file r = some res) :
    res.server.counters = r.server.counters ∧ ∀ e, res.email = some e →
      e.attachment = r.json ∧ e.subject = r.subject r.server.errorCount := by
  obtain ⟨⟨low, s₁⟩, hlow, h⟩ := Option.bind_eq_some_iff.mp h
  have h₁ : s₁.counters = r.server.counters := read_counters (g := .lowPriority) hlow
  dsimp only at h
  split at h
  · cases h
    exact ⟨h₁, nofun⟩
  · obtain ⟨⟨span, s₂⟩, hspan, rfl⟩ := Option.map_eq_some_iff.mp h
    have h₂ : s₂.counters = r.server.counters :=
      (reportSpan_invariant (I := fun t => t.counters = r.server.counters)
        (fun _ _ _ _ hI hread => (read_counters hread).trans hI) h₁ hspan).1
    dsimp only
    split
    · split
      · exact ⟨h₂, nofun⟩
      · refine ⟨h₂, ?_⟩
        intro e he
        cases he
        exact ⟨rfl, congrArg r.subject (congrArg Prod.fst h₂)⟩
    · exact ⟨h₂, nofun⟩

theorem saveData_counters (lib : Advgetopt) (s : Server) (startDate : Int) (json : String) :
    (s.saveData lib startDate json).2.counters = s.counters := by
  simp only [Server.saveData, Server.getStatisticsPeriod]
  split
  · rfl
  · split <;> rfl

end Counters

/-! ## What a pass reports

The number of errors in the subject, the greatest priority and the attachment
all come from the one document of the pass. -/

/-- The subject for a number of errors. -/
def Host.subject (host : Host) (n : Int) : String :=
  "sitter: found " ++ toString n ++ " error" ++ (if n = 1 then "" else "s") ++ " on "
    ++ host.hostname

/-- The server and the email of a pass say what its document says. -/
structure ReportTrue (host : Host) (r : PassResult) : Prop where
  count : r.server.getErrorCount = (errorEntries r.doc).length
  top : r.server.getMaxErrorPriority = maxPriority (errorEntries r.doc)
  email : ∀ e, r.email = some e → 0 < (errorEntries r.doc).length ∧
    e.attachment = host.render r.doc ∧ e.subject = host.subject (errorEntries r.doc).length

section Pass

variable (lib : Advgetopt) (host : Host) (s : Server) (file : Option String) {S : Int}
  {p : Pass S}

/-- What a pass leaves whose plugins get to their end. -/
theorem runPlugins_leaves (hok : Completes p.actions) :
    let dated := Document.empty.set (root ++ [.name "start_date"]) (Value.int p.startDate)
    let watched := (processWatch ⟨s.clearErrors, dated⟩ p.actions).1
    let r := runPlugins lib host s file p
    r.doc = watched.doc.set (root ++ [.name "end_date"]) (.int p.endDate) ∧
      r.server.counters = watched.server.counters ∧
      ∀ e, r.email = some e → 0 < watched.server.errorCount ∧ e.attachment = host.render r.doc ∧
        e.subject = host.subject watched.server.errorCount := by
  intro dated watched r
  have hnone : processWatch ⟨s.clearErrors, dated⟩ p.actions = (watched, none) :=
    Prod.ext rfl (processWatch_completes.mpr hok)
  generalize watched = w at hnone ⊢
  have hr : r = runPlugins lib host s file p := rfl
  rw [hr, runPlugins]
  dsimp only
  rw [hnone]
  dsimp only
  generalize hdoc : w.doc.set (root ++ [.name "end_date"]) (.int p.endDate) = doc
  have hsaved := saveData_counters lib w.server p.startDate (host.render doc)
  generalize w.server.saveData lib p.startDate (host.render doc) = saved at hsaved ⊢
  split
  · exact ⟨rfl, rfl, fun _ he => by cases he⟩
  · split
    · next hcount =>
        have hcount' : 0 < w.server.errorCount := by
          have hsame : saved.2.errorCount = w.server.errorCount := congrArg Prod.fst hsaved
          exact hsame ▸ hcount
        have hsettle := (settleTime_counters lib saved.2).trans hsaved
        generalize saved.2.getErrorReportSettleTime lib = settle at hsettle ⊢
        split
        · split
          · exact ⟨rfl, hsettle, fun _ he => by cases he⟩
          · next res hres =>
              obtain ⟨hcounters, hemail⟩ := reportError_counters hres
              refine ⟨rfl, hcounters.trans hsettle, ?_⟩
              intro e he
              obtain ⟨hattachment, hsubject⟩ := hemail e he
              refine ⟨hcount', hattachment, hsubject.trans ?_⟩
              exact congrArg host.subject (congrArg Prod.fst hsettle)
        · exact ⟨rfl, hsettle, fun _ he => by cases he⟩
    · exact ⟨rfl, hsaved, fun _ he => by cases he⟩

/-- **A pass of calm actions that gets to its end reports the truth.** -/
theorem runPlugins_true (hcalm : ∀ a ∈ p.actions, a.Calm) (hok : Completes p.actions)
    (hroom : countErrors p.actions < 2 ^ 31) :
    ReportTrue host (runPlugins lib host s file p) := by
  obtain ⟨hdoc, hcounters, hemail⟩ := runPlugins_leaves lib host s file hok
  have hstart : errorEntries (Document.empty.set (root ++ [.name "start_date"])
      (Value.int p.startDate)) = [] := errorEntries_set_calm rfl "start_date" _
  obtain ⟨hentries, hcount, htop⟩ := processWatch_accounted hcalm hok s hstart
  have hend : errorEntries (runPlugins lib host s file p).doc = entriesOf p.actions := by
    rw [hdoc, errorEntries_set_calm rfl "end_date", hentries]
  have hint : int32 (entriesOf p.actions).length = (entriesOf p.actions).length := by
    rw [length_entriesOf]
    exact int32_of_range (by omega) (by exact_mod_cast hroom)
  rw [hentries] at hcount htop
  rw [hcount, hint] at hemail
  refine ⟨?_, ?_, ?_⟩
  · rw [hend]
    exact (congrArg Prod.fst hcounters).trans (hcount.trans hint)
  · rw [hend]
    exact (congrArg Prod.snd hcounters).trans htop
  · intro e he
    rw [hend]
    obtain ⟨hpositive, hattachment, hsubject⟩ := hemail e he
    exact ⟨by exact_mod_cast hpositive, hattachment, hsubject⟩

end Pass

/-! ## Every pass of a daemon -/

section Run

variable {S : Int}

/-- The plugins of a pass are some of the thirteen, in some order. -/
def Pass.OfPlugins (p : Pass S) : Prop :=
  ∃ (w : PassInputs) (order : List Plugin), p.actions = order.flatMap w.watch

/-- **Every pass that gets to its end reports the truth**, whatever the daemon
was told between the passes. -/
theorem reports_true (lib : Advgetopt) (host : Host) (opts : Options) (file : Option String)
    (calls : List (DaemonCall S)) (hplugins : ∀ p, .pass p ∈ calls → p.OfPlugins)
    (hroom : ∀ p, .pass p ∈ calls → countErrors p.actions < 2 ^ 31) :
    ∀ e ∈ trace (daemon lib host S) (Daemon.start opts file) calls,
      ∀ r, e.output = some r → r.raised = none → ReportTrue host r := by
  refine trace_forall (I := fun _ => True) (A := fun call => call ∈ calls) ?_ trivial
    fun call hcall => hcall
  intro d call _ hcall
  refine ⟨trivial, ?_⟩
  rw [event_output]
  intro r hr hnone
  cases call with
  | clearCache name => cases hr
  | change opts => cases hr
  | pass p =>
      rw [daemon] at hr
      split at hr
      · cases hr
        obtain ⟨w, order, hactions⟩ := hplugins p hcall
        have hcalm : ∀ a ∈ p.actions, a.Calm := hactions ▸ Team.calm_flatMap (t := w.team)
        exact runPlugins_true lib host d.server d.file hcalm (runPlugins_raised.mp hnone)
          (hroom p hcall)
      · cases hr

/-- A pass of two plugins, which takes 20 minutes. -/
def firewallPass : Pass 1700000000 where
  startDate := 1700003600
  endDate := 1700004800
  now := 1700004800
  actions := [Plugin.firewall, .scripts].flatMap PassInputs.busyHost.watch
  readable := true
  writable := true
  epoch := by decide
  began := by decide
  ended := by decide
  fits := by decide

theorem firewallPass_ofPlugins : firewallPass.OfPlugins :=
  ⟨.busyHost, [.firewall, .scripts], rfl⟩

/-- Of a daemon that is told of it twice, with new options between. -/
theorem reports_true_firewall :
    let calls := [.pass firewallPass, .change Options.unset, .pass firewallPass]
    ∀ e ∈ trace (daemon .decimal ⟨fun _ => "{}", "host", "1.0"⟩ 1700000000)
        (Daemon.start (Options.mail "a@x.net" "b@x.net") none) calls,
      ∀ r, e.output = some r → r.raised = none → ReportTrue ⟨fun _ => "{}", "host", "1.0"⟩ r := by
  intro calls
  have hpass : ∀ p : Pass 1700000000, .pass p ∈ calls → p = firewallPass := by
    intro p hp
    simpa [calls] using hp
  refine reports_true _ _ _ _ calls ?_ ?_
  · intro p hp
    exact hpass p hp ▸ firewallPass_ofPlugins
  · intro p hp
    obtain rfl := hpass p hp
    decide

end Run

end Sitter
