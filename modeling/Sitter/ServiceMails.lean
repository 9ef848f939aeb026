/-
# `Sitter.ServiceMails` — the emails of a service, over all its lives

`ReportError` has the throttle of one function, for calls that come from
nowhere.  Here the calls come from passes, the passes from a daemon whose
settings change under it, and the daemon from a service that may be restarted
at any time; what stays over all that is the file of the last email.

    a span         the caches of a server stay in range (`SettingsOk`), and the
                   smallest span in range is that of critical: five minutes
    an email       writes its time, so a later one is a span away from it

So two emails are five minutes apart, whatever the plugins find and whatever
the settings say (`mails_apart`).  Addresses play no part in it: a pass that is
due and has none writes its time all the same.
-/
import Sitter.PassReport

namespace Sitter

open Machine

/-! ## Spans in range -/

section Settings

variable {lib : Advgetopt} {s s' : Server} {value : Int}

theorem read_settingsOk (hs : s.SettingsOk) {g : ErrorSetting}
    (h : g.read lib s = some (value, s')) : s'.SettingsOk := by
  cases reads_of_read h with
  | settleTime => exact settleTime_settingsOk hs
  | lowPriority hpair | lowSpan hpair => exact hs.cacheLow (hs.lowPair_holds hpair)
  | mediumPriority hpair | mediumSpan hpair => exact hs.cacheMedium (hs.mediumPair_holds hpair)
  | criticalPriority hread | criticalSpan hread =>
      exact hs.cacheCritical (hs.criticalRead_holds hread)

/-- A span that is returned is five minutes at least. -/
theorem span_settingsOk (hs : s.SettingsOk) {g : ErrorSetting} (hg : g ∈ ErrorSetting.spans)
    (h : g.read lib s = some (value, s')) : 300 ≤ value := by
  cases reads_of_read h with
  | lowSpan hpair => exact le_trans (by decide) (hs.lowPair_holds hpair).span_low
  | mediumSpan hpair => exact le_trans (by decide) (hs.mediumPair_holds hpair).span_low
  | criticalSpan hread => exact (hs.criticalRead_holds hread).span_low
  | settleTime | lowPriority | mediumPriority | criticalPriority =>
      exact absurd hg (by decide)

theorem reportSpan_settingsOk {priority span : Int} (hs : s.SettingsOk)
    (h : s.reportSpan lib priority = some (span, s')) : s'.SettingsOk ∧ 300 ≤ span := by
  obtain ⟨hkept, g, hg, t, t', ht, hread⟩ :=
    reportSpan_invariant (fun _ _ _ _ hI hget => read_settingsOk hI hget) hs h
  exact ⟨hkept, span_settingsOk ht hg hread⟩

/-- A call of `report_error` keeps the caches in range, and is due only when
five minutes have passed since the time that is stored. -/
theorem reportError_settingsOk {file : Option String} {r : Report} {res : ReportResult}
    (hs : r.server.SettingsOk) (h : reportError lib file r = some res) :
    res.server.SettingsOk ∧
      (r.due lib file = true →
        ∃ span, 300 ≤ span ∧ spanElapsed lib (readAll r.readable file) r.now span = true) := by
  simp only [Report.due, Report.span]
  obtain ⟨⟨low, s₁⟩, hlow, h⟩ := Option.bind_eq_some_iff.mp h
  have hs₁ : s₁.SettingsOk := read_settingsOk hs (g := .lowPriority) hlow
  rw [hlow, Option.bind_some]
  dsimp only at h ⊢
  split at h
  · next hless =>
      cases h
      rw [if_pos hless]
      exact ⟨hs₁, fun hdue => absurd hdue Bool.false_ne_true⟩
  · next hless =>
      obtain ⟨⟨span, s₂⟩, hspan, hres⟩ := Option.map_eq_some_iff.mp h
      obtain ⟨hs₂, hlong⟩ := reportSpan_settingsOk hs₁ hspan
      rw [if_neg hless, hspan, Option.map_some]
      refine ⟨?_, fun hdue => ⟨span, hlong, hdue⟩⟩
      have hserver : res.server = s₂ := by
        rw [← hres]
        dsimp only
        split
        · split <;> rfl
        · rfl
      rw [hserver]
      exact hs₂

theorem pluginAction_settingsOk {st : PassState} (a : PluginAction) (hs : st.server.SettingsOk) :
    (pluginAction st a).1.server.SettingsOk := by
  cases a with
  | set path value => exact hs
  | push path value => exact hs
  | appendError node plugin message priority =>
      simp only [pluginAction, appendError_server]
      exact ⟨hs.low, hs.medium, hs.critical⟩
  | throw what => exact hs

theorem processWatch_settingsOk {actions : List PluginAction} {st : PassState}
    (hs : st.server.SettingsOk) : (processWatch st actions).1.server.SettingsOk := by
  induction actions generalizing st with
  | nil => exact hs
  | cons a as ih =>
      have hnext := pluginAction_settingsOk a hs
      rw [processWatch]
      cases hstep : pluginAction st a with
      | mk st' raised =>
          rw [hstep] at hnext
          cases raised with
          | none => exact ih hnext
          | some what => exact hnext

end Settings

/-! ## What a pass does to the file -/

/-- The file is as it was and no email was sent, or it holds the time of the
pass, five minutes after the one that it held. -/
inductive Mailed (lib : Advgetopt) (file file' : Option String) (now : Int) :
    Option Email → Prop
  | quiet (h : file' = file) : Mailed lib file file' now none
  | due (email : Option Email) (hstored : lastMailDate lib file' = some now)
      (hlater : ∀ t, lastMailDate lib file = some t → t + 300 ≤ now) :
      Mailed lib file file' now email

/-- A pass with a clock and a file that work. -/
structure Pass.Works {S : Int} (p : Pass S) : Prop where
  readable : p.readable = true
  writable : p.writable = true
  isTime : IsTime p.now

section Pass

variable {lib : Advgetopt} {s : Server} {file : Option String} {S : Int} {p : Pass S}

theorem reportError_mailed (hlib : lib.ReadsBack) (hfile : StoresTime lib file) {r : Report}
    (hreadable : r.readable = true) (hwritable : r.writable = true) (hnow : IsTime r.now)
    (hs : r.server.SettingsOk) {res : ReportResult} (h : reportError lib file r = some res) :
    res.server.SettingsOk ∧ Mailed lib file res.file r.now res.email := by
  obtain ⟨hkept, hspan⟩ := reportError_settingsOk hs h
  refine ⟨hkept, ?_⟩
  rcases reportError_cases lib file r with ⟨hnone, -⟩ | ⟨res', hres, hcases⟩
  · cases h.symm.trans hnone
  · cases h.symm.trans hres
    rcases hcases with ⟨-, hfile', hemail⟩ | ⟨hdue, hfile', -⟩
    · rw [hemail]
      exact .quiet hfile'
    · obtain ⟨span, hlong, helapsed⟩ := hspan hdue
      rw [hreadable, readAll_true] at helapsed
      have hgap := (spanElapsed_iff hnow hfile span).mp helapsed
      refine .due _ ?_ ?_
      · rw [hfile', hwritable, writeAll_true]
        exact hlib r.now hnow.1 hnow.2
      · intro t ht
        have hlate := hgap t ht
        omega

/-- **What a pass leaves**: caches in range, and a file that is as it was or
holds the time of the pass. -/
theorem runPlugins_mailed (host : Host) (hlib : lib.ReadsBack) (hfile : StoresTime lib file)
    (hp : p.Works) (hs : s.SettingsOk) :
    (runPlugins lib host s file p).server.SettingsOk ∧
      Mailed lib file (runPlugins lib host s file p).file p.now
        (runPlugins lib host s file p).email := by
  have hcleared : s.clearErrors.SettingsOk := ⟨hs.low, hs.medium, hs.critical⟩
  have hwatched : ∀ doc, (processWatch ⟨s.clearErrors, doc⟩ p.actions).1.server.SettingsOk :=
    fun _ => processWatch_settingsOk hcleared
  rw [runPlugins]
  dsimp only
  specialize hwatched (Document.empty.set (root ++ [.name "start_date"]) (.int p.startDate))
  generalize processWatch _ p.actions = watched at hwatched ⊢
  obtain ⟨⟨server, doc⟩, raised⟩ := watched
  cases raised with
  | some what => exact ⟨hwatched, .quiet rfl⟩
  | none =>
      dsimp only
      split
      · exact ⟨hwatched, .quiet rfl⟩
      · have hsaved : ∀ json, (server.saveData lib p.startDate json).2.SettingsOk := by
          intro json
          rw [Server.saveData]
          dsimp only
          split
          · exact hwatched
          · exact period_settingsOk lib hwatched
        have hsaved' := hsaved (host.render (doc.set (root ++ [.name "end_date"]) (.int p.endDate)))
        generalize server.saveData lib p.startDate _ = saved at hsaved' ⊢
        split
        · have hsettle := @settleTime_settingsOk lib _ hsaved'
          split
          · split
            · exact ⟨hsettle, .quiet rfl⟩
            · next res hres =>
                exact reportError_mailed hlib hfile hp.readable hp.writable hp.isTime hsettle hres
          · exact ⟨hsettle, .quiet rfl⟩
        · exact ⟨hsaved', .quiet rfl⟩

end Pass

/-! ## The service

A restart keeps the file and loses the caches.  As every span in range is five
minutes at least, two emails are that far apart whatever happens between them. -/

/-- What happens to a service. -/
inductive ServiceCall (S : Int) where
  | call (c : DaemonCall S)
  /-- the process ends, and another one starts -/
  | restart (opts : Options)

/-- A service whose first daemon was started at `S`. -/
def service (lib : Advgetopt) (host : Host) (S : Int) :
    Step Daemon (ServiceCall S) (Option PassResult) := fun d call =>
  match call with
  | .call c => daemon lib host S d c
  | .restart opts => (Daemon.start opts d.file, none)

def ServiceCall.pass {S : Int} : ServiceCall S → Option (Pass S)
  | .call (.pass p) => some p
  | _ => none

/-- When an email was sent, if one was. -/
def mailTime {S : Int} (e : Event Daemon (ServiceCall S) (Option PassResult)) : Option Int :=
  (e.output.bind PassResult.email).bind fun _ => e.input.pass.map Pass.now

section Service

variable {lib : Advgetopt} {S : Int} {d : Daemon} {c : ServiceCall S}

/-- What stays true of a service. -/
structure Daemon.MailOk (lib : Advgetopt) (d : Daemon) : Prop where
  settings : d.server.SettingsOk
  file : StoresTime lib d.file

/-- The file is as it was and no email was sent, or there was a pass: the file
holds its time, five minutes after the one that it held. -/
def MailStep (lib : Advgetopt) {S : Int} (e : Event Daemon (ServiceCall S) (Option PassResult)) :
    Prop :=
  (e.after.file = e.before.file ∧ mailTime e = none) ∨
    ∃ p ∈ e.input.pass, lastMailDate lib e.after.file = some p.now ∧
      ∀ t, lastMailDate lib e.before.file = some t → t + 300 ≤ p.now

theorem mailTime_eq_some {e : Event Daemon (ServiceCall S) (Option PassResult)} {p : Pass S}
    (hp : p ∈ e.input.pass) {t : Int} (h : mailTime e = some t) : t = p.now := by
  obtain ⟨email, -, hpass⟩ := Option.bind_eq_some_iff.mp h
  rw [Option.mem_def.mp hp] at hpass
  exact (Option.some.inj hpass).symm

/-- **One call**: it has nothing to do with the file, or it is a pass. -/
theorem service_mailed (host : Host) (hlib : lib.ReadsBack) (hd : d.MailOk lib)
    (hworks : ∀ p ∈ c.pass, p.Works) :
    (service lib host S d c).1.server.SettingsOk ∧
      MailStep lib (event (service lib host S) d c) := by
  cases c with
  | restart opts => exact ⟨Server.create_settingsOk opts, Or.inl ⟨rfl, rfl⟩⟩
  | call c =>
      cases c with
      | clearCache name => exact ⟨hd.settings.clearCache name, Or.inl ⟨rfl, rfl⟩⟩
      | change opts =>
          exact ⟨⟨hd.settings.low, hd.settings.medium, hd.settings.critical⟩, Or.inl ⟨rfl, rfl⟩⟩
      | pass p =>
          have hp : p.Works := hworks p rfl
          simp only [MailStep, mailTime, event_output, event_input, event_before, event_after,
            service, daemon]
          split
          · obtain ⟨hkept, hmailed⟩ := runPlugins_mailed host hlib hd.file hp hd.settings
            refine ⟨hkept, ?_⟩
            dsimp only
            generalize runPlugins lib host d.server d.file p = r at hmailed ⊢
            cases hemail : r.email with
            | none =>
                rw [hemail] at hmailed
                cases hmailed with
                | quiet hfile => exact Or.inl ⟨hfile, by simp [hemail]⟩
                | due _ hstored hlater => exact Or.inr ⟨p, rfl, hstored, hlater⟩
            | some email =>
                rw [hemail] at hmailed
                cases hmailed with
                | due _ hstored hlater => exact Or.inr ⟨p, rfl, hstored, hlater⟩
          · exact ⟨hd.settings, Or.inl ⟨rfl, rfl⟩⟩

/-- A service stays what it is. -/
theorem service_mailOk (host : Host) (hlib : lib.ReadsBack) (hd : d.MailOk lib)
    (hworks : ∀ p ∈ c.pass, p.Works) :
    (service lib host S d c).1.MailOk lib ∧ MailStep lib (event (service lib host S) d c) := by
  obtain ⟨hsettings, hstep⟩ := service_mailed host hlib hd hworks
  refine ⟨⟨hsettings, ?_⟩, hstep⟩
  rcases hstep with ⟨hsame, -⟩ | ⟨p, hp, hstored, -⟩
  · have hfile : (service lib host S d c).1.file = d.file := hsame
    rw [hfile]
    exact hd.file
  · intro t ht
    cases hstored.symm.trans ht
    exact (hworks p hp).isTime

end Service

/-- **Two emails are five minutes apart**, whatever the plugins do and whatever
settings the service is given, restarts included. -/
theorem mails_apart (lib : Advgetopt) (hlib : lib.ReadsBack) (host : Host) (S : Int)
    (opts : Options) (file : Option String) (hfile : StoresTime lib file)
    (calls : List (ServiceCall S)) (hworks : ∀ c ∈ calls, ∀ p ∈ c.pass, p.Works) :
    (trace (service lib host S) (Daemon.start opts file) calls).Pairwise fun e e' =>
      ∀ t t', mailTime e = some t → mailTime e' = some t' → t + 300 ≤ t' := by
  refine trace_pairwise (I := Daemon.MailOk lib) (R := fun _ _ => True)
    (K := fun e d => ∀ t, mailTime e = some t → ∃ t', lastMailDate lib d.file = some t' ∧ t ≤ t')
    ?_ ?_ ⟨Server.create_settingsOk opts, hfile⟩ hworks (List.pairwise_of_forall fun _ _ => trivial)
  · intro d c hd hc
    obtain ⟨hnext, hcases⟩ := service_mailOk host hlib hd hc
    refine ⟨hnext, ?_⟩
    intro t ht
    rcases hcases with ⟨-, hnone⟩ | ⟨p, hp, hstored, -⟩
    · cases hnone.symm.trans ht
    · exact ⟨p.now, hstored, (mailTime_eq_some hp ht).le⟩
  · intro e d c hd hK hc _
    obtain ⟨-, hcases⟩ := service_mailOk host hlib hd hc
    refine ⟨?_, ?_⟩
    · intro t ht
      obtain ⟨t', ht', hle⟩ := hK t ht
      rcases hcases with ⟨hsame, -⟩ | ⟨p, -, hstored, hlater⟩
      · exact ⟨t', (congrArg (lastMailDate lib) hsame).trans ht', hle⟩
      · have hlate := hlater t' ht'
        exact ⟨p.now, hstored, by omega⟩
    · intro t u ht hu
      obtain ⟨t', ht', hle⟩ := hK t ht
      rcases hcases with ⟨-, hnone⟩ | ⟨p, hp, -, hlater⟩
      · cases hnone.symm.trans hu
      · have hlate := hlater t' ht'
        have hnow := mailTime_eq_some hp hu
        omega

/-- A pass of ten minutes with one error, and the email right after it. -/
def tenMinutePass (startDate : Int) (h : 1700000000 ≤ startDate ∧ startDate < 1800000000) :
    Pass 1700000000 where
  startDate
  endDate := startDate + 600
  now := startDate + 600
  actions := [.appendError passNode "cpu" "High CPU usage." 95]
  readable := true
  writable := true
  epoch := by omega
  began := h.1
  ended := by omega
  fits := by omega

theorem tenMinutePass_works (startDate : Int)
    (h : 1700000000 ≤ startDate ∧ startDate < 1800000000) : (tenMinutePass startDate h).Works := by
  refine ⟨rfl, rfl, ?_, ?_⟩ <;> simp only [tenMinutePass] <;> omega

/-- A service is asked for an email three times in eleven minutes: the second
comes too early, the third does not. -/
theorem mails_apart_restarted :
    let opts := (Options.mail "a@x.net" "b@x.net").replace "error_report_critical_priority" "90,300"
    let calls := [.call (.pass (tenMinutePass 1700000000 (by decide))),
      .call (.pass (tenMinutePass 1700000060 (by decide))), .restart opts,
      .call (.pass (tenMinutePass 1700000300 (by decide)))]
    let run := trace (service .decimal ⟨fun _ => "{}", "host", "1.0"⟩ 1700000000)
      (Daemon.start opts none) calls
    run.map mailTime = [some 1700000600, none, none, some 1700000900] ∧
      run.Pairwise fun e e' =>
        ∀ t t', mailTime e = some t → mailTime e' = some t' → t + 300 ≤ t' := by
  intro opts calls run
  have hnone : StoresTime .decimal none := nofun
  refine ⟨by decide, mails_apart _ Advgetopt.decimal_readsBack _ _ _ _ hnone calls ?_⟩
  simp [calls, ServiceCall.pass, tenMinutePass_works]

end Sitter
