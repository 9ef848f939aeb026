/-
# `Sitter.Uncached` — the daemon, and a daemon without caches

The getters of a server keep what they have read, for as long as the process
runs, and fluid-settings may change what there is to read at any time.  The
daemon that is meant reads every setting when it needs it:

    cached      a server with its caches, kept over the passes
    uncached    the options, and a new server for each pass

Both do the same in every pass: the same document, the same data file, the same
email (`daemon_uncached`).  So a restart between two passes makes no
difference either.  What it takes is `Alike`: two servers with the same options
and the same counters, whose caches are coherent, one as well as the other.

A critical pair of more than two pieces is left out: its first reading is not
the one that is cached (`ErrorCoherence`).
-/
import Sitter.ErrorCoherence
import Sitter.PassReport
import Sitter.Retention
import Sitter.ServiceMails

namespace Sitter

open Machine Document

/-! ## Servers that answer alike -/

/-- The servers differ in what they have cached, and nowhere else. -/
structure Server.Alike (lib : Advgetopt) (s s' : Server) : Prop where
  opts : s'.opts = s.opts
  critical : CriticalPair lib s.opts
  counters : s'.counters = s.counters
  statistics : s.Coherent lib ∧ s'.Coherent lib
  errors : s.ErrorCoherent lib ∧ s'.ErrorCoherent lib

/-- The answers are the same, and the servers after them alike. -/
def SameAnswer (lib : Advgetopt) : Option (Int × Server) → Option (Int × Server) → Prop :=
  Option.Rel fun a b => b.1 = a.1 ∧ a.2.Alike lib b.2

section Rel

variable {α β γ δ : Type} {R : α → β → Prop} {Q : γ → δ → Prop} {a : Option α} {b : Option β}

theorem rel_bind (h : Option.Rel R a b) {f : α → Option γ} {g : β → Option δ}
    (hf : ∀ x y, R x y → Option.Rel Q (f x) (g y)) : Option.Rel Q (a.bind f) (b.bind g) := by
  cases h with
  | none => exact .none
  | some h => exact hf _ _ h

theorem rel_map (h : Option.Rel R a b) {f : α → γ} {g : β → δ}
    (hf : ∀ x y, R x y → Q (f x) (g y)) : Option.Rel Q (a.map f) (b.map g) := by
  cases h with
  | none => exact .none
  | some h => exact .some (hf _ _ h)

end Rel

section Getters

variable {lib : Advgetopt} {s s' : Server}

theorem read_besideReports {g : ErrorSetting} {value : Int} {t : Server}
    (h : g.read lib s = some (value, t)) : t.besideReports = s.besideReports := by
  cases reads_of_read h with
  | settleTime => exact settleTime_besideReports lib s
  | _ => rfl

/-- **Servers that are alike answer alike.** -/
theorem read_alike (h : s.Alike lib s') (g : ErrorSetting) :
    SameAnswer lib (g.read lib s) (g.read lib s') := by
  have hvalue : (g.read lib s).map Prod.fst = (g.read lib s').map Prod.fst := by
    rw [read_fresh h.errors.1 g fun _ => h.critical,
      read_fresh h.errors.2 g fun _ => h.opts ▸ h.critical, h.opts]
  cases hread : g.read lib s with
  | none =>
      rw [hread, Option.map_none, eq_comm, Option.map_eq_none_iff] at hvalue
      rw [hvalue]
      exact .none
  | some answer =>
      obtain ⟨value, t⟩ := answer
      cases hread' : g.read lib s' with
      | none =>
          rw [hread, hread'] at hvalue
          cases hvalue
      | some answer' =>
          obtain ⟨value', t'⟩ := answer'
          have hbeside := read_besideReports hread
          have hbeside' := read_besideReports hread'
          have hopts : t.opts = s.opts := congrArg Prod.fst hbeside
          rw [hread, hread'] at hvalue
          refine .some ⟨(Option.some.inj hvalue).symm, ?_, hopts ▸ h.critical, ?_, ?_, ?_⟩
          · exact (congrArg Prod.fst hbeside').trans (h.opts.trans hopts.symm)
          · exact (read_counters hread').trans (h.counters.trans (read_counters hread).symm)
          · exact ⟨coherent_congr hbeside h.statistics.1, coherent_congr hbeside' h.statistics.2⟩
          · exact ⟨read_coherent h.errors.1 hread, read_coherent h.errors.2 hread'⟩

theorem reportSpan_alike (h : s.Alike lib s') (priority : Int) :
    SameAnswer lib (s.reportSpan lib priority) (s'.reportSpan lib priority) := by
  refine rel_bind (read_alike h .lowSpan) ?_
  rintro ⟨low, t⟩ ⟨low', t'⟩ ⟨rfl, ht⟩
  refine rel_bind (read_alike ht .criticalPriority) ?_
  rintro ⟨critical, u⟩ ⟨critical', u'⟩ ⟨rfl, hu⟩
  dsimp only
  split
  · exact read_alike hu .criticalSpan
  · refine rel_bind (read_alike hu .mediumPriority) ?_
    rintro ⟨medium, v⟩ ⟨medium', v'⟩ ⟨rfl, hv⟩
    dsimp only
    split
    · exact read_alike hv .mediumSpan
    · exact .some ⟨rfl, hv⟩

theorem reportError_alike {r : Report} {s' : Server} (h : r.server.Alike lib s')
    (file : Option String) :
    Option.Rel (fun a b => a.server.Alike lib b.server ∧ b = { a with server := b.server })
      (reportError lib file r) (reportError lib file { r with server := s' }) := by
  refine rel_bind (read_alike h .lowPriority) ?_
  rintro ⟨low, t⟩ ⟨low', t'⟩ ⟨rfl, ht⟩
  have hmax : t'.getMaxErrorPriority = t.getMaxErrorPriority := congrArg Prod.snd ht.counters
  dsimp only
  rw [hmax]
  split
  · exact .some ⟨ht, rfl⟩
  · refine rel_map (reportSpan_alike ht t.getMaxErrorPriority) ?_
    rintro ⟨span, u⟩ ⟨span', u'⟩ ⟨rfl, hu⟩
    have hparameter : ∀ name, u'.getServerParameter name = u.getServerParameter name := by
      intro name
      rw [Server.getServerParameter, hu.opts]
      rfl
    have hcount : u'.getErrorCount = u.getErrorCount := congrArg Prod.fst hu.counters
    have hemail : ∀ fromEmail administratorEmail,
        Report.email { r with server := s' } u' fromEmail administratorEmail =
          r.email u fromEmail administratorEmail := by
      intro fromEmail administratorEmail
      rw [Report.email, hcount]
      rfl
    dsimp only
    rw [hparameter, hparameter]
    split
    · split
      · exact ⟨hu, rfl⟩
      · refine ⟨hu, ?_⟩
        rw [hemail]
    · exact ⟨hu, rfl⟩

end Getters

/-! ## Passes of servers that are alike

Each part of a pass keeps servers alike and makes the same of the document, in
the order of `run_plugins`. -/

section Pass

variable {lib : Advgetopt} {s s' : Server}

theorem countError_alike (h : s.Alike lib s') (priority : Int) :
    (s.countError priority).Alike lib (s'.countError priority) where
  opts := h.opts
  critical := h.critical
  counters := by
    have hcount : s'.errorCount = s.errorCount := congrArg Prod.fst h.counters
    have hmax : s'.maxErrorPriority = s.maxErrorPriority := congrArg Prod.snd h.counters
    simp only [Server.counters, Server.countError, hcount, hmax]
  statistics :=
    ⟨coherent_congr (s := s) rfl h.statistics.1, coherent_congr (s := s') rfl h.statistics.2⟩
  errors :=
    ⟨⟨h.errors.1.settleTime, h.errors.1.unset, h.errors.1.low, h.errors.1.medium,
        h.errors.1.critical⟩,
      ⟨h.errors.2.settleTime, h.errors.2.unset, h.errors.2.low, h.errors.2.medium,
        h.errors.2.critical⟩⟩

theorem pluginAction_alike (h : s.Alike lib s') (doc : Document Value) (a : PluginAction) :
    let b := pluginAction ⟨s, doc⟩ a
    let b' := pluginAction ⟨s', doc⟩ a
    b.1.server.Alike lib b'.1.server ∧ b' = (⟨b'.1.server, b.1.doc⟩, b.2) := by
  cases a with
  | set path value => exact ⟨h, rfl⟩
  | push path value => exact ⟨h, rfl⟩
  | appendError node pluginName message priority =>
      simp only [pluginAction, Server.appendError]
      split
      · exact ⟨countError_alike h priority, rfl⟩
      · exact ⟨countError_alike h priority, rfl⟩
  | throw what => exact ⟨h, rfl⟩

/-- The plugins cannot tell the two servers apart. -/
theorem processWatch_alike (actions : List PluginAction) :
    ∀ {s s' : Server} (doc : Document Value), s.Alike lib s' →
      let b := processWatch ⟨s, doc⟩ actions
      let b' := processWatch ⟨s', doc⟩ actions
      b.1.server.Alike lib b'.1.server ∧ b' = (⟨b'.1.server, b.1.doc⟩, b.2) := by
  induction actions with
  | nil => exact fun _ h => ⟨h, rfl⟩
  | cons a as ih =>
      intro s s' doc h
      obtain ⟨hnext, hsame⟩ := pluginAction_alike h doc a
      dsimp only
      rw [processWatch, processWatch, hsame]
      generalize (pluginAction ⟨s', doc⟩ a).1.server = t' at hnext ⊢
      generalize pluginAction ⟨s, doc⟩ a = b at hnext ⊢
      obtain ⟨⟨t, doc'⟩, raised⟩ := b
      cases raised with
      | none => exact ih doc' hnext
      | some what => exact ⟨hnext, rfl⟩

theorem saveData_alike (h : s.Alike lib s') (startDate : Int) (json : String) :
    (s'.saveData lib startDate json).1 = (s.saveData lib startDate json).1 ∧
      (s.saveData lib startDate json).2.Alike lib (s'.saveData lib startDate json).2 := by
  have hparameter : s'.getServerParameter "data_path" = s.getServerParameter "data_path" := by
    rw [Server.getServerParameter, h.opts]
    rfl
  have hperiod : (s'.getStatisticsPeriod lib).1 = (s.getStatisticsPeriod lib).1 := by
    rw [(getStatisticsPeriod_spec h.statistics.1).1, (getStatisticsPeriod_spec h.statistics.2).1,
      h.opts]
  have hkept : ∀ t : Server, t.ErrorCoherent lib →
      (t.getStatisticsPeriod lib).2.ErrorCoherent lib ∧
        (t.getStatisticsPeriod lib).2.counters = t.counters := by
    intro t ht
    simp only [Server.getStatisticsPeriod]
    split
    · exact ⟨⟨ht.settleTime, ht.unset, ht.low, ht.medium, ht.critical⟩, rfl⟩
    · exact ⟨ht, rfl⟩
  simp only [Server.saveData, hparameter]
  split
  · exact ⟨rfl, h⟩
  · obtain ⟨herrors, hcounters⟩ := hkept s h.errors.1
    obtain ⟨herrors', hcounters'⟩ := hkept s' h.errors.2
    rw [hperiod]
    refine ⟨rfl, ?_, ?_, ?_, ?_, herrors, herrors'⟩
    · rw [getStatisticsPeriod_opts, getStatisticsPeriod_opts]
      exact h.opts
    · rw [getStatisticsPeriod_opts]
      exact h.critical
    · rw [hcounters, hcounters']
      exact h.counters
    · exact ⟨(getStatisticsPeriod_spec h.statistics.1).2,
        (getStatisticsPeriod_spec h.statistics.2).2⟩

/-- **A pass does the same with either server.** -/
theorem runPlugins_alike (host : Host) (file : Option String) {S : Int} (p : Pass S)
    (h : s.clearErrors.Alike lib s'.clearErrors) :
    let r := runPlugins lib host s file p
    let r' := runPlugins lib host s' file p
    r.server.Alike lib r'.server ∧ r' = { r with server := r'.server } := by
  obtain ⟨hwatched, hsame⟩ := processWatch_alike p.actions
    (Document.empty.set (root ++ [.name "start_date"]) (Value.int p.startDate)) h
  dsimp only
  rw [runPlugins, runPlugins, hsame]
  generalize processWatch ⟨s.clearErrors, _⟩ p.actions = watched at hwatched ⊢
  generalize (processWatch ⟨s'.clearErrors, _⟩ p.actions).1.server = t' at hwatched ⊢
  obtain ⟨⟨t, doc⟩, raised⟩ := watched
  cases raised with
  | some what => exact ⟨hwatched, rfl⟩
  | none =>
      dsimp only
      generalize doc.set (root ++ [.name "end_date"]) (.int p.endDate) = doc
      split
      · exact ⟨hwatched, rfl⟩
      · obtain ⟨hdata, hsaved⟩ := saveData_alike hwatched p.startDate (host.render doc)
        rw [hdata]
        generalize t.saveData lib p.startDate (host.render doc) = saved at hsaved ⊢
        generalize (t'.saveData lib p.startDate (host.render doc)).2 = u' at hsaved ⊢
        have hcount : u'.getErrorCount = saved.2.getErrorCount := congrArg Prod.fst hsaved.counters
        rw [hcount]
        split
        · cases read_alike hsaved .settleTime with
          | some hsettle =>
              obtain ⟨hvalue, hsettled⟩ := hsettle
              rw [hvalue]
              split
              · have hreported := reportError_alike (r := { host with
                  server := (saved.2.getErrorReportSettleTime lib).2, now := p.now,
                  startDate := p.startDate, readable := p.readable, writable := p.writable,
                  json := host.render doc }) hsettled file
                generalize reportError lib file _ = o at hreported ⊢
                generalize reportError lib file _ = o' at hreported ⊢
                cases hreported with
                | none => exact ⟨hsettled, rfl⟩
                | some hreported =>
                    obtain ⟨hreported, hresult⟩ := hreported
                    rw [hresult]
                    exact ⟨hreported, rfl⟩
              · exact ⟨hsettled, rfl⟩
        · exact ⟨hsaved, rfl⟩

end Pass

/-! ## The two daemons

The abstraction empties the caches.  One step of the daemon is one step of the
one without caches, and from that each run. -/

/-- What happens to a daemon: passes, and what fluid-settings announces; or its
process ends, and another one starts. -/
inductive FluidCall (S : Int) where
  | pass (p : Pass S)
  | newValue (name text : String)
  | clearCache (name : String)
  | restart (opts : Options)

/-- The daemon with its caches. -/
def fluidDaemon (lib : Advgetopt) (host : Host) (S : Int) :
    Step Daemon (FluidCall S) (Option PassResult) := fun d call =>
  match call with
  | .pass p => daemon lib host S d (.pass p)
  | .newValue name text => ({ d with server := d.server.newValue name text }, none)
  | .clearCache name => daemon lib host S d (.clearCache name)
  | .restart opts => (Daemon.start opts d.file, none)

/-- The caches are empty, and the rest is as it was. -/
def Server.emptied (s : Server) : Server :=
  { Server.create s.opts with errorCount := s.errorCount, maxErrorPriority := s.maxErrorPriority }

/-- What a pass leaves behind, but for the caches. -/
def PassResult.uncached (r : PassResult) : PassResult := { r with server := r.server.emptied }

/-- A daemon without caches, or what is left of one when the caches are taken
away. -/
structure UncachedDaemon where
  opts : Options
  file : Option String
  running : Bool

/-- Every pass reads the options again. -/
def uncachedDaemon (lib : Advgetopt) (host : Host) (S : Int) :
    Step UncachedDaemon (FluidCall S) (Option PassResult) := fun d call =>
  match call with
  | .pass p =>
      if d.running then
        let r := runPlugins lib host (Server.create d.opts) d.file p
        (⟨d.opts, r.file, r.raised.isNone⟩, some r.uncached)
      else (d, none)
  | .newValue name text => ({ d with opts := d.opts.assign name text }, none)
  | .clearCache _ => (d, none)
  | .restart opts => (⟨opts, d.file, true⟩, none)

def Daemon.uncached (d : Daemon) : UncachedDaemon := ⟨d.server.opts, d.file, d.running⟩

/-- No critical option of more than two pieces is announced, or found at the
start. -/
def FluidCall.PairsCritical (lib : Advgetopt) {S : Int} : FluidCall S → Prop
  | .newValue name text =>
      optionWithDashes name = "error-report-critical-priority" →
        text = "" ∨ (lib.splitString text [","]).length ≤ 2
  | .restart opts => CriticalPair lib opts
  | _ => True

/-- What a run keeps of the caches. -/
structure Server.Cached (lib : Advgetopt) (s : Server) : Prop where
  critical : CriticalPair lib s.opts
  statistics : s.Coherent lib
  errors : s.ErrorCoherent lib

section Run

variable {lib : Advgetopt} {S : Int} {s : Server}

theorem alike_create (h : s.Cached lib) :
    s.clearErrors.Alike lib (Server.create s.opts).clearErrors where
  opts := rfl
  critical := h.critical
  counters := rfl
  statistics :=
    ⟨coherent_congr (s := s) rfl h.statistics, create_coherent s.opts⟩
  errors :=
    ⟨⟨h.errors.settleTime, h.errors.unset, h.errors.low, h.errors.medium, h.errors.critical⟩,
      create_errorCoherent s.opts⟩

theorem create_cached {opts : Options} (h : CriticalPair lib opts) :
    (Server.create opts).Cached lib :=
  ⟨h, create_coherent opts, create_errorCoherent opts⟩

theorem Server.Cached.newValue (h : s.Cached lib) {name text : String}
    (htext : FluidCall.PairsCritical lib (S := S) (.newValue name text)) :
    (s.newValue name text).Cached lib where
  critical := by
    have hopts : (s.newValue name text).opts = s.opts.assign name text := clearCache_opts _ _
    have hdashes : optionWithDashes PriorityOption.critical.name =
        "error-report-critical-priority" := by decide
    rw [hopts, CriticalPair]
    by_cases hname : optionWithDashes name = "error-report-critical-priority"
    · have hassigned : (s.opts.assign name text).getString PriorityOption.critical.name = text :=
        if_pos (hdashes.trans hname.symm)
      rw [hassigned]
      exact htext hname
    · rw [assign_getString_ne text (hdashes ▸ hname)]
      exact h.critical
  statistics := h.statistics.newValue name text
  errors := h.errors.newValue name text

theorem Server.Cached.clearCache (h : s.Cached lib) (name : String) :
    (s.clearCache name).Cached lib where
  critical := by
    rw [clearCache_opts]
    exact h.critical
  statistics := h.statistics.clearCache name
  errors := h.errors.clearCache name

theorem emptied_alike {s' : Server} (h : s.Alike lib s') : s'.emptied = s.emptied := by
  have hcount : s'.errorCount = s.errorCount := congrArg Prod.fst h.counters
  have hmax : s'.maxErrorPriority = s.maxErrorPriority := congrArg Prod.snd h.counters
  rw [Server.emptied, h.opts, hcount, hmax]
  rfl

/-- **One call**: the caches stay coherent, and the uncached daemon does the
same. -/
theorem fluidDaemon_step (host : Host) {d : Daemon} (h : d.server.Cached lib) {call : FluidCall S}
    (hcall : call.PairsCritical lib) :
    let r := fluidDaemon lib host S d call
    let r' := uncachedDaemon lib host S d.uncached call
    r.1.server.Cached lib ∧ r.1.uncached = r'.1 ∧ r.2.map PassResult.uncached = r'.2 := by
  cases call with
  | newValue name text =>
      refine ⟨h.newValue hcall, ?_, rfl⟩
      simp only [Daemon.uncached, fluidDaemon, uncachedDaemon]
      rw [show (d.server.newValue name text).opts = d.server.opts.assign name text from
        clearCache_opts _ _]
  | clearCache name =>
      refine ⟨h.clearCache name, ?_, rfl⟩
      simp only [Daemon.uncached, fluidDaemon, uncachedDaemon, daemon, clearCache_opts]
  | restart opts => exact ⟨create_cached hcall, rfl, rfl⟩
  | pass p =>
      obtain ⟨s, file, running⟩ := d
      cases running with
      | false => exact ⟨h, rfl, rfl⟩
      | true =>
          obtain ⟨halike, hsame⟩ := runPlugins_alike host file p (alike_create h)
          have hopts := (runPlugins_saves h.statistics host file p).2.1
          simp only [fluidDaemon, uncachedDaemon, daemon, Daemon.uncached, if_true]
          rw [hsame, hopts]
          refine ⟨⟨halike.critical, halike.statistics.1, halike.errors.1⟩, rfl, ?_⟩
          rw [Option.map_some, PassResult.uncached, PassResult.uncached, emptied_alike halike]

/-- **The caches make no difference**: in every run the daemon does in each step
what a daemon without caches does, restarts included. -/
theorem daemon_uncached (lib : Advgetopt) (host : Host) (S : Int) (opts : Options)
    (file : Option String) (hopts : CriticalPair lib opts) (calls : List (FluidCall S))
    (hcalls : ∀ call ∈ calls, call.PairsCritical lib) :
    (trace (fluidDaemon lib host S) (Daemon.start opts file) calls).map
        (Event.map Daemon.uncached id (Option.map PassResult.uncached)) =
      trace (uncachedDaemon lib host S) ⟨opts, file, true⟩ calls := by
  have hrun := trace_simulates (I := fun d => d.server.Cached lib)
    (A := fun call => call.PairsCritical lib) (β := id)
    (fun d call hd hcall => fluidDaemon_step (S := S) host hd hcall)
    (s := Daemon.start opts file) (create_cached hopts) hcalls
  rw [List.map_id] at hrun
  exact hrun

/-- The second pass goes by the new span, and the third one is another
process's. -/
theorem daemon_uncached_new_value :
    let host : Host := ⟨fun _ => "{}", "host", "1.0"⟩
    let opts := Options.mail "a@x.net" "b@x.net"
    let calls : List (FluidCall 1700000000) := [.pass (tenMinutePass 1700001000 (by decide)),
      .newValue "error-report-critical-priority" "90,3600",
      .pass (tenMinutePass 1700005000 (by decide)), .restart opts,
      .pass (tenMinutePass 1700009000 (by decide))]
    (trace (fluidDaemon .decimal host 1700000000) (Daemon.start opts none) calls).map
        (Event.map Daemon.uncached id (Option.map PassResult.uncached)) =
      trace (uncachedDaemon .decimal host 1700000000) ⟨opts, none, true⟩ calls := by
  intro host opts calls
  refine daemon_uncached .decimal host 1700000000 opts none (by decide) calls ?_
  intro call hcall
  simp only [calls, List.mem_cons, List.not_mem_nil, or_false] at hcall
  rcases hcall with rfl | rfl | rfl | rfl | rfl
  · exact trivial
  · exact fun _ => Or.inr (by decide)
  · exact trivial
  · exact show CriticalPair .decimal opts by decide
  · exact trivial

end Run

end Sitter
