/-
# `Sitter.Retention` — how long the results of a pass stay on disk

The worker of `Sitter.Ticks`, with a clock:

    wait n      n seconds go by
    timeout     the timer expires: a tick, and the next one not before another
                get_statistics_frequency() seconds
    worker      the worker's next step; where it begins a pass, the clock is read
    passEnd p   the pass that began then ends, with what its plugins did
    spurious, stop, wakeup

A pass saves its results under the minute it began in (`Sitter.DataFiles`), so
the results of two passes less than a period, less a minute, apart are both
kept exactly if the passes began in different minutes (`keepsRecent_iff`).  The
ticks are a minute apart; the passes need not be: one that was late because of
the pass before it, and the next one on time, may begin in the same minute.
Where every pass begins with its tick they do not (`promptRun_keepsRecent`).
-/
import Sitter.DataFiles
import Sitter.Ticks

namespace Sitter

open Machine Slots

/-! ## The worker with a clock -/

/-- The results of a pass, as they were saved. -/
structure DataFile where
  startDate : Int
  name : String
  json : String
  deriving DecidableEq, Repr

structure Clocked where
  now : Int
  /-- the timer expires no earlier -/
  timeout : Int
  threads : TickState
  server : Server
  lastEmail : Option String
  /-- `start_date` of the last pass that began -/
  startDate : Int
  /-- what was saved, newest first -/
  saved : List DataFile

inductive ClockedStep (S : Int) where
  | wait (seconds : Nat)
  | timeout
  | worker
  | passEnd (p : Pass S)
  | spurious
  | stop
  | wakeup

namespace Clocked

def start (opts : Options) (lastEmail : Option String) (now : Int) : Clocked :=
  ⟨now, now + 60, .start, .create opts, lastEmail, now, []⟩

/-- `process_timeout` -/
def expire (lib : Advgetopt) (st : Clocked) : Clocked :=
  let frequency := st.server.getStatisticsFrequency lib
  { st with
    threads := st.threads.tick
    server := frequency.2
    timeout := st.now + frequency.1 }

/-- `run_plugins` begins. -/
def passBegin (st : Clocked) : Clocked :=
  { st with threads := st.threads.passBegin, startDate := st.now }

/-- `run_plugins` ends.  A pass that throws ends the worker. -/
def passEnd (lib : Advgetopt) (host : Host) (st : Clocked) {S : Int} (p : Pass S) : Clocked :=
  let r := runPlugins lib host st.server st.lastEmail p
  { st with
    threads := { st.threads with pc := if r.raised.isNone then .loopTest else .done }
    server := r.server
    lastEmail := r.file
    saved :=
      match r.dataFile with
      | none => st.saved
      | some (name, json) => ⟨p.startDate, name, json⟩ :: st.saved }

end Clocked

/-- A step of the threads that the clock has no part in. -/
def Clocked.thread (st : Clocked) (step : ThreadStep) : Option Clocked :=
  (threadStep st.threads step).map fun threads => { st with threads }

/-- One step of the worker with a clock. -/
def clockedStep (lib : Advgetopt) (host : Host) {S : Int} (st : Clocked) :
    ClockedStep S → Option Clocked
  | .wait seconds => some { st with now := st.now + seconds }
  | .timeout =>
      if st.now < st.timeout ∨ st.threads.pc.holdsMutex then none else some (st.expire lib)
  | .worker =>
      match st.threads.pc with
      | .inPass => none
      | .passStart => some st.passBegin
      | _ => st.thread .worker
  | .passEnd p =>
      if st.threads.pc = .inPass ∧ p.startDate = st.startDate ∧ p.endDate = st.now then
        some (st.passEnd lib host p)
      else none
  | .spurious => st.thread .spurious
  | .stop => st.thread .stop
  | .wakeup => st.thread .wakeup

/-- The steps of the threads between a pass and the next one, but for ticks and
the stop. -/
inductive QuietStep (s : TickState) : TickState → Prop
  | move {pc : WorkerPc} (hmove : WorkerMove s s.pc pc) (hpass : s.pc ≠ .inPass) :
      QuietStep s { s with pc := pc }
  | handOver (hpc : s.pc = .ticksTest) (hticks : s.ticks ≠ 0) : QuietStep s s.handOver
  | wakeup (hdown : s.running = false) : QuietStep s s.wakeup

theorem quiet_of_worker {s t : TickState} (h : workerStep s = some t) (hstart : s.pc ≠ .passStart)
    (hpass : s.pc ≠ .inPass) : QuietStep s t := by
  rcases workerStep_cases h with ⟨pc, hmove, rfl⟩ | ⟨hpc, hticks, rfl⟩ | ⟨hpc, -⟩
  · exact .move hmove hpass
  · exact .handOver hpc hticks
  · exact absurd hpc hstart

theorem quiet_of_spurious {s t : TickState} (h : threadStep s .spurious = some t) :
    QuietStep s t := by
  simp only [threadStep] at h
  split at h
  · next hpc =>
      cases h
      refine .move ?_ (by rw [hpc]; exact WorkerPc.noConfusion)
      rw [hpc]
      exact .wake false
  · cases h

theorem quiet_of_wakeup {s t : TickState} (h : threadStep s .wakeup = some t) : QuietStep s t := by
  simp only [threadStep] at h
  split at h
  · cases h
  · next hfree =>
      cases h
      exact .wakeup (Bool.eq_false_iff.mpr (not_or.mp hfree).1)

/-- **What a step can do.** -/
theorem clockedStep_cases {lib : Advgetopt} {host : Host} {S : Int} {st t : Clocked}
    {step : ClockedStep S} (h : clockedStep lib host st step = some t) :
    (∃ seconds, step = .wait seconds ∧ t = { st with now := st.now + seconds }) ∨
      (st.timeout ≤ st.now ∧ t = st.expire lib) ∨
      (st.threads.pc = .passStart ∧ t = st.passBegin) ∨
      (∃ p : Pass S, st.threads.pc = .inPass ∧ p.startDate = st.startDate ∧ p.endDate = st.now ∧
        t = st.passEnd lib host p) ∨
      (step = .stop ∧ ∃ threads, t = { st with threads }) ∨
      (∃ threads, QuietStep st.threads threads ∧ t = { st with threads }) := by
  have hquiet : ∀ {s : ThreadStep}, st.thread s = some t →
      (∀ threads, threadStep st.threads s = some threads → QuietStep st.threads threads) →
      ∃ threads, QuietStep st.threads threads ∧ t = { st with threads } := by
    intro s hs hall
    obtain ⟨threads, hstep, rfl⟩ := Option.map_eq_some_iff.mp hs
    exact ⟨threads, hall threads hstep, rfl⟩
  cases step with
  | wait seconds =>
      cases h
      exact Or.inl ⟨seconds, rfl, rfl⟩
  | timeout =>
      simp only [clockedStep] at h
      split at h
      · cases h
      · next hdue =>
          cases h
          exact Or.inr (Or.inl ⟨Int.not_lt.mp (not_or.mp hdue).1, rfl⟩)
  | worker =>
      simp only [clockedStep] at h
      split at h
      · cases h
      · next hpc =>
          cases h
          exact Or.inr (Or.inr (Or.inl ⟨hpc, rfl⟩))
      · next hpass hstart =>
          exact Or.inr (Or.inr (Or.inr (Or.inr (Or.inr (hquiet h fun _ hstep =>
            quiet_of_worker hstep hstart hpass)))))
  | passEnd p =>
      simp only [clockedStep] at h
      split at h
      · next hpass =>
          cases h
          exact Or.inr (Or.inr (Or.inr (Or.inl ⟨p, hpass.1, hpass.2.1, hpass.2.2, rfl⟩)))
      · cases h
  | spurious =>
      exact Or.inr (Or.inr (Or.inr (Or.inr (Or.inr (hquiet h fun _ hstep =>
        quiet_of_spurious hstep)))))
  | stop =>
      have hstop : st.thread .stop = some t := h
      obtain ⟨threads, -, rfl⟩ := Option.map_eq_some_iff.mp hstop
      exact Or.inr (Or.inr (Or.inr (Or.inr (Or.inl ⟨rfl, threads, rfl⟩))))
  | wakeup =>
      exact Or.inr (Or.inr (Or.inr (Or.inr (Or.inr (hquiet h fun _ hstep =>
        quiet_of_wakeup hstep)))))

/-! ## What a pass does to the settings -/

section Settings

variable {lib : Advgetopt} {host : Host} {s s' : Server} {file : Option String} {S : Int}
  {p : Pass S}

theorem coherent_congr (h : s'.besideReports = s.besideReports) (hs : s.Coherent lib) :
    s'.Coherent lib := by
  simp only [Server.besideReports, Prod.mk.injEq] at h
  obtain ⟨hopts, hfrequency, hperiod, httl⟩ := h
  refine ⟨?_, ?_, ?_⟩
  · rw [hfrequency, hopts]
    exact hs.frequency
  · rw [hperiod, hopts]
    exact hs.period
  · rw [httl, hopts]
    exact hs.ttl

theorem processWatch_besideReports (actions : List PluginAction) (st : PassState) :
    (processWatch st actions).1.server.besideReports = st.server.besideReports := by
  induction actions generalizing st with
  | nil => rfl
  | cons a as ih =>
      have hone : (pluginAction st a).1.server.besideReports = st.server.besideReports := by
        cases a with
        | set path value => rfl
        | push path value => rfl
        | appendError node plugin message priority =>
            simp only [pluginAction, appendError_server]
            rfl
        | throw what => rfl
      rw [processWatch]
      cases hpair : pluginAction st a with
      | mk st' raised =>
          rw [hpair] at hone
          cases raised with
          | some what => exact hone
          | none => exact (ih st').trans hone

theorem settleTime_besideReports (lib : Advgetopt) (s : Server) :
    (s.getErrorReportSettleTime lib).2.besideReports = s.besideReports := by
  simp only [Server.getErrorReportSettleTime]
  split
  · split <;> rfl
  · rfl

theorem dataFileName_congr (hs : s.Coherent lib) (hs' : s'.Coherent lib) (hopts : s'.opts = s.opts)
    (startDate : Int) : s'.dataFileName lib startDate = s.dataFileName lib startDate := by
  have hperiod : s'.period lib = s.period lib := by
    rw [Server.period, Server.period, (getStatisticsPeriod_spec hs).1,
      (getStatisticsPeriod_spec hs').1, hopts]
  have hpath : s'.getServerParameter "data_path" = s.getServerParameter "data_path" := by
    rw [Server.getServerParameter, Server.getServerParameter, hopts]
  rw [Server.dataFileName, Server.dataFileName, saveData_eq, saveData_eq, hperiod, hpath]

/-- Saving keeps the settings, and the name is the one that they give. -/
theorem saveData_saves (hs : s.Coherent lib) (hs' : s'.Coherent lib) (hopts : s'.opts = s.opts)
    (startDate : Int) (json : String) :
    (s'.saveData lib startDate json).2.Coherent lib ∧
      (s'.saveData lib startDate json).2.opts = s.opts ∧
      ∀ f ∈ (s'.saveData lib startDate json).1, f.1 ∈ s.dataFileName lib startDate := by
  refine ⟨?_, (saveData_server lib s' startDate json).1.trans hopts, ?_⟩
  · simp only [Server.saveData]
    split
    · exact hs'
    · exact (getStatisticsPeriod_spec hs').2
  · intro f hf
    rw [← dataFileName_congr hs hs' hopts, Server.dataFileName]
    rw [saveData_eq] at hf ⊢
    split at hf
    · cases hf
    · next hpath =>
        rw [if_neg hpath]
        obtain rfl := Option.some.inj hf
        rfl

/-- **A pass keeps the settings**, and saves under the name that they and its
start give. -/
theorem runPlugins_saves (hs : s.Coherent lib) (host : Host) (file : Option String)
    (p : Pass S) :
    (runPlugins lib host s file p).server.Coherent lib ∧
      (runPlugins lib host s file p).server.opts = s.opts ∧
      ∀ f ∈ (runPlugins lib host s file p).dataFile, f.1 ∈ s.dataFileName lib p.startDate := by
  have hwatched := processWatch_besideReports p.actions
    ⟨s.clearErrors, Document.empty.set (root ++ [.name "start_date"]) (.int p.startDate)⟩
  rw [runPlugins]
  dsimp only
  generalize processWatch _ p.actions = watched at hwatched ⊢
  obtain ⟨⟨server, doc⟩, raised⟩ := watched
  have hserver : server.besideReports = s.besideReports := hwatched
  have hcoherent : server.Coherent lib := coherent_congr hserver hs
  have hopts : server.opts = s.opts := congrArg Prod.fst hserver
  cases raised with
  | some what =>
      refine ⟨hcoherent, hopts, ?_⟩
      intro f hf
      cases hf
  | none =>
      dsimp only
      split
      · refine ⟨hcoherent, hopts, ?_⟩
        intro f hf
        cases hf
      · generalize hjson : host.render _ = json
        have hsaved := saveData_saves hs hcoherent hopts p.startDate json
        generalize server.saveData lib p.startDate json = saved at hsaved ⊢
        obtain ⟨dataFile, server'⟩ := saved
        obtain ⟨hcoherent', hopts', hname⟩ := hsaved
        have hsettled := settleTime_besideReports lib server'
        dsimp only at hcoherent' hopts' hname ⊢
        split
        · split
          · split
            · exact ⟨coherent_congr hsettled hcoherent',
                (congrArg Prod.fst hsettled).trans hopts', hname⟩
            · next res hres =>
                have hreported := (reportError_besideReports hres).trans hsettled
                exact ⟨coherent_congr hreported hcoherent',
                  (congrArg Prod.fst hreported).trans hopts', hname⟩
          · exact ⟨coherent_congr hsettled hcoherent',
              (congrArg Prod.fst hsettled).trans hopts', hname⟩
        · exact ⟨hcoherent', hopts', hname⟩

end Settings

/-! ## What is known of a run

All names are given by one period, which the options determine and the passes
do not change.  What was saved is recorded with the date of its pass. -/

/-- What a run keeps, for a daemon with these options. -/
structure Clocked.Ok (lib : Advgetopt) (opts : Options) (st : Clocked) : Prop where
  same : st.server.opts = opts
  coherent : st.server.Coherent lib
  named : ∀ f ∈ st.saved, f.name ∈ (Server.create opts).dataFileName lib f.startDate
  epoch : ∀ f ∈ st.saved, 0 ≤ f.startDate
  began : st.startDate ≤ st.now
  before : ∀ f ∈ st.saved, f.startDate ≤ st.startDate
  ordered : st.saved.Pairwise fun f g => g.startDate ≤ f.startDate

section Run

variable {lib : Advgetopt} {host : Host} {opts : Options} {S : Int} {st t : Clocked}

theorem clocked_start (lib : Advgetopt) (opts : Options) (lastEmail : Option String) (now : Int) :
    (Clocked.start opts lastEmail now).Ok lib opts :=
  ⟨rfl, create_coherent opts, fun _ hf => absurd hf List.not_mem_nil,
    fun _ hf => absurd hf List.not_mem_nil, le_refl _, fun _ hf => absurd hf List.not_mem_nil,
    List.Pairwise.nil⟩

theorem passEnd_saved (lib : Advgetopt) (host : Host) (st : Clocked) (p : Pass S) :
    (st.passEnd lib host p).saved = st.saved ∨
      ∃ f ∈ (runPlugins lib host st.server st.lastEmail p).dataFile,
        (st.passEnd lib host p).saved = ⟨p.startDate, f.1, f.2⟩ :: st.saved := by
  simp only [Clocked.passEnd]
  split
  · exact Or.inl rfl
  · next name json hf => exact Or.inr ⟨(name, json), hf, rfl⟩

theorem clocked_passEnd (h : st.Ok lib opts) {p : Pass S} (hstart : p.startDate = st.startDate) :
    (st.passEnd lib host p).Ok lib opts := by
  obtain ⟨hcoherent, hopts, hname⟩ :=
    runPlugins_saves h.coherent host st.lastEmail p
  have hserver : (st.passEnd lib host p).server.opts = opts := hopts.trans h.same
  rcases passEnd_saved lib host st p with hsaved | ⟨f, hf, hsaved⟩
  · refine ⟨hserver, hcoherent, ?_, ?_, h.began, ?_, ?_⟩
    · rw [hsaved]
      exact h.named
    · rw [hsaved]
      exact h.epoch
    · rw [hsaved]
      exact h.before
    · rw [hsaved]
      exact h.ordered
  · have hnew : f.1 ∈ (Server.create opts).dataFileName lib p.startDate := by
      rw [dataFileName_congr h.coherent (create_coherent opts) h.same.symm]
      exact hname f hf
    refine ⟨hserver, hcoherent, ?_, ?_, h.began, ?_, ?_⟩
    · rw [hsaved]
      exact List.forall_mem_cons.mpr ⟨hnew, h.named⟩
    · rw [hsaved]
      exact List.forall_mem_cons.mpr ⟨p.epoch, h.epoch⟩
    · rw [hsaved]
      exact List.forall_mem_cons.mpr ⟨Int.le_of_eq hstart, h.before⟩
    · rw [hsaved]
      refine List.pairwise_cons.mpr ⟨?_, h.ordered⟩
      intro g hg
      show g.startDate ≤ p.startDate
      rw [hstart]
      exact h.before g hg

theorem clocked_step (h : st.Ok lib opts) {step : ClockedStep S}
    (hstep : clockedStep lib host st step = some t) : t.Ok lib opts := by
  rcases clockedStep_cases hstep with ⟨seconds, -, rfl⟩ | ⟨-, rfl⟩ | ⟨-, rfl⟩ |
    ⟨p, -, hstart, -, rfl⟩ | ⟨-, threads, rfl⟩ | ⟨threads, -, rfl⟩
  · have hbegan := h.began
    exact ⟨h.same, h.coherent, h.named, h.epoch, by dsimp only; omega, h.before, h.ordered⟩
  · have hopts : (st.server.getStatisticsFrequency lib).2.opts = st.server.opts := by
      simp only [Server.getStatisticsFrequency]
      split <;> rfl
    exact ⟨hopts.trans h.same, (getStatisticsFrequency_spec h.coherent).2, h.named, h.epoch,
      h.began, h.before, h.ordered⟩
  · have hbegan := h.began
    refine ⟨h.same, h.coherent, h.named, h.epoch, le_refl _, ?_, h.ordered⟩
    intro f hf
    exact le_trans (h.before f hf) hbegan
  · exact clocked_passEnd h hstart
  · exact ⟨h.same, h.coherent, h.named, h.epoch, h.began, h.before, h.ordered⟩
  · exact ⟨h.same, h.coherent, h.named, h.epoch, h.began, h.before, h.ordered⟩

end Run

/-! ## What is still on disk

A file holds what was last saved under its name.  Passes that are less than a
period apart are all kept exactly if no two of them began in the same minute. -/

/-- What is in a file: what was last saved under its name. -/
def onDisk (saved : List DataFile) (name : String) : Option String :=
  (saved.find? fun f => f.name = name).map DataFile.json

/-- What is asked of a run, with the period it goes by. -/
structure KeepsRecent (period : Int) (st : Clocked) : Prop where
  apart : st.saved.Pairwise fun f g =>
    |f.startDate - g.startDate| < period - 60 → f.name ≠ g.name
  kept : ∀ f ∈ st.saved, st.now - f.startDate < period - 60 →
    onDisk st.saved f.name = some f.json

/-- Passes that close to each other began in different minutes. -/
def MinuteEach (period : Int) (saved : List DataFile) : Prop :=
  saved.Pairwise fun f g =>
    |f.startDate - g.startDate| < period - 60 → f.startDate / 60 ≠ g.startDate / 60

section Disk

variable {lib : Advgetopt} {opts : Options} {st : Clocked}

/-- Files that are apart are not saved over. -/
theorem onDisk_of_apart {period now : Int} :
    ∀ {saved : List DataFile}, (∀ f ∈ saved, f.startDate ≤ now) →
      saved.Pairwise (fun f g => g.startDate ≤ f.startDate) →
      saved.Pairwise (fun f g => |f.startDate - g.startDate| < period - 60 → f.name ≠ g.name) →
      ∀ f ∈ saved, now - f.startDate < period - 60 → onDisk saved f.name = some f.json
  | [], _, _, _, _, hf, _ => absurd hf List.not_mem_nil
  | g :: saved, hnow, hordered, hapart, f, hf, hrecent => by
      obtain ⟨hg, hordered⟩ := List.pairwise_cons.mp hordered
      obtain ⟨hname, hapart⟩ := List.pairwise_cons.mp hapart
      obtain ⟨hgnow, hnow⟩ := List.forall_mem_cons.mp hnow
      rcases List.mem_cons.mp hf with rfl | hf
      · simp [onDisk]
      · have hclose : |g.startDate - f.startDate| < period - 60 := by
          have hle := hg f hf
          rw [abs_of_nonneg (by omega)]
          omega
        have hne : g.name ≠ f.name := hname f hf hclose
        have hrest := onDisk_of_apart hnow hordered hapart f hf hrecent
        rw [onDisk, List.find?_cons_of_neg (by simpa using hne)]
        exact hrest

/-- The period is a whole number of minutes, even one that is out of range. -/
theorem freshPeriod_minutes (lib : Advgetopt) (opts : Options) :
    freshPeriod lib opts = 60 * (freshPeriod lib opts / 60) := by
  have hhours : 3600 ∣ freshPeriod lib opts := by
    rw [freshPeriod, Server.getStatisticsPeriod,
      if_pos (show (Server.create opts).statisticsPeriod ≤ 0 from Int.negSucc_le_zero 0)]
    exact Int.dvd_mul_left _ _
  rw [Int.mul_ediv_cancel' (Int.dvd_trans (by decide) hhours)]

theorem name_eq_iff {f g : DataFile}
    (hf : f.name ∈ (Server.create opts).dataFileName lib f.startDate)
    (hg : g.name ∈ (Server.create opts).dataFileName lib g.startDate) (hf₀ : 0 ≤ f.startDate)
    (hg₀ : 0 ≤ g.startDate) (hclose : |f.startDate - g.startDate| < freshPeriod lib opts - 60) :
    f.name = g.name ↔ f.startDate / 60 = g.startDate / 60 := by
  have hminutes := freshPeriod_minutes lib opts
  have hpositive : 0 < 60 * (freshPeriod lib opts / 60) := by
    have habs := abs_nonneg (f.startDate - g.startDate)
    omega
  have hdate : ∀ a, 0 ≤ a → dataDate ((Server.create opts).period lib) a =
      slot 60 (60 * (freshPeriod lib opts / 60)) a := by
    intro a ha
    rw [dataDate_eq ha, ← hminutes]
    rfl
  have hnonneg : ∀ a, 0 ≤ a → 0 ≤ dataDate ((Server.create opts).period lib) a := by
    intro a ha
    rw [hdate a ha]
    exact slot_nonneg hpositive a
  rw [dataFileName_eq_iff (hnonneg _ hf₀) (hnonneg _ hg₀) hf hg, hdate _ hf₀, hdate _ hg₀]
  exact slot_eq_iff_of_close (by decide) (by omega)

/-- The results are kept exactly if each pass has a minute of its own. -/
theorem keepsRecent_iff_minuteEach (h : st.Ok lib opts) :
    KeepsRecent (freshPeriod lib opts) st ↔ MinuteEach (freshPeriod lib opts) st.saved := by
  have hpair : ∀ f ∈ st.saved, ∀ g ∈ st.saved,
      ((|f.startDate - g.startDate| < freshPeriod lib opts - 60 → f.name ≠ g.name) ↔
        (|f.startDate - g.startDate| < freshPeriod lib opts - 60 →
          f.startDate / 60 ≠ g.startDate / 60)) := by
    intro f hf g hg
    refine imp_congr_right fun hclose => not_congr ?_
    exact name_eq_iff (h.named f hf) (h.named g hg) (h.epoch f hf) (h.epoch g hg) hclose
  constructor
  · intro hkeeps
    refine hkeeps.apart.imp_of_mem ?_
    intro f g hf hg hne
    exact (hpair f hf g hg).mp hne
  · intro hminutes
    have hapart := hminutes.imp_of_mem fun {f g} hf hg hne => (hpair f hf g hg).mpr hne
    refine ⟨hapart, onDisk_of_apart ?_ h.ordered hapart⟩
    intro f hf
    exact le_trans (h.before f hf) h.began

end Disk

/-! ## Passes that begin with their ticks

Where no time goes by between a tick and its pass, passes begin as far apart as
ticks, which is a minute at least. -/

/-- A tick was counted, and its pass has not begun. -/
def TickState.tickPending (s : TickState) : Prop := s.ticks ≠ 0 ∨ s.pc.passDue = true

/-- Before a stop, and no time goes by while a tick is pending. -/
def PromptStep {S : Int} (st : Clocked) : ClockedStep S → Prop
  | .wait _ => ¬ st.threads.tickPending
  | .stop => False
  | _ => True

/-- When the passes began: the one that is running, and those that have saved
their results. -/
def Clocked.begun (st : Clocked) : List Int :=
  if st.threads.pc = .inPass then st.startDate :: st.saved.map DataFile.startDate
  else st.saved.map DataFile.startDate

/-- What prompt steps keep: the passes are a minute apart, and so is the next
tick. -/
structure Clocked.OnTime (st : Clocked) : Prop where
  running : st.threads.running = true
  apart : st.begun.Pairwise fun x y => y + 60 ≤ x
  next : ∀ x ∈ st.begun, x + 60 ≤ st.timeout
  pending : st.threads.tickPending → st.now + 60 ≤ st.timeout ∧ ∀ x ∈ st.begun, x + 60 ≤ st.now
  due : st.threads.pc.passDue = true → st.threads.ticks = 0

section OnTime

variable {lib : Advgetopt} {host : Host} {opts : Options} {S : Int} {st t : Clocked}

theorem onTime_start (opts : Options) (lastEmail : Option String) (now : Int) :
    (Clocked.start opts lastEmail now).OnTime where
  running := rfl
  apart := List.Pairwise.nil
  next _ hx := absurd hx List.not_mem_nil
  pending h := by
    rcases h with hticks | hdue
    · exact absurd rfl hticks
    · cases hdue
  due h := nomatch h

/-- The ticks are a minute apart. -/
theorem frequency_le (h : st.Ok lib opts) : 60 ≤ (st.server.getStatisticsFrequency lib).1 := by
  rw [(getStatisticsFrequency_spec h.coherent).1, freshFrequency, Server.getStatisticsFrequency,
    if_pos (show (Server.create st.server.opts).statisticsFrequency ≤ 0 from Int.negSucc_le_zero 0)]
  exact le_max_left _ _

theorem signal_inPass (pc : WorkerPc) : pc.signal = .inPass ↔ pc = .inPass := by
  cases pc <;> simp [WorkerPc.signal]

/-- A tick: the next one is a minute away from it and from every pass. -/
theorem onTime_expire (hok : st.Ok lib opts) (h : st.OnTime) (hdue : st.timeout ≤ st.now) :
    (st.expire lib).OnTime := by
  have hfrequency := frequency_le hok
  have hbegun : (st.expire lib).begun = st.begun := by
    simp only [Clocked.begun, Clocked.expire, TickState.tick, signal_inPass]
  have htimeout : (st.expire lib).timeout = st.now + (st.server.getStatisticsFrequency lib).1 := rfl
  refine ⟨h.running, ?_, ?_, ?_, ?_⟩
  · rw [hbegun]
    exact h.apart
  · rw [hbegun, htimeout]
    intro x hx
    have hx := h.next x hx
    omega
  · intro _
    rw [hbegun, htimeout]
    refine ⟨by show st.now + 60 ≤ _; omega, ?_⟩
    intro x hx
    have hx := h.next x hx
    show x + 60 ≤ st.now
    omega
  · intro hpass
    have hold : st.threads.pc.passDue = true := (passDue_signal st.threads.pc).symm.trans hpass
    have hlate := (h.pending (Or.inr hold)).1
    omega

/-- The pass begins in the second of its tick, a minute after the others. -/
theorem onTime_passBegin (h : st.OnTime) (hpc : st.threads.pc = .passStart) :
    st.passBegin.OnTime := by
  have hpassDue : st.threads.pc.passDue = true := by
    rw [hpc]
    rfl
  obtain ⟨hnext, hothers⟩ := h.pending (Or.inr hpassDue)
  have hold : st.begun = st.saved.map DataFile.startDate := by
    rw [Clocked.begun, if_neg (by rw [hpc]; exact WorkerPc.noConfusion)]
  have hnew : st.passBegin.begun = st.now :: st.begun := by
    rw [hold]
    rfl
  refine ⟨h.running, ?_, ?_, ?_, fun hdue => nomatch hdue⟩
  · rw [hnew]
    exact List.pairwise_cons.mpr ⟨hothers, h.apart⟩
  · rw [hnew]
    exact List.forall_mem_cons.mpr ⟨hnext, h.next⟩
  · intro hpending
    rcases hpending with hticks | hdue
    · exact absurd (h.due hpassDue) hticks
    · cases hdue

theorem passEnd_begun (lib : Advgetopt) (host : Host) {p : Pass S} (hpc : st.threads.pc = .inPass)
    (hstart : p.startDate = st.startDate) :
    List.Sublist (st.passEnd lib host p).begun st.begun := by
  have hold : st.begun = st.startDate :: st.saved.map DataFile.startDate := if_pos hpc
  have hnew : (st.passEnd lib host p).begun =
      (st.passEnd lib host p).saved.map DataFile.startDate := by
    refine if_neg ?_
    simp only [Clocked.passEnd]
    split <;> exact WorkerPc.noConfusion
  rw [hold, hnew]
  rcases passEnd_saved lib host st p with hsaved | ⟨f, -, hsaved⟩
  · rw [hsaved]
    exact List.sublist_cons_self _ _
  · rw [hsaved, List.map_cons, hstart]

theorem onTime_passEnd (h : st.OnTime) {p : Pass S} (hpc : st.threads.pc = .inPass)
    (hstart : p.startDate = st.startDate) : (st.passEnd lib host p).OnTime := by
  have hbegun := passEnd_begun lib host hpc hstart
  have hdue : (st.passEnd lib host p).threads.pc.passDue = false := by
    simp only [Clocked.passEnd]
    split <;> rfl
  refine ⟨h.running, h.apart.sublist hbegun, fun x hx => h.next x (hbegun.subset hx), ?_, ?_⟩
  · intro hpending
    rcases hpending with hticks | hpass
    · obtain ⟨hnext, hothers⟩ := h.pending (Or.inl hticks)
      exact ⟨hnext, fun x hx => hothers x (hbegun.subset hx)⟩
    · rw [hdue] at hpass
      cases hpass
  · intro hpass
    rw [hdue] at hpass
    cases hpass

theorem onTime_quiet (h : st.OnTime) {threads : TickState} (hquiet : QuietStep st.threads threads) :
    Clocked.OnTime { st with threads } := by
  cases hquiet with
  | @move pc hmove hpass =>
      have hdue : pc.passDue = st.threads.pc.passDue := by
        have hrunning := h.running
        generalize st.threads.pc = old at hmove
        cases hmove with
        | flagDown hdown | giveUp hdown => exact absurd hrunning (Bool.eq_false_iff.mp hdown)
        | _ => rfl
      have hpc : pc ≠ .inPass := by
        generalize st.threads.pc = old at hmove
        cases hmove <;> exact WorkerPc.noConfusion
      have hbegun : Clocked.begun { st with threads := { st.threads with pc } } = st.begun := by
        rw [Clocked.begun, Clocked.begun, if_neg hpc, if_neg hpass]
      refine ⟨h.running, ?_, ?_, ?_, ?_⟩
      · rw [hbegun]
        exact h.apart
      · rw [hbegun]
        exact h.next
      · rw [hbegun]
        intro hpending
        refine h.pending ?_
        rwa [TickState.tickPending, ← hdue]
      · intro hpassDue
        exact h.due (hdue ▸ hpassDue)
  | handOver hpc hticks =>
      have hbegun : Clocked.begun { st with threads := st.threads.handOver } = st.begun := by
        have hpass : st.threads.pc ≠ .inPass := by
          rw [hpc]
          exact WorkerPc.noConfusion
        rw [Clocked.begun, Clocked.begun, if_neg hpass]
        exact if_neg (show WorkerPc.recheck ≠ .inPass from WorkerPc.noConfusion)
      refine ⟨h.running, ?_, ?_, ?_, fun _ => rfl⟩
      · rw [hbegun]
        exact h.apart
      · rw [hbegun]
        exact h.next
      · rw [hbegun]
        exact fun _ => h.pending (Or.inl hticks)
  | wakeup hdown => exact absurd h.running (Bool.eq_false_iff.mp hdown)

theorem onTime_step (hok : st.Ok lib opts) (h : st.OnTime) {step : ClockedStep S}
    (hprompt : PromptStep st step) (hstep : clockedStep lib host st step = some t) : t.OnTime := by
  rcases clockedStep_cases hstep with ⟨seconds, rfl, rfl⟩ | ⟨hdue, rfl⟩ | ⟨hpc, rfl⟩ |
    ⟨p, hpc, hstart, -, rfl⟩ | ⟨rfl, -⟩ | ⟨threads, hquiet, rfl⟩
  · exact ⟨h.running, h.apart, h.next, fun hpending => absurd hpending hprompt, h.due⟩
  · exact onTime_expire hok h hdue
  · exact onTime_passBegin h hpc
  · exact onTime_passEnd h hpc hstart
  · exact absurd hprompt id
  · exact onTime_quiet h hquiet

/-- Passes a minute apart begin in different minutes. -/
theorem minuteEach_of_onTime (h : st.OnTime) (period : Int) : MinuteEach period st.saved := by
  have hsaved : (st.saved.map DataFile.startDate).Pairwise fun x y => y + 60 ≤ x := by
    have hapart := h.apart
    simp only [Clocked.begun] at hapart
    split at hapart
    · exact (List.pairwise_cons.mp hapart).2
    · exact hapart
  refine (List.pairwise_map.mp hsaved).imp ?_
  intro f g hapart _
  omega

/-- **A run whose passes begin with their ticks keeps the results of the last
period.** -/
theorem promptRun_keepsRecent (lastEmail : Option String) (now : Int)
    (hrun : Reach (clockedStep lib host (S := S)) PromptStep (Clocked.start opts lastEmail now)
      st) : KeepsRecent (freshPeriod lib opts) st := by
  obtain ⟨hok, honTime⟩ : st.Ok lib opts ∧ st.OnTime := by
    refine hrun.invariant (I := fun st => st.Ok lib opts ∧ st.OnTime)
      ⟨clocked_start lib opts lastEmail now, onTime_start opts lastEmail now⟩ ?_
    intro s step t hI hprompt hstep
    exact ⟨clocked_step hI.1 hstep, onTime_step hI.1 hI.2 hprompt hstep⟩
  exact (keepsRecent_iff_minuteEach hok).mpr (minuteEach_of_onTime honTime _)

end OnTime

/-! ## All runs -/

/-- **A run keeps the results of the last period exactly if its passes that
saved something each began in a minute of their own.** -/
theorem keepsRecent_iff (lib : Advgetopt) (host : Host) (S : Int) (opts : Options)
    (lastEmail : Option String) (now : Int) (st : Clocked)
    (hrun : Reach (clockedStep lib host (S := S)) (fun _ _ => True)
      (Clocked.start opts lastEmail now) st) :
    KeepsRecent (freshPeriod lib opts) st ↔ MinuteEach (freshPeriod lib opts) st.saved := by
  have hok : st.Ok lib opts := hrun.invariant (clocked_start lib opts lastEmail now)
    (fun _ _ _ hI _ hstep => clocked_step hI hstep)
  exact keepsRecent_iff_minuteEach hok

/-- A pass that lists the processors and takes until `endDate`. -/
def cpuPass (startDate endDate : Int) (epoch : 0 ≤ startDate) (ended : startDate ≤ endDate)
    (fits : endDate < 2 ^ 63) : Pass 0 where
  startDate
  endDate
  now := endDate
  actions := [.set [.name "cpu", .name "count"] (.int 4)]
  readable := true
  writable := true
  epoch
  began := epoch
  ended
  fits

/-- The worker from the test of its loop to the beginning of a pass. -/
def toPass : List (ClockedStep 0) := List.replicate 6 .worker

/-- Ticks at 60, 120 and 181.  The first pass takes two minutes, so that the
second one begins at 180; the third begins at 181, with its tick. -/
def latePasses : List (ClockedStep 0) :=
  [.wait 60, .timeout] ++ toPass ++
  [.wait 60, .timeout, .wait 60,
    .passEnd (cpuPass 60 180 (by decide) (by decide) (by decide))] ++ toPass ++
  [.wait 1, .timeout, .passEnd (cpuPass 180 181 (by decide) (by decide) (by decide))] ++ toPass ++
  [.passEnd (cpuPass 181 181 (by decide) (by decide) (by decide))]

/-- Nothing is set but the data path. -/
def dataPathOptions : Options where
  isDefined _ := true
  getString name := if name = "data_path" then "/var/lib/sitter/data" else ""

def quietHost : Host := ⟨fun _ => "{}", "host", "1.0"⟩

def lateRun : Option Clocked :=
  latePasses.foldlM (clockedStep .decimal quietHost) (.start dataPathOptions none 0)

theorem lateRun_isSome : lateRun.isSome = true := by decide

theorem keepsRecent_late_run :
    KeepsRecent (freshPeriod .decimal dataPathOptions) (lateRun.get lateRun_isSome) ↔
      MinuteEach (freshPeriod .decimal dataPathOptions) (lateRun.get lateRun_isSome).saved :=
  keepsRecent_iff .decimal quietHost 0 dataPathOptions none 0 _
    (Reach.foldlM (fun _ _ => trivial) .start (Option.some_get _).symm)

/-- That run does not keep the results of the second pass. -/
theorem keepsRecent_late_passes :
    ¬ ∀ st, Reach (clockedStep .decimal quietHost (S := 0)) (fun _ _ => True)
      (Clocked.start dataPathOptions none 0) st →
        KeepsRecent (freshPeriod .decimal dataPathOptions) st := by
  intro hall
  have hrun : lateRun.map Clocked.saved =
      some [⟨181, "/var/lib/sitter/data/180.json", "{}"⟩,
        ⟨180, "/var/lib/sitter/data/180.json", "{}"⟩,
        ⟨60, "/var/lib/sitter/data/60.json", "{}"⟩] := by decide
  obtain ⟨st, hst, hsaved⟩ := Option.map_eq_some_iff.mp hrun
  have hkeeps := (hall st (Reach.foldlM (fun _ _ => trivial) .start hst)).apart
  rw [hsaved] at hkeeps
  have hpair := (List.pairwise_cons.mp hkeeps).1 _ List.mem_cons_self
  exact hpair (by decide) rfl

end Sitter
