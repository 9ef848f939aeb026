/-
# `Sitter.Interleaving` — the threads of a process, and the daemon

`Lifecycle` has the two threads and nothing that they work on; `Uncached` has a
daemon that makes one pass after the other and nothing that could come in
between.  Here are both: the threads, a clock, the server that they share, and
the file of the last email, over as many processes as there are.

    wait n        n seconds go by
    thread i      a step of one of the threads
    watched       the plugins of the pass are done, or one of them has thrown
    passEnd p     the worker ends the pass it is in, with what its plugins did
    newValue      the main thread hears of a new value
    restart       the process has returned, and another one is started

Between `watched` and `passEnd` the worker reads its settings, one getter after
the other and without a lock, while `newValue` changes them and clears their
caches.  A report that is made of both, such as an old priority with a new span,
is a report of no daemon, and so it is assumed that no new value comes just then
(`ProcessDelivers`).  The other steps may.

What is written down of a run, passes and new values in the order they came in,
is a run of the daemon without caches (`process_refines`): whatever the order of
the threads' steps is, there is one thing after the other, and nothing but the
options and one file that goes from one pass to the next.
-/
import Sitter.Base.Ranked
import Sitter.Lifecycle
import Sitter.Uncached

namespace Sitter

open Machine

/-! ## Processes -/

structure Process (S : Int) where
  life : Lifecycle
  now : Int
  /-- the timer expires no earlier -/
  timeout : Int
  server : Server
  lastEmail : Option String
  /-- `start_date` of the last pass that began -/
  startDate : Int
  /-- `end_date` of the pass whose plugins are done -/
  endDate : Option Int
  /-- what was done, and with what result, newest first -/
  history : List (FluidCall S × Option PassResult)

inductive ProcessStep (S : Int) where
  | wait (seconds : Nat)
  | thread (i : LifecycleStep)
  | watched
  | passEnd (p : Pass S)
  | newValue (name text : String)
  | restart (opts : Options)

namespace Process

variable {S : Int}

/-- A process starts, with what was done before it. -/
def start (opts : Options) (lastEmail : Option String) (now : Int)
    (history : List (FluidCall S × Option PassResult)) : Process S :=
  ⟨.start, now, now + 60, .create opts, lastEmail, now, none, history⟩

/-- What a step of the threads does besides: a timeout sets the next one, a pass
that begins reads the clock, and one that is left forgets its end. -/
def clock (lib : Advgetopt) (st : Process S) (i : LifecycleStep) : Process S :=
  match i with
  | .timeout =>
      let frequency := st.server.getStatisticsFrequency lib
      { st with server := frequency.2, timeout := st.now + frequency.1 }
  | .worker => if st.life.threads.pc = .passStart then { st with startDate := st.now } else st
  | .throw => { st with endDate := none }
  | _ => st

def passes (st : Process S) : List (Pass S) :=
  st.history.filterMap fun e => match e.1 with
    | .pass p => some p
    | _ => none

end Process

/-- One step.  A pass that throws ends the worker. -/
def processStep (lib : Advgetopt) (host : Host) {S : Int} (st : Process S) :
    ProcessStep S → Option (Process S)
  | .wait seconds => some { st with now := st.now + seconds }
  | .thread i =>
      if (i = .timeout ∧ st.now < st.timeout) ∨ (i = .worker ∧ st.life.threads.pc = .inPass) then
        none
      -- a pass that `throw` ends leaves counters that no later pass sees
      else (lifecycleStep st.life i).map fun life => { st.clock lib i with life }
  | .watched =>
      if st.life.threads.pc = .inPass ∧ st.endDate = none then
        some { st with endDate := some st.now }
      else none
  | .passEnd p =>
      if st.life.threads.pc = .inPass ∧ p.startDate = st.startDate ∧
          st.endDate = some p.endDate ∧ p.now = st.now then
        let r := runPlugins lib host st.server st.lastEmail p
        (lifecycleStep st.life (if r.raised.isNone then .worker else .throw)).map fun life =>
          { st with
            life
            server := r.server
            lastEmail := r.file
            endDate := none
            history := (.pass p, some r) :: st.history }
      else none
  | .newValue name text =>
      if st.life.main = .polling then
        some { st with
          server := st.server.newValue name text
          history := (.newValue name text, none) :: st.history }
      else none
  | .restart opts =>
      match st.life.main with
      | .returned _ => some (.start opts st.lastEmail st.now ((.restart opts, none) :: st.history))
      | _ => none

/-- What the communicator promises; no new value comes while a pass reads its
settings; and the critical options have two pieces at most. -/
def ProcessDelivers (lib : Advgetopt) {S : Int} (st : Process S) : ProcessStep S → Prop
  | .thread i => Delivers st.life i
  | .newValue name text =>
      .messenger ∈ st.life.connections ∧ st.endDate = none ∧
        (FluidCall.newValue (S := S) name text).PairsCritical lib
  | .restart opts => CriticalPair lib opts
  | _ => True

/-! ## What a step of the threads does to the worker -/

section Worker

variable {s t : Lifecycle} {i : LifecycleStep}

theorem done_stays (h : lifecycleStep s i = some t) (hpc : s.threads.pc = .done) :
    t.threads.pc = .done := by
  cases lifecycleStep_cases h with
  | stopBegins | stopEnds | ready | crash | exit | lower | join | enter | leave | ended => exact hpc
  | tick | wakeup => exact signal_done hpc
  | throw => rfl
  | worker hphase i step hi threads hstep =>
      rcases hi with ⟨-, rfl⟩ | ⟨-, rfl⟩
      · simp [threadStep, workerStep, hpc] at hstep
      · simp [threadStep, hpc] at hstep

theorem inPass_from (h : lifecycleStep s i = some t) (hpc : t.threads.pc = .inPass) :
    s.threads.pc = .inPass ∨ (i = .worker ∧ s.threads.pc = .passStart) := by
  cases lifecycleStep_cases h with
  | stopBegins | stopEnds | ready | crash | exit | lower | join | enter | leave | ended =>
      exact Or.inl hpc
  | tick | wakeup => exact Or.inl ((signal_inPass s.threads.pc).mp hpc)
  | throw => cases hpc
  | worker hphase i step hi threads hstep =>
      rcases hi with ⟨rfl, rfl⟩ | ⟨-, rfl⟩
      · rcases workerStep_cases hstep with ⟨pc, hmove, rfl⟩ | ⟨-, -, rfl⟩ | ⟨hstart, -⟩
        · obtain rfl : pc = .inPass := hpc
          generalize s.threads.pc = old at hmove
          cases hmove
        · cases hpc
        · exact Or.inr ⟨rfl, hstart⟩
      · simp only [threadStep] at hstep
        split at hstep
        · cases hstep
          cases hpc
        · cases hstep

theorem pass_over {ok : Bool} (hpc : s.threads.pc = .inPass)
    (h : lifecycleStep s (if ok then .worker else .throw) = some t) :
    t.threads.pc = if ok then .loopTest else .done := by
  cases ok with
  | true =>
      obtain ⟨-, hmap⟩ := Option.ite_none_right_eq_some.mp h
      obtain ⟨threads, hstep, rfl⟩ := Option.map_eq_some_iff.mp hmap
      simp only [workerStep, hpc, Option.some.injEq] at hstep
      exact (congrArg TickState.pc hstep).symm
  | false =>
      obtain ⟨-, rfl⟩ := Option.ite_some_none_eq_some.mp h
      rfl

end Worker

/-! ## What a run has done

The history is a run of the daemon without caches, with the passes in the order
in which they ended.  The invariant says so of each state; the steps of the
threads and of the clock leave it alone. -/

section Run

variable {lib : Advgetopt} {host : Host} {S : Int} {opts : Options} {file : Option String}
  {st t : Process S}

def seen (e : FluidCall S × Option PassResult) : FluidCall S × Option PassResult :=
  (e.1, e.2.map PassResult.uncached)

/-- One more call of the daemon is one more call of the one without caches. -/
theorem recorded_next {history : List (FluidCall S × Option PassResult)} {d : Daemon}
    {start : UncachedDaemon}
    (h : Recorded (uncachedDaemon lib host S) start (history.map seen) d.uncached)
    (hcached : d.server.Cached lib) (call : FluidCall S) (hcall : call.PairsCritical lib) :
    let r := fluidDaemon lib host S d call
    r.1.server.Cached lib ∧
      Recorded (uncachedDaemon lib host S) start (((call, r.2) :: history).map seen)
        r.1.uncached := by
  obtain ⟨hnext, hstate, houtput⟩ := fluidDaemon_step host hcached hcall
  refine ⟨hnext, ?_⟩
  rw [hstate, List.map_cons, seen, houtput]
  exact h.next call

/-- What holds all along. -/
structure Process.Ok (lib : Advgetopt) (host : Host) (opts : Options) (file : Option String)
    (st : Process S) : Prop where
  life : Reach lifecycleStep Delivers .start st.life
  cached : st.server.Cached lib
  recorded : ∃ running, (running = true ∨ st.life.threads.pc = .done) ∧
    Recorded (uncachedDaemon lib host S) ⟨opts, file, true⟩ (st.history.map seen)
      (Daemon.uncached ⟨st.server, st.lastEmail, running⟩)
  past : ∀ p ∈ st.passes, p.now ≤ st.now
  before : st.life.threads.pc = .inPass → ∀ p ∈ st.passes, p.now ≤ st.startDate
  ordered : st.passes.Pairwise fun p q => q.now ≤ p.startDate

theorem frequency_cached {s : Server} (h : s.Cached lib) :
    (s.getStatisticsFrequency lib).2.Cached lib ∧
      (s.getStatisticsFrequency lib).2.opts = s.opts := by
  have hcoherent := (getStatisticsFrequency_spec h.statistics).2
  simp only [Server.getStatisticsFrequency] at hcoherent ⊢
  split at hcoherent
  · next hempty =>
      rw [if_pos hempty]
      exact ⟨⟨h.critical, hcoherent, h.errors.settleTime, h.errors.unset, h.errors.low,
        h.errors.medium, h.errors.critical⟩, rfl⟩
  · next hkept =>
      rw [if_neg hkept]
      exact ⟨h, rfl⟩

/-- The clock touches nothing that is written down. -/
theorem clock_frame (lib : Advgetopt) (st : Process S) (i : LifecycleStep) :
    (st.clock lib i).lastEmail = st.lastEmail ∧ (st.clock lib i).history = st.history ∧
      (st.clock lib i).now = st.now := by
  cases i with
  | worker =>
      simp only [Process.clock]
      split <;> exact ⟨rfl, rfl, rfl⟩
  | _ => exact ⟨rfl, rfl, rfl⟩

theorem clock_cached (h : st.server.Cached lib) (i : LifecycleStep) :
    (st.clock lib i).server.Cached lib ∧ (st.clock lib i).server.opts = st.server.opts := by
  cases i with
  | timeout => exact frequency_cached h
  | worker =>
      simp only [Process.clock]
      split <;> exact ⟨h, rfl⟩
  | _ => exact ⟨h, rfl⟩

theorem clock_startDate (i : LifecycleStep) : (st.clock lib i).startDate =
    if i = .worker ∧ st.life.threads.pc = .passStart then st.now else st.startDate := by
  cases i with
  | worker =>
      simp only [Process.clock, true_and]
      split <;> rfl
  | _ => rfl

theorem process_start (hopts : CriticalPair lib opts) (now : Int) :
    Process.Ok lib host opts file (Process.start opts file now [] : Process S) where
  life := .start
  cached := create_cached hopts
  recorded := ⟨true, Or.inl rfl, .start⟩
  past _ hp := absurd hp List.not_mem_nil
  before h := nomatch h
  ordered := List.Pairwise.nil

theorem thread_ok (h : st.Ok lib host opts file) {i : LifecycleStep} {life : Lifecycle}
    (hal : Delivers st.life i) (hstep : lifecycleStep st.life i = some life) :
    Process.Ok lib host opts file { st.clock lib i with life } := by
  obtain ⟨hcached, hopts⟩ := clock_cached h.cached i
  obtain ⟨hfile, hhistory, hnow⟩ := clock_frame lib st i
  have hpasses : Process.passes { st.clock lib i with life } = st.passes := by
    rw [Process.passes, hhistory]
    rfl
  refine ⟨h.life.next hal hstep, hcached, ?_, ?_, ?_, ?_⟩
  · obtain ⟨running, hrunning, hrecorded⟩ := h.recorded
    refine ⟨running, hrunning.imp_right (done_stays hstep), ?_⟩
    simp only [Daemon.uncached, hopts, hfile, hhistory]
    exact hrecorded
  · rw [hpasses]
    simp only [hnow]
    exact h.past
  · intro hpc
    rw [hpasses]
    simp only [clock_startDate]
    split
    · exact h.past
    · next hother => exact h.before ((inPass_from hstep hpc).resolve_right hother)
  · rw [hpasses]
    exact h.ordered

theorem passEnd_ok (h : st.Ok lib host opts file) {p : Pass S}
    (hpc : st.life.threads.pc = .inPass) (hstart : p.startDate = st.startDate)
    (hnow : p.now = st.now) {life : Lifecycle}
    (hstep : lifecycleStep st.life (if (runPlugins lib host st.server st.lastEmail p).raised.isNone
      then .worker else .throw) = some life) :
    let r := runPlugins lib host st.server st.lastEmail p
    Process.Ok lib host opts file
      { st with
        life
        server := r.server
        lastEmail := r.file
        endDate := none
        history := (.pass p, some r) :: st.history } := by
  obtain ⟨running, hrunning, hrecorded⟩ := h.recorded
  obtain rfl : running = true := hrunning.resolve_right (by rw [hpc]; nofun)
  obtain ⟨hcached, hnext⟩ := recorded_next hrecorded h.cached (.pass p) trivial
  have hover := pass_over hpc hstep
  have hdelivers : Delivers st.life (if (runPlugins lib host st.server st.lastEmail p).raised.isNone
      then .worker else .throw) := by
    split <;> exact ⟨nofun, nofun, nofun⟩
  intro r
  refine ⟨h.life.next hdelivers hstep, hcached, ⟨r.raised.isNone, ?_, hnext⟩, ?_, ?_, ?_⟩
  · show r.raised.isNone = true ∨ life.threads.pc = .done
    cases hraised : r.raised.isNone with
    | true => exact Or.inl rfl
    | false => exact Or.inr (hover.trans (if_neg (by rw [hraised]; exact Bool.false_ne_true)))
  · exact List.forall_mem_cons.mpr ⟨hnow.le, h.past⟩
  · intro hin
    have hout := hover.symm.trans hin
    split at hout <;> cases hout
  · refine List.pairwise_cons.mpr ⟨?_, h.ordered⟩
    intro q hq
    rw [hstart]
    exact h.before hpc q hq

/-- **One step.** -/
theorem process_step (h : st.Ok lib host opts file) {step : ProcessStep S}
    (hal : ProcessDelivers lib st step) (hstep : processStep lib host st step = some t) :
    t.Ok lib host opts file := by
  cases step with
  | wait seconds =>
      cases hstep
      refine { h with past := ?_ }
      intro p hp
      exact (h.past p hp).trans (Int.le_add_of_nonneg_right (Int.natCast_nonneg seconds))
  | thread i =>
      obtain ⟨-, hmap⟩ := Option.ite_none_left_eq_some.mp hstep
      obtain ⟨life, hlife, rfl⟩ := Option.map_eq_some_iff.mp hmap
      exact thread_ok h hal hlife
  | watched =>
      obtain ⟨-, heq⟩ := Option.ite_none_right_eq_some.mp hstep
      cases heq
      exact { h with }
  | passEnd p =>
      obtain ⟨⟨hpc, hstart, -, hnow⟩, hmap⟩ := Option.ite_none_right_eq_some.mp hstep
      obtain ⟨life, hlife, rfl⟩ := Option.map_eq_some_iff.mp hmap
      exact passEnd_ok h hpc hstart hnow hlife
  | newValue name text =>
      obtain ⟨-, heq⟩ := Option.ite_none_right_eq_some.mp hstep
      cases heq
      obtain ⟨running, hrunning, hrecorded⟩ := h.recorded
      obtain ⟨hcached, hnext⟩ := recorded_next hrecorded h.cached (.newValue name text) hal.2.2
      exact { h with
        cached := hcached
        recorded := ⟨running, hrunning, hnext⟩ }
  | restart opts' =>
      simp only [processStep] at hstep
      split at hstep
      · cases hstep
        obtain ⟨running, hrunning, hrecorded⟩ := h.recorded
        obtain ⟨hcached, hnext⟩ := recorded_next hrecorded h.cached (.restart opts') hal
        exact ⟨.start, hcached, ⟨true, Or.inl rfl, hnext⟩, h.past, nofun, h.ordered⟩
      · cases hstep

/-- **The threads do what the daemon does.**  Whatever the order of their steps
is, as long as no new value comes while a pass reads its settings, what was
done in a run, with its results, is a run of the daemon without caches; each
pass began after the one before it was over; and the threads are those of
`Lifecycle`. -/
theorem process_refines (lib : Advgetopt) (host : Host) (opts : Options) (file : Option String)
    (now : Int) (hopts : CriticalPair lib opts)
    (h : Reach (processStep lib host (S := S)) (ProcessDelivers lib) (.start opts file now []) st) :
    (trace (uncachedDaemon lib host S) ⟨opts, file, true⟩ (st.history.reverse.map Prod.fst)).map
        (fun e => (e.input, e.output)) = (st.history.map seen).reverse ∧
      st.passes.Pairwise (fun p q => q.now ≤ p.startDate) ∧
      Reach lifecycleStep Delivers .start st.life := by
  have hok : st.Ok lib host opts file :=
    h.invariant (process_start hopts now) fun _ _ _ hI hal hstep => process_step hI hal hstep
  obtain ⟨running, -, hrecorded⟩ := hok.recorded
  have hcalls : (st.history.map seen).reverse.map Prod.fst = st.history.reverse.map Prod.fst := by
    rw [← List.map_reverse, List.map_map]
    rfl
  have hrun := hrecorded.run.1
  rw [hcalls] at hrun
  exact ⟨hrun, hok.ordered, hok.life⟩

end Run

instance decPairsCritical (lib : Advgetopt) {S : Int} (call : FluidCall S) :
    Decidable (call.PairsCritical lib) :=
  match call with
  | .pass _ => inferInstanceAs (Decidable True)
  | .newValue _ _ => inferInstanceAs (Decidable (_ → _))
  | .clearCache _ => inferInstanceAs (Decidable True)
  | .restart opts => inferInstanceAs (Decidable (CriticalPair lib opts))

instance decProcessDelivers (lib : Advgetopt) {S : Int} (st : Process S) (step : ProcessStep S) :
    Decidable (ProcessDelivers lib st step) :=
  match step with
  | .wait _ => inferInstanceAs (Decidable True)
  | .thread i => inferInstanceAs (Decidable (Delivers st.life i))
  | .watched => inferInstanceAs (Decidable True)
  | .passEnd _ => inferInstanceAs (Decidable True)
  | .newValue _ _ => inferInstanceAs (Decidable (_ ∧ _))
  | .restart opts => inferInstanceAs (Decidable (CriticalPair lib opts))

/-- A pass during which the main thread hears of a new span, and is told to
stop; and the pass of the next process. -/
def stoppedInPass : List (ProcessStep 1700000000) :=
  let toPass := List.replicate 6 (.thread .worker)
  let begin := [.thread .fluidReady, .thread .enter, .wait 60, .thread .timeout] ++ toPass
  begin ++ [.newValue "error-report-critical-priority" "90,3600", .thread .signal, .thread .main,
    .thread .main, .wait 600, .watched, .passEnd (tenMinutePass 1700000060 (by decide)),
    .thread .worker, .thread .leave, .thread .ended, .thread .main, .thread .main,
    .restart (Options.mail "a@x.net" "b@x.net")] ++
  begin ++ [.wait 600, .watched, .passEnd (tenMinutePass 1700000720 (by decide))]

def stoppedRun : Option (Process 1700000000) :=
  stoppedInPass.foldlM (guarded (processStep .decimal ⟨fun _ => "{}", "host", "1.0"⟩)
    (ProcessDelivers .decimal)) (.start (Options.mail "a@x.net" "b@x.net") none 1700000000 [])

theorem stoppedRun_isSome : stoppedRun.isSome = true := by decide

theorem process_refines_stopped :
    let st := stoppedRun.get stoppedRun_isSome
    (trace (uncachedDaemon .decimal ⟨fun _ => "{}", "host", "1.0"⟩ 1700000000)
        ⟨Options.mail "a@x.net" "b@x.net", none, true⟩ (st.history.reverse.map Prod.fst)).map
        (fun e => (e.input, e.output)) = (st.history.map seen).reverse ∧
      st.passes.Pairwise (fun p q => q.now ≤ p.startDate) ∧
      Reach lifecycleStep Delivers .start st.life :=
  process_refines .decimal _ _ _ _ (by decide)
    (Reach.start.run (Run.guarded (Option.some_get _).symm))

end Sitter
