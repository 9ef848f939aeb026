/-
# `Sitter.Lifecycle` — the main thread, the worker's thread, and how both end

`server::run` connects four things to the communicator and then waits for what
they have to say:

    interrupt      SIGINT                          stop(false)
    messenger      fluid-settings is ready         the timer is enabled
                   a message STOP or QUITTING      stop(quitting)
    tick timer     a timeout                       one more tick for the worker
    worker done    the worker's thread is over     stop(false)

The worker's thread loads the plugins, loops (`Ticks`), and tells of its end
whether it comes from a stop or from an exception.  `stop` takes the flag down,
wakes the worker up and waits for the thread; then it disconnects all four, and
the loop of the communicator, which has nothing left to wait for, returns
(`Shutdown`).

A callback runs only while the main thread polls.  That the communicator calls
none of a connection that was removed, nor of a timer that is not enabled, is
its own promise (`Delivers`).  What cppthread promises is in the steps: `leave`
is called however the thread ends, and `thread::stop` waits for the thread and
then returns as usual, also where an exception has ended it.  With all this,
the two threads know of each other what they need (`Orderly`), and no pass
begins that no timeout has paid for (`passes_after_ready`).
-/
import Sitter.Ticks

namespace Sitter

open Machine

/-! ## The two threads

The main thread polls until no connection is left, and a stop disconnects them
once the other thread is over.  The worker's thread loads the plugins and then
runs the loop of `Ticks`. -/

/-- What `run` adds to the communicator. -/
inductive Connection where
  | interrupt
  | messenger
  | tickTimer
  | workerDone
  deriving DecidableEq, Repr

def Connection.all : List Connection := [.interrupt, .messenger, .tickTimer, .workerDone]

/-- How far the worker's thread is. -/
inductive WorkerPhase where
  /-- in `enter`, where the plugins are loaded -/
  | entering
  /-- in `run` -/
  | looping
  /-- after `leave` -/
  | left
  | ended
  deriving DecidableEq, Repr

/-- Where the main thread is. -/
inductive MainPc where
  /-- in the `run` of the communicator, between two callbacks -/
  | polling
  /-- in `stop`: at `f_worker_thread->stop()` -/
  | stopping
  /-- at its callback -/
  | lowered
  /-- at its wait for the end of the thread -/
  | joining
  | returned (code : Int)
  /-- in `process_tick` without a worker -/
  | crashed
  deriving DecidableEq, Repr

structure Lifecycle where
  threads : TickState
  phase : WorkerPhase
  main : MainPc
  connections : List Connection
  timerEnabled : Bool
  /-- `f_worker` and `f_worker_thread` are set -/
  worker : Bool
  /-- `thread_done()` was called, and `process_read` did not see it yet -/
  doneSignal : Bool
  forceRestart : Bool
  deriving DecidableEq, Repr

/-- `run` has started the thread and calls the `run` of the communicator. -/
def Lifecycle.start : Lifecycle where
  threads := .start
  phase := .entering
  main := .polling
  connections := Connection.all
  timerEnabled := false
  worker := true
  doneSignal := false
  forceRestart := false

inductive LifecycleStep where
  /-- `interrupt::process_signal` -/
  | signal
  /-- a message that stops the server -/
  | stopMessage
  /-- `fluid_ready` -/
  | fluidReady
  /-- `tick_timer::process_timeout` -/
  | timeout
  /-- `worker_done::process_read` -/
  | threadDone
  /-- the rest of `stop`, or of `run` -/
  | main
  | enter
  /-- an exception that leaves the loading or a pass -/
  | throw
  | worker
  | spurious
  | leave
  | ended
  deriving DecidableEq, Repr

namespace Lifecycle

variable (s : Lifecycle)

/-- `f_worker_thread->is_running()` -/
def isRunning : Bool := s.phase ≠ .ended

def removeConnection (c : Connection) : Lifecycle :=
  { s with connections := s.connections.erase c }

/-- The end of `stop`. -/
def disconnect : Lifecycle :=
  let s := s.removeConnection .messenger
  let s := s.removeConnection .interrupt
  let s := s.removeConnection .tickTimer
  let s := s.removeConnection .workerDone
  { s with main := .polling }

/-- `stop`, up to where it waits for the other thread. -/
def stop : Lifecycle :=
  if s.worker ∧ s.isRunning then { s with main := .stopping } else s.disconnect

/-- `process_tick` -/
def processTick : Option Lifecycle :=
  if s.worker then (threadStep s.threads .tick).map fun threads => { s with threads }
  else some { s with main := .crashed }

/-- What the main thread does next by itself.  Where it waits for the other
thread, in `thread::stop`, it is assumed to come back once that thread is over,
and not to be thrown the exception that the thread may have ended with. -/
def mainStep : Option Lifecycle :=
  match s.main with
  | .polling =>
      -- no connections are left
      if s.connections = [] then some { s with main := .returned (if s.forceRestart then 2 else 0) }
      else none
  | .stopping =>
      (threadStep s.threads .stop).map fun threads => { s with threads, main := .lowered }
  | .lowered =>
      (threadStep s.threads .wakeup).map fun threads => { s with threads, main := .joining }
  | .joining => if s.isRunning then none else some { s with worker := false }.disconnect
  | .returned _ => none
  | .crashed => none

end Lifecycle

/-- One step of one of the threads. -/
def lifecycleStep (s : Lifecycle) : LifecycleStep → Option Lifecycle
  | .signal => if s.main = .polling then some s.stop else none
  | .stopMessage => if s.main = .polling then some s.stop else none
  | .fluidReady => if s.main = .polling then some { s with timerEnabled := true } else none
  | .timeout => if s.main = .polling then s.processTick else none
  | .threadDone => if s.main = .polling then some { s with doneSignal := false }.stop else none
  | .main => s.mainStep
  | .enter => if s.phase = .entering then some { s with phase := .looping } else none
  | .throw =>
      if s.phase = .entering ∨ (s.phase = .looping ∧ s.threads.pc = .inPass) then
        some { s with phase := .looping, threads := { s.threads with pc := .done } }
      else none
  | .worker =>
      if s.phase = .looping then (workerStep s.threads).map fun threads => { s with threads }
      else none
  | .spurious =>
      if s.phase = .looping then
        (threadStep s.threads .spurious).map fun threads => { s with threads }
      else none
  | .leave =>
      if s.phase = .looping ∧ s.threads.pc = .done then
        some { s with phase := .left, doneSignal := true }
      else none
  | .ended => if s.phase = .left then some { s with phase := .ended } else none

/-- The connection that a callback is of. -/
def LifecycleStep.connection : LifecycleStep → Option Connection
  | .signal => some .interrupt
  | .stopMessage | .fluidReady => some .messenger
  | .timeout => some .tickTimer
  | .threadDone => some .workerDone
  | .main | .enter | .throw | .worker | .spurious | .leave | .ended => none

/-- What the communicator promises: only connections that it has are called,
and only for what has come up. -/
def Delivers (s : Lifecycle) (i : LifecycleStep) : Prop :=
  (∀ c ∈ i.connection, c ∈ s.connections) ∧ (i = .timeout → s.timerEnabled = true) ∧
    (i = .threadDone → s.doneSignal = true)

instance decDelivers (s : Lifecycle) (i : LifecycleStep) : Decidable (Delivers s i) :=
  inferInstanceAs (Decidable (_ ∧ _))

/-! ## What a step can do -/

/-- The steps, with what must hold for them. -/
inductive LifecycleMove (s : Lifecycle) : LifecycleStep → Lifecycle → Prop
  | stopBegins (i : LifecycleStep) (hmain : s.main = .polling) (hworker : s.worker = true)
      (hrunning : s.phase ≠ .ended) (done : Bool) (hdone : i ≠ .threadDone → done = s.doneSignal)
      (hi : i = .signal ∨ i = .stopMessage ∨ i = .threadDone) :
      LifecycleMove s i { s with doneSignal := done, main := .stopping }
  | stopEnds (i : LifecycleStep) (hmain : s.main = .polling)
      (hover : s.worker = true → s.phase = .ended) (done : Bool)
      (hi : i = .signal ∨ i = .stopMessage ∨ i = .threadDone) :
      LifecycleMove s i { s with doneSignal := done }.disconnect
  | ready (hmain : s.main = .polling) : LifecycleMove s .fluidReady { s with timerEnabled := true }
  | tick (hmain : s.main = .polling) (hworker : s.worker = true)
      (hmutex : s.threads.pc.holdsMutex = false) :
      LifecycleMove s .timeout { s with threads := s.threads.tick }
  | crash (hmain : s.main = .polling) (hworker : s.worker = false) :
      LifecycleMove s .timeout { s with main := .crashed }
  | exit (hmain : s.main = .polling) (hnone : s.connections = []) :
      LifecycleMove s .main { s with main := .returned (if s.forceRestart then 2 else 0) }
  | lower (hmain : s.main = .stopping) :
      LifecycleMove s .main
        { s with
          threads := { s.threads with running := false, log := .stop :: s.threads.log }
          main := .lowered }
  | wakeup (hmain : s.main = .lowered) (hdown : s.threads.running = false)
      (hmutex : s.threads.pc.holdsMutex = false) :
      LifecycleMove s .main { s with threads := s.threads.wakeup, main := .joining }
  | join (hmain : s.main = .joining) (hended : s.phase = .ended) :
      LifecycleMove s .main { s with worker := false }.disconnect
  | enter (hphase : s.phase = .entering) : LifecycleMove s .enter { s with phase := .looping }
  | throw (hplace : s.phase = .entering ∨ (s.phase = .looping ∧ s.threads.pc = .inPass)) :
      LifecycleMove s .throw
        { s with phase := .looping, threads := { s.threads with pc := .done } }
  | worker (hphase : s.phase = .looping) (i : LifecycleStep) (step : ThreadStep)
      (hi : (i = .worker ∧ step = .worker) ∨ (i = .spurious ∧ step = .spurious))
      (threads : TickState) (hstep : threadStep s.threads step = some threads) :
      LifecycleMove s i { s with threads }
  | leave (hphase : s.phase = .looping) (hpc : s.threads.pc = .done) :
      LifecycleMove s .leave { s with phase := .left, doneSignal := true }
  | ended (hphase : s.phase = .left) : LifecycleMove s .ended { s with phase := .ended }

theorem stop_move {s : Lifecycle} {i : LifecycleStep} {done : Bool} (hmain : s.main = .polling)
    (hdone : i ≠ .threadDone → done = s.doneSignal)
    (hi : i = .signal ∨ i = .stopMessage ∨ i = .threadDone) :
    LifecycleMove s i { s with doneSignal := done }.stop := by
  rw [Lifecycle.stop]
  split
  · next h =>
      exact .stopBegins i hmain h.1 (of_decide_eq_true h.2) done hdone hi
  · next h =>
      refine .stopEnds i hmain ?_ done hi
      intro hworker
      by_contra hrunning
      exact h ⟨hworker, decide_eq_true hrunning⟩

/-- **What a step can do.** -/
theorem lifecycleStep_cases {s t : Lifecycle} {i : LifecycleStep} (h : lifecycleStep s i = some t) :
    LifecycleMove s i t := by
  cases i with
  | signal =>
      obtain ⟨hmain, rfl⟩ := Option.ite_some_none_eq_some.mp h
      exact stop_move hmain (fun _ => rfl) (Or.inl rfl)
  | stopMessage =>
      obtain ⟨hmain, rfl⟩ := Option.ite_some_none_eq_some.mp h
      exact stop_move hmain (fun _ => rfl) (Or.inr (Or.inl rfl))
  | fluidReady =>
      obtain ⟨hmain, rfl⟩ := Option.ite_some_none_eq_some.mp h
      exact .ready hmain
  | timeout =>
      simp only [lifecycleStep] at h
      split at h
      · next hmain =>
          rw [Lifecycle.processTick] at h
          split at h
          · next hworker =>
              obtain ⟨threads, hstep, rfl⟩ := Option.map_eq_some_iff.mp h
              obtain ⟨hmutex, heq⟩ := Option.ite_none_left_eq_some.mp hstep
              cases heq
              exact .tick hmain hworker (Bool.eq_false_iff.mpr hmutex)
          · next hworker =>
              cases h
              exact .crash hmain (Bool.eq_false_iff.mpr hworker)
      · cases h
  | threadDone =>
      obtain ⟨hmain, rfl⟩ := Option.ite_some_none_eq_some.mp h
      exact stop_move hmain (fun hne => absurd rfl hne) (Or.inr (Or.inr rfl))
  | main =>
      simp only [lifecycleStep, Lifecycle.mainStep] at h
      cases hmain : s.main with
      | polling =>
          simp only [hmain] at h
          obtain ⟨hnone, rfl⟩ := Option.ite_some_none_eq_some.mp h
          exact .exit hmain hnone
      | stopping =>
          simp only [hmain] at h
          obtain ⟨threads, hstep, rfl⟩ := Option.map_eq_some_iff.mp h
          cases hstep
          exact .lower hmain
      | lowered =>
          simp only [hmain] at h
          obtain ⟨threads, hstep, rfl⟩ := Option.map_eq_some_iff.mp h
          obtain ⟨hfree, heq⟩ := Option.ite_none_left_eq_some.mp hstep
          cases heq
          rw [not_or] at hfree
          exact .wakeup hmain (Bool.eq_false_iff.mpr hfree.1) (Bool.eq_false_iff.mpr hfree.2)
      | joining =>
          simp only [hmain] at h
          obtain ⟨hended, heq⟩ := Option.ite_none_left_eq_some.mp h
          cases heq
          exact .join hmain (by simpa [Lifecycle.isRunning] using hended)
      | returned code => simp only [hmain, reduceCtorEq] at h
      | crashed => simp only [hmain, reduceCtorEq] at h
  | enter =>
      obtain ⟨hphase, rfl⟩ := Option.ite_some_none_eq_some.mp h
      exact .enter hphase
  | throw =>
      obtain ⟨hplace, rfl⟩ := Option.ite_some_none_eq_some.mp h
      exact .throw hplace
  | worker =>
      obtain ⟨hphase, hmap⟩ := Option.ite_none_right_eq_some.mp h
      obtain ⟨threads, hstep, rfl⟩ := Option.map_eq_some_iff.mp hmap
      exact .worker hphase _ .worker (Or.inl ⟨rfl, rfl⟩) threads hstep
  | spurious =>
      obtain ⟨hphase, hmap⟩ := Option.ite_none_right_eq_some.mp h
      obtain ⟨threads, hstep, rfl⟩ := Option.map_eq_some_iff.mp hmap
      exact .worker hphase _ .spurious (Or.inr ⟨rfl, rfl⟩) threads hstep
  | leave =>
      obtain ⟨⟨hphase, hpc⟩, rfl⟩ := Option.ite_some_none_eq_some.mp h
      exact .leave hphase hpc
  | ended =>
      obtain ⟨hphase, rfl⟩ := Option.ite_some_none_eq_some.mp h
      exact .ended hphase

/-- Only a worker that is asleep or done has no step. -/
theorem workerStep_some {threads : TickState} (hblocked : threads.pc ≠ .blocked false)
    (hdone : threads.pc ≠ .done) : ∃ threads', workerStep threads = some threads' := by
  rw [workerStep]
  cases hpc : threads.pc with
  | done => exact absurd hpc hdone
  | blocked signalled =>
      cases signalled with
      | true => exact ⟨_, rfl⟩
      | false => exact absurd hpc hblocked
  | _ => exact ⟨_, rfl⟩

/-! ## What holds all along

How far the threads are and what is connected fit together: no callback is of a
server that has disconnected, and the worker's thread has ended once it was
joined. -/

/-- The main thread and the worker's thread know of each other what they need. -/
structure Orderly (s : Lifecycle) : Prop where
  awake : Awake s.threads
  force : s.forceRestart = false
  connected : s.connections = Connection.all ∨ s.connections = []
  held : s.connections = Connection.all → s.worker = true
  out : s.connections = [] → s.phase = .ended ∧ (s.main = .polling ∨ s.main = .returned 0)
  returned : ∀ code, s.main = .returned code → s.connections = []
  safe : s.main ≠ .crashed
  lowered : s.main = .lowered ∨ s.main = .joining → s.threads.running = false
  down : s.threads.running = false → s.main = .lowered ∨ s.main = .joining ∨ s.connections = []
  woken : s.main = .joining → .wakeup ∈ s.threads.log
  entering : s.phase = .entering → s.threads.pc = .loopTest
  finished : s.phase = .left ∨ s.phase = .ended → s.threads.pc = .done
  /-- the end of the worker's thread does not go unnoticed -/
  noticed : s.phase = .left ∨ s.phase = .ended →
    s.doneSignal = true ∨ s.main ≠ .polling ∨ s.connections = []

theorem orderly_start : Orderly .start where
  awake := awake_start
  force := rfl
  connected := Or.inl rfl
  held _ := rfl
  out h := nomatch h
  returned := nofun
  safe := nofun
  lowered h := by rcases h with h | h <;> cases h
  down h := Bool.noConfusion h
  woken h := nomatch h
  entering _ := rfl
  finished h := by rcases h with h | h <;> cases h
  noticed h := by rcases h with h | h <;> cases h

section Order

variable {s t : Lifecycle} {i : LifecycleStep}

theorem Orderly.all_of_delivers (h : Orderly s) (hal : Delivers s i) {c : Connection}
    (hc : i.connection = some c) : s.connections = Connection.all := by
  refine h.connected.resolve_right ?_
  intro hnone
  have hmem := hal.1 c hc
  rw [hnone] at hmem
  exact absurd hmem List.not_mem_nil

theorem Orderly.all_of_main (h : Orderly s) (hpolling : s.main ≠ .polling)
    (hreturned : s.main ≠ .returned 0) : s.connections = Connection.all := by
  refine h.connected.resolve_right ?_
  intro hnone
  rcases (h.out hnone).2 with hmain | hmain
  · exact hpolling hmain
  · exact hreturned hmain

theorem disconnect_connections (h : s.connections = Connection.all) :
    s.disconnect.connections = [] := by
  simp only [Lifecycle.disconnect, Lifecycle.removeConnection, h]
  decide

theorem Orderly.disconnected (h : Orderly s) (hall : s.connections = Connection.all)
    (hended : s.phase = .ended) (worker done : Bool) :
    Orderly { s with worker := worker, doneSignal := done }.disconnect := by
  have hnone : ({ s with worker := worker, doneSignal := done } : Lifecycle).disconnect.connections
      = [] := disconnect_connections hall
  refine ⟨h.awake, h.force, Or.inr hnone, ?_, fun _ => ⟨hended, Or.inl rfl⟩, nofun,
    nofun, ?_, fun _ => Or.inr (Or.inr hnone), nofun, h.entering, h.finished,
    fun _ => Or.inr (Or.inr hnone)⟩
  · intro hall'
    rw [hnone] at hall'
    nomatch hall'
  · rintro (hmain | hmain) <;> cases hmain

theorem signal_loopTest {pc : WorkerPc} (h : pc = .loopTest) : pc.signal = .loopTest := by
  rw [h]
  rfl

theorem signal_done {pc : WorkerPc} (h : pc = .done) : pc.signal = .done := by
  rw [h]
  rfl

theorem awake_throw {threads : TickState} (h : Awake threads) :
    Awake { threads with pc := .done } := by
  have hle : passesAfterStop threads.log ≤ 1 := le_trans (Nat.le_add_right _ _) h.bounded
  refine ⟨h.stopped, fun hwoken => ⟨(h.woken hwoken).1, nofun, nofun, nofun⟩, ?_, ?_⟩
  · rintro (hpc | hpc) <;> cases hpc
  · simpa using hle

theorem workerStep_frame {threads threads' : TickState} {step : ThreadStep}
    (hstep : threadStep threads step = some threads') (hstop : step ≠ .stop) :
    threads'.running = threads.running ∧ ∀ o ∈ threads.log, o ∈ threads'.log := by
  rcases threadStep_cases hstep with ⟨-, -, rfl⟩ | ⟨rfl, -⟩ | ⟨-, -, -, rfl⟩ | ⟨_, -, rfl⟩ |
    ⟨-, -, rfl⟩ | ⟨-, rfl⟩
  · exact ⟨rfl, fun _ => List.mem_cons_of_mem _⟩
  · exact absurd rfl hstop
  · exact ⟨rfl, fun _ => List.mem_cons_of_mem _⟩
  · exact ⟨rfl, fun _ => id⟩
  · exact ⟨rfl, fun _ => List.mem_cons_of_mem _⟩
  · exact ⟨rfl, fun _ => List.mem_cons_of_mem _⟩

theorem orderly_step (h : Orderly s) (hal : Delivers s i) (hmove : LifecycleMove s i t) :
    Orderly t := by
  cases hmove with
  | stopBegins i hmain hworker hrunning done hdone hi =>
      refine { h with
        out := fun hnone => absurd (h.out hnone).1 hrunning
        returned := nofun
        safe := nofun
        lowered := ?_
        down := ?_
        woken := nofun
        noticed := fun _ => Or.inr (Or.inl nofun) }
      · rintro (hpc | hpc) <;> cases hpc
      · intro hdown
        rcases h.down hdown with hpc | hpc | hnone
        · cases hmain.symm.trans hpc
        · cases hmain.symm.trans hpc
        · exact Or.inr (Or.inr hnone)
  | stopEnds i hmain hover done hi =>
      have hall : s.connections = Connection.all := by
        rcases hi with rfl | rfl | rfl <;> exact h.all_of_delivers hal rfl
      exact h.disconnected hall (hover (h.held hall)) s.worker done
  | ready hmain => exact { h with }
  | tick hmain hworker hmutex =>
      exact { h with
        awake := awake_tick h.awake hmutex
        woken := fun hjoining => List.mem_cons_of_mem _ (h.woken hjoining)
        entering := fun hphase => signal_loopTest (h.entering hphase)
        finished := fun hphase => signal_done (h.finished hphase) }
  | crash hmain hworker =>
      have hheld := h.held (h.all_of_delivers hal rfl)
      rw [hworker] at hheld
      nomatch hheld
  | exit hmain hnone =>
      have hzero : (if s.forceRestart then 2 else 0 : Int) = 0 := by rw [h.force]; rfl
      rw [hzero]
      refine { h with
        out := fun hnone => ⟨(h.out hnone).1, Or.inr rfl⟩
        returned := fun _ _ => hnone
        safe := nofun
        lowered := ?_
        down := fun _ => Or.inr (Or.inr hnone)
        woken := nofun
        noticed := fun _ => Or.inr (Or.inl nofun) }
      rintro (hpc | hpc) <;> cases hpc
  | lower hmain =>
      have hall := h.all_of_main (by rw [hmain]; nofun) (by rw [hmain]; nofun)
      refine { h with
        awake := awake_stop h.awake
        out := ?_
        returned := nofun
        safe := nofun
        lowered := fun _ => rfl
        down := fun _ => Or.inl rfl
        woken := nofun
        noticed := fun _ => Or.inr (Or.inl nofun) }
      intro hnone
      cases hall.symm.trans hnone
  | wakeup hmain hdown hmutex =>
      have hall := h.all_of_main (by rw [hmain]; nofun) (by rw [hmain]; nofun)
      refine { h with
        awake := awake_wakeup h.awake hdown hmutex
        out := ?_
        returned := nofun
        safe := nofun
        lowered := fun _ => hdown
        down := fun _ => Or.inr (Or.inl rfl)
        woken := fun _ => List.mem_cons_self
        entering := fun hphase => signal_loopTest (h.entering hphase)
        finished := fun hphase => signal_done (h.finished hphase)
        noticed := fun _ => Or.inr (Or.inl nofun) }
      intro hnone
      cases hall.symm.trans hnone
  | join hmain hended =>
      have hall := h.all_of_main (by rw [hmain]; nofun) (by rw [hmain]; nofun)
      exact h.disconnected hall hended false s.doneSignal
  | enter hphase =>
      refine { h with
        out := ?_
        entering := nofun
        finished := ?_
        noticed := ?_ }
      · intro hnone
        cases hphase.symm.trans (h.out hnone).1
      · rintro (hpc | hpc) <;> cases hpc
      · rintro (hpc | hpc) <;> cases hpc
  | throw hplace =>
      refine { h with
        awake := awake_throw h.awake
        out := ?_
        entering := nofun
        finished := fun _ => rfl
        noticed := ?_ }
      · intro hnone
        have hended := (h.out hnone).1
        rcases hplace with hphase | ⟨hphase, -⟩ <;> cases hphase.symm.trans hended
      · rintro (hpc | hpc) <;> cases hpc
  | worker hphase i step hi threads hstep =>
      have hstop : step ≠ .stop := by rcases hi with ⟨-, rfl⟩ | ⟨-, rfl⟩ <;> nofun
      obtain ⟨hrunning, hlog⟩ := workerStep_frame hstep hstop
      refine { h with
        awake := awake_step h.awake hstep
        lowered := fun hmain => hrunning.trans (h.lowered hmain)
        down := fun hdown => h.down (hrunning.symm.trans hdown)
        woken := fun hmain => hlog _ (h.woken hmain)
        entering := ?_
        finished := ?_ }
      · intro hentering
        cases hphase.symm.trans hentering
      · rintro (hpc | hpc) <;> cases hphase.symm.trans hpc
  | leave hphase hpc =>
      refine { h with
        out := ?_
        entering := nofun
        finished := fun _ => hpc
        noticed := fun _ => Or.inl rfl }
      intro hnone
      cases hphase.symm.trans (h.out hnone).1
  | ended hphase =>
      exact { h with
        out := fun hnone => ⟨rfl, (h.out hnone).2⟩
        entering := nofun
        finished := fun _ => h.finished (Or.inl hphase)
        noticed := fun _ => h.noticed (Or.inl hphase) }

theorem orderly_reach (h : Reach lifecycleStep Delivers .start s) : Orderly s :=
  h.invariant orderly_start
    fun _ _ _ hI hal hstep => orderly_step hI hal (lifecycleStep_cases hstep)

end Order

/-! ## Passes and ticks

Each pass that began, or is due, has a tick of its own, and there is no tick
before fluid-settings is ready. -/

/-- Each pass that began, and the one that is due, has a tick of its own. -/
structure Paid (s : TickState) : Prop where
  up : s.running = true → s.log.count .passBegin + (if s.pc.passDue then 1 else 0) +
    (if s.ticks = 0 then 0 else 1) ≤ s.log.count .tick
  down : s.running = false →
    s.log.count .passBegin + (if s.pc = .passStart then 1 else 0) ≤ s.log.count .tick

section Passes

variable {s t : TickState}

theorem paid_start : Paid .start where
  up _ := by decide
  down h := Bool.noConfusion h

theorem passStart_le_passDue (pc : WorkerPc) :
    (if pc = .passStart then 1 else 0) ≤ if pc.passDue then 1 else 0 := by
  cases pc <;> simp [WorkerPc.passDue]

theorem pending_le_one (ticks : Int) : (if ticks = 0 then 0 else 1) ≤ 1 := by
  split_ifs <;> decide

theorem paid_step (step : ThreadStep) (h : Paid s) (hstep : threadStep s step = some t) :
    Paid t := by
  rcases threadStep_cases hstep with ⟨-, -, rfl⟩ | ⟨-, rfl⟩ | ⟨-, hdown, -, rfl⟩ |
    ⟨pc, hmove, rfl⟩ | ⟨hpc, hticks, rfl⟩ | ⟨hpc, rfl⟩
  · -- the tick pays for what it makes pending
    have hticks : s.tick.log.count .tick = s.log.count .tick + 1 := List.count_cons_self
    have hpasses : s.tick.log.count .passBegin = s.log.count .passBegin :=
      List.count_cons_of_ne (by simp)
    refine ⟨fun hup => ?_, fun hdown => ?_⟩
    · have hold := h.up hup
      have hdue : s.tick.pc.passDue = s.pc.passDue := passDue_signal s.pc
      have hpending := pending_le_one s.tick.ticks
      rw [hticks, hpasses, hdue]
      omega
    · have hold := h.down hdown
      have hstart : s.tick.pc = .passStart ↔ s.pc = .passStart := signal_passStart
      rw [hticks, hpasses, if_congr hstart rfl rfl]
      omega
  · refine ⟨nofun, fun _ => ?_⟩
    simp only [List.count_cons_of_ne (by simp : Observation.stop ≠ .passBegin),
      List.count_cons_of_ne (by simp : Observation.stop ≠ .tick)]
    cases hrun : s.running with
    | true =>
        have hold := h.up hrun
        have hdue := passStart_le_passDue s.pc
        omega
    | false => exact h.down hrun
  · refine ⟨fun hup => absurd (hdown.symm.trans hup) nofun, fun _ => ?_⟩
    simpa [TickState.wakeup, signal_passStart] using h.down hdown
  · refine ⟨fun hup => ?_, fun hdown => ?_⟩
    · have hold := h.up hup
      have hdue : pc.passDue = s.pc.passDue := by
        generalize s.pc = old at hmove
        cases hmove with
        | flagDown hdown | giveUp hdown => exact absurd hup (Bool.eq_false_iff.mp hdown)
        | _ => rfl
      simpa only [hdue] using hold
    · have hold := h.down hdown
      have hnot : pc ≠ .passStart := by
        rintro rfl
        generalize s.pc = old at hmove
        cases hmove with
        | goOn hup => cases hdown.symm.trans hup
      simp only [if_neg hnot]
      omega
  · -- what was pending is due
    refine ⟨fun hup => ?_, fun hdown => ?_⟩
    · have hold := h.up hup
      simp only [hpc, if_neg hticks] at hold
      simpa [TickState.handOver, WorkerPc.passDue] using hold
    · have hold := h.down hdown
      simp only [hpc] at hold
      simpa [TickState.handOver] using hold
  · have hticks : s.passBegin.log.count .tick = s.log.count .tick :=
      List.count_cons_of_ne (by simp)
    have hpasses : s.passBegin.log.count .passBegin = s.log.count .passBegin + 1 :=
      List.count_cons_self
    refine ⟨fun hup => ?_, fun hdown => ?_⟩
    · have hold := h.up hup
      rw [hpc] at hold
      rw [hticks, hpasses]
      exact hold
    · have hold := h.down hdown
      rw [hpc] at hold
      rw [hticks, hpasses]
      exact hold

/-- A pass that an exception ends is paid for. -/
theorem paid_throw (h : Paid s) : Paid { s with pc := .done } := by
  refine ⟨fun hup => ?_, fun hdown => ?_⟩
  · have hold := h.up hup
    simp only [WorkerPc.passDue, Bool.false_eq_true, if_false]
    omega
  · have hold := h.down hdown
    simp only [reduceCtorEq, if_false]
    omega

end Passes

/-- What a pass costs, and that nothing is to be had before fluid-settings is
ready. -/
structure PaidFor (s : Lifecycle) : Prop where
  paid : Paid s.threads
  early : s.timerEnabled = false → .tick ∉ s.threads.log

section Ready

variable {s t : Lifecycle} {i : LifecycleStep}

theorem paidFor_step (h : PaidFor s) (hal : Delivers s i) (hmove : LifecycleMove s i t) :
    PaidFor t := by
  cases hmove with
  | stopBegins | stopEnds | crash | exit | join | enter | leave | ended => exact ⟨h.paid, h.early⟩
  | ready hmain => exact ⟨h.paid, nofun⟩
  | tick hmain hworker hmutex =>
      refine ⟨paid_step .tick h.paid (by simp [threadStep, hmutex]), fun hdisabled => ?_⟩
      cases hdisabled.symm.trans (hal.2.1 rfl)
  | lower hmain =>
      exact ⟨paid_step .stop h.paid rfl,
        fun hdisabled => by simpa using h.early hdisabled⟩
  | wakeup hmain hdown hmutex =>
      exact ⟨paid_step .wakeup h.paid (by simp [threadStep, hdown, hmutex]),
        fun hdisabled => by simpa [TickState.wakeup] using h.early hdisabled⟩
  | throw hplace => exact ⟨paid_throw h.paid, h.early⟩
  | worker hphase i step hi threads hstep =>
      refine ⟨paid_step step h.paid hstep, fun hdisabled => ?_⟩
      have hearly := h.early hdisabled
      rcases threadStep_cases hstep with ⟨rfl, -⟩ | ⟨-, rfl⟩ | ⟨-, -, -, rfl⟩ | ⟨_, -, rfl⟩ |
        ⟨-, -, rfl⟩ | ⟨-, rfl⟩
      · rcases hi with ⟨-, hi⟩ | ⟨-, hi⟩ <;> cases hi
      · simpa using hearly
      · simpa [TickState.wakeup] using hearly
      · exact hearly
      · simpa [TickState.handOver] using hearly
      · simpa [TickState.passBegin] using hearly

/-- **No plugin runs before fluid-settings is ready**, and no pass begins
without a timeout of its own; and no timeout finds the worker gone. -/
theorem passes_after_ready (h : Reach lifecycleStep Delivers .start s) :
    s.main ≠ .crashed ∧
      s.threads.log.count .passBegin ≤ s.threads.log.count .tick ∧
      (s.timerEnabled = false → .passBegin ∉ s.threads.log) := by
  have hpaid : PaidFor s := by
    refine h.invariant ⟨paid_start, fun _ => List.not_mem_nil⟩ ?_
    exact fun _ _ _ hI hal hstep => paidFor_step hI hal (lifecycleStep_cases hstep)
  have hle : s.threads.log.count .passBegin ≤ s.threads.log.count .tick := by
    cases hrun : s.threads.running with
    | true =>
        have hup := hpaid.paid.up hrun
        omega
    | false =>
        have hdown := hpaid.paid.down hrun
        omega
  refine ⟨(orderly_reach h).safe, hle, ?_⟩
  intro hdisabled
  rw [List.count_eq_zero.mpr (hpaid.early hdisabled)] at hle
  exact List.count_eq_zero.mp (Nat.le_zero.mp hle)

/-- The thread is over because the first pass threw, and its signal waits. -/
def Lifecycle.thrown : Lifecycle where
  threads := ⟨true, 0, 1, .done, [.passBegin, .handOver 1, .tick]⟩
  phase := .left
  main := .polling
  connections := Connection.all
  timerEnabled := true
  worker := true
  doneSignal := true
  forceRestart := false

theorem thrown_reached : Reach lifecycleStep Delivers .start .thrown := by
  have hticked : Reach lifecycleStep Delivers .start
      { Lifecycle.start with
        threads := ⟨true, 1, 0, .loopTest, [.tick]⟩, phase := .looping, timerEnabled := true } :=
    ((Reach.start.next (i := .fluidReady) (by decide) rfl).next
      (i := .timeout) (by decide) rfl).next (i := .enter) (by decide) rfl
  have hhands : Reach lifecycleStep Delivers .start
      { Lifecycle.start with
        threads := ⟨true, 0, 1, .recheck, [.handOver 1, .tick]⟩, phase := .looping,
        timerEnabled := true } :=
    (((hticked.next (i := .worker) (by decide) rfl).next (i := .worker) (by decide) rfl).next
      (i := .worker) (by decide) rfl).next (i := .worker) (by decide) rfl
  exact (((hhands.next (i := .worker) (by decide) rfl).next (i := .worker) (by decide) rfl).next
    (i := .throw) (by decide) rfl).next (i := .leave) (by decide) rfl

/-- The one pass came after the one timeout. -/
theorem passes_after_ready_thrown :
    Lifecycle.thrown.main ≠ .crashed ∧
      Lifecycle.thrown.threads.log.count .passBegin ≤ Lifecycle.thrown.threads.log.count .tick ∧
      (Lifecycle.thrown.timerEnabled = false → .passBegin ∉ Lifecycle.thrown.threads.log) :=
  passes_after_ready thrown_reached

end Ready

end Sitter
