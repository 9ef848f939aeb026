/-
# `Sitter.Ticks` — the main thread's ticks and the worker's waits

Two threads share `f_ticks`, under `f_mutex`, and the flag `continue_running()`,
under nothing.

    main    tick     lock, ++f_ticks, signal, unlock
            stop     the flag goes down
            wakeup   lock, f_ticks = 1, signal, unlock      (only after stop)

    worker  loop     while the flag is up: wait_next_tick; return if it is down; run_plugins
            wait_next_tick
                     lock; while the flag is up: hand f_ticks over if it is not 0, else wait

A critical section of the main thread is one step, possible while the worker
does not hold the mutex.  Those of the worker are cut where it reads the flag,
because `stop` can come in between; `wait` gives the mutex back and blocks
until a signal comes, or wakes up for no reason.

The log is what the threads did, newest first.  Every state that is reached
before a stop has counted its ticks right (`Counted`), and in no state at all
is the worker left to wait for a signal that has already been sent (`Awake`).
-/
import Sitter.Base.Machine
import Sitter.Platform

namespace Sitter

open Machine

/-! ## The two threads -/

/-- Where the worker is. -/
inductive WorkerPc where
  /-- `loop`: at the test of its `while` -/
  | loopTest
  /-- `wait_next_tick`: at the guard -/
  | lock
  /-- at the test of its `while`, the mutex held -/
  | flagTest
  /-- at `if(f_ticks != 0)`, the mutex held -/
  | ticksTest
  /-- at `f_mutex.wait()`, the mutex held -/
  | wait
  /-- in `f_mutex.wait()`, the mutex given back -/
  | blocked (signalled : Bool)
  /-- `loop`: at `if(!continue_running())` -/
  | recheck
  /-- at the call of `run_plugins` -/
  | passStart
  | inPass
  | done
  deriving DecidableEq, Repr

namespace WorkerPc

/-- The worker holds the mutex. -/
def holdsMutex : WorkerPc → Bool
  | flagTest | ticksTest | wait => true
  | _ => false

/-- `signal` reaches a worker that is blocked. -/
def signal : WorkerPc → WorkerPc
  | blocked _ => blocked true
  | pc => pc

/-- Ticks were handed over and the pass has not begun. -/
def passDue : WorkerPc → Bool
  | recheck | passStart => true
  | _ => false

end WorkerPc

/-- What an observer of both threads sees. -/
inductive Observation where
  | tick
  | stop
  | wakeup
  | handOver (ticks : Int)
  | passBegin
  deriving DecidableEq, Repr

structure TickState where
  /-- `continue_running()` -/
  running : Bool
  /-- `sitter_worker::f_ticks` -/
  ticks : Int
  /-- `server::f_ticks` -/
  serverTicks : Int
  pc : WorkerPc
  log : List Observation
  deriving DecidableEq, Repr

/-- The worker is about to enter `loop`. -/
def TickState.start : TickState := ⟨true, 0, 0, .loopTest, []⟩

inductive ThreadStep where
  | tick
  | stop
  | wakeup
  | worker
  /-- a wake-up without a signal -/
  | spurious
  deriving DecidableEq, Repr

namespace TickState

/-- The section of `tick`. -/
def tick (s : TickState) : TickState :=
  { s with ticks := int32 (s.ticks + 1), pc := s.pc.signal, log := .tick :: s.log }

/-- The section of `wakeup`. -/
def wakeup (s : TickState) : TickState :=
  -- make sure f_ticks is not 0
  { s with ticks := 1, pc := s.pc.signal, log := .wakeup :: s.log }

/-- `set_ticks(f_ticks)`, `f_ticks = 0`, and the return. -/
def handOver (s : TickState) : TickState :=
  { s with serverTicks := s.ticks, ticks := 0, pc := .recheck, log := .handOver s.ticks :: s.log }

/-- `run_plugins` begins. -/
def passBegin (s : TickState) : TickState :=
  { s with pc := .inPass, log := .passBegin :: s.log }

end TickState

/-- The worker's next step; a worker that is blocked or done has none. -/
def workerStep (s : TickState) : Option TickState :=
  match s.pc with
  | .loopTest => some { s with pc := if s.running then .lock else .done }
  | .lock => some { s with pc := .flagTest }
  | .flagTest => some { s with pc := if s.running then .ticksTest else .recheck }
  | .ticksTest => some (if s.ticks ≠ 0 then s.handOver else { s with pc := .wait })
  | .wait => some { s with pc := .blocked false }
  | .blocked true => some { s with pc := .flagTest }
  | .blocked false => none
  | .recheck => some { s with pc := if s.running then .passStart else .done }
  | .passStart => some s.passBegin
  | .inPass => some { s with pc := .loopTest }
  | .done => none

/-- One step of one of the threads. -/
def threadStep (s : TickState) : ThreadStep → Option TickState
  | .tick => if s.pc.holdsMutex then none else some s.tick
  | .stop => some { s with running := false, log := .stop :: s.log }
  | .wakeup => if s.running ∨ s.pc.holdsMutex then none else some s.wakeup
  | .worker => workerStep s
  | .spurious =>
      match s.pc with
      | .blocked false => some { s with pc := .flagTest }
      | _ => none

/-! ## What a step can do -/

/-- The steps that only move the worker. -/
inductive WorkerMove (s : TickState) : WorkerPc → WorkerPc → Prop
  | enterLoop (h : s.running = true) : WorkerMove s .loopTest .lock
  | leaveLoop (h : s.running = false) : WorkerMove s .loopTest .done
  | acquire : WorkerMove s .lock .flagTest
  | flagUp (h : s.running = true) : WorkerMove s .flagTest .ticksTest
  | flagDown (h : s.running = false) : WorkerMove s .flagTest .recheck
  | noTicks (h : s.ticks = 0) : WorkerMove s .ticksTest .wait
  | block : WorkerMove s .wait (.blocked false)
  | wake (signalled : Bool) : WorkerMove s (.blocked signalled) .flagTest
  | goOn (h : s.running = true) : WorkerMove s .recheck .passStart
  | giveUp (h : s.running = false) : WorkerMove s .recheck .done
  | passEnd : WorkerMove s .inPass .loopTest

theorem workerStep_cases {s t : TickState} (h : workerStep s = some t) :
    (∃ pc, WorkerMove s s.pc pc ∧ t = { s with pc := pc }) ∨
      (s.pc = .ticksTest ∧ s.ticks ≠ 0 ∧ t = s.handOver) ∨
      (s.pc = .passStart ∧ t = s.passBegin) := by
  simp only [workerStep] at h
  cases hpc : s.pc with
  | loopTest =>
      simp only [hpc, Option.some.injEq] at h
      cases hrun : s.running with
      | true => exact Or.inl ⟨.lock, .enterLoop hrun, by simp [← h, hrun]⟩
      | false => exact Or.inl ⟨.done, .leaveLoop hrun, by simp [← h, hrun]⟩
  | lock =>
      simp only [hpc, Option.some.injEq] at h
      exact Or.inl ⟨.flagTest, .acquire, h.symm⟩
  | flagTest =>
      simp only [hpc, Option.some.injEq] at h
      cases hrun : s.running with
      | true => exact Or.inl ⟨.ticksTest, .flagUp hrun, by simp [← h, hrun]⟩
      | false => exact Or.inl ⟨.recheck, .flagDown hrun, by simp [← h, hrun]⟩
  | ticksTest =>
      simp only [hpc, Option.some.injEq] at h
      by_cases hticks : s.ticks = 0
      · exact Or.inl ⟨.wait, .noTicks hticks, by simp [← h, hticks]⟩
      · exact Or.inr (Or.inl ⟨rfl, hticks, by rw [← h, if_pos hticks]⟩)
  | wait =>
      simp only [hpc, Option.some.injEq] at h
      exact Or.inl ⟨.blocked false, .block, h.symm⟩
  | blocked signalled =>
      cases signalled with
      | false => simp only [hpc, reduceCtorEq] at h
      | true =>
          simp only [hpc, Option.some.injEq] at h
          exact Or.inl ⟨.flagTest, .wake true, h.symm⟩
  | recheck =>
      simp only [hpc, Option.some.injEq] at h
      cases hrun : s.running with
      | true => exact Or.inl ⟨.passStart, .goOn hrun, by simp [← h, hrun]⟩
      | false => exact Or.inl ⟨.done, .giveUp hrun, by simp [← h, hrun]⟩
  | passStart =>
      simp only [hpc, Option.some.injEq] at h
      exact Or.inr (Or.inr ⟨rfl, h.symm⟩)
  | inPass =>
      simp only [hpc, Option.some.injEq] at h
      exact Or.inl ⟨.loopTest, .passEnd, h.symm⟩
  | done => simp only [hpc, reduceCtorEq] at h

/-- **What a step can do**, with what must hold for it. -/
theorem threadStep_cases {s t : TickState} {step : ThreadStep} (h : threadStep s step = some t) :
    (step = .tick ∧ s.pc.holdsMutex = false ∧ t = s.tick) ∨
      (step = .stop ∧ t = { s with running := false, log := .stop :: s.log }) ∨
      (step = .wakeup ∧ s.running = false ∧ s.pc.holdsMutex = false ∧ t = s.wakeup) ∨
      (∃ pc, WorkerMove s s.pc pc ∧ t = { s with pc := pc }) ∨
      (s.pc = .ticksTest ∧ s.ticks ≠ 0 ∧ t = s.handOver) ∨
      (s.pc = .passStart ∧ t = s.passBegin) := by
  cases step with
  | tick =>
      simp only [threadStep] at h
      split at h
      · nomatch h
      · next hmutex =>
          cases h
          exact Or.inl ⟨rfl, Bool.eq_false_iff.mpr hmutex, rfl⟩
  | stop =>
      cases h
      exact Or.inr (Or.inl ⟨rfl, rfl⟩)
  | wakeup =>
      simp only [threadStep] at h
      split at h
      · nomatch h
      · next hfree =>
          cases h
          rw [not_or] at hfree
          exact Or.inr (Or.inr (Or.inl ⟨rfl, Bool.eq_false_iff.mpr hfree.1,
            Bool.eq_false_iff.mpr hfree.2, rfl⟩))
  | worker => exact Or.inr (Or.inr (Or.inr (workerStep_cases h)))
  | spurious =>
      simp only [threadStep] at h
      split at h
      · next hpc =>
          cases h
          refine Or.inr (Or.inr (Or.inr (Or.inl ⟨.flagTest, ?_, rfl⟩)))
          rw [hpc]
          exact .wake false
      · nomatch h

/-! ## What the log says

The log is the list of what was observed, newest first.  The counts between
hand-overs are read off it without the state. -/

/-- The values handed to `set_ticks`, newest first. -/
def handedOver : List Observation → List Int
  | [] => []
  | .handOver v :: log => v :: handedOver log
  | _ :: log => handedOver log

/-- The ticks since the last hand-over. -/
def ticksSince : List Observation → Nat
  | [] => 0
  | .handOver _ :: _ => 0
  | .tick :: log => ticksSince log + 1
  | _ :: log => ticksSince log

/-- The ticks between the last two hand-overs. -/
def ticksBetween : List Observation → Nat
  | [] => 0
  | .handOver _ :: log => ticksSince log
  | _ :: log => ticksBetween log

/-- After the last hand-over, which was of at least one tick, only ticks. -/
def FreshHandOver : List Observation → Prop
  | .handOver v :: _ => 1 ≤ v
  | .tick :: log => FreshHandOver log
  | _ => False

/-- Every pass that began has a hand-over of its own right before it. -/
def OwnHandOvers : List Observation → Prop
  | [] => True
  | .passBegin :: log => FreshHandOver log ∧ OwnHandOvers log
  | _ :: log => OwnHandOvers log

/-- The passes that began after the first stop. -/
def passesAfterStop : List Observation → Nat
  | [] => 0
  | .passBegin :: log => passesAfterStop log + if .stop ∈ log then 1 else 0
  | _ :: log => passesAfterStop log

/-! ## Counting

Until a stop each tick is pending or was handed over.  The invariant counts
both, in every interleaving of the two threads. -/

/-- Before stop is requested, and with room in `f_ticks` for one more. -/
def BeforeStop (s : TickState) (step : ThreadStep) : Prop :=
  step ≠ .stop ∧ (step = .tick → s.ticks + 1 < 2 ^ 31)

instance decBeforeStop (s : TickState) (step : ThreadStep) : Decidable (BeforeStop s step) :=
  inferInstanceAs (Decidable (_ ∧ (_ → _)))

/-- The accounts of a state before a stop. -/
structure Counted (s : TickState) : Prop where
  running : s.running = true
  pending : s.ticks = ticksSince s.log
  total : (s.log.count .tick : Int) = (handedOver s.log).sum + s.ticks
  positive : ∀ v ∈ handedOver s.log, 1 ≤ v
  served : s.serverTicks = ticksBetween s.log
  passes : s.log.count .passBegin + (if s.pc.passDue then 1 else 0) = (handedOver s.log).length
  due : s.pc.passDue = true → FreshHandOver s.log
  own : OwnHandOvers s.log

theorem counted_start : Counted .start where
  running := rfl
  pending := rfl
  total := rfl
  positive := by simp [TickState.start, handedOver]
  served := rfl
  passes := rfl
  due h := Bool.noConfusion h
  own := trivial

section Counting

variable {s t : TickState}

theorem passDue_signal (pc : WorkerPc) : pc.signal.passDue = pc.passDue := by
  cases pc <;> rfl

/-- A tick adds one to the count and to what is pending. -/
theorem counted_tick (h : Counted s) (hroom : s.ticks + 1 < 2 ^ 31) : Counted s.tick := by
  have hpending := h.pending
  have htotal := h.total
  have hexact : s.tick.ticks = s.ticks + 1 := int32_of_range (by omega) hroom
  refine ⟨h.running, ?_, ?_, h.positive, h.served, ?_, ?_, h.own⟩
  · rw [hexact, hpending]
    simp [TickState.tick, ticksSince]
  · rw [hexact]
    simp only [TickState.tick, List.count_cons_self, handedOver]
    omega
  · simpa [TickState.tick, passDue_signal, handedOver] using h.passes
  · intro hdue
    exact h.due ((passDue_signal s.pc).symm.trans hdue)

/-- A hand-over empties what is pending into the server. -/
theorem counted_handOver (h : Counted s) (hpc : s.pc = .ticksTest) (hticks : s.ticks ≠ 0) :
    Counted s.handOver := by
  have hpending := h.pending
  have htotal := h.total
  have hpasses := h.passes
  have hone : 1 ≤ s.ticks := by omega
  refine ⟨h.running, rfl, ?_, ?_, hpending, ?_, fun _ => hone, h.own⟩
  · simp only [TickState.handOver, handedOver, List.sum_cons]
    rw [List.count_cons_of_ne (by simp)]
    omega
  · intro v hv
    rcases List.mem_cons.mp hv with rfl | hv
    · exact hone
    · exact h.positive v hv
  · rw [hpc] at hpasses
    simpa [TickState.handOver, WorkerPc.passDue, handedOver] using hpasses

/-- A pass begins on the hand-over it is due to. -/
theorem counted_passBegin (h : Counted s) (hpc : s.pc = .passStart) : Counted s.passBegin := by
  have htotal := h.total
  have hpasses := h.passes
  rw [hpc] at hpasses
  refine ⟨h.running, h.pending, ?_, h.positive, h.served, ?_, fun hdue => Bool.noConfusion hdue,
    h.due (by rw [hpc]; rfl), h.own⟩
  · simpa [TickState.passBegin, handedOver] using htotal
  · simpa [TickState.passBegin, WorkerPc.passDue, handedOver] using hpasses

/-- While the flag is up the worker only moves from a place where a pass is due
to another one, or between two where none is. -/
theorem counted_move (h : Counted s) {pc : WorkerPc} (hmove : WorkerMove s s.pc pc) :
    Counted { s with pc := pc } := by
  have hdue : pc.passDue = s.pc.passDue := by
    generalize s.pc = old at hmove
    cases hmove with
    | flagDown hdown | giveUp hdown => exact absurd h.running (Bool.eq_false_iff.mp hdown)
    | _ => rfl
  refine ⟨h.running, h.pending, h.total, h.positive, h.served, ?_, ?_, h.own⟩
  · rw [hdue]
    exact h.passes
  · intro hpc
    exact h.due (hdue.symm.trans hpc)

theorem counted_step (h : Counted s) {step : ThreadStep} (hallowed : BeforeStop s step)
    (hstep : threadStep s step = some t) : Counted t := by
  rcases threadStep_cases hstep with ⟨rfl, -, rfl⟩ | ⟨rfl, -⟩ | ⟨-, hdown, -⟩ |
    ⟨pc, hmove, rfl⟩ | ⟨hpc, hticks, rfl⟩ | ⟨hpc, rfl⟩
  · exact counted_tick h (hallowed.2 rfl)
  · exact absurd rfl hallowed.1
  · exact absurd h.running (Bool.eq_false_iff.mp hdown)
  · exact counted_move h hmove
  · exact counted_handOver h hpc hticks
  · exact counted_passBegin h hpc

theorem length_le_sum {vs : List Int} (h : ∀ v ∈ vs, 1 ≤ v) : (vs.length : Int) ≤ vs.sum := by
  induction vs with
  | nil => exact le_refl _
  | cons v vs ih =>
      have hv := h v List.mem_cons_self
      have hvs := ih fun w hw => h w (List.mem_cons_of_mem _ hw)
      simp only [List.length_cons, List.sum_cons]
      omega

end Counting

/-- **No tick is lost or counted twice** in a run before a stop. -/
theorem ticks_accounted {s : TickState} (h : Reach threadStep BeforeStop .start s) :
    (s.log.count .tick : Int) = (handedOver s.log).sum + s.ticks ∧
      OwnHandOvers s.log ∧
      s.log.count .passBegin ≤ s.log.count .tick ∧
      (s.pc = .inPass → s.serverTicks = ticksBetween s.log) := by
  have hs : Counted s :=
    h.invariant counted_start (fun _ _ _ hI hallowed hstep => counted_step hI hallowed hstep)
  have hsum := length_le_sum hs.positive
  have htotal := hs.total
  have hpending := hs.pending
  have hpasses := hs.passes
  refine ⟨htotal, hs.own, ?_, fun _ => hs.served⟩
  omega

/-- Two ticks, and the pass they cause. -/
theorem ticks_accounted_two_ticks :
    let s : TickState := ⟨true, 0, 2, .inPass, [.passBegin, .handOver 2, .tick, .tick]⟩
    (s.log.count .tick : Int) = (handedOver s.log).sum + s.ticks ∧
      OwnHandOvers s.log ∧
      s.log.count .passBegin ≤ s.log.count .tick ∧
      (s.pc = .inPass → s.serverTicks = ticksBetween s.log) := by
  intro s
  have hticks : Reach threadStep BeforeStop .start ⟨true, 2, 0, .loopTest, [.tick, .tick]⟩ :=
    (Reach.start.next (i := .tick) (by decide) rfl).next (i := .tick) (by decide) rfl
  have hhands : Reach threadStep BeforeStop .start
      ⟨true, 0, 2, .recheck, [.handOver 2, .tick, .tick]⟩ :=
    (((hticks.next (i := .worker) (by decide) rfl).next (i := .worker) (by decide) rfl).next
      (i := .worker) (by decide) rfl).next (i := .worker) (by decide) rfl
  exact ticks_accounted ((hhands.next (i := .worker) (by decide) rfl).next (i := .worker)
    (by decide) rfl)

/-! ## Stopping

A stop lowers the flag without the mutex.  The wake-up that follows it takes
the mutex and makes `f_ticks` 1, so a worker that had tested the flag before
finds the count, or is signalled. -/

/-- What keeps the worker from being stranded. -/
structure Awake (s : TickState) : Prop where
  stopped : s.running = false ↔ .stop ∈ s.log
  woken : .wakeup ∈ s.log → s.running = false ∧
    s.pc ≠ .ticksTest ∧ s.pc ≠ .wait ∧ s.pc ≠ .blocked false
  empty : s.pc = .wait ∨ s.pc = .blocked false → s.ticks = 0
  bounded : passesAfterStop s.log + (if s.running = false ∧ s.pc = .passStart then 1 else 0) ≤ 1

theorem awake_start : Awake .start where
  stopped := by simp [TickState.start]
  woken h := absurd h List.not_mem_nil
  empty h := by simp [TickState.start] at h
  bounded := by simp [TickState.start, passesAfterStop]

section Stopping

variable {s t : TickState}

theorem signal_ne {pc : WorkerPc} (h : pc.holdsMutex = false) :
    pc.signal ≠ .ticksTest ∧ pc.signal ≠ .wait ∧ pc.signal ≠ .blocked false := by
  cases pc <;> simp_all [WorkerPc.signal, WorkerPc.holdsMutex]

theorem signal_passStart {pc : WorkerPc} : pc.signal = .passStart ↔ pc = .passStart := by
  cases pc <;> simp [WorkerPc.signal]

theorem awake_tick (h : Awake s) (hmutex : s.pc.holdsMutex = false) : Awake s.tick := by
  have hne := signal_ne hmutex
  refine ⟨?_, ?_, ?_, ?_⟩
  · simpa [TickState.tick] using h.stopped
  · intro hwoken
    have hold : .wakeup ∈ s.log := by simpa [TickState.tick] using hwoken
    exact ⟨(h.woken hold).1, hne⟩
  · rintro (hpc | hpc)
    · exact absurd hpc hne.2.1
    · exact absurd hpc hne.2.2
  · simpa only [TickState.tick, passesAfterStop, signal_passStart] using h.bounded

theorem passesAfterStop_of_not_mem {log : List Observation} (h : .stop ∉ log) :
    passesAfterStop log = 0 := by
  induction log with
  | nil => rfl
  | cons o log ih =>
      have hlog : .stop ∉ log := by
        intro hmem
        exact h (List.mem_cons_of_mem o hmem)
      cases o with
      | passBegin => simp only [passesAfterStop, if_neg hlog, ih hlog]
      | _ => exact ih hlog

theorem awake_stop (h : Awake s) :
    Awake { s with running := false, log := .stop :: s.log } := by
  have hbounded := h.bounded
  refine ⟨by simp, ?_, h.empty, ?_⟩
  · intro hwoken
    have hold : .wakeup ∈ s.log := by simpa using hwoken
    exact ⟨rfl, (h.woken hold).2⟩
  · simp only [passesAfterStop, true_and]
    cases hrun : s.running with
    | false => simpa [hrun] using hbounded
    | true =>
        have hfirst : .stop ∉ s.log := by
          intro hmem
          have hdown := h.stopped.mpr hmem
          rw [hrun] at hdown
          nomatch hdown
        rw [passesAfterStop_of_not_mem hfirst]
        split <;> omega

theorem awake_wakeup (h : Awake s) (hdown : s.running = false)
    (hmutex : s.pc.holdsMutex = false) : Awake s.wakeup := by
  have hne := signal_ne hmutex
  refine ⟨?_, fun _ => ⟨hdown, hne⟩, ?_, ?_⟩
  · simpa [TickState.wakeup] using h.stopped
  · rintro (hpc | hpc)
    · exact absurd hpc hne.2.1
    · exact absurd hpc hne.2.2
  · simpa only [TickState.wakeup, passesAfterStop, signal_passStart] using h.bounded

/-- The worker gets to its wait through tests that saw the flag up and no
ticks. -/
theorem awake_move (h : Awake s) {pc : WorkerPc} (hmove : WorkerMove s s.pc pc) :
    Awake { s with pc := pc } := by
  have hbounded := h.bounded
  have hstopped := h.stopped
  refine ⟨hstopped, ?_, ?_, ?_⟩
  · intro hwoken
    obtain ⟨hdown, hticks, hwait, -⟩ := h.woken hwoken
    refine ⟨hdown, ?_⟩
    generalize s.pc = old at hmove hticks hwait
    cases hmove with
    | flagUp hup => rw [hdown] at hup; nomatch hup
    | noTicks => exact absurd rfl hticks
    | block => exact absurd rfl hwait
    | _ => exact ⟨nofun, nofun, nofun⟩
  · intro hpc
    have hempty := h.empty
    generalize s.pc = old at hmove hempty
    cases hmove with
    | noTicks hzero => exact hzero
    | block => exact hempty (Or.inl rfl)
    | _ => rcases hpc with hpc | hpc <;> nomatch hpc
  · have hle : passesAfterStop s.log ≤ 1 := le_trans (Nat.le_add_right _ _) hbounded
    have hnot : ¬ (s.running = false ∧ pc = .passStart) := by
      rintro ⟨hdown, hpc⟩
      generalize s.pc = old at hmove
      cases hmove with
      | goOn hup => rw [hdown] at hup; nomatch hup
      | _ => nomatch hpc
    show passesAfterStop s.log + _ ≤ 1
    rw [if_neg hnot]
    exact hle

theorem awake_handOver (h : Awake s) : Awake s.handOver := by
  have hbounded := h.bounded
  refine ⟨?_, ?_, nofun, ?_⟩
  · simpa [TickState.handOver] using h.stopped
  · intro hwoken
    have hold : .wakeup ∈ s.log := by simpa [TickState.handOver] using hwoken
    exact ⟨(h.woken hold).1, nofun, nofun, nofun⟩
  · have hle : passesAfterStop s.log ≤ 1 := le_trans (Nat.le_add_right _ _) hbounded
    simpa [TickState.handOver, passesAfterStop] using hle

/-- The one pass that begins after a stop is the one that was about to. -/
theorem awake_passBegin (h : Awake s) (hpc : s.pc = .passStart) : Awake s.passBegin := by
  have hbounded := h.bounded
  refine ⟨?_, ?_, nofun, ?_⟩
  · simpa [TickState.passBegin] using h.stopped
  · intro hwoken
    have hold : .wakeup ∈ s.log := by simpa [TickState.passBegin] using hwoken
    exact ⟨(h.woken hold).1, nofun, nofun, nofun⟩
  · simp only [hpc, h.stopped, and_true] at hbounded
    simpa [TickState.passBegin, passesAfterStop] using hbounded

theorem awake_step (h : Awake s) {step : ThreadStep} (hstep : threadStep s step = some t) :
    Awake t := by
  rcases threadStep_cases hstep with ⟨-, hmutex, rfl⟩ | ⟨-, rfl⟩ | ⟨-, hdown, hmutex, rfl⟩ |
    ⟨pc, hmove, rfl⟩ | ⟨-, -, rfl⟩ | ⟨hpc, rfl⟩
  · exact awake_tick h hmutex
  · exact awake_stop h
  · exact awake_wakeup h hdown hmutex
  · exact awake_move h hmove
  · exact awake_handOver h
  · exact awake_passBegin h hpc

end Stopping

/-- **A stop never strands the worker**, whatever the order of the steps. -/
theorem stop_never_strands {s : TickState} (h : Reach threadStep (fun _ _ => True) .start s) :
    (.wakeup ∈ s.log → s.pc ≠ .blocked false) ∧
      (s.running = true → s.pc = .blocked false → s.ticks = 0) ∧
      passesAfterStop s.log ≤ 1 := by
  have hs : Awake s := h.invariant awake_start (fun _ _ _ hI _ hstep => awake_step hI hstep)
  refine ⟨fun hwoken => (hs.woken hwoken).2.2.2, fun _ hpc => hs.empty (Or.inr hpc), ?_⟩
  exact le_trans (Nat.le_add_right _ _) hs.bounded

/-- The flag goes down between the worker's test and its wait. -/
theorem stop_never_strands_between_test_and_wait :
    let s : TickState := ⟨false, 1, 0, .blocked true, [.wakeup, .stop]⟩
    (.wakeup ∈ s.log → s.pc ≠ .blocked false) ∧
      (s.running = true → s.pc = .blocked false → s.ticks = 0) ∧
      passesAfterStop s.log ≤ 1 := by
  intro s
  have htests : Reach threadStep (fun _ _ => True) .start ⟨true, 0, 0, .ticksTest, []⟩ :=
    ((Reach.start.next (i := .worker) trivial rfl).next (i := .worker) trivial rfl).next
      (i := .worker) trivial rfl
  have hwaits : Reach threadStep (fun _ _ => True) .start ⟨false, 0, 0, .blocked false, [.stop]⟩ :=
    ((htests.next (i := .stop) trivial rfl).next (i := .worker) trivial rfl).next
      (i := .worker) trivial rfl
  exact stop_never_strands (hwaits.next (i := .wakeup) trivial rfl)

end Sitter
