/-
# `Sitter.Shutdown` — a stop comes to its end

`stop` waits for the worker's thread, and the worker's thread may be in its
loop, at a lock, in a pass or in a wait.  With the flag down each of its steps
leads out of the loop, and the wake-up sees to it that there is a step
(`Awake`).  So nobody waits for anybody else for ever: from a stop on the daemon
is ranked (`ending_ranked`), and `run` returns.

A thread that ends by itself, from an exception in a plugin or in the loading of
one, has signalled its end, and that is read as a stop: the daemon does not
outlive its worker (`worker_end_ends_run`).
-/
import Sitter.Base.Ranked
import Sitter.Lifecycle

namespace Sitter

open Machine

/-! ## How it ends -/

/-- The flag is down, or everything is disconnected. -/
def Lifecycle.Ending (s : Lifecycle) : Prop :=
  s.main = .lowered ∨ s.main = .joining ∨ s.connections = []

/-- How many steps the worker has left in its loop, when the flag is down. -/
def WorkerPc.rank : WorkerPc → Nat
  | .done => 0
  | .loopTest | .recheck => 1
  | .inPass | .flagTest => 2
  | .passStart | .lock | .blocked _ => 3
  | .wait => 4
  | .ticksTest => 5

def Lifecycle.workerRank (s : Lifecycle) : Nat :=
  match s.phase with
  | .entering => 3 + s.threads.pc.rank
  | .looping => 2 + s.threads.pc.rank
  | .left => 1
  | .ended => 0

def MainPc.rank : MainPc → Nat
  | .lowered => 3
  | .joining => 2
  | .polling => 1
  | .stopping | .returned _ | .crashed => 0

def Lifecycle.rank (s : Lifecycle) : Nat := s.workerRank + s.main.rank

section Ending

variable {s t : Lifecycle} {i : LifecycleStep}

theorem rank_le_ten (s : Lifecycle) (h : Orderly s) : s.rank ≤ 10 := by
  have hmain : s.main.rank ≤ 3 := by cases s.main <;> simp [MainPc.rank]
  have hworker : s.workerRank ≤ 7 := by
    rw [Lifecycle.workerRank]
    split
    · next hphase =>
        rw [h.entering hphase]
        decide
    · cases s.threads.pc <;> simp [WorkerPc.rank]
    · decide
    · decide
  rw [Lifecycle.rank]
  omega

theorem rank_signal (pc : WorkerPc) : pc.signal.rank = pc.rank := by
  cases pc <;> rfl

theorem rank_workerStep {threads threads' : TickState} {step : ThreadStep}
    (hdown : threads.running = false) (hi : step = .worker ∨ step = .spurious)
    (hstep : threadStep threads step = some threads') : threads'.pc.rank < threads.pc.rank := by
  rcases threadStep_cases hstep with ⟨rfl, -⟩ | ⟨rfl, -⟩ | ⟨rfl, -⟩ | ⟨pc, hmove, rfl⟩ |
    ⟨hpc, -, rfl⟩ | ⟨hpc, rfl⟩
  · rcases hi with hi | hi <;> cases hi
  · rcases hi with hi | hi <;> cases hi
  · rcases hi with hi | hi <;> cases hi
  · dsimp only
    generalize threads.pc = old at hmove
    cases hmove with
    | enterLoop hup | flagUp hup | goOn hup => cases hdown.symm.trans hup
    | _ => simp [WorkerPc.rank]
  · rw [hpc]
    simp [TickState.handOver, WorkerPc.rank]
  · rw [hpc]
    simp [TickState.passBegin, WorkerPc.rank]

theorem rank_worker (hphase : s.phase = .looping) {threads : TickState}
    (hrank : threads.pc.rank < s.threads.pc.rank) :
    ({ s with threads } : Lifecycle).rank < s.rank := by
  simp only [Lifecycle.rank, Lifecycle.workerRank, hphase]
  omega

theorem callback_polls (hmove : LifecycleMove s i t) {c : Connection}
    (hc : i.connection = some c) : s.main = .polling := by
  cases hmove with
  | stopBegins i hmain | stopEnds i hmain | ready hmain | tick hmain | crash hmain | exit hmain =>
      exact hmain
  | worker hphase i step hi =>
      rcases hi with ⟨rfl, -⟩ | ⟨rfl, -⟩ <;> cases hc
  | lower | wakeup | join | enter | throw | leave | ended => cases hc

/-- No callback is called, so the main thread goes on to its end. -/
theorem ending_quiet (h : Orderly s) (hending : s.Ending) (hal : Delivers s i)
    (hmove : LifecycleMove s i t) : i.connection = none := by
  by_contra hne
  obtain ⟨c, hc⟩ := Option.ne_none_iff_exists'.mp hne
  have hall := h.all_of_delivers hal hc
  have hmain := callback_polls hmove hc
  rcases hending with hpc | hpc | hnone
  · cases hmain.symm.trans hpc
  · cases hmain.symm.trans hpc
  · cases hall.symm.trans hnone

theorem ending_step (h : Orderly s) (hending : s.Ending) (hal : Delivers s i)
    (hmove : LifecycleMove s i t) : t.Ending ∧ t.rank < s.rank := by
  have hquiet := ending_quiet h hending hal hmove
  have hdown : s.phase ≠ .ended → s.threads.running = false := by
    intro hphase
    rcases hending with hpc | hpc | hnone
    · exact h.lowered (Or.inl hpc)
    · exact h.lowered (Or.inr hpc)
    · exact absurd (h.out hnone).1 hphase
  cases hmove with
  | stopBegins i hmain hworker hrunning done hdone hi =>
      rcases hi with rfl | rfl | rfl <;> cases hquiet
  | stopEnds i hmain hover done hi => rcases hi with rfl | rfl | rfl <;> cases hquiet
  | ready | tick | crash => cases hquiet
  | exit hmain hnone =>
      refine ⟨Or.inr (Or.inr hnone), ?_⟩
      simp [Lifecycle.rank, Lifecycle.workerRank, hmain, MainPc.rank]
  | lower hmain =>
      rcases hending with hpc | hpc | hnone
      · cases hmain.symm.trans hpc
      · cases hmain.symm.trans hpc
      · rcases (h.out hnone).2 with hpc | hpc <;> cases hmain.symm.trans hpc
  | wakeup hmain hdown hmutex =>
      refine ⟨Or.inr (Or.inl rfl), ?_⟩
      simp [Lifecycle.rank, Lifecycle.workerRank, hmain, MainPc.rank, TickState.wakeup, rank_signal]
  | join hmain hended =>
      have hall := h.all_of_main (by simp [hmain]) (by simp [hmain])
      refine ⟨Or.inr (Or.inr (disconnect_connections hall)), ?_⟩
      simp [Lifecycle.rank, Lifecycle.workerRank, Lifecycle.disconnect,
        Lifecycle.removeConnection, hmain, hended, MainPc.rank]
  | enter hphase =>
      refine ⟨hending, ?_⟩
      simp [Lifecycle.rank, Lifecycle.workerRank, hphase]
  | throw hplace =>
      refine ⟨hending, ?_⟩
      rcases hplace with hphase | ⟨hphase, hpc⟩
      · simp [Lifecycle.rank, Lifecycle.workerRank, hphase, WorkerPc.rank]
        omega
      · simp [Lifecycle.rank, Lifecycle.workerRank, hphase, hpc, WorkerPc.rank]
  | worker hphase i step hi threads hstep =>
      refine ⟨hending, rank_worker hphase (rank_workerStep (hdown ?_) ?_ hstep)⟩
      · simp [hphase]
      · exact hi.imp And.right And.right
  | leave hphase hpc =>
      refine ⟨hending, ?_⟩
      simp only [Lifecycle.rank, Lifecycle.workerRank, hphase]
      omega
  | ended hphase =>
      refine ⟨hending, ?_⟩
      simp [Lifecycle.rank, Lifecycle.workerRank, hphase]

theorem worker_progress (hblocked : s.threads.pc ≠ .blocked false)
    (hended : s.phase ≠ .ended) : ∃ i t, i.connection = none ∧ lifecycleStep s i = some t := by
  cases hphase : s.phase with
  | entering => exact ⟨.enter, _, rfl, if_pos hphase⟩
  | left => exact ⟨.ended, _, rfl, if_pos hphase⟩
  | ended => exact absurd hphase hended
  | looping =>
      by_cases hdone : s.threads.pc = .done
      · exact ⟨.leave, _, rfl, if_pos ⟨hphase, hdone⟩⟩
      · obtain ⟨threads, hstep⟩ := workerStep_some hblocked hdone
        refine ⟨.worker, { s with threads }, rfl, ?_⟩
        simp [lifecycleStep, hphase, hstep]

theorem ending_progress (h : Orderly s) (hending : s.Ending) (hgoal : s.main ≠ .returned 0) :
    ∃ i t, Delivers s i ∧ lifecycleStep s i = some t := by
  have hown : ∀ i t, i.connection = none → lifecycleStep s i = some t →
      ∃ i t, Delivers s i ∧ lifecycleStep s i = some t := by
    intro i t hi hstep
    refine ⟨i, t, ⟨?_, ?_, ?_⟩, hstep⟩
    · intro c hc
      rw [hi] at hc
      cases hc
    · rintro rfl
      cases hi
    · rintro rfl
      cases hi
  have hworker : s.threads.pc ≠ .blocked false → s.phase ≠ .ended →
      ∃ i t, Delivers s i ∧ lifecycleStep s i = some t := by
    intro hblocked hended
    obtain ⟨i, t, hi, hstep⟩ := worker_progress hblocked hended
    exact hown i t hi hstep
  rcases hending with hmain | hmain | hnone
  · have hdown := h.lowered (Or.inl hmain)
    by_cases hmutex : s.threads.pc.holdsMutex = true
    · refine hworker ?_ ?_
      · intro hpc
        rw [hpc] at hmutex
        cases hmutex
      · intro hended
        rw [h.finished (Or.inr hended)] at hmutex
        cases hmutex
    · refine hown .main { s with threads := s.threads.wakeup, main := .joining } rfl ?_
      simp [lifecycleStep, Lifecycle.mainStep, hmain, threadStep, hdown, hmutex]
  · by_cases hended : s.phase = .ended
    · refine hown .main { s with worker := false }.disconnect rfl ?_
      simp [lifecycleStep, Lifecycle.mainStep, hmain, Lifecycle.isRunning, hended]
    · exact hworker (h.awake.woken (h.woken hmain)).2.2.2 hended
  · have hmain := (h.out hnone).2.resolve_right hgoal
    refine hown .main { s with main := .returned (if s.forceRestart then 2 else 0) } rfl ?_
    simp [lifecycleStep, Lifecycle.mainStep, hmain, hnone]

theorem ending_ranked :
    Ranked lifecycleStep Delivers (fun s => Orderly s ∧ s.Ending) (fun s => s.main = .returned 0)
      Lifecycle.rank where
  descent s i t hs hal hstep := by
    have hmove := lifecycleStep_cases hstep
    obtain ⟨hending, hrank⟩ := ending_step hs.1 hs.2 hal hmove
    exact ⟨⟨orderly_step hs.1 hal hmove, hending⟩, hrank⟩
  progress s hs hgoal := ending_progress hs.1 hs.2 hgoal

/-- **A stop comes to its end**: the two threads do not wait for each other,
whatever the order of their steps is, and after ten of them at most `run`
returns 0. -/
theorem stop_completes (h : Reach lifecycleStep Delivers .start s) (hending : s.Ending)
    {is : List LifecycleStep} (hrun : Run lifecycleStep Delivers s is t) :
    is.length ≤ 10 ∧
      ((∀ i u, Delivers t i → lifecycleStep t i ≠ some u) → t.main = .returned 0) := by
  have hs : Orderly s := orderly_reach h
  refine ⟨(ending_ranked.length_le ⟨hs, hending⟩ hrun).trans (rank_le_ten s hs), ?_⟩
  exact ending_ranked.goal_of_stuck ⟨hs, hending⟩ hrun

/-- After a pass that threw: the flag is down, for `stop` was called. -/
def Lifecycle.thrownLowered : Lifecycle :=
  { Lifecycle.thrown with
    threads := ⟨false, 0, 1, .done, [.stop, .passBegin, .handOver 1, .tick]⟩
    main := .lowered
    doneSignal := false }

/-- `run` has returned. -/
def Lifecycle.thrownReturned : Lifecycle where
  threads := ⟨false, 1, 1, .done, [.wakeup, .stop, .passBegin, .handOver 1, .tick]⟩
  phase := .ended
  main := .returned 0
  connections := []
  timerEnabled := true
  worker := false
  doneSignal := false
  forceRestart := false

theorem thrownLowered_reached : Reach lifecycleStep Delivers .start .thrownLowered :=
  (thrown_reached.next (i := .threadDone) (by decide) rfl).next (i := .main) (by decide) rfl

theorem thrownLowered_returns : Run lifecycleStep Delivers .thrownLowered
    [.main, .ended, .main, .main] .thrownReturned :=
  .cons (by decide) rfl (.cons (by decide) rfl (.cons (by decide) rfl
    (.cons (by decide) rfl (.nil _))))

/-- The wake-up, the end of the thread, the end of the wait and of `run`. -/
theorem stop_completes_thrown :
    [LifecycleStep.main, .ended, .main, .main].length ≤ 10 ∧
      ((∀ i u, Delivers .thrownReturned i → lifecycleStep .thrownReturned i ≠ some u) →
        Lifecycle.thrownReturned.main = .returned 0) :=
  stop_completes thrownLowered_reached (Or.inl rfl) thrownLowered_returns

theorem ending_connection (h : Orderly s) (hending : s.Ending) {is : List LifecycleStep}
    (hrun : Run lifecycleStep Delivers s is t) : ∀ i ∈ is, i.connection = none := by
  induction hrun with
  | nil s => exact List.forall_mem_nil _
  | cons hal hst _ ih =>
      have hmove := lifecycleStep_cases hst
      exact List.forall_mem_cons.mpr ⟨ending_quiet h hending hal hmove,
        ih (orderly_step h hal hmove) (ending_step h hending hal hmove).1⟩

theorem ending_returns (h : Orderly s) (hending : s.Ending) :
    ∃ is t, Run lifecycleStep Delivers s is t ∧ t.main = .returned 0 ∧
      ∀ i ∈ is, i.connection = none := by
  obtain ⟨is, t, hrun, hgoal⟩ := ending_ranked.exists_run ⟨h, hending⟩
  exact ⟨is, t, hrun, hgoal, ending_connection h hending hrun⟩

theorem stopping_returns (h : Orderly s) (hmain : s.main = .stopping) :
    ∃ is t, Run lifecycleStep Delivers s is t ∧ t.main = .returned 0 ∧
      ∀ i ∈ is, i.connection = none := by
  have hal : Delivers s .main := ⟨nofun, nofun, nofun⟩
  have hstep : lifecycleStep s .main = some { s with
      threads := { s.threads with running := false, log := .stop :: s.threads.log }
      main := .lowered } := by
    simp [lifecycleStep, Lifecycle.mainStep, hmain, threadStep]
  obtain ⟨is, t, hrun, hgoal, hnone⟩ :=
    ending_returns (orderly_step h hal (lifecycleStep_cases hstep)) (Or.inl rfl)
  exact ⟨.main :: is, t, .cons hal hstep hrun, hgoal, List.forall_mem_cons.mpr ⟨rfl, hnone⟩⟩

/-- **The daemon does not outlive its worker.**  When the worker's thread is
over, whatever it ended from, the signal of it is there to be read as long as
the main thread polls; and with no other callback than that one `run` can
return 0. -/
theorem worker_end_ends_run (h : Reach lifecycleStep Delivers .start s)
    (hover : s.phase = .left ∨ s.phase = .ended) :
    (s.main = .polling → s.connections ≠ [] → Delivers s .threadDone) ∧
      ∃ is t, Run lifecycleStep Delivers s is t ∧ t.main = .returned 0 ∧
        ∀ i ∈ is, i.connection = none ∨ i = .threadDone := by
  have hs : Orderly s := orderly_reach h
  have hdeliver : s.main = .polling → s.connections ≠ [] → Delivers s .threadDone := by
    intro hmain hconn
    have hall := hs.connected.resolve_right hconn
    have hdone : s.doneSignal = true := by
      rcases hs.noticed hover with hdone | hpc | hnone
      · exact hdone
      · exact absurd hmain hpc
      · exact absurd hnone hconn
    refine ⟨?_, nofun, fun _ => hdone⟩
    intro c hc
    cases hc
    rw [hall]
    decide
  have hweaken : (∃ is t, Run lifecycleStep Delivers s is t ∧ t.main = .returned 0 ∧
      ∀ i ∈ is, i.connection = none) → ∃ is t, Run lifecycleStep Delivers s is t ∧
        t.main = .returned 0 ∧ ∀ i ∈ is, i.connection = none ∨ i = .threadDone := by
    rintro ⟨is, t, hrun, hgoal, hnone⟩
    exact ⟨is, t, hrun, hgoal, fun i hi => Or.inl (hnone i hi)⟩
  refine ⟨hdeliver, ?_⟩
  by_cases hconn : s.connections = []
  · exact hweaken (ending_returns hs (Or.inr (Or.inr hconn)))
  cases hmain : s.main with
  | polling =>
      have hal := hdeliver hmain hconn
      have hstep : lifecycleStep s .threadDone = some { s with doneSignal := false }.stop :=
        if_pos hmain
      have hmove := lifecycleStep_cases hstep
      have ht := orderly_step hs hal hmove
      have hnext : ({ s with doneSignal := false } : Lifecycle).stop.main = .stopping ∨
          ({ s with doneSignal := false } : Lifecycle).stop.Ending := by
        rw [Lifecycle.stop]
        split
        · exact Or.inl rfl
        · exact Or.inr (Or.inr (Or.inr
            (disconnect_connections (hs.connected.resolve_right hconn))))
      obtain ⟨is, t, hrun, hgoal, hnone⟩ := hnext.elim (stopping_returns ht) (ending_returns ht)
      exact ⟨.threadDone :: is, t, .cons hal hstep hrun, hgoal,
        List.forall_mem_cons.mpr ⟨Or.inr rfl, fun i hi => Or.inl (hnone i hi)⟩⟩
  | stopping => exact hweaken (stopping_returns hs hmain)
  | lowered => exact hweaken (ending_returns hs (Or.inl hmain))
  | joining => exact hweaken (ending_returns hs (Or.inr (Or.inl hmain)))
  | returned code => exact absurd (hs.returned code hmain) hconn
  | crashed => exact absurd hmain hs.safe

/-- The pass threw. -/
theorem worker_end_ends_run_thrown :
    (Lifecycle.thrown.main = .polling → Lifecycle.thrown.connections ≠ [] →
        Delivers .thrown .threadDone) ∧
      ∃ is t, Run lifecycleStep Delivers .thrown is t ∧ t.main = .returned 0 ∧
        ∀ i ∈ is, i.connection = none ∨ i = .threadDone :=
  worker_end_ends_run thrown_reached (Or.inl rfl)

end Ending

end Sitter
