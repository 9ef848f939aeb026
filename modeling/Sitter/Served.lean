/-
# `Sitter.Served` — every tick is served

`Ticks` counts: no tick is lost, and none is handed over twice.  That the worker
gets around to it is another matter, for it may be asleep when the tick comes,
or in a pass, or still be loading its plugins, and the main thread goes on with
whatever comes up.

    the pass it is in, if it is in one        one step
    the test of the loop, the lock, the flag, the ticks, the flag again, the pass

That is seven steps of the worker at most.  Nothing that the main thread does
takes it back, and none of them has to wait: with a tick pending the worker is
not asleep (`Awake`).  So every tick is followed by a pass, unless a stop or an
exception comes first (`tick_served`).
-/
import Sitter.Base.Ranked
import Sitter.Lifecycle
import Sitter.Retention

namespace Sitter

open Machine

/-- What the communicator promises, with fewer than 2^31 ticks pending. -/
def InRoom (s : Lifecycle) (i : LifecycleStep) : Prop :=
  Delivers s i ∧ (i = .timeout → s.threads.ticks + 1 < 2 ^ 31)

instance decInRoom (s : Lifecycle) (i : LifecycleStep) : Decidable (InRoom s i) :=
  inferInstanceAs (Decidable (_ ∧ _))

/-- The worker goes on: its plugins are loaded, or it takes a step of its loop,
the end of a pass being one. -/
def LifecycleStep.ofWorker : LifecycleStep → Bool
  | .enter | .worker => true
  | _ => false

/-- The worker's steps before the one that begins a pass. -/
def WorkerPc.toPass : WorkerPc → Nat
  | .passStart => 0
  | .recheck => 1
  | .ticksTest => 2
  | .flagTest => 3
  | .lock | .blocked _ => 4
  | .loopTest => 5
  | .inPass => 6
  | .wait | .done => 0

def Lifecycle.toPass (s : Lifecycle) : Nat :=
  s.threads.pc.toPass + if s.phase = .entering then 1 else 0

/-- More than `n` passes have begun, or no pass can begin any more. -/
def Lifecycle.ServedSince (n : Nat) (s : Lifecycle) : Prop :=
  n < s.threads.log.count .passBegin ∨ s.threads.running = false ∨ s.threads.pc = .done

/-- A tick is pending, and the worker is there for it. -/
structure Lifecycle.Owing (n : Nat) (s : Lifecycle) : Prop where
  orderly : Orderly s
  room : 0 ≤ s.threads.ticks ∧ s.threads.ticks < 2 ^ 31
  pending : s.threads.tickPending
  up : s.threads.running = true
  live : s.threads.pc ≠ .done
  since : n ≤ s.threads.log.count .passBegin

section Steps

variable {s t : Lifecycle} {i : LifecycleStep} {n : Nat}

/-- With room for it a tick is counted exactly. -/
theorem tick_exact (h : 0 ≤ s.threads.ticks) (hal : InRoom s .timeout) :
    s.threads.tick.ticks = s.threads.ticks + 1 := by
  have hroom := hal.2 rfl
  exact int32_of_range (by omega) (by omega)

theorem room_step (h : 0 ≤ s.threads.ticks ∧ s.threads.ticks < 2 ^ 31) (hal : InRoom s i)
    (hmove : LifecycleMove s i t) : 0 ≤ t.threads.ticks ∧ t.threads.ticks < 2 ^ 31 := by
  cases hmove with
  | stopBegins | stopEnds | ready | crash | exit | lower | join | enter | throw | leave | ended =>
      exact h
  | tick hmain hworker hmutex =>
      have hroom := hal.2 rfl
      rw [tick_exact h.1 hal]
      omega
  | wakeup hmain hdown hmutex => exact (by decide : (0 : Int) ≤ 1 ∧ (1 : Int) < 2 ^ 31)
  | worker hphase i step hi threads hstep =>
      rcases threadStep_cases hstep with ⟨rfl, -⟩ | ⟨rfl, -⟩ | ⟨rfl, -⟩ | ⟨_, -, rfl⟩ |
        ⟨-, -, rfl⟩ | ⟨-, rfl⟩
      · rcases hi with ⟨-, hi⟩ | ⟨-, hi⟩ <;> cases hi
      · rcases hi with ⟨-, hi⟩ | ⟨-, hi⟩ <;> cases hi
      · rcases hi with ⟨-, hi⟩ | ⟨-, hi⟩ <;> cases hi
      · exact h
      · exact (by decide : (0 : Int) ≤ 0 ∧ (0 : Int) < 2 ^ 31)
      · exact h

theorem toPass_signal {pc : WorkerPc} : pc.signal.toPass = pc.toPass := by
  cases pc <;> rfl

theorem Lifecycle.Owing.awake (h : s.Owing n) :
    s.threads.pc ≠ .wait ∧ s.threads.pc ≠ .blocked false := by
  have hpending := h.pending
  have hempty := h.orderly.awake.empty
  constructor
  all_goals
    intro hpc
    rcases hpending with hticks | hdue
    · exact hticks (hempty (by simp [hpc]))
    · rw [hpc] at hdue
      cases hdue

/-- A step of the worker's loop comes closer to a pass, and keeps what is
pending. -/
theorem owing_worker (h : s.Owing n) {threads : TickState}
    (hstep : workerStep s.threads = some threads) :
    threads.log.count .passBegin = s.threads.log.count .passBegin + 1 ∨
      (threads.tickPending ∧ threads.running = true ∧ threads.pc ≠ .done ∧
        threads.log.count .passBegin = s.threads.log.count .passBegin ∧
        threads.pc.toPass + 1 ≤ s.threads.pc.toPass) := by
  rcases workerStep_cases hstep with ⟨pc, hmove, rfl⟩ | ⟨hpc, hticks, rfl⟩ | ⟨hpc, rfl⟩
  · refine Or.inr ?_
    obtain ⟨hwait, hblocked⟩ := h.awake
    have hpending := h.pending
    have hup := h.up
    rw [TickState.tickPending] at hpending ⊢
    dsimp only
    generalize s.threads.pc = old at hmove hwait hblocked hpending
    cases hmove with
    | leaveLoop hdown | flagDown hdown | giveUp hdown => cases hdown.symm.trans hup
    | noTicks hzero =>
        rcases hpending with hticks | hdue
        · exact absurd hzero hticks
        · cases hdue
    | block => exact absurd rfl hwait
    | goOn => exact ⟨Or.inr rfl, hup, WorkerPc.noConfusion, rfl, le_refl _⟩
    | enterLoop | acquire | flagUp | wake | passEnd =>
        have hticks := hpending.resolve_right Bool.false_ne_true
        refine ⟨Or.inl hticks, hup, WorkerPc.noConfusion, rfl, ?_⟩
        simp [WorkerPc.toPass]
  · refine Or.inr ⟨Or.inr rfl, h.up, WorkerPc.noConfusion, ?_, ?_⟩
    · simp [TickState.handOver]
    · simp [hpc, TickState.handOver, WorkerPc.toPass]
  · exact Or.inl (by simp [TickState.passBegin])

theorem Lifecycle.Owing.frame (h : s.Owing n) (horderly : Orderly t)
    (hthreads : t.threads = s.threads) : t.Owing n where
  orderly := horderly
  room := hthreads ▸ h.room
  pending := hthreads ▸ h.pending
  up := hthreads ▸ h.up
  live := hthreads ▸ h.live
  since := hthreads ▸ h.since

/-- **One step**, of the worker or of any other kind. -/
theorem owing_step (h : s.Owing n) (hal : InRoom s i) (hmove : LifecycleMove s i t)
    (hgoal : ¬ t.ServedSince n) :
    t.Owing n ∧ t.toPass + (if i.ofWorker then 1 else 0) ≤ s.toPass := by
  have horderly := orderly_step h.orderly hal.1 hmove
  have hroom := room_step h.room hal hmove
  obtain ⟨hsince, hgoal⟩ := not_or.mp hgoal
  obtain ⟨hup, hlive⟩ := not_or.mp hgoal
  cases hmove with
  | stopBegins i hmain hworker hrunning done hdone hi =>
      refine ⟨h.frame horderly rfl, ?_⟩
      rcases hi with rfl | rfl | rfl <;> exact le_refl _
  | stopEnds i hmain hover done hi =>
      refine ⟨h.frame horderly rfl, ?_⟩
      rcases hi with rfl | rfl | rfl <;> exact le_refl _
  | ready | crash | exit | join =>
      exact ⟨h.frame horderly rfl, le_refl _⟩
  | tick hmain hworker hmutex =>
      have hroom₀ := h.room.1
      have hpasses : s.threads.tick.log.count .passBegin = s.threads.log.count .passBegin :=
        List.count_cons_of_ne (by simp)
      refine ⟨⟨horderly, hroom, Or.inl ?_, h.up, hlive, ?_⟩, ?_⟩
      · rw [tick_exact hroom₀ hal]
        omega
      · rw [hpasses]
        exact h.since
      · simp only [Lifecycle.toPass, TickState.tick, toPass_signal]
        exact le_refl _
  | lower => exact absurd rfl hup
  | wakeup hmain hdown => cases hdown.symm.trans h.up
  | enter hphase =>
      refine ⟨h.frame horderly rfl, ?_⟩
      simp [Lifecycle.toPass, LifecycleStep.ofWorker, hphase]
  | throw => exact absurd rfl hlive
  | worker hphase i step hi threads hstep =>
      rcases hi with ⟨rfl, rfl⟩ | ⟨-, rfl⟩
      · rcases owing_worker h hstep with hbegun | ⟨hpending, hup, hlive, hpasses, hrank⟩
        · refine absurd ?_ hsince
          show n < threads.log.count .passBegin
          rw [hbegun]
          exact Nat.lt_succ_of_le h.since
        · refine ⟨⟨horderly, hroom, hpending, hup, hlive, hpasses.symm ▸ h.since⟩, ?_⟩
          simpa [Lifecycle.toPass, LifecycleStep.ofWorker, hphase] using hrank
      · simp only [threadStep] at hstep
        split at hstep
        · next hpc => exact absurd hpc h.awake.2
        · cases hstep
  | leave hphase hpc => exact absurd hpc h.live
  | ended hphase => exact absurd (h.orderly.finished (Or.inl hphase)) h.live

theorem owing_progress (h : s.Owing n) :
    ∃ i t, i.ofWorker = true ∧ InRoom s i ∧ lifecycleStep s i = some t := by
  cases hphase : s.phase with
  | entering => exact ⟨.enter, _, rfl, ⟨⟨nofun, nofun, nofun⟩, nofun⟩, if_pos hphase⟩
  | looping =>
      obtain ⟨threads, hstep⟩ := workerStep_some h.awake.2 h.live
      refine ⟨.worker, { s with threads }, rfl, ⟨⟨nofun, nofun, nofun⟩, nofun⟩, ?_⟩
      simp [lifecycleStep, hphase, hstep]
  | left => exact absurd (h.orderly.finished (Or.inl hphase)) h.live
  | ended => exact absurd (h.orderly.finished (Or.inr hphase)) h.live

/-- **The worker responds to a tick.** -/
theorem owing_responds (n : Nat) :
    Responds lifecycleStep InRoom (Lifecycle.Owing n) (Lifecycle.ServedSince n)
      LifecycleStep.ofWorker Lifecycle.toPass where
  keep _ _ _ h hal hstep hgoal := owing_step h hal (lifecycleStep_cases hstep) hgoal
  progress _ h := owing_progress h

theorem inRoom_reach (h : Reach lifecycleStep InRoom .start s) :
    Orderly s ∧ 0 ≤ s.threads.ticks ∧ s.threads.ticks < 2 ^ 31 := by
  refine h.invariant (I := fun s => Orderly s ∧ 0 ≤ s.threads.ticks ∧ s.threads.ticks < 2 ^ 31)
    ⟨orderly_start, by decide⟩ ?_
  intro s i t hI hal hstep
  have hmove := lifecycleStep_cases hstep
  exact ⟨orderly_step hI.1 hal.1 hmove, room_step hI.2 hal hmove⟩

theorem toPass_le (h : Orderly s) : s.toPass ≤ 6 := by
  rw [Lifecycle.toPass]
  split
  · next hphase =>
      rw [h.entering hphase]
      decide
  · cases s.threads.pc <;> simp [WorkerPc.toPass]

/-- **Every tick is served.**  With a tick pending and the worker's thread not
over, a run begins another pass within seven steps of the worker, with
whatever the main thread does between them, if no stop and no exception comes
first; and a run that is not there yet can go on with a step of the worker. -/
theorem tick_served (h : Reach lifecycleStep InRoom .start s) (hpending : s.threads.tickPending)
    (hup : s.threads.running = true) (hlive : s.threads.pc ≠ .done) {is : List LifecycleStep}
    (hrun : Run lifecycleStep InRoom s is t) :
    (∃ is₁ is₂ u, is = is₁ ++ is₂ ∧ Run lifecycleStep InRoom s is₁ u ∧
        u.ServedSince (s.threads.log.count .passBegin) ∧
        is₁.countP LifecycleStep.ofWorker ≤ 7) ∨
      (is.countP LifecycleStep.ofWorker ≤ 6 ∧
        ∃ i u, i.ofWorker = true ∧ InRoom t i ∧ lifecycleStep t i = some u) := by
  obtain ⟨horderly, hroom⟩ := inRoom_reach h
  have howing : s.Owing (s.threads.log.count .passBegin) :=
    ⟨horderly, hroom, hpending, hup, hlive, le_refl _⟩
  have hle := toPass_le horderly
  rcases (owing_responds _).response howing hrun with
    ⟨is₁, is₂, u, hsplit, hrun₁, hserved, hcount⟩ | ⟨hcount, hnext⟩
  · exact Or.inl ⟨is₁, is₂, u, hsplit, hrun₁, hserved, by omega⟩
  · exact Or.inr ⟨by omega, hnext⟩

end Steps

/-- A tick comes while the worker is in its first pass. -/
def Lifecycle.tickInPass : Lifecycle :=
  { Lifecycle.start with
    threads := ⟨true, 1, 1, .inPass, [.tick, .passBegin, .handOver 1, .tick]⟩
    phase := .looping
    timerEnabled := true }

/-- Its second pass begins, and it has seen one more tick. -/
def Lifecycle.secondPass : Lifecycle :=
  { Lifecycle.tickInPass with
    threads := ⟨true, 0, 2, .inPass,
      [.passBegin, .handOver 2, .tick, .tick, .passBegin, .handOver 1, .tick]⟩ }

theorem tickInPass_reached : Reach lifecycleStep InRoom .start .tickInPass := by
  let is : List LifecycleStep :=
    [.fluidReady, .timeout, .enter] ++ List.replicate 6 .worker ++ [.timeout]
  have hrun : is.foldlM (guarded lifecycleStep InRoom) .start = some .tickInPass := by decide
  exact Reach.start.run (Run.guarded hrun)

/-- The worker takes its seven steps. -/
theorem tick_served_in_pass :
    let is : List LifecycleStep := [.worker, .timeout] ++ List.replicate 6 .worker
    (∃ is₁ is₂ u, is = is₁ ++ is₂ ∧ Run lifecycleStep InRoom .tickInPass is₁ u ∧
        u.ServedSince (Lifecycle.tickInPass.threads.log.count .passBegin) ∧
        is₁.countP LifecycleStep.ofWorker ≤ 7) ∨
      (is.countP LifecycleStep.ofWorker ≤ 6 ∧ ∃ i u, i.ofWorker = true ∧
        InRoom .secondPass i ∧ lifecycleStep .secondPass i = some u) :=
  tick_served tickInPass_reached (Or.inl (by decide)) rfl (by decide) (Run.guarded (by decide))

end Sitter
