/-
# `Base.Ranked` — partial machines that come to an end

A part of the states of a partial machine is ranked if every step from it stays
in it and lowers a number, and if there is a step from each of its states that
is no goal.  From such a state

    every run is as long as the rank, at most        (`Ranked.length_le`)
    a run that cannot go on is at a goal              (`Ranked.goal_of_stuck`)
    so there is a run to a goal                       (`Ranked.exists_run`)

whatever the order of the steps is, and with no word about fairness.

Where some of the steps are a thread's own and the rest are not, the thread
responds if no step leads away from the goal, its own lead closer to it, and it
always has one.  Then a run gets to the goal within so many of its own steps,
or stops before that where it has another one (`Responds.response`).
-/
import Sitter.Base.Machine

namespace Machine

variable {σ ι : Type*}

/-- A run of allowed steps from a state, and where it ends. -/
inductive Run (step : σ → ι → Option σ) (allowed : σ → ι → Prop) : σ → List ι → σ → Prop
  | nil (s : σ) : Run step allowed s [] s
  | cons {s t u : σ} {i : ι} {is : List ι} (hal : allowed s i) (hst : step s i = some t)
      (h : Run step allowed t is u) : Run step allowed s (i :: is) u

theorem Reach.run {step : σ → ι → Option σ} {allowed : σ → ι → Prop} {s₀ s t : σ} {is : List ι}
    (hs : Reach step allowed s₀ s) (hrun : Run step allowed s is t) :
    Reach step allowed s₀ t := by
  induction hrun with
  | nil s => exact hs
  | cons hal hst _ ih => exact ih (hs.next hal hst)

/-- A machine that asks first goes through a run. -/
theorem Run.guarded {step : σ → ι → Option σ} {allowed : σ → ι → Prop}
    [∀ s i, Decidable (allowed s i)] {s t : σ} {is : List ι}
    (h : is.foldlM (guarded step allowed) s = some t) : Run step allowed s is t := by
  induction is generalizing s with
  | nil =>
      rw [List.foldlM_nil] at h
      cases h
      exact .nil _
  | cons i is ih =>
      rw [List.foldlM_cons] at h
      obtain ⟨s', hstep, hrest⟩ := Option.bind_eq_some_iff.mp h
      obtain ⟨hallowed, hstep⟩ := Option.ite_none_right_eq_some.mp hstep
      exact .cons hallowed hstep (ih hrest)

/-- The states `I` come to an end at `goal`. -/
structure Ranked (step : σ → ι → Option σ) (allowed : σ → ι → Prop) (I goal : σ → Prop)
    (rank : σ → Nat) : Prop where
  descent : ∀ s i t, I s → allowed s i → step s i = some t → I t ∧ rank t < rank s
  progress : ∀ s, I s → ¬ goal s → ∃ i t, allowed s i ∧ step s i = some t

namespace Ranked

variable {step : σ → ι → Option σ} {allowed : σ → ι → Prop} {I goal : σ → Prop} {rank : σ → Nat}
  {s t : σ} {is : List ι}

theorem run_rank (h : Ranked step allowed I goal rank) (hs : I s) (hrun : Run step allowed s is t) :
    I t ∧ is.length + rank t ≤ rank s := by
  induction hrun with
  | nil s => exact ⟨hs, Nat.le_of_eq (Nat.zero_add _)⟩
  | cons hal hst _ ih =>
      obtain ⟨hnext, hlt⟩ := h.descent _ _ _ hs hal hst
      obtain ⟨ht, hle⟩ := ih hnext
      refine ⟨ht, ?_⟩
      rw [List.length_cons]
      omega

/-- No run is longer than the rank. -/
theorem length_le (h : Ranked step allowed I goal rank) (hs : I s)
    (hrun : Run step allowed s is t) : is.length ≤ rank s :=
  Nat.le_trans (Nat.le_add_right _ _) (h.run_rank hs hrun).2

/-- **Nothing but a goal stops a run.** -/
theorem goal_of_stuck (h : Ranked step allowed I goal rank) (hs : I s)
    (hrun : Run step allowed s is t) (hstuck : ∀ i u, allowed t i → step t i ≠ some u) :
    goal t := by
  by_contra hgoal
  obtain ⟨i, u, hal, hst⟩ := h.progress t (h.run_rank hs hrun).1 hgoal
  exact hstuck i u hal hst

theorem exists_run (h : Ranked step allowed I goal rank) :
    ∀ {s : σ}, I s → ∃ is t, Run step allowed s is t ∧ goal t := by
  intro s hs
  induction hn : rank s using Nat.strongRecOn generalizing s with
  | ind n ih =>
      by_cases hgoal : goal s
      · exact ⟨[], s, .nil s, hgoal⟩
      · obtain ⟨i, t, hal, hst⟩ := h.progress s hs hgoal
        obtain ⟨ht, hlt⟩ := h.descent s i t hs hal hst
        obtain ⟨is, u, hrun, hu⟩ := ih (rank t) (hn ▸ hlt) ht rfl
        exact ⟨i :: is, u, .cons hal hst hrun, hu⟩

end Ranked

/-! ## A thread among others

One thread comes closer to a goal by its own steps, and the steps of the others
do not lead it away.  Then the number of its own steps to the goal is bounded,
however the threads are interleaved. -/

/-- From the states `I` the `own` steps come to `goal`, with any others between
them. -/
structure Responds (step : σ → ι → Option σ) (allowed : σ → ι → Prop) (I goal : σ → Prop)
    (own : ι → Bool) (rank : σ → Nat) : Prop where
  keep : ∀ s i t, I s → allowed s i → step s i = some t → ¬ goal t →
    I t ∧ rank t + (if own i then 1 else 0) ≤ rank s
  progress : ∀ s, I s → ∃ i t, own i = true ∧ allowed s i ∧ step s i = some t

namespace Responds

variable {step : σ → ι → Option σ} {allowed : σ → ι → Prop} {I goal : σ → Prop} {own : ι → Bool}
  {rank : σ → Nat} {s t : σ} {is : List ι}

/-- A run that has not been at the goal has not used up the rank. -/
theorem run_rank (h : Responds step allowed I goal own rank) (hs : I s)
    (hrun : Run step allowed s is t) :
    (∃ is₁ is₂ u, is = is₁ ++ is₂ ∧ Run step allowed s is₁ u ∧ goal u ∧
        is₁.countP own ≤ rank s + 1) ∨
      (I t ∧ is.countP own + rank t ≤ rank s) := by
  induction hrun with
  | nil s => exact Or.inr ⟨hs, Nat.le_of_eq (Nat.zero_add _)⟩
  | @cons s t' u i is hal hst _ ih =>
      by_cases hgoal : goal t'
      · refine Or.inl ⟨[i], is, t', rfl, .cons hal hst (.nil t'), hgoal, ?_⟩
        exact Nat.le_trans List.countP_le_length (Nat.le_add_left _ _)
      · obtain ⟨hnext, hle⟩ := h.keep s i t' hs hal hst hgoal
        rcases ih hnext with ⟨is₁, is₂, v, rfl, hrun₁, hv, hcount⟩ | ⟨hu, hcount⟩
        · refine Or.inl ⟨i :: is₁, is₂, v, rfl, .cons hal hst hrun₁, hv, ?_⟩
          rw [List.countP_cons]
          omega
        · refine Or.inr ⟨hu, ?_⟩
          rw [List.countP_cons]
          omega

/-- **A thread responds**: a run gets to the goal within the rank, counted in
the thread's own steps, or the thread can go on. -/
theorem response (h : Responds step allowed I goal own rank) (hs : I s)
    (hrun : Run step allowed s is t) :
    (∃ is₁ is₂ u, is = is₁ ++ is₂ ∧ Run step allowed s is₁ u ∧ goal u ∧
        is₁.countP own ≤ rank s + 1) ∨
      (is.countP own ≤ rank s ∧ ∃ i u, own i = true ∧ allowed t i ∧ step t i = some u) := by
  rcases h.run_rank hs hrun with hreached | ⟨ht, hcount⟩
  · exact Or.inl hreached
  · exact Or.inr ⟨Nat.le_trans (Nat.le_add_right _ _) hcount, h.progress t ht⟩

end Responds

end Machine
