/-
# `Base.Machine` — machines that are driven by inputs, and their runs

Two kinds of machine, and for each the one induction a proof about its runs
needs.

    Step σ ι ω         total: a state and an input give a state and an output
    trace m s is       what each step of the run over `is` saw and did
    Recorded m s₀ h s  the run from `s₀` to `s` that `h` has written down
    σ → ι → Option σ   partial: the labels a state accepts, as a transition
    Reach step allowed s₀ s   `s` can be reached from `s₀` by allowed labels

A property of every step of a run is proved from an invariant
(`trace_forall`, `Reach.invariant`); a property of pairs of steps is carried
over from a smaller machine by a simulation (`trace_simulates`).  A loop that
stops at its first error has its own rule (`foldlM_invariant`).
-/
import Mathlib.Data.List.Basic

namespace Machine

variable {σ ι ω : Type*}

/-- A total machine: from a state and an input, the next state and an output. -/
abbrev Step (σ ι ω : Type*) := σ → ι → σ × ω

/-- One step of a run: the state before, what came in, what went out, the
state after. -/
structure Event (σ ι ω : Type*) where
  before : σ
  input : ι
  output : ω
  after : σ

/-- The event a machine makes of a state and an input. -/
def event (m : Step σ ι ω) (s : σ) (i : ι) : Event σ ι ω :=
  ⟨s, i, (m s i).2, (m s i).1⟩

/-- The run of `m` from `s` over a list of inputs, step by step. -/
def trace (m : Step σ ι ω) : σ → List ι → List (Event σ ι ω)
  | _, [] => []
  | s, i :: is => event m s i :: trace m (m s i).1 is

def final (m : Step σ ι ω) : σ → List ι → σ
  | s, [] => s
  | s, i :: is => final m (m s i).1 is

variable {m : Step σ ι ω}

@[simp] theorem trace_nil (s : σ) : trace m s [] = [] := rfl

@[simp] theorem trace_cons (s : σ) (i : ι) (is : List ι) :
    trace m s (i :: is) = event m s i :: trace m (m s i).1 is := rfl

@[simp] theorem event_before (s : σ) (i : ι) : (event m s i).before = s := rfl
@[simp] theorem event_input (s : σ) (i : ι) : (event m s i).input = i := rfl
@[simp] theorem event_output (s : σ) (i : ι) : (event m s i).output = (m s i).2 := rfl
@[simp] theorem event_after (s : σ) (i : ι) : (event m s i).after = (m s i).1 := rfl

@[simp] theorem final_nil (s : σ) : final m s [] = s := rfl

@[simp] theorem final_cons (s : σ) (i : ι) (is : List ι) :
    final m s (i :: is) = final m (m s i).1 is := rfl

theorem final_concat (s : σ) (is : List ι) (i : ι) :
    final m s (is ++ [i]) = (m (final m s is) i).1 := by
  induction is generalizing s with
  | nil => rfl
  | cons j is ih => exact ih (m s j).1

theorem trace_concat (s : σ) (is : List ι) (i : ι) :
    trace m s (is ++ [i]) = trace m s is ++ [event m (final m s is) i] := by
  induction is generalizing s with
  | nil => rfl
  | cons j is ih => rw [List.cons_append, trace_cons, ih, trace_cons, final_cons, List.cons_append]

theorem trace_inputs (s : σ) (is : List ι) : (trace m s is).map Event.input = is := by
  induction is generalizing s with
  | nil => rfl
  | cons i is ih => rw [trace_cons, List.map_cons, ih, event_input]

/-- **The run rule.**  What an invariant `I` gives at every step on an
allowed input holds along the whole run. -/
theorem trace_forall {I : σ → Prop} {A : ι → Prop} {P : Event σ ι ω → Prop}
    (hstep : ∀ s i, I s → A i → I (m s i).1 ∧ P (event m s i)) :
    ∀ {s : σ} {is : List ι}, I s → (∀ i ∈ is, A i) → ∀ e ∈ trace m s is, P e
  | _, [], _, _, _, he => absurd he List.not_mem_nil
  | s, i :: is, hs, his, e, he => by
      obtain ⟨hnext, hP⟩ := hstep s i hs (his i List.mem_cons_self)
      rcases List.mem_cons.mp he with rfl | he'
      · exact hP
      · exact trace_forall hstep hnext (fun j hj => his j (List.mem_cons_of_mem _ hj)) e he'

theorem final_invariant {I : σ → Prop} {A : ι → Prop}
    (hstep : ∀ s i, I s → A i → I (m s i).1) :
    ∀ {s : σ} {is : List ι}, I s → (∀ i ∈ is, A i) → I (final m s is)
  | _, [], hs, _ => hs
  | s, i :: is, hs, his => by
      rw [final_cons]
      exact final_invariant hstep (hstep s i hs (his i List.mem_cons_self))
        (fun j hj => his j (List.mem_cons_of_mem _ hj))

/-- Two properties that agree at every step from an invariant state hold of
the same runs, if the second one carries the invariant on: at the first step
where one fails the other fails too. -/
theorem trace_forall_iff {I : σ → Prop} {P Q : Event σ ι ω → Prop}
    (hPQ : ∀ s i, I s → (P (event m s i) ↔ Q (event m s i)))
    (hinv : ∀ s i, I s → Q (event m s i) → I (m s i).1) :
    ∀ {s : σ}, I s → ∀ is : List ι,
      (∀ e ∈ trace m s is, P e) ↔ ∀ e ∈ trace m s is, Q e
  | _, _, [] => by simp
  | s, hs, i :: is => by
      simp only [trace_cons, List.forall_mem_cons, hPQ s i hs]
      exact and_congr_right fun hQ => trace_forall_iff hPQ hinv (hinv s i hs hQ) is

/-- **The rule for pairs.**  What each step leaves for the later ones (`K`) is
what they need, and they pass it on. -/
theorem trace_pairwise {I : σ → Prop} {A : ι → Prop} {R : ι → ι → Prop}
    {K : Event σ ι ω → σ → Prop} {P : Event σ ι ω → Event σ ι ω → Prop}
    (hleave : ∀ s i, I s → A i → I (m s i).1 ∧ K (event m s i) (m s i).1)
    (hkeep : ∀ e s i, I s → K e s → A i → R e.input i →
      K e (m s i).1 ∧ P e (event m s i)) :
    ∀ {s : σ} {is : List ι}, I s → (∀ i ∈ is, A i) → is.Pairwise R → (trace m s is).Pairwise P
  | _, [], _, _, _ => List.Pairwise.nil
  | s, i :: is, hs, his, hR => by
      obtain ⟨hi, hrest⟩ := List.forall_mem_cons.mp his
      obtain ⟨hhead, htail⟩ := List.pairwise_cons.mp hR
      obtain ⟨hnext, hleft⟩ := hleave s i hs hi
      refine List.pairwise_cons.mpr ⟨?_, trace_pairwise hleave hkeep hnext hrest htail⟩
      refine trace_forall (I := fun t => I t ∧ K (event m s i) t) (A := fun j => A j ∧ R i j) ?_
        ⟨hnext, hleft⟩ fun j hj => ⟨hrest j hj, hhead j hj⟩
      intro t j ht hj
      obtain ⟨hkept, hpair⟩ := hkeep _ t j ht.1 ht.2 hj.1 hj.2
      exact ⟨⟨(hleave t j ht.1 hj.1).1, hkept⟩, hpair⟩

/-- What went into a run so far, and what came out, newest first. -/
inductive Recorded (m : Step σ ι ω) (s₀ : σ) : List (ι × ω) → σ → Prop
  | start : Recorded m s₀ [] s₀
  | next {history : List (ι × ω)} {s : σ} (i : ι) : Recorded m s₀ history s →
      Recorded m s₀ ((i, (m s i).2) :: history) (m s i).1

theorem Recorded.run {s₀ s : σ} {history : List (ι × ω)} (h : Recorded m s₀ history s) :
    (trace m s₀ (history.reverse.map Prod.fst)).map (fun e => (e.input, e.output)) =
        history.reverse ∧
      final m s₀ (history.reverse.map Prod.fst) = s := by
  induction h with
  | start => exact ⟨rfl, rfl⟩
  | next i _ ih =>
      obtain ⟨htrace, hfinal⟩ := ih
      rw [List.reverse_cons, List.map_append, List.map_singleton, trace_concat, final_concat,
        List.map_append, htrace, hfinal]
      exact ⟨rfl, rfl⟩

/-! ## Simulation

`α` reads an abstract state out of a concrete one, `β` and `γ` do so for
inputs and outputs.  If each concrete step is an abstract step, each concrete
run is an abstract run. -/

section Simulation

variable {σ' ι' ω' : Type*} {m' : Step σ' ι' ω'}

/-- The abstract reading of an event. -/
def Event.map (α : σ → σ') (β : ι → ι') (γ : ω → ω') (e : Event σ ι ω) : Event σ' ι' ω' :=
  ⟨α e.before, β e.input, γ e.output, α e.after⟩

theorem trace_simulates {I : σ → Prop} {A : ι → Prop}
    {α : σ → σ'} {β : ι → ι'} {γ : ω → ω'}
    (hstep : ∀ s i, I s → A i → I (m s i).1 ∧
      α (m s i).1 = (m' (α s) (β i)).1 ∧ γ (m s i).2 = (m' (α s) (β i)).2) :
    ∀ {s : σ} {is : List ι}, I s → (∀ i ∈ is, A i) →
      (trace m s is).map (Event.map α β γ) = trace m' (α s) (is.map β)
  | _, [], _, _ => rfl
  | s, i :: is, hs, his => by
      obtain ⟨hnext, hα, hγ⟩ := hstep s i hs (his i List.mem_cons_self)
      have htail := trace_simulates hstep hnext (fun j hj => his j (List.mem_cons_of_mem _ hj))
      rw [trace_cons, List.map_cons, List.map_cons, trace_cons, htail, hα]
      simp only [Event.map, event, hα, hγ]

end Simulation

/-! ## Partial machines -/

section Partial

variable {step : σ → ι → Option σ} {allowed : σ → ι → Prop} {s₀ : σ}

/-- The states a partial machine reaches from `s₀` when it is given only
labels the current state allows. -/
inductive Reach (step : σ → ι → Option σ) (allowed : σ → ι → Prop) (s₀ : σ) : σ → Prop
  | start : Reach step allowed s₀ s₀
  | next {s t : σ} {i : ι} : Reach step allowed s₀ s → allowed s i → step s i = some t →
      Reach step allowed s₀ t

/-- **The reachability rule.** -/
theorem Reach.invariant {I : σ → Prop} (h₀ : I s₀)
    (hstep : ∀ s i t, I s → allowed s i → step s i = some t → I t) :
    ∀ {s : σ}, Reach step allowed s₀ s → I s := by
  intro s h
  induction h with
  | start => exact h₀
  | next _ hal hst ih => exact hstep _ _ _ ih hal hst

/-- A run that accepts all of its labels reaches where it ends. -/
theorem Reach.foldlM (hallowed : ∀ s i, allowed s i) :
    ∀ {s t : σ} {is : List ι}, Reach step allowed s₀ s → is.foldlM step s = some t →
      Reach step allowed s₀ t
  | s, t, [], hs, h => by
      rw [List.foldlM_nil] at h
      cases h
      exact hs
  | s, t, i :: is, hs, h => by
      rw [List.foldlM_cons] at h
      obtain ⟨s', hstep, hrest⟩ := Option.bind_eq_some_iff.mp h
      exact Reach.foldlM hallowed (hs.next (hallowed s i) hstep) hrest

/-- A step of a machine that asks first whether its label is allowed. -/
def guarded (step : σ → ι → Option σ) (allowed : σ → ι → Prop) [∀ s i, Decidable (allowed s i)]
    (s : σ) (i : ι) : Option σ :=
  if allowed s i then step s i else none

end Partial

/-! ## Loaders

A loader goes over its inputs and stops at the first one that fails. -/

/-- What each input that is accepted preserves holds of what was loaded. -/
theorem foldlM_invariant {ε : Type*} {load : σ → ι → Except ε σ} {I : σ → Prop}
    (hstep : ∀ s i t, I s → load s i = .ok t → I t) :
    ∀ {s t : σ} {is : List ι}, I s → is.foldlM load s = .ok t → I t
  | s, t, [], hs, h => by
      rw [List.foldlM_nil] at h
      cases h
      exact hs
  | s, t, i :: is, hs, h => by
      rw [List.foldlM_cons] at h
      cases hi : load s i with
      | error e =>
          rw [hi] at h
          cases h
      | ok s' =>
          rw [hi] at h
          exact foldlM_invariant hstep (hstep s i s' hs hi) h

end Machine
