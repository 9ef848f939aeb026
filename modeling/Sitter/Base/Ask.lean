/-
# `Base.Ask` — programs that ask questions, and memo tables that answer them

A program asks for values by key and goes on with the answer; what it asks next
may depend on the answers so far.

    run f t         the result when `f` answers
    asked f t       the questions it then asks, in order
    exec q t s      the result when `q` answers out of a state
    answers q t s   the questions and answers of that run

`memo T f` answers out of a table, and puts the answer of `f` into the table
when there is none.  Such a run tells the truth about `f` exactly when the
table agrees with `f` on the questions `f` would be asked (`memo_right_iff`).
-/
import Mathlib.Data.List.Basic

/-- A program that asks for values of type `V` by keys of type `K`. -/
inductive Ask (K V : Type) (α : Type) where
  | answer (a : α)
  | ask (key : K) (next : V → Ask K V α)

namespace Ask

variable {K V σ α β : Type}

def bind (t : Ask K V α) (g : α → Ask K V β) : Ask K V β :=
  match t with
  | .answer a => g a
  | .ask k next => .ask k fun v => (next v).bind g

instance askMonad : Monad (Ask K V) where
  pure := .answer
  bind := bind

def question (k : K) : Ask K V V := .ask k .answer

/-- The result when the answers are those of `f`. -/
def run (f : K → V) : Ask K V α → α
  | .answer a => a
  | .ask k next => run f (next (f k))

/-- What is asked when the answers are those of `f`. -/
def asked (f : K → V) : Ask K V α → List K
  | .answer _ => []
  | .ask k next => k :: asked f (next (f k))

/-- The result, and the state in the end, when the answers come out of a
state. -/
def exec (q : K → σ → V × σ) : Ask K V α → σ → α × σ
  | .answer a, s => (a, s)
  | .ask k next, s => exec q (next (q k s).1) (q k s).2

/-- The questions of such a run, with their answers. -/
def answers (q : K → σ → V × σ) : Ask K V α → σ → List (K × V)
  | .answer _, _ => []
  | .ask k next, s => (k, (q k s).1) :: answers q (next (q k s).1) (q k s).2

@[simp] theorem run_pure (f : K → V) (a : α) : run f (pure a : Ask K V α) = a := rfl

@[simp] theorem run_question (f : K → V) (k : K) : run f (question k) = f k := rfl

@[simp] theorem run_bind (f : K → V) (t : Ask K V α) (g : α → Ask K V β) :
    run f (t >>= g) = run f (g (run f t)) := by
  induction t with
  | answer a => rfl
  | ask k next ih => exact ih (f k)

/-! ## Runs out of a state -/

section Stateful

variable {q : K → σ → V × σ} {f : K → V} {s : σ} {t : Ask K V α}

/-- What every answer keeps is kept by a run, and what it then says of one
answer holds of all. -/
theorem exec_invariant {I : σ → Prop} {P : K × V → Prop}
    (hq : ∀ k s, I s → P (k, (q k s).1) ∧ I (q k s).2) (hs : I s) :
    (∀ a ∈ answers q t s, P a) ∧ I (exec q t s).2 := by
  induction t generalizing s with
  | answer a => exact ⟨fun _ h => absurd h List.not_mem_nil, hs⟩
  | ask k next ih =>
      obtain ⟨hP, hnext⟩ := hq k s hs
      obtain ⟨hall, hend⟩ := ih (q k s).1 hnext
      exact ⟨List.forall_mem_cons.mpr ⟨hP, hall⟩, hend⟩

/-- A run whose answers are those of `f` is the run of `f`. -/
theorem exec_of_right (h : ∀ a ∈ answers q t s, a.2 = f a.1) :
    (exec q t s).1 = run f t ∧ (answers q t s).map Prod.fst = asked f t := by
  induction t generalizing s with
  | answer a => exact ⟨rfl, rfl⟩
  | ask k next ih =>
      obtain ⟨hk, hrest⟩ := List.forall_mem_cons.mp h
      obtain ⟨hrun, hasked⟩ := ih (q k s).1 hrest
      have hv : (q k s).1 = f k := hk
      rw [hv] at hrun hasked
      simp only [exec, answers, run, asked, List.map_cons, hv]
      exact ⟨hrun, congrArg (k :: ·) hasked⟩

theorem answers_right {I : σ → Prop}
    (hq : ∀ k ∈ asked f t, ∀ s, I s → (q k s).1 = f k ∧ I (q k s).2) (hs : I s) :
    ∀ a ∈ answers q t s, a.2 = f a.1 := by
  induction t generalizing s with
  | answer a => exact fun _ h => absurd h List.not_mem_nil
  | ask k next ih =>
      obtain ⟨hv, hnext⟩ := hq k List.mem_cons_self s hs
      refine List.forall_mem_cons.mpr ⟨hv, ?_⟩
      rw [hv]
      exact ih (f k) (fun j hj => hq j (List.mem_cons_of_mem _ hj)) hnext

end Stateful

/-! ## Memo tables

A state that answers from a table and asks only for what is not in it.  With
right answers in the table at the start, a run gives the answers it would give
without one. -/

/-- A state that holds a table. -/
structure Table (σ K V : Type) [DecidableEq K] where
  lookup : σ → K → Option V
  insert : σ → K → V → σ
  lookup_insert : ∀ s k v j, lookup (insert s k v) j = if j = k then some v else lookup s j

section Memo

variable [DecidableEq K] (T : Table σ K V) (f : K → V)

/-- Answer out of the table, or with `f`; the latter goes into the table. -/
def memo (k : K) (s : σ) : V × σ :=
  match T.lookup s k with
  | some v => (v, s)
  | none => (f k, T.insert s k (f k))

variable {T f} {s : σ} {t : Ask K V α}

theorem memo_hit {k : K} {v : V} (h : T.lookup s k = some v) : memo T f k s = (v, s) := by
  simp only [memo, h]

theorem memo_miss {k : K} (h : T.lookup s k = none) :
    memo T f k s = (f k, T.insert s k (f k)) := by
  simp only [memo, h]

/-- The table then answers the question as it was answered. -/
theorem memo_lookup_self (k : K) : T.lookup (memo T f k s).2 k = some (memo T f k s).1 := by
  cases h : T.lookup s k with
  | some v =>
      rw [memo_hit h]
      exact h
  | none =>
      rw [memo_miss h, T.lookup_insert, if_pos rfl]

theorem memo_lookup_ne {k j : K} (hne : j ≠ k) :
    T.lookup (memo T f k s).2 j = T.lookup s j := by
  cases h : T.lookup s k with
  | some v => rw [memo_hit h]
  | none => rw [memo_miss h, T.lookup_insert, if_neg hne]

theorem memo_lookup_of_some {k j : K} {v : V} (h : T.lookup s j = some v) :
    T.lookup (memo T f k s).2 j = some v := by
  by_cases hjk : j = k
  · subst hjk
    rw [memo_hit h]
    exact h
  · rw [memo_lookup_ne hjk]
    exact h

/-- **A memo table tells the truth exactly when it agrees with its source on
the questions the source would be asked.** -/
theorem memo_right_iff :
    (∀ a ∈ answers (memo T f) t s, a.2 = f a.1) ↔
      ∀ k ∈ asked f t, ∀ v, T.lookup s k = some v → v = f k := by
  constructor
  · intro hright k hk v hv
    -- what the table says at the start, it says to the end
    have hanswered : ∀ a ∈ answers (memo T f) t s, ∀ w, T.lookup s a.1 = some w → a.2 = w := by
      refine (exec_invariant
        (I := fun s' => ∀ j w, T.lookup s j = some w → T.lookup s' j = some w) ?_ ?_).1
      · intro k' s' hs'
        refine ⟨?_, ?_⟩
        · intro w hw
          rw [memo_hit (hs' k' w hw)]
        · intro j w hw
          exact memo_lookup_of_some (hs' j w hw)
      · intro j w hw
        exact hw
    rw [← (exec_of_right hright).2] at hk
    obtain ⟨a, ha, rfl⟩ := List.mem_map.mp hk
    rw [← hanswered a ha v hv]
    exact hright a ha
  · intro hagree
    refine answers_right (I := fun s' => ∀ k ∈ asked f t, ∀ v, T.lookup s' k = some v → v = f k)
      ?_ hagree
    intro k hk s' hs'
    cases h : T.lookup s' k with
    | some v =>
        rw [memo_hit h]
        exact ⟨hs' k hk v h, hs'⟩
    | none =>
        rw [memo_miss h]
        refine ⟨rfl, ?_⟩
        intro j hj v hv
        rw [T.lookup_insert] at hv
        split at hv
        · next hjk =>
            subst hjk
            exact (Option.some.inj hv).symm
        · exact hs' j hj v hv

/-- The keys of the table in the end: those it had, and those that were
asked. -/
theorem memo_lookup_end (k : K) :
    (T.lookup (exec (memo T f) t s).2 k).isSome ↔
      (T.lookup s k).isSome ∨ k ∈ (answers (memo T f) t s).map Prod.fst := by
  induction t generalizing s with
  | answer a => simp [exec, answers]
  | ask j next ih =>
      simp only [exec, answers, List.map_cons, List.mem_cons]
      rw [ih]
      by_cases hkj : k = j
      · subst hkj
        rw [memo_lookup_self]
        simp
      · rw [memo_lookup_ne hkj]
        simp [hkj]

end Memo

end Ask
