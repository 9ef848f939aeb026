/-
# `Base.Stretch` — how long something has been going on

A list of inputs, oldest first, some of which are `on`.  The stretch the list
ends with is what follows its last input that is not; it is empty when the last
input is not `on`.

    … off on on on        stretch: the three last, started by the first of them
    … on on off           no stretch

`stretchStart_eq_some` says what the start of a stretch is without the list
function behind it.  A machine that keeps one time, stored by the first input
of a stretch and dropped by an input that is not `on`, knows when the stretch
started (`final_stretch`).
-/
import Sitter.Base.Machine
import Mathlib.Data.List.DropRight

namespace Machine

variable {ι : Type*} (on : ι → Bool)

/-- The inputs after the last one that is not `on`. -/
def stretch (is : List ι) : List ι := is.rtakeWhile on

/-- The first input of the stretch a list ends with. -/
def stretchStart (is : List ι) : Option ι := (stretch on is).head?

variable {on}

@[simp] theorem stretchStart_nil : stretchStart on [] = none := rfl

theorem stretch_concat_on {is : List ι} {i : ι} (hi : on i = true) :
    stretch on (is ++ [i]) = stretch on is ++ [i] :=
  List.rtakeWhile_concat_pos on is i hi

theorem stretch_concat_off {is : List ι} {i : ι} (hi : on i = false) :
    stretch on (is ++ [i]) = [] :=
  List.rtakeWhile_concat_neg on is i (ne_true_of_eq_false hi)

theorem stretchStart_concat_on {is : List ι} {i : ι} (hi : on i = true) :
    stretchStart on (is ++ [i]) = some ((stretchStart on is).getD i) := by
  rw [stretchStart, stretch_concat_on hi, List.head?_append, stretchStart]
  cases (stretch on is).head? <;> rfl

theorem stretchStart_concat_off {is : List ι} {i : ι} (hi : on i = false) :
    stretchStart on (is ++ [i]) = none := by
  rw [stretchStart, stretch_concat_off hi]
  rfl

theorem stretch_append {is js : List ι} (hjs : ∀ j ∈ js, on j = true) :
    stretch on (is ++ js) = stretch on is ++ js := by
  induction js using List.reverseRecOn with
  | nil => simp
  | append_singleton js j ih =>
      have hj := hjs j List.mem_concat_self
      rw [← List.append_assoc, stretch_concat_on hj,
        ih fun k hk => hjs k (List.mem_append_left _ hk), List.append_assoc]

theorem stretch_eq_nil {is : List ι} (h : ∀ c, is.getLast? = some c → on c = false) :
    stretch on is = [] := by
  cases is using List.reverseRecOn with
  | nil => rfl
  | append_singleton is i => exact stretch_concat_off (h i List.getLast?_concat)

/-- **The start of the stretch**: all inputs from it on are `on`, and the one
before it, if there is one, is not. -/
theorem stretchStart_eq_some {is : List ι} {a : ι} :
    stretchStart on is = some a ↔
      ∃ before after, is = before ++ a :: after ∧ (∀ b ∈ a :: after, on b = true) ∧
        ∀ c, before.getLast? = some c → on c = false := by
  constructor
  · intro h
    obtain ⟨after, hstretch⟩ := List.head?_eq_some_iff.mp h
    refine ⟨is.rdropWhile on, after, ?_, ?_, ?_⟩
    · rw [← hstretch]
      exact List.rdropWhile_append_rtakeWhile.symm
    · intro b hb
      rw [← hstretch] at hb
      exact List.mem_rtakeWhile_imp hb
    · intro c hc
      have hne : is.rdropWhile on ≠ [] := List.ne_nil_of_mem (List.mem_of_getLast? hc)
      have hnot := List.rdropWhile_last_not on is hne
      rw [List.getLast?_eq_some_getLast hne, Option.some.injEq] at hc
      rw [hc] at hnot
      exact Bool.eq_false_iff.mpr hnot
  · rintro ⟨before, after, rfl, hafter, hbefore⟩
    rw [stretchStart, stretch_append hafter, stretch_eq_nil hbefore]
    rfl

/-- From an input of the stretch on, all inputs are `on`. -/
theorem stretch_split {is : List ι} {a : ι} (h : a ∈ stretch on is) :
    ∃ before after, is = before ++ a :: after ∧ ∀ b ∈ a :: after, on b = true := by
  obtain ⟨first, after, hstretch⟩ := List.append_of_mem h
  refine ⟨is.rdropWhile on ++ first, after, ?_, ?_⟩
  · rw [List.append_assoc, ← hstretch]
    exact List.rdropWhile_append_rtakeWhile.symm
  · intro b hb
    refine List.mem_rtakeWhile_imp (l := is) ?_
    rw [show is.rtakeWhile on = first ++ a :: after from hstretch]
    exact List.mem_append_right _ hb

section Measure

variable {σ ω τ : Type*} {m : Step σ ι ω} {I : σ → Prop} {A : ι → Prop} {view : σ → Option τ}
  {time : ι → τ}

/-- **The stretch rule.**  A state that keeps the time of the first `on` input
and drops it at an input that is not `on` has the time the stretch started. -/
theorem final_stretch
    (hstep : ∀ s i, I s → A i → I (m s i).1 ∧
      view (m s i).1 = if on i then some ((view s).getD (time i)) else none)
    {s : σ} (hs : I s) (hempty : view s = none) {is : List ι} (his : ∀ i ∈ is, A i) :
    I (final m s is) ∧ view (final m s is) = (stretchStart on is).map time := by
  induction is using List.reverseRecOn with
  | nil => exact ⟨hs, hempty⟩
  | append_singleton is i ih =>
      obtain ⟨hI, hview⟩ := ih fun j hj => his j (List.mem_append_left _ hj)
      obtain ⟨hI', hview'⟩ := hstep (final m s is) i hI (his i List.mem_concat_self)
      rw [final_concat]
      refine ⟨hI', hview'.trans ?_⟩
      cases hi : on i with
      | false =>
          rw [stretchStart_concat_off hi]
          rfl
      | true =>
          rw [stretchStart_concat_on hi, hview]
          cases stretchStart on is <;> rfl

end Measure

end Machine
