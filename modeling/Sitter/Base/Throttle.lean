/-
# `Base.Throttle` — a gate that remembers when it last opened

A throttle keeps one value, the time it last let something through.  A
request carries its time, whether it is wanted at all, and the span that has
to have passed since that time:

    opens last r   =   r.wanted  and  (last is unknown, or r.now - last ≥ r.span)

The span may change from request to request.  What one stored time still
guarantees, over a run with a clock that never goes back, is that the times of
ANY two openings are apart by the span of the later one (`trace_spaced`): the
stored time is the latest opening, and the earlier ones are further away.

Times live in any linearly ordered group.
-/
import Sitter.Base.Machine
import Mathlib.Algebra.Order.Group.Defs
import Mathlib.Algebra.Order.Sub.Basic
import Mathlib.Tactic.Abel

namespace Throttle

open Machine

variable {T : Type*} [AddCommGroup T] [LinearOrder T]

/-- A request to pass the gate. -/
structure Request (T : Type*) where
  now : T
  wanted : Bool
  span : T

/-- The span has passed since the last opening, or there is none on record. -/
def Elapsed (last : Option T) (now span : T) : Prop :=
  ∀ t, last = some t → span ≤ now - t

instance decElapsed (last : Option T) (now span : T) : Decidable (Elapsed last now span) :=
  match last with
  | none => .isTrue (fun _ h => nomatch h)
  | some t =>
      if h : span ≤ now - t then .isTrue (fun _ ht => by cases ht; exact h)
      else .isFalse (fun hall => h (hall t rfl))

def Opens (last : Option T) (r : Request T) : Prop :=
  r.wanted = true ∧ Elapsed last r.now r.span

instance decOpens (last : Option T) (r : Request T) : Decidable (Opens last r) :=
  inferInstanceAs (Decidable (_ ∧ _))

/-- The gate: an opening records its own time. -/
def gate : Step (Option T) (Request T) Bool := fun last r =>
  if Opens last r then (some r.now, true) else (last, false)

theorem gate_open {last : Option T} {r : Request T} (h : Opens last r) :
    gate last r = (some r.now, true) := if_pos h

theorem gate_shut {last : Option T} {r : Request T} (h : ¬ Opens last r) :
    gate last r = (last, false) := if_neg h

@[simp] theorem gate_output_iff {last : Option T} {r : Request T} :
    (gate last r).2 = true ↔ Opens last r := by
  by_cases h : Opens last r
  · simp [gate_open h, h]
  · simp [gate_shut h, h]

variable [IsOrderedAddMonoid T]

/-- Once the gate has opened at `a`, whatever opens later is a span away from
`a`: the recorded time never falls below `a`. -/
theorem trace_after {a : T} {rs : List (Request T)} (hle : ∀ r ∈ rs, a ≤ r.now)
    {last : Option T} (hlast : ∃ t, last = some t ∧ a ≤ t) :
    ∀ e ∈ trace gate last rs, e.output = true → e.input.span ≤ e.input.now - a := by
  refine trace_forall (I := fun last : Option T => ∃ t, last = some t ∧ a ≤ t)
    (A := fun r => a ≤ r.now) ?_ hlast hle
  rintro last r ⟨t, rfl, hat⟩ har
  by_cases h : Opens (some t) r
  · rw [event, gate_open h]
    have hspan : r.span ≤ r.now - t := h.2 t rfl
    exact ⟨⟨r.now, rfl, har⟩, fun _ => hspan.trans (sub_le_sub_left hat r.now)⟩
  · rw [event, gate_shut h]
    refine ⟨⟨t, rfl, hat⟩, ?_⟩
    intro hout
    exact absurd hout Bool.false_ne_true

/-- **Any two openings are a span apart**, the span being the later
request's. -/
theorem trace_spaced {rs : List (Request T)}
    (hmono : rs.Pairwise (fun r r' => r.now ≤ r'.now)) (last : Option T) :
    (trace gate last rs).Pairwise (fun e e' =>
      e.output = true → e'.output = true → e'.input.span ≤ e'.input.now - e.input.now) := by
  induction rs generalizing last with
  | nil => exact List.Pairwise.nil
  | cons r rs ih =>
      obtain ⟨hhead, htail⟩ := List.pairwise_cons.mp hmono
      refine List.pairwise_cons.mpr ⟨?_, ih htail _⟩
      intro e he hout hout'
      have hopen : Opens last r := gate_output_iff.mp hout
      have hlast : ∃ t, (gate last r).1 = some t ∧ r.now ≤ t :=
        ⟨r.now, by rw [gate_open hopen], le_refl _⟩
      exact trace_after hhead hlast e he hout'

end Throttle
