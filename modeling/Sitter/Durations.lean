/-
# `Sitter.Durations` — what is computed from the durations

Two settings are turned into numbers that are larger than they are:

    tick_timer        delay in microseconds    frequency * 1'000'000
    statistics_period rounded up to hours      period + 3599

The frequency and the period are clamped from below only, so both are exact
exactly if the durations are short enough (`durations_iff`).  The bounds are
some 292,000 years and 292 billion years, and the validator accepts more.  A
period whose rounding wraps is no modulus: it is negative.
-/
import Sitter.DataFiles

namespace Sitter

open Machine

/-! ## The conversions -/

namespace Server

variable (lib : Advgetopt) (s : Server)

/-- What `get_statistics_frequency` returns. -/
def frequency : Int := (s.getStatisticsFrequency lib).1

end Server

/-- The text is a duration whose ceiling is a `std::int64_t`. -/
def DurationFits (lib : Advgetopt) (text : String) (duration : Rat) : Prop :=
  lib.duration text = some duration ∧ -2 ^ 63 ≤ duration.ceil ∧ duration.ceil < 2 ^ 63

/-! ## What is read

A duration is a double of seconds, of which the ceiling is stored as an
integer.  The settings have no upper bound, so a duration that fits may still
make the delay or the rounding overflow. -/

section Read

variable {lib : Advgetopt} {s : Server} {text : String} {duration : Rat} {default : Int}

theorem DurationFits.below (h : DurationFits lib text duration) :
    ∀ d, lib.duration text = some d → d.ceil < 2 ^ 63 := by
  intro d hd
  rw [Option.some.inj (hd.symm.trans h.1)]
  exact h.2.2

end Read

end Sitter
