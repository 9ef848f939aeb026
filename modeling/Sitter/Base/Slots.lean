/-
# `Base.Slots` — times that share a ring of slots

A ring covers `count` units of time, one slot for each.  The slot of a time is
the start of its unit, modulo the length of the ring:

    slot unit period t    (t / unit * unit) % period

As long as the period is a whole number of units the slots do not drift: two
times share a slot exactly if their units are congruent modulo the number of
slots (`slot_eq_iff`), and there are no more slots than that (`slots_le`).  For
times that are closer than the ring is long, less a unit, sharing a slot means
sharing the unit (`slot_eq_iff_of_close`).
-/
import Mathlib.Data.Int.ModEq
import Mathlib.Data.List.Dedup
import Mathlib.Data.List.Perm.Subperm

namespace Slots

def slot (unit period t : Int) : Int := t / unit * unit % period

section Slot

variable {unit count a b : Int}

theorem slot_eq (hunit : 0 < unit) (t : Int) :
    slot unit (unit * count) t = unit * (t / unit % count) := by
  rw [slot, Int.mul_comm (t / unit), Int.mul_emod_mul_of_pos _ _ hunit]

theorem unit_dvd_slot (hunit : 0 < unit) (t : Int) : unit ∣ slot unit (unit * count) t := by
  rw [slot_eq hunit]
  exact Int.dvd_mul_right _ _

theorem slot_nonneg (hcount : 0 < unit * count) (t : Int) : 0 ≤ slot unit (unit * count) t :=
  Int.emod_nonneg _ (Int.ne_of_gt hcount)

theorem slot_lt (hcount : 0 < unit * count) (t : Int) :
    slot unit (unit * count) t < unit * count :=
  Int.emod_lt_of_pos _ hcount

/-- **Who shares a slot.** -/
theorem slot_eq_iff (hunit : 0 < unit) :
    slot unit (unit * count) a = slot unit (unit * count) b ↔
      a / unit ≡ b / unit [ZMOD count] := by
  rw [slot_eq hunit, slot_eq hunit, Int.mul_eq_mul_left_iff (Int.ne_of_gt hunit)]
  rfl

theorem eq_of_modEq_of_close {m n : Int} (h : m ≡ n [ZMOD count]) (hclose : |m - n| < count) :
    m = n := by
  have hzero : m - n = 0 := Int.eq_zero_of_abs_lt_dvd (Int.modEq_iff_dvd.mp h.symm) hclose
  omega

theorem slot_ne (hunit : 0 < unit) (hdiff : 1 ≤ |a / unit - b / unit|)
    (hturn : |a / unit - b / unit| < count) :
    slot unit (unit * count) a ≠ slot unit (unit * count) b := by
  intro hslot
  have hsame := eq_of_modEq_of_close ((slot_eq_iff hunit).mp hslot) hturn
  rw [hsame, Int.sub_self] at hdiff
  exact absurd hdiff (by decide)

theorem units_close (hunit : 0 < unit) (h : |a - b| < unit * count - unit) :
    |a / unit - b / unit| < count := by
  obtain ⟨hlo, hhi⟩ := abs_lt.mp h
  have ha := Int.mul_ediv_add_emod a unit
  have hb := Int.mul_ediv_add_emod b unit
  have ha₀ := Int.emod_nonneg a (Int.ne_of_gt hunit)
  have hb₀ := Int.emod_nonneg b (Int.ne_of_gt hunit)
  have ha₁ := Int.emod_lt_of_pos a hunit
  have hb₁ := Int.emod_lt_of_pos b hunit
  have hmul : unit * (a / unit - b / unit) = unit * (a / unit) - unit * (b / unit) :=
    Int.mul_sub _ _ _
  refine abs_lt.mpr ⟨?_, ?_⟩
  · refine Int.lt_of_mul_lt_mul_left ?_ (Int.le_of_lt hunit)
    rw [hmul, Int.mul_neg]
    omega
  · refine Int.lt_of_mul_lt_mul_left ?_ (Int.le_of_lt hunit)
    rw [hmul]
    omega

/-- **Close times share a slot exactly if they share the unit.** -/
theorem slot_eq_iff_of_close (hunit : 0 < unit) (h : |a - b| < unit * count - unit) :
    slot unit (unit * count) a = slot unit (unit * count) b ↔ a / unit = b / unit := by
  rw [slot_eq_iff hunit]
  constructor
  · intro hmod
    exact eq_of_modEq_of_close hmod (units_close hunit h)
  · intro hsame
    rw [hsame]

/-- **A ring has no more slots than units.** -/
theorem slots_le (hunit : 0 < unit) (hcount : 0 < count) (times : List Int) :
    ((times.map (slot unit (unit * count))).dedup.length : Int) ≤ count := by
  have hsub : (times.map (slot unit (unit * count))).dedup ⊆
      (List.range count.toNat).map fun (k : Nat) => unit * (k : Int) := by
    intro s hs
    obtain ⟨t, -, rfl⟩ := List.mem_map.mp (List.mem_dedup.mp hs)
    have hnonneg := Int.emod_nonneg (t / unit) (Int.ne_of_gt hcount)
    have hlt := Int.emod_lt_of_pos (t / unit) hcount
    refine List.mem_map.mpr ⟨(t / unit % count).toNat, List.mem_range.mpr (by omega), ?_⟩
    rw [slot_eq hunit, Int.toNat_of_nonneg hnonneg]
  have hlength := (List.subperm_of_subset (List.nodup_dedup _) hsub).length_le
  rw [List.length_map, List.length_range] at hlength
  omega

end Slot

end Slots
