/-
# `Base.Double` — numbers that are rounded to 53 bits

A rational number is rounded to the nearest one with 53 significant bits; of
two that are equally near, to the one whose last bit is 0.

    roundEven x    the nearest integer, the even one of two
    ulp x          what the last of the 53 bits of `x` stands for
    double x       the nearest number with 53 bits

There is no least and no greatest exponent, so `double` is the rounding of
IEEE binary64 for what is neither below its normal numbers nor above its finite
ones.

What a proof needs is where a rounded number reaches a bound.  For an integer
that is half below it (`le_roundEven_iff`), so it is for a number with 53 bits
(`le_double_iff`): a comparison of rounded numbers is a comparison of exact
ones with another bound.
-/
import Mathlib.Data.Int.Log
import Mathlib.Algebra.Order.Floor.Ring
import Mathlib.Algebra.Order.Archimedean.Basic
import Mathlib.Data.Rat.Floor
import Mathlib.Algebra.Ring.Int.Parity
import Mathlib.Tactic.Linarith
import Mathlib.Tactic.NormNum

namespace Double

/-! ## To an integer

Rounding is monotone and leaves integers alone.  From that a rounded number
reaches an integer exactly where the number reaches the half before it, with
the ties going to the even one. -/

/-- The nearest integer, the even one of two. -/
def roundEven (x : ℚ) : ℤ :=
  if x - ⌊x⌋ < 1 / 2 then ⌊x⌋
  else if 1 / 2 < x - ⌊x⌋ then ⌊x⌋ + 1
  else ⌊x⌋ + ⌊x⌋ % 2

/-- Where a rounded number reaches an integer. -/
def Reaches (k : ℤ) (x : ℚ) : Prop := if Even k then (k : ℚ) - 1 / 2 ≤ x else (k : ℚ) - 1 / 2 < x

theorem Reaches.mono {k : ℤ} {x y : ℚ} (h : Reaches k x) (hxy : x ≤ y) : Reaches k y := by
  unfold Reaches at h ⊢
  split_ifs at h ⊢
  · exact h.trans hxy
  · exact lt_of_lt_of_le h hxy

theorem reaches_of_le {k : ℤ} {x : ℚ} (h : (k : ℚ) ≤ x) : Reaches k x := by
  unfold Reaches
  split <;> linarith

theorem not_reaches_of_lt {k : ℤ} {x : ℚ} (h : x < k - 1 / 2) : ¬ Reaches k x := by
  unfold Reaches
  split <;> linarith

/-- **A number is rounded to an integer or more from half below it on.** -/
theorem le_roundEven_iff {k : ℤ} {x : ℚ} : k ≤ roundEven x ↔ Reaches k x := by
  have hlow : (⌊x⌋ : ℚ) ≤ x := Int.floor_le x
  have hhigh : x < ⌊x⌋ + 1 := Int.lt_floor_add_one x
  have hbounds : ⌊x⌋ ≤ roundEven x ∧ roundEven x ≤ ⌊x⌋ + 1 := by
    unfold roundEven
    split_ifs <;> omega
  rcases lt_trichotomy k (⌊x⌋ + 1) with hk | rfl | hk
  · -- the floor is reached already
    refine iff_of_true (by omega) (reaches_of_le ?_)
    have hcast : (k : ℚ) ≤ ⌊x⌋ := by exact_mod_cast (by omega : k ≤ ⌊x⌋)
    exact hcast.trans hlow
  · -- the integer above: the half and its parity decide
    unfold roundEven Reaches
    push_cast
    have hparity : Even (⌊x⌋ + 1) ↔ ⌊x⌋ % 2 = 1 := by
      rw [Int.even_iff]
      omega
    split_ifs with h1 h2 h3 h4 h5
    · exact iff_of_false (by omega) (by linarith)
    · exact iff_of_false (by omega) (by linarith)
    · exact iff_of_true le_rfl (by linarith)
    · exact iff_of_true le_rfl (by linarith)
    · rw [hparity] at h5
      exact iff_of_true (by omega) (by linarith)
    · rw [hparity] at h5
      exact iff_of_false (by omega) (by linarith)
  · refine iff_of_false (by omega) (not_reaches_of_lt ?_)
    have hcast : (⌊x⌋ : ℚ) + 2 ≤ k := by exact_mod_cast (by omega : ⌊x⌋ + 2 ≤ k)
    linarith

theorem roundEven_mono {x y : ℚ} (h : x ≤ y) : roundEven x ≤ roundEven y :=
  le_roundEven_iff.mpr ((le_roundEven_iff.mp le_rfl).mono h)

@[simp] theorem roundEven_intCast (k : ℤ) : roundEven (k : ℚ) = k := by
  simp [roundEven]

/-- What is closer to an integer than to any other. -/
theorem roundEven_eq {k : ℤ} {x : ℚ} (hlow : (k : ℚ) - 1 / 2 < x) (hhigh : x < k + 1 / 2) :
    roundEven x = k := by
  refine le_antisymm ?_ (le_roundEven_iff.mpr ?_)
  · refine Int.lt_add_one_iff.mp (lt_of_not_ge ?_)
    refine mt le_roundEven_iff.mp (not_reaches_of_lt ?_)
    push_cast
    linarith
  · unfold Reaches
    split
    · exact hlow.le
    · exact hlow

/-! ## To 53 bits

A rounded number is compared with a bound of 53 bits without rounding: the
comparison is with the number half a bit away from the bound. -/

/-- What the last of the 53 bits stands for. -/
def ulp (x : ℚ) : ℚ := 2 ^ (Int.log 2 |x| - 52)

/-- The nearest number with 53 significant bits, the even one of two. -/
def double (x : ℚ) : ℚ := roundEven (x / ulp x) * ulp x

theorem ulp_pos (x : ℚ) : 0 < ulp x := zpow_pos two_pos _

@[simp] theorem double_zero : double 0 = 0 := by
  simp [double, roundEven]

theorem ulp_eq {e : ℤ} {x : ℚ} (hlow : 2 ^ (e + 52) ≤ x) (hhigh : x < 2 ^ (e + 53)) :
    ulp x = 2 ^ e := by
  have hpos : 0 < x := lt_of_lt_of_le (zpow_pos two_pos _) hlow
  have hlog : Int.log 2 x = e + 52 := by
    have hge : e + 52 ≤ Int.log 2 x :=
      (Int.zpow_le_iff_le_log Nat.one_lt_two hpos).mp (by exact_mod_cast hlow)
    have hlt : Int.log 2 x < e + 53 :=
      (Int.lt_zpow_iff_log_lt Nat.one_lt_two hpos).mp (by exact_mod_cast hhigh)
    omega
  rw [ulp, abs_of_pos hpos, hlog, add_sub_cancel_right]

theorem ulp_mul (x : ℚ) : 2 ^ 52 * ulp x = 2 ^ Int.log 2 |x| := by
  rw [ulp, ← zpow_natCast, ← zpow_add₀ two_ne_zero]
  congr 1
  push_cast
  ring

theorem zpow_add_mul (e : ℤ) (n : ℕ) : (2 : ℚ) ^ (e + n) = 2 ^ n * 2 ^ e := by
  rw [zpow_add₀ two_ne_zero, zpow_natCast, mul_comm]

/-- The number with this last bit that is closer than any other. -/
theorem double_eq {k e : ℤ} {x : ℚ} (hlow : 2 ^ (e + 52) ≤ x) (hhigh : x < 2 ^ (e + 53))
    (hbelow : (k : ℚ) - 1 / 2 < x / 2 ^ e) (habove : x / 2 ^ e < k + 1 / 2) :
    double x = k * 2 ^ e := by
  rw [double, ulp_eq hlow hhigh, roundEven_eq hbelow habove]

/-- What has 53 bits is left alone. -/
theorem double_exact {k e : ℤ} (hlow : 2 ^ 52 ≤ k) (hhigh : k < 2 ^ 53) :
    double (k * 2 ^ e) = k * 2 ^ e := by
  have hbit : (0 : ℚ) < 2 ^ e := zpow_pos two_pos e
  refine double_eq ?_ ?_ ?_ ?_
  · rw [show e + 52 = e + (52 : ℕ) from rfl, zpow_add_mul, mul_le_mul_iff_left₀ hbit]
    exact_mod_cast hlow
  · rw [show e + 53 = e + (53 : ℕ) from rfl, zpow_add_mul, mul_lt_mul_iff_left₀ hbit]
    exact_mod_cast hhigh
  · rw [mul_div_cancel_right₀ _ hbit.ne']
    linarith
  · rw [mul_div_cancel_right₀ _ hbit.ne']
    linarith

theorem double_two_zpow (e : ℤ) : double (2 ^ e) = 2 ^ e := by
  have hsplit : (2 : ℚ) ^ e = ((2 ^ 52 : ℤ) : ℚ) * 2 ^ (e - 52) := by
    rw [Int.cast_pow, Int.cast_ofNat, ← zpow_add_mul]
    congr 1
    push_cast
    ring
  rw [hsplit]
  exact double_exact le_rfl (by norm_num)

theorem le_double_of_le {e : ℤ} {x : ℚ} (h : (2 : ℚ) ^ e ≤ x) : 2 ^ e ≤ double x := by
  have hpos : 0 < x := lt_of_lt_of_le (zpow_pos two_pos _) h
  have hlog : 2 ^ Int.log 2 |x| ≤ x := by
    rw [abs_of_pos hpos]
    exact_mod_cast Int.zpow_log_le_self Nat.one_lt_two hpos
  have he : e ≤ Int.log 2 |x| := by
    rw [abs_of_pos hpos]
    exact (Int.zpow_le_iff_le_log Nat.one_lt_two hpos).mp (by exact_mod_cast h)
  have hbits : 2 ^ 52 ≤ roundEven (x / ulp x) := by
    refine le_roundEven_iff.mpr (reaches_of_le ?_)
    rw [le_div_iff₀ (ulp_pos x), Int.cast_pow, Int.cast_ofNat, ulp_mul]
    exact hlog
  calc (2 : ℚ) ^ e ≤ 2 ^ Int.log 2 |x| := zpow_le_zpow_right₀ one_le_two he
    _ = 2 ^ 52 * ulp x := (ulp_mul x).symm
    _ ≤ double x := mul_le_mul_of_nonneg_right (by exact_mod_cast hbits) (ulp_pos x).le

theorem double_le_of_le {e : ℤ} {x : ℚ} (h : x ≤ (2 : ℚ) ^ e) : double x ≤ 2 ^ e := by
  rcases le_or_gt x 0 with hneg | hpos
  · have hround : roundEven (x / ulp x) ≤ 0 := by
      rw [← roundEven_intCast 0]
      refine roundEven_mono ?_
      rw [Int.cast_zero]
      exact div_nonpos_of_nonpos_of_nonneg hneg (ulp_pos x).le
    have hdouble : double x ≤ 0 :=
      mul_nonpos_of_nonpos_of_nonneg (by exact_mod_cast hround) (ulp_pos x).le
    exact hdouble.trans (zpow_pos two_pos e).le
  rcases lt_or_eq_of_le h with hlt | rfl
  · -- the power above the number is not above the bound
    have hlog : x < 2 ^ (Int.log 2 |x| + 1) := by
      rw [abs_of_pos hpos]
      exact_mod_cast Int.lt_zpow_succ_log_self Nat.one_lt_two x
    have hulp : 2 ^ 53 * ulp x = 2 ^ (Int.log 2 |x| + 1) := by
      rw [zpow_add_one₀ two_ne_zero, ← ulp_mul]
      ring
    have he : Int.log 2 |x| + 1 ≤ e := by
      rw [abs_of_pos hpos]
      exact (Int.lt_zpow_iff_log_lt Nat.one_lt_two hpos).mp (by exact_mod_cast hlt)
    have hbits : roundEven (x / ulp x) ≤ 2 ^ 53 := by
      rw [← roundEven_intCast (2 ^ 53)]
      refine roundEven_mono ?_
      rw [div_le_iff₀ (ulp_pos x), Int.cast_pow, Int.cast_ofNat, hulp]
      exact hlog.le
    calc double x ≤ 2 ^ 53 * ulp x :=
          mul_le_mul_of_nonneg_right (by exact_mod_cast hbits) (ulp_pos x).le
      _ = 2 ^ (Int.log 2 |x| + 1) := hulp
      _ ≤ 2 ^ e := zpow_le_zpow_right₀ one_le_two he
  · rw [double_two_zpow]

/-- Where a number is that is compared with one whose last bit stands for
`2 ^ e`: below all of these, among them, or above. -/
theorem double_cases (e : ℤ) (x : ℚ) :
    (x / 2 ^ e < 2 ^ 52 ∧ double x ≤ 2 ^ 52 * 2 ^ e) ∨ double x = roundEven (x / 2 ^ e) * 2 ^ e ∨
      2 ^ 53 ≤ x / 2 ^ e ∧ 2 ^ 53 * 2 ^ e ≤ double x := by
  have hbit : (0 : ℚ) < 2 ^ e := zpow_pos two_pos e
  have hpow52 : (2 : ℚ) ^ (e + 52) = 2 ^ 52 * 2 ^ e := zpow_add_mul e 52
  have hpow53 : (2 : ℚ) ^ (e + 53) = 2 ^ 53 * 2 ^ e := zpow_add_mul e 53
  rcases lt_or_ge x (2 ^ (e + 52)) with hx | hx
  · refine Or.inl ⟨?_, ?_⟩
    · rw [div_lt_iff₀ hbit, ← hpow52]
      exact hx
    · rw [← hpow52]
      exact double_le_of_le hx.le
  rcases lt_or_ge x (2 ^ (e + 53)) with hx' | hx'
  · refine Or.inr (Or.inl ?_)
    rw [double, ulp_eq hx hx']
  · refine Or.inr (Or.inr ⟨?_, ?_⟩)
    · rw [le_div_iff₀ hbit, ← hpow53]
      exact hx'
    · rw [← hpow53]
      exact le_double_of_le hx'

/-- **A number is rounded to one with 53 bits or more from half of its last bit
below it on.** -/
theorem le_double_iff {k e : ℤ} {x : ℚ} (hlow : 2 ^ 52 < k) (hhigh : k < 2 ^ 53) :
    (k : ℚ) * 2 ^ e ≤ double x ↔ Reaches k (x / 2 ^ e) := by
  have hbit : (0 : ℚ) < 2 ^ e := zpow_pos two_pos e
  have hlow' : (2 : ℚ) ^ 52 + 1 ≤ k := by exact_mod_cast hlow
  have hhigh' : (k : ℚ) ≤ 2 ^ 53 := by exact_mod_cast hhigh.le
  rcases double_cases e x with ⟨hx, hdouble⟩ | hdouble | ⟨hx, hdouble⟩
  · refine iff_of_false ?_ (not_reaches_of_lt (by linarith))
    exact not_le_of_gt (lt_of_le_of_lt hdouble (mul_lt_mul_of_pos_right (by linarith) hbit))
  · rw [hdouble, mul_le_mul_iff_left₀ hbit, Int.cast_le, le_roundEven_iff]
  · refine iff_of_true ?_ (reaches_of_le (hhigh'.trans hx))
    exact (mul_le_mul_of_nonneg_right hhigh' hbit.le).trans hdouble

theorem lt_double_iff {k e : ℤ} {x : ℚ} (hlow : 2 ^ 52 ≤ k) (hhigh : k + 1 < 2 ^ 53) :
    (k : ℚ) * 2 ^ e < double x ↔ Reaches (k + 1) (x / 2 ^ e) := by
  have hbit : (0 : ℚ) < 2 ^ e := zpow_pos two_pos e
  have hlow' : (2 : ℚ) ^ 52 ≤ k := by exact_mod_cast hlow
  have hhigh' : (k : ℚ) + 1 < 2 ^ 53 := by exact_mod_cast hhigh
  rcases double_cases e x with ⟨hx, hdouble⟩ | hdouble | ⟨hx, hdouble⟩
  · refine iff_of_false ?_ (not_reaches_of_lt (by push_cast; linarith))
    exact not_lt_of_ge (hdouble.trans (mul_le_mul_of_nonneg_right hlow' hbit.le))
  · rw [hdouble, mul_lt_mul_iff_left₀ hbit, Int.cast_lt, ← Int.add_one_le_iff, le_roundEven_iff]
  · refine iff_of_true ?_ (reaches_of_le (by push_cast; linarith))
    exact lt_of_lt_of_le (mul_lt_mul_of_pos_right (by linarith) hbit) hdouble

theorem double_natCast {n : ℕ} (h : n ≤ 2 ^ 53) : double n = n := by
  rcases Nat.eq_zero_or_pos n with rfl | hpos
  · rw [Nat.cast_zero, double_zero]
  rcases Nat.lt_or_eq_of_le h with hlt | rfl
  · obtain ⟨d, hd⟩ := Nat.le.dest (Nat.lt_add_one_iff.mp (Nat.log_lt_of_lt_pow hpos.ne' hlt))
    -- shifted by `d` it has its 53 bits
    have hlow : 2 ^ 52 ≤ n * 2 ^ d := by
      rw [← hd, pow_add]
      exact Nat.mul_le_mul_right _ (Nat.pow_log_le_self 2 hpos.ne')
    have hhigh : n * 2 ^ d < 2 ^ 53 := by
      rw [show 53 = Nat.log 2 n + 1 + d by omega, pow_add]
      exact Nat.mul_lt_mul_of_pos_right (Nat.lt_pow_succ_log_self Nat.one_lt_two n)
        (Nat.two_pow_pos d)
    have hsplit : (n : ℚ) = ((n * 2 ^ d : ℕ) : ℤ) * 2 ^ (-(d : ℤ)) := by
      rw [Int.cast_natCast, Nat.cast_mul, Nat.cast_pow, Nat.cast_ofNat, zpow_neg, zpow_natCast,
        mul_inv_cancel_right₀ (pow_ne_zero d two_ne_zero)]
    rw [hsplit]
    exact double_exact (by exact_mod_cast hlow) (by exact_mod_cast hhigh)
  · have hpow : ((2 ^ 53 : ℕ) : ℚ) = 2 ^ (53 : ℤ) := by norm_num
    rw [hpow, double_two_zpow]

end Double
