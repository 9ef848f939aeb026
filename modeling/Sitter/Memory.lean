/-
# `Sitter.Memory` — when the memory plugin raises an error

The plugin copies eight members of `/proc/meminfo` and compares two parts, in
doubles:

    at most 512 MiB available, and less than 0.2 of the total     75
    less than 0.5 of the swap space free                          65

A total of 0 makes a part that is not a number, or an infinite one, and neither
is less than anything.  So a file that cannot be read raises nothing, and one
without a line for what is available is an alarm whatever its total is.

Rounding makes no difference to the first comparison (`highMemoryUsage_iff`),
and none to the second up to a swap space of 2^53 bytes (`highSwapUsage_iff`).
-/
import Sitter.Base.Double
import Sitter.Meminfo
import Sitter.RunPlugins
import Mathlib.Tactic.FieldSimp
import Mathlib.Tactic.Positivity

namespace Sitter

open Double

/-- `json["memory"]` -/
def memoryNode : PluginNode := ⟨[.name "memory"], rfl⟩

def memoryMember (name : String) (value : Int) : PluginAction :=
  .set [.name "memory", .name name] (.int value)

/-- A part of a whole, in doubles; of 0 it is no finite number. -/
def partOf (part whole : Int) : Option ℚ :=
  if whole = 0 then none else some (double (double part / double whole))

/-- `<`, where what is not finite is less than nothing. -/
def isBelow (part : Option ℚ) (bound : ℚ) : Bool := part.any fun x => x < bound

namespace Meminfo

variable (info : Meminfo)

def highMemoryUsage : Bool :=
  -- with 512 MiB or more there is no error
  if double (info .memAvailable) > 512 * 1024 * 1024 then false
  else isBelow (partOf (info .memAvailable) (info .memTotal)) (double (2 / 10))

def highSwapUsage : Bool :=
  isBelow (partOf (info .swapFree) (info .swapTotal)) (double (5 / 10))

end Meminfo

/-- What is done with a `meminfo_t`. -/
def watchMemory (info : Meminfo) : List PluginAction :=
  [memoryMember "mem_total" (info .memTotal),
    memoryMember "mem_free" (info .memFree),
    memoryMember "mem_available" (info .memAvailable),
    memoryMember "mem_buffers" (info .buffers),
    memoryMember "mem_cached" (info .cached),
    memoryMember "swap_cached" (info .swapCached),
    memoryMember "swap_total" (info .swapTotal),
    memoryMember "swap_free" (info .swapFree)]
  ++ (if info.highMemoryUsage then [.appendError memoryNode "memory" "High memory usage" 75]
    else [])
  ++ (if info.highSwapUsage then [.appendError memoryNode "memory" "High swap usage" 65] else [])

/-- `on_process_watch` -/
def onProcessWatchMemory (tokenize : TokenizeString) (file : Option MeminfoFile) :
    Except StollError (List PluginAction) :=
  (getMeminfo tokenize file).map watchMemory

/-! ## The comparisons in doubles

The alarms compare a quotient of doubles with a fifth or a half.  For wholes of
53 bits the comparison is that of the numbers. -/

section Rounding

variable {a b : Int}

theorem double_intCast (hlow : 0 ≤ a) (hhigh : a ≤ 2 ^ 53) : double (a : ℚ) = a := by
  obtain ⟨n, rfl⟩ := Int.eq_ofNat_of_zero_le hlow
  exact_mod_cast double_natCast (n := n) (by exact_mod_cast hhigh)

theorem le_double_large (h : 2 ^ 53 < a) : (2 : ℚ) ^ 53 ≤ double (a : ℚ) := by
  have hcast : (2 : ℚ) ^ (53 : ℤ) ≤ a := by exact_mod_cast h.le
  exact_mod_cast le_double_of_le hcast

theorem double_gt_half_gib (h : 0 ≤ a) : double (a : ℚ) > 512 * 1024 * 1024 ↔ 2 ^ 29 < a := by
  rcases le_or_gt a (2 ^ 53) with ha | ha
  · rw [double_intCast h ha]
    norm_num
    exact_mod_cast Iff.rfl
  · refine iff_of_true ?_ (lt_trans (by norm_num) ha)
    exact lt_of_lt_of_le (by norm_num) (le_double_large ha)

theorem double_lt_fifth {x : ℚ} :
    double x < double (2 / 10) ↔ x < (7205759403792794 - 1 / 2) * 2 ^ (-55 : ℤ) := by
  have hfifth : double (2 / 10) = (7205759403792794 : ℤ) * 2 ^ (-55 : ℤ) :=
    double_eq (by norm_num) (by norm_num) (by norm_num) (by norm_num)
  rw [hfifth, ← not_le, le_double_iff (by norm_num) (by norm_num), Reaches, if_pos (by decide),
    not_le, div_lt_iff₀ (zpow_pos two_pos _)]
  norm_num

theorem below_fifth_iff (ha : 0 ≤ a) (hsmall : a ≤ 2 ^ 29) (hb : 0 < b) :
    double (double a / double b) < double (2 / 10) ↔ 5 * a < b := by
  have hasmall : (a : ℚ) ≤ 2 ^ 29 := by exact_mod_cast hsmall
  rw [double_intCast ha (hsmall.trans (by norm_num)), double_lt_fifth]
  rcases le_or_gt b (2 ^ 53) with hlarge | hlarge
  · have hpos : (0 : ℚ) < b := by exact_mod_cast hb
    have hsize : (b : ℚ) ≤ 2 ^ 53 := by exact_mod_cast hlarge
    rw [double_intCast hb.le hlarge, div_lt_iff₀ hpos]
    constructor
    · intro h
      have hlt : (5 * a : ℚ) < b := by
        norm_num at h
        linarith
      exact_mod_cast hlt
    · intro h
      have hnext : (5 * a + 1 : ℚ) ≤ b := by exact_mod_cast h
      norm_num
      linarith
  · -- next to nothing of the total is left
    have hrounded := le_double_large hlarge
    refine iff_of_true ?_ (by omega)
    rw [div_lt_iff₀ (lt_of_lt_of_le (by norm_num) hrounded)]
    norm_num
    linarith

theorem double_lt_half {x : ℚ} (h : x ≤ 1 / 2 - 2 ^ (-54 : ℤ)) : double x < 1 / 2 := by
  have hlast : x / 2 ^ (-54 : ℤ) ≤ ((2 ^ 53 - 1 : ℤ) : ℚ) := by
    rw [div_le_iff₀ (zpow_pos two_pos _)]
    norm_num at h ⊢
    exact h
  rcases double_cases (-54) x with ⟨-, hdouble⟩ | hdouble | ⟨hx, -⟩
  · refine lt_of_le_of_lt hdouble ?_
    norm_num
  · have hround : roundEven (x / 2 ^ (-54 : ℤ)) ≤ 2 ^ 53 - 1 := by
      rw [← roundEven_intCast (2 ^ 53 - 1)]
      exact roundEven_mono hlast
    have hcast : (roundEven (x / 2 ^ (-54 : ℤ)) : ℚ) ≤ 2 ^ 53 - 1 := by exact_mod_cast hround
    rw [hdouble]
    norm_num at hcast ⊢
    linarith
  · norm_num at hx hlast
    linarith

theorem below_half_iff (ha : 0 ≤ a) (hb : 0 < b) (hsize : b ≤ 2 ^ 53) :
    double (double a / double b) < double (5 / 10) ↔ 2 * a < b := by
  have hhalf : double (5 / 10) = 1 / 2 := by
    have hpow : (5 / 10 : ℚ) = 2 ^ (-1 : ℤ) := by norm_num
    rw [hpow, double_two_zpow]
    norm_num
  have hpos : (0 : ℚ) < b := by exact_mod_cast hb
  have hsize' : (b : ℚ) ≤ 2 ^ 53 := by exact_mod_cast hsize
  rw [hhalf, double_intCast hb.le hsize]
  have hlarge : (b : ℚ) ≤ 2 * double a → ¬ double (double a / b) < 1 / 2 := by
    intro h
    have hx : (2 : ℚ) ^ (-1 : ℤ) ≤ double a / b := by
      rw [le_div_iff₀ hpos]
      norm_num
      linarith
    have hx' := le_double_of_le hx
    norm_num at hx'
    exact not_lt_of_ge (by norm_num; exact hx')
  rcases le_or_gt a (2 ^ 53) with hsmall | hsmall
  · rw [double_intCast ha hsmall] at hlarge ⊢
    constructor
    · intro h
      by_contra hnot
      refine hlarge ?_ h
      exact_mod_cast not_lt.mp hnot
    · intro h
      refine double_lt_half ?_
      have hnext : (2 * a + 1 : ℚ) ≤ b := by exact_mod_cast h
      rw [div_le_iff₀ hpos]
      norm_num
      linarith
  · -- far more is free than there is
    have hrounded := le_double_large hsmall
    exact iff_of_false (hlarge (by linarith)) (by omega)

end Rounding

/-! ## The two alarms -/

section Alarms

variable {info : Meminfo}

/-- **Memory is short if at most 512 MiB are available, and less than a fifth of
the total.** -/
theorem highMemoryUsage_iff (havailable : 0 ≤ info .memAvailable) (htotal : 0 ≤ info .memTotal) :
    info.highMemoryUsage = true ↔
      info .memAvailable ≤ 2 ^ 29 ∧ 5 * info .memAvailable < info .memTotal := by
  rw [Meminfo.highMemoryUsage]
  by_cases hlarge : 2 ^ 29 < info .memAvailable
  · rw [if_pos ((double_gt_half_gib havailable).mpr hlarge)]
    exact iff_of_false Bool.false_ne_true fun h => absurd h.1 (not_le_of_gt hlarge)
  · have hsmall := not_lt.mp hlarge
    rw [if_neg (mt (double_gt_half_gib havailable).mp hlarge), and_iff_right hsmall, partOf]
    rcases htotal.eq_or_lt with hzero | hpos
    · rw [if_pos hzero.symm]
      exact iff_of_false Bool.false_ne_true (by omega)
    · rw [if_neg hpos.ne', isBelow, Option.any_some, decide_eq_true_iff,
        below_fifth_iff havailable hsmall hpos]

/-- **The swap space is short if less than half of it is free.** -/
theorem highSwapUsage_iff (hfree : 0 ≤ info .swapFree) (htotal : 0 ≤ info .swapTotal)
    (hsize : info .swapTotal ≤ 2 ^ 53) :
    info.highSwapUsage = true ↔ 2 * info .swapFree < info .swapTotal := by
  rw [Meminfo.highSwapUsage, partOf]
  rcases htotal.eq_or_lt with hzero | hpos
  · rw [if_pos hzero.symm]
    exact iff_of_false Bool.false_ne_true (by omega)
  · rw [if_neg hpos.ne', isBelow, Option.any_some, decide_eq_true_iff,
      below_half_iff hfree hpos hsize]

theorem raisedPriorities_watchMemory :
    raisedPriorities (watchMemory info) =
      (if info.highMemoryUsage then [75] else []) ++ if info.highSwapUsage then [65] else [] := by
  rw [watchMemory]
  cases info.highMemoryUsage <;> cases info.highSwapUsage <;> rfl

theorem MeminfoRead.nonneg {text : List Char} (h : MeminfoRead text info) (f : MemField) :
    0 ≤ info f := by
  by_cases hgiven : ∃ line ∈ Lines.lines '\n' text, ∃ n kB, MeminfoEntry line f n kB
  · obtain ⟨line, hline, n, kB, hentry⟩ := hgiven
    have hn : 0 ≤ n := by
      obtain ⟨-, number, -, -, hnumber, -⟩ := hentry
      rw [decimalNumber] at hnumber
      split at hnumber
      · cases hnumber
        exact Int.natCast_nonneg _
      · cases hnumber
    rw [h.given line hline f n kB hentry]
    split <;> omega
  · push Not at hgiven
    rw [h.absent f hgiven]

end Alarms

/-- **The alarms of a text are those of the numbers in its lines**, a number
without a line being 0: for the memory whatever the numbers are, for a swap space
of up to 2^53 bytes. -/
theorem onProcessWatchMemory_text (tokenize : TokenizeString) (htokens : SplitsTokens tokenize)
    (text : List Char) (h : MeminfoText text) :
    ∃ info actions, onProcessWatchMemory tokenize (some ⟨text, false⟩) = .ok actions ∧
      MeminfoRead text info ∧
      (75 ∈ raisedPriorities actions ↔
        info .memAvailable ≤ 2 ^ 29 ∧ 5 * info .memAvailable < info .memTotal) ∧
      (info .swapTotal ≤ 2 ^ 53 →
        (65 ∈ raisedPriorities actions ↔ 2 * info .swapFree < info .swapTotal)) := by
  obtain ⟨info, hinfo, hread⟩ : ∃ info,
      getMeminfo tokenize (some ⟨text, false⟩) = .ok info ∧ MeminfoRead text info :=
    ⟨_, h.lookup htokens, h.read⟩
  refine ⟨info, watchMemory info, ?_, hread, ?_, ?_⟩
  · rw [onProcessWatchMemory, hinfo]
    rfl
  · rw [raisedPriorities_watchMemory,
      ← highMemoryUsage_iff (hread.nonneg .memAvailable) (hread.nonneg .memTotal)]
    split_ifs with hmemory hswap hswap <;> simp [hmemory]
  · intro hsize
    rw [raisedPriorities_watchMemory,
      ← highSwapUsage_iff (hread.nonneg .swapFree) (hread.nonneg .swapTotal) hsize]
    split_ifs with hmemory hswap hswap <;> simp [hswap]

/-- A tenth of the memory is available, and next to nothing of the swap space is
free. -/
def shortMeminfo : List Char :=
  "MemTotal: 4000000 kB\nMemAvailable: 400000 kB\nSwapTotal: 2000000 kB\nSwapFree: 100 kB\n".toList

theorem shortMeminfo_lines :
    Lines.lines '\n' shortMeminfo = ["MemTotal: 4000000 kB".toList,
      "MemAvailable: 400000 kB".toList, "SwapTotal: 2000000 kB".toList,
      "SwapFree: 100 kB".toList] := by
  decide +kernel

theorem shortMeminfo_entries :
    MeminfoEntry "MemTotal: 4000000 kB".toList .memTotal 4000000 true ∧
      MeminfoEntry "MemAvailable: 400000 kB".toList .memAvailable 400000 true ∧
      MeminfoEntry "SwapTotal: 2000000 kB".toList .swapTotal 2000000 true ∧
      MeminfoEntry "SwapFree: 100 kB".toList .swapFree 100 true :=
  ⟨⟨_, "4000000", by decide, rfl, by decide, by decide⟩,
    ⟨_, "400000", by decide, rfl, by decide, by decide⟩,
    ⟨_, "2000000", by decide, rfl, by decide, by decide⟩,
    ⟨_, "100", by decide, rfl, by decide, by decide⟩⟩

theorem shortMeminfo_text : MeminfoText shortMeminfo := by
  obtain ⟨htotal, havailable, hswapTotal, hswapFree⟩ := shortMeminfo_entries
  constructor
  · rw [shortMeminfo_lines]
    decide
  · rw [shortMeminfo_lines]
    refine List.forall_mem_cons.mpr ⟨Or.inl ⟨_, _, _, htotal⟩, ?_⟩
    refine List.forall_mem_cons.mpr ⟨Or.inl ⟨_, _, _, havailable⟩, ?_⟩
    refine List.forall_mem_cons.mpr ⟨Or.inl ⟨_, _, _, hswapTotal⟩, ?_⟩
    exact List.forall_mem_singleton.mpr (Or.inl ⟨_, _, _, hswapFree⟩)
  · rw [shortMeminfo_lines]
    exact once_of_nodup (by decide)

/-- Both alarms go off. -/
theorem onProcessWatchMemory_short :
    ∃ actions, onProcessWatchMemory tokenizeLine (some ⟨shortMeminfo, false⟩) = .ok actions ∧
      75 ∈ raisedPriorities actions ∧ 65 ∈ raisedPriorities actions := by
  obtain ⟨info, actions, hactions, hread, hmemory, hswap⟩ :=
    onProcessWatchMemory_text tokenizeLine tokenizeLine_splits shortMeminfo shortMeminfo_text
  obtain ⟨htotal, havailable, hswapTotal, hswapFree⟩ := shortMeminfo_entries
  have hline : ∀ line ∈ ["MemTotal: 4000000 kB".toList, "MemAvailable: 400000 kB".toList,
      "SwapTotal: 2000000 kB".toList, "SwapFree: 100 kB".toList],
      line ∈ Lines.lines '\n' shortMeminfo := by
    rw [shortMeminfo_lines]
    exact fun _ h => h
  have h₁ : info .memTotal = 4000000000 := hread.given _ (hline _ (by decide)) _ _ _ htotal
  have h₂ : info .memAvailable = 400000000 := hread.given _ (hline _ (by decide)) _ _ _ havailable
  have h₃ : info .swapTotal = 2000000000 := hread.given _ (hline _ (by decide)) _ _ _ hswapTotal
  have h₄ : info .swapFree = 100000 := hread.given _ (hline _ (by decide)) _ _ _ hswapFree
  refine ⟨actions, hactions, hmemory.mpr ?_, (hswap ?_).mpr ?_⟩
  · omega
  · omega
  · omega

end Sitter
