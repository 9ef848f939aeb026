/-
# `Sitter.Disk` — the disk plugin, and the partitions it ignores

Each mount whose file system has blocks is a partition.  One that is used at
90% or more is an error:

    99.9% or more     100
    95% or more        80
    90% or more        55

unless its directory is to be ignored, by the built-in pattern `^/snap/core/`
or by a pattern of the user.  A pattern says what is to be found in the name of
a directory; the plugin wants it to match the whole of the name.  One that is no
regular expression throws, when a full partition makes the plugin come to it
(`onProcessWatchDisk_completes`).  The usage is computed in doubles.

So a mount is reported as it should be exactly if (`diskErrors_iff`), where
some pattern is found in its directory, it is not full or a pattern is the
whole name, and where none is, rounding the counts to doubles does not move the
usage over one of the bounds.  With up to 2^43 blocks it never does
(`countsKept_of_le`).  Then the errors of a pass are those of its full
partitions (`onProcessWatchDisk_errors`).
-/
import Sitter.Base.Double
import Sitter.RunPlugins
import Mathlib.Tactic.FieldSimp
import Mathlib.Tactic.Positivity

namespace Sitter

open Double Machine

/-! ## The data -/

/-- `struct statvfs` -/
structure Statvfs where
  blocks : Nat
  frsize : Nat
  bfree : Nat
  bavail : Nat
  ffree : Nat
  favail : Nat
  flag : Nat

/-- An entry of `/proc/mounts`, and what `statvfs_try` finds there; it may
fail or time out. -/
structure Mount where
  dir : String
  stat : Option Statvfs

/-- What a pass finds.  `percentText` is `std::to_string` of a double. -/
structure DiskPass where
  server : Server
  mounts : List Mount
  hostname : String
  percentText : ℚ → String
  regex : Regex

/-! ## The pass -/

/-- `g_ignore_filled_partitions` -/
def ignoreFilledPartitions : List String := ["^/snap/core/"]

def diskIgnorePatterns (lib : Advgetopt) (s : Server) : List String :=
  lib.splitString (s.getServerParameter "disk_ignore") [":"]

/-- `json["disk"]` -/
def diskNode : PluginNode := ⟨[.name "disk"], rfl⟩

namespace Statvfs

variable (s : Statvfs)

/-- A count of blocks in units of 1024 bytes. -/
def kilobytes (blocks : Nat) : Int := ((blocks * s.frsize % 2 ^ 64 / 1024 : Nat) : Int)

/-- The part of the blocks that is available, in doubles. -/
def available : ℚ := double (double s.bavail / double s.blocks)

def usage : ℚ := double (1 - s.available)

/-- The priority increases as the disk gets filled up more. -/
def fullPriority : Int :=
  if s.usage ≥ double (999 / 1000) then 100
  else if s.usage ≥ double (95 / 100) then 80
  else 55

end Statvfs

namespace DiskPass

variable (lib : Advgetopt) (p : DiskPass)

/-- `find_if`: one of the patterns matches.  Nothing is found if it comes to a
pattern that throws. -/
def ignores : List String → String → Option Bool
  | [], _ => some false
  | pattern :: patterns, dir =>
      match p.regex pattern with
      | none => none
      | some isMatch => if isMatch dir then some true else ignores patterns dir

def closeToFull (dir : String) (s : Statvfs) (priority : Int) : PluginAction :=
  .appendError diskNode "disk" ("partition \"" ++ dir ++ "\" on \"" ++ p.hostname
    ++ "\" is close to full (" ++ p.percentText (double (s.usage * 100)) ++ "%)") priority

/-- What is written about the partition `k`. -/
def recordPartition (k : Nat) (dir : String) (s : Statvfs) : List PluginAction :=
  let member (name : String) (value : Value) : PluginAction :=
    .set [.name "disk", .name "partition", .item k, .name name] value
  [.push [.name "disk", .name "partition"] .null,
    member "dir" (.text dir),
    member "blocks" (.int (s.kilobytes s.blocks)),
    member "bfree" (.int (s.kilobytes s.bfree)),
    member "available" (.int (s.kilobytes s.bavail)),
    member "ffree" (.int s.ffree),
    member "favailable" (.int s.favail),
    member "flags" (.int s.flag)]

/-- What is done about a partition that is full at 90% or more. -/
def checkFull (k : Nat) (dir : String) (s : Statvfs) : List PluginAction :=
  let error (text : String) : PluginAction :=
    .set [.name "disk", .name "partition", .item k, .name "error"] (.text text)
  if s.usage ≥ double (9 / 10) then
    match p.ignores ignoreFilledPartitions dir with
    | none => [.throw regexError]
    -- it is marked as quite full even where it is ignored
    | some true => [error "partition used over 90% (ignore)"]
    | some false =>
        error "partition used over 90%" ::
          match p.ignores (diskIgnorePatterns lib p.server) dir with
          | none => [.throw regexError]
          | some true => []
          | some false => [p.closeToFull dir s s.fullPriority]
  else []

/-- The body of the loop over the mounts, `k` of which were partitions so
far. -/
def checkMount : Step Nat Mount (List PluginAction) := fun k m =>
  match m.stat with
  | none => (k, [])
  | some s =>
      -- entries without blocks are virtual drives
      if s.blocks ≠ 0 then (k + 1, recordPartition k m.dir s ++ p.checkFull lib k m.dir s)
      else (k, [])

/-- `on_process_watch` -/
def onProcessWatchDisk : List PluginAction :=
  (trace (p.checkMount lib) 0 p.mounts).flatMap Event.output

end DiskPass

/-! ## What is expected

A pattern of plain characters, with a `^` before them or not, has a meaning
without a regular expression library.  The documentation speaks of the names in
which a pattern is found, and `regex_match` asks for the whole name. -/

/-- The part of a pattern that is text. -/
def literalText (pattern : String) : List Char :=
  match pattern.toList with
  | '^' :: text => text
  | text => text

/-- The characters with a meaning of their own in a regular expression. -/
def regexSpecial : List Char :=
  ['^', '$', '\\', '.', '*', '+', '?', '(', ')', '[', ']', '{', '}', '|']

/-- Nothing but text, after a `^` or not. -/
def LiteralPattern (pattern : String) : Prop := ∀ c ∈ literalText pattern, c ∉ regexSpecial

/-- Text is a pattern, and `std::regex_match` succeeds when it is the whole
text. -/
def MatchesWhole (regex : Regex) : Prop :=
  ∀ pattern, LiteralPattern pattern → ∃ isMatch, regex pattern = some isMatch ∧
    ∀ text, isMatch text = true ↔ text.toList = literalText pattern

/-- The pattern is found in the name, at its start after a `^`. -/
def FoundIn (pattern dir : String) : Prop :=
  if pattern.toList.head? = some '^' then literalText pattern <+: dir.toList
  else literalText pattern <:+: dir.toList

/-- Some pattern is found in the name. -/
def FoundAmong (patterns : List String) (dir : String) : Prop :=
  ∃ pattern ∈ patterns, FoundIn pattern dir

/-- Some pattern is the whole name. -/
def WholeAmong (patterns : List String) (dir : String) : Prop :=
  ∃ pattern ∈ patterns, dir.toList = literalText pattern

namespace Statvfs

/-- The part of the blocks that is not available. -/
def exactUsage (s : Statvfs) : ℚ := 1 - (s.bavail : ℚ) / s.blocks

/-- The priority of the usage. -/
def duePriority (s : Statvfs) : Int :=
  if 999 / 1000 ≤ s.exactUsage then 100 else if 95 / 100 ≤ s.exactUsage then 80 else 55

end Statvfs

section Expected

variable (lib : Advgetopt) (p : DiskPass)

/-- The mount is to be reported. -/
structure FullPartition (dir : String) (s : Statvfs) : Prop where
  full : 9 / 10 ≤ s.exactUsage
  noSnap : ¬ "/snap/core/".toList <+: dir.toList
  noUser : ∀ pattern ∈ diskIgnorePatterns lib p.server, ¬ FoundIn pattern dir

/-- What is raised for a mount is what is to be reported. -/
structure MountReported (m : Mount) (actions : List PluginAction) : Prop where
  raised : ∀ s, m.stat = some s → s.blocks ≠ 0 →
    ((∃ a ∈ actions, a.isError = true) ↔ FullPartition lib p m.dir s)
  priority : ∀ s, m.stat = some s → s.blocks ≠ 0 → ∀ a ∈ actions, a.isError = true →
    a = p.closeToFull m.dir s s.duePriority

/-- So it is for each mount of the pass, which gets to its end. -/
structure DiskReported : Prop where
  completes : Completes (p.onProcessWatchDisk lib)
  mounts : ∀ e ∈ trace (p.checkMount lib) 0 p.mounts, MountReported lib p e.input e.output

end Expected

/-! ## The bounds in doubles

The percentage is computed in doubles.  For counts of up to 53 bits it compares
with the bounds as the exact usage does, and for others the condition says
which counts are compared rightly. -/

/-- What the available part is compared with, where the usage in doubles is
compared with 0.9, with 0.95 and with 0.999. -/
def ninetyBound : ℚ := 14411518807585591 / 2 ^ 57
def ninetyFiveBound : ℚ := 14411518807585617 / 2 ^ 58
def almostFullBound : ℚ := 9223372036855295 / 2 ^ 63

namespace Statvfs

/-- Rounding does not move the usage over one of the bounds: the rounded counts
are in the ratio to them that the exact ones are. -/
structure CountsKept (s : Statvfs) : Prop where
  ninety : double s.bavail / double s.blocks < ninetyBound ↔ 9 / 10 ≤ s.exactUsage
  ninetyFive : double s.bavail / double s.blocks ≤ ninetyFiveBound ↔ 95 / 100 ≤ s.exactUsage
  almostFull : double s.bavail / double s.blocks < almostFullBound ↔ 999 / 1000 ≤ s.exactUsage

end Statvfs

theorem double_ninety : double (9 / 10) = (8106479329266893 : ℤ) * 2 ^ (-53 : ℤ) :=
  double_eq (by norm_num) (by norm_num) (by norm_num) (by norm_num)

theorem double_ninetyFive : double (95 / 100) = (8556839292003942 : ℤ) * 2 ^ (-53 : ℤ) :=
  double_eq (by norm_num) (by norm_num) (by norm_num) (by norm_num)

theorem double_almostFull : double (999 / 1000) = (8998192055486251 : ℤ) * 2 ^ (-53 : ℤ) :=
  double_eq (by norm_num) (by norm_num) (by norm_num) (by norm_num)

section Bounds

variable {s : Statvfs}

/-- The usage reaches a number with 53 bits where what is available leaves
enough for half a bit less. -/
theorem le_usage_iff {k : ℤ} (hlow : 2 ^ 52 < k) (hhigh : k < 2 ^ 53) :
    (k : ℚ) * 2 ^ (-53 : ℤ) ≤ s.usage ↔
      if Even k then s.available ≤ 1 - (k - 1 / 2) * 2 ^ (-53 : ℤ)
      else s.available < 1 - (k - 1 / 2) * 2 ^ (-53 : ℤ) := by
  have hbit : (0 : ℚ) < 2 ^ (-53 : ℤ) := zpow_pos two_pos _
  rw [Statvfs.usage, le_double_iff hlow hhigh, Reaches]
  split
  · rw [le_div_iff₀ hbit, le_sub_comm]
  · rw [lt_div_iff₀ hbit, lt_sub_comm]

theorem le_usage_odd {k r e : ℤ} (hk : 2 ^ 52 < k ∧ k < 2 ^ 53) (hr : 2 ^ 52 < r ∧ r < 2 ^ 53)
    (hodd : ¬ Even k) (heven : Even r)
    (hrest : 1 - ((k : ℚ) - 1 / 2) * 2 ^ (-53 : ℤ) = r * 2 ^ e) :
    (k : ℚ) * 2 ^ (-53 : ℤ) ≤ s.usage ↔
      double s.bavail / double s.blocks < (r - 1 / 2) * 2 ^ e := by
  rw [le_usage_iff hk.1 hk.2, if_neg hodd, hrest, ← not_le, Statvfs.available,
    le_double_iff hr.1 hr.2, Reaches, if_pos heven, le_div_iff₀ (zpow_pos two_pos e), not_le]

theorem usage_ninety :
    s.usage ≥ double (9 / 10) ↔ double s.bavail / double s.blocks < ninetyBound := by
  have hbound : ((7205759403792796 : ℤ) - 1 / 2) * 2 ^ (-56 : ℤ) = ninetyBound := by
    norm_num [ninetyBound]
  rw [ge_iff_le, double_ninety, ← hbound]
  exact le_usage_odd (by norm_num) (by norm_num) (by decide) (by decide) (by norm_num)

theorem usage_ninetyFive :
    s.usage ≥ double (95 / 100) ↔ double s.bavail / double s.blocks ≤ ninetyFiveBound := by
  -- an even number: the available part may be the rest, and half a bit more in doubles
  have hrest : 1 - (((8556839292003942 : ℤ) : ℚ) - 1 / 2) * 2 ^ (-53 : ℤ) =
      (7205759403792808 : ℤ) * 2 ^ (-57 : ℤ) := by
    norm_num
  have hbound : (((7205759403792808 + 1 : ℤ) : ℚ) - 1 / 2) * 2 ^ (-57 : ℤ) = ninetyFiveBound := by
    norm_num [ninetyFiveBound]
  rw [ge_iff_le, double_ninetyFive, le_usage_iff (by norm_num) (by norm_num), if_pos (by decide),
    hrest, ← not_lt, Statvfs.available, lt_double_iff (by norm_num) (by norm_num), Reaches,
    if_neg (by decide), lt_div_iff₀ (zpow_pos two_pos _), not_lt, hbound]

theorem usage_almostFull :
    s.usage ≥ double (999 / 1000) ↔ double s.bavail / double s.blocks < almostFullBound := by
  have hbound : ((4611686018427648 : ℤ) - 1 / 2) * 2 ^ (-62 : ℤ) = almostFullBound := by
    norm_num [almostFullBound]
  rw [ge_iff_le, double_almostFull, ← hbound]
  exact le_usage_odd (by norm_num) (by norm_num) (by decide) (by decide) (by norm_num)

/-- With not too many blocks no ratio of them is between a part and a bound
that is just above it. -/
theorem share_bound (n : ℕ) (part bound : ℚ) (hblocks : s.blocks ≠ 0)
    (hsize : s.blocks ≤ 2 ^ 43) (hn : 0 < n) (hpart : part = 1 - 1 / n) (hlow : 1 / (n : ℚ) < bound)
    (hhigh : bound < 1 / (n : ℚ) + 1 / (n * 2 ^ 43)) :
    (part ≤ s.exactUsage → double s.bavail / double s.blocks < bound) ∧
      (s.exactUsage < part → bound < double s.bavail / double s.blocks) := by
  have hb : (0 : ℚ) < s.blocks := by exact_mod_cast Nat.pos_of_ne_zero hblocks
  have hn' : (1 : ℚ) ≤ n := by exact_mod_cast hn
  have hsize' : (s.blocks : ℚ) ≤ 2 ^ 43 := by exact_mod_cast hsize
  rw [Statvfs.exactUsage, hpart, sub_le_sub_iff_left, sub_lt_sub_iff_left,
    double_natCast (n := s.blocks) (hsize.trans (by norm_num))]
  rcases le_or_gt s.bavail (2 ^ 53) with ha | ha
  · rw [double_natCast ha]
    refine ⟨fun h => lt_of_le_of_lt h hlow, ?_⟩
    intro h
    -- the next ratio is one block away
    have hnext : (s.blocks : ℚ) + 1 ≤ n * s.bavail := by
      rw [div_lt_div_iff₀ (by linarith) hb, one_mul, mul_comm] at h
      exact_mod_cast h
    have hgap : 1 / ((n : ℚ) * 2 ^ 43) ≤ 1 / (n * s.blocks) :=
      one_div_le_one_div_of_le (by positivity) (mul_le_mul_of_nonneg_left hsize' (by linarith))
    calc bound < 1 / n + 1 / (n * 2 ^ 43) := hhigh
      _ ≤ 1 / n + 1 / (n * s.blocks) := by linarith
      _ = (s.blocks + 1) / (n * s.blocks) := by field_simp
      _ ≤ n * s.bavail / (n * s.blocks) := div_le_div_of_nonneg_right hnext (by positivity)
      _ = s.bavail / s.blocks := mul_div_mul_left _ _ (by linarith)
  · -- far more blocks are available than there are
    have ha' : (2 : ℚ) ^ 53 ≤ s.bavail := by exact_mod_cast ha.le
    have hrounded : (2 : ℚ) ^ 53 ≤ double s.bavail := le_double_of_le (e := 53) ha'
    have hshare : 1 / (n : ℚ) ≤ 1 := (div_le_one (by linarith)).mpr hn'
    have hgap : 1 / ((n : ℚ) * 2 ^ 43) ≤ 1 := (div_le_one (by positivity)).mpr (by linarith)
    refine ⟨?_, fun _ => ?_⟩
    · intro h
      have hmany : 1 < (s.bavail : ℚ) / s.blocks := (one_lt_div hb).mpr (by linarith)
      linarith
    · have hmany : 2 < double s.bavail / s.blocks := (lt_div_iff₀ hb).mpr (by linarith)
      linarith

/-- **Rounding makes no difference to a file system with up to 2^43 blocks.** -/
theorem countsKept_of_le (hblocks : s.blocks ≠ 0) (hsize : s.blocks ≤ 2 ^ 43) : s.CountsKept := by
  obtain ⟨hninety, hninety'⟩ := share_bound 10 (9 / 10) ninetyBound hblocks hsize (by norm_num)
    (by norm_num) (by norm_num [ninetyBound]) (by norm_num [ninetyBound])
  obtain ⟨hninetyFive, hninetyFive'⟩ := share_bound 20 (95 / 100) ninetyFiveBound hblocks
    hsize (by norm_num) (by norm_num) (by norm_num [ninetyFiveBound])
    (by norm_num [ninetyFiveBound])
  obtain ⟨halmostFull, halmostFull'⟩ := share_bound 1000 (999 / 1000) almostFullBound hblocks
    hsize (by norm_num) (by norm_num) (by norm_num [almostFullBound])
    (by norm_num [almostFullBound])
  constructor
  · refine ⟨?_, hninety⟩
    intro h
    exact le_of_not_gt fun h' => absurd (hninety' h') (not_lt_of_gt h)
  · refine ⟨?_, fun h => (hninetyFive h).le⟩
    intro h
    exact le_of_not_gt fun h' => absurd (hninetyFive' h') (not_lt_of_ge h)
  · refine ⟨?_, halmostFull⟩
    intro h
    exact le_of_not_gt fun h' => absurd (halmostFull' h') (not_lt_of_gt h)

theorem priority_choice {P Q P' Q' : Prop} [Decidable P] [Decidable Q] [Decidable P']
    [Decidable Q'] (h : P → Q) (h' : P' → Q') :
    (if P then (100 : Int) else if Q then 80 else 55) =
        (if P' then 100 else if Q' then 80 else 55) ↔ (Q ↔ Q') ∧ (P ↔ P') := by
  by_cases hP : P <;> by_cases hP' : P' <;> by_cases hQ : Q <;> by_cases hQ' : Q' <;>
    simp_all

theorem fullPriority_eq_iff :
    s.fullPriority = s.duePriority ↔
      (double s.bavail / double s.blocks ≤ ninetyFiveBound ↔ 95 / 100 ≤ s.exactUsage) ∧
        (double s.bavail / double s.blocks < almostFullBound ↔ 999 / 1000 ≤ s.exactUsage) := by
  have hbounds : almostFullBound < ninetyFiveBound := by
    norm_num [almostFullBound, ninetyFiveBound]
  simp only [Statvfs.fullPriority, Statvfs.duePriority, usage_ninetyFive, usage_almostFull]
  exact priority_choice (fun h => (h.trans hbounds).le) (fun h => le_trans (by norm_num) h)

/-- The counts are kept where the two usages agree on what is full, and on the
priority of what is. -/
theorem countsKept_iff :
    s.CountsKept ↔
      (double s.bavail / double s.blocks < ninetyBound ↔ 9 / 10 ≤ s.exactUsage) ∧
        (double s.bavail / double s.blocks < ninetyBound → s.fullPriority = s.duePriority) := by
  have hbounds : ninetyFiveBound < ninetyBound ∧ almostFullBound < ninetyBound := by
    norm_num [almostFullBound, ninetyFiveBound, ninetyBound]
  rw [fullPriority_eq_iff]
  constructor
  · intro h
    exact ⟨h.ninety, fun _ => ⟨h.ninetyFive, h.almostFull⟩⟩
  · rintro ⟨hninety, hpriority⟩
    rcases em (double s.bavail / double s.blocks < ninetyBound) with hfull | hfull
    · exact ⟨hninety, (hpriority hfull).1, (hpriority hfull).2⟩
    · -- below 90% it is below the other bounds
      have hexact : s.exactUsage < 9 / 10 := lt_of_not_ge (mt hninety.mpr hfull)
      refine ⟨hninety, iff_of_false ?_ ?_, iff_of_false ?_ ?_⟩
      · exact fun h => hfull (lt_of_le_of_lt h hbounds.1)
      · exact fun h => absurd (hexact.trans_le (by norm_num)) (not_lt_of_ge h)
      · exact fun h => hfull (h.trans hbounds.2)
      · exact fun h => absurd (hexact.trans_le (by norm_num)) (not_lt_of_ge h)

end Bounds

/-! ## The patterns -/

section Patterns

variable {lib : Advgetopt} {p : DiskPass}

theorem literalText_builtin : literalText "^/snap/core/" = "/snap/core/".toList := by decide

theorem literalPattern_of_all {pattern : String}
    (h : ((literalText pattern).all fun c => !regexSpecial.contains c) = true) :
    LiteralPattern pattern := by
  intro c hc hspecial
  have hnot := List.all_eq_true.mp h c hc
  rw [List.contains_iff_mem.mpr hspecial] at hnot
  cases hnot

theorem literal_builtin : ∀ pattern ∈ ignoreFilledPartitions, LiteralPattern pattern :=
  List.forall_mem_singleton.mpr (literalPattern_of_all (by decide))

theorem ignores_literal (hregex : MatchesWhole p.regex) {patterns : List String}
    (hliteral : ∀ pattern ∈ patterns, LiteralPattern pattern) (dir : String) :
    ∃ ignored, p.ignores patterns dir = some ignored ∧
      (ignored = true ↔ WholeAmong patterns dir) := by
  induction patterns with
  | nil => exact ⟨false, rfl, by simp [WholeAmong]⟩
  | cons pattern patterns ih =>
      obtain ⟨hpattern, hrest⟩ := List.forall_mem_cons.mp hliteral
      obtain ⟨isMatch, hsome, hmatch⟩ := hregex pattern hpattern
      obtain ⟨ignored, hignored, hwhole⟩ := ih hrest
      rw [WholeAmong, List.exists_mem_cons_iff, ← hmatch, DiskPass.ignores, hsome]
      by_cases hdir : isMatch dir = true
      · exact ⟨true, if_pos hdir, iff_of_true rfl (Or.inl hdir)⟩
      · exact ⟨ignored, (if_neg hdir).trans hignored, hwhole.trans (or_iff_right hdir).symm⟩

theorem WholeAmong.found {patterns : List String} {dir : String} (h : WholeAmong patterns dir) :
    FoundAmong patterns dir := by
  obtain ⟨pattern, hpattern, hwhole⟩ := h
  refine ⟨pattern, hpattern, ?_⟩
  rw [FoundIn, hwhole]
  split
  · exact List.prefix_rfl
  · exact List.infix_rfl

theorem wholeAmong_append {patterns patterns' : List String} {dir : String} :
    WholeAmong (patterns ++ patterns') dir ↔
      WholeAmong patterns dir ∨ WholeAmong patterns' dir := by
  simp only [WholeAmong, List.mem_append, or_and_right, exists_or]

theorem foundAmong_append {patterns patterns' : List String} {dir : String} :
    FoundAmong (patterns ++ patterns') dir ↔
      FoundAmong patterns dir ∨ FoundAmong patterns' dir := by
  simp only [FoundAmong, List.mem_append, or_and_right, exists_or]

theorem foundIn_builtin {dir : String} :
    FoundAmong ignoreFilledPartitions dir ↔ "/snap/core/".toList <+: dir.toList := by
  have hhead : "^/snap/core/".toList.head? = some '^' := by decide
  simp only [FoundAmong, ignoreFilledPartitions, List.mem_singleton, exists_eq_left]
  rw [FoundIn, if_pos hhead, literalText_builtin]

end Patterns

/-! ## The end of a pass

A pattern that is no regular expression throws when the plugin comes to it.  It
does for a full partition none of the patterns before matches.
-/

/-- The built-in patterns and those of the user. -/
def allPatterns (lib : Advgetopt) (p : DiskPass) : List String :=
  ignoreFilledPartitions ++ diskIgnorePatterns lib p.server

/-- Each pattern that is none comes after one that matches. -/
def DiskPass.Decided (p : DiskPass) (patterns : List String) (dir : String) : Prop :=
  ∀ before pattern after, patterns = before ++ pattern :: after → p.regex pattern = none →
    ∃ q ∈ before, p.regex.Matches q dir

/-- So it is for a mount, if it is a full partition. -/
def MountDecided (lib : Advgetopt) (p : DiskPass) (m : Mount) : Prop :=
  ∀ s, m.stat = some s → s.blocks ≠ 0 → s.usage ≥ double (9 / 10) →
    p.Decided (allPatterns lib p) m.dir

section End

variable {lib : Advgetopt} {p : DiskPass}

theorem decided_nil (dir : String) : p.Decided [] dir := by
  intro before pattern after hsplit
  exact absurd hsplit.symm (List.append_ne_nil_of_right_ne_nil _ (List.cons_ne_nil _ _))

theorem decided_cons {q : String} {patterns : List String} {dir : String} :
    p.Decided (q :: patterns) dir ↔
      (p.regex q).isSome = true ∧ (¬ p.regex.Matches q dir → p.Decided patterns dir) := by
  constructor
  · intro h
    refine ⟨?_, ?_⟩
    · by_contra hnone
      obtain ⟨r, hr, -⟩ := h [] q patterns rfl (Option.not_isSome_iff_eq_none.mp hnone)
      exact absurd hr List.not_mem_nil
    · intro hq before pattern after hsplit hnone
      obtain ⟨r, hr, hmatch⟩ := h (q :: before) pattern after (by rw [hsplit]; rfl) hnone
      rcases List.mem_cons.mp hr with rfl | hr
      · exact absurd hmatch hq
      · exact ⟨r, hr, hmatch⟩
  · rintro ⟨hsome, hrest⟩ before pattern after hsplit hnone
    rcases List.cons_eq_append_iff.mp hsplit with ⟨rfl, hhead⟩ | ⟨before', rfl, hsplit'⟩
    · cases hhead
      exact absurd hnone (Option.isSome_iff_ne_none.mp hsome)
    · by_cases hq : p.regex.Matches q dir
      · exact ⟨q, List.mem_cons_self, hq⟩
      · obtain ⟨r, hr, hmatch⟩ := hrest hq before' pattern after hsplit' hnone
        exact ⟨r, List.mem_cons_of_mem _ hr, hmatch⟩

theorem ignores_isSome {patterns : List String} {dir : String} :
    (p.ignores patterns dir).isSome = true ↔ p.Decided patterns dir := by
  induction patterns with
  | nil => exact iff_of_true rfl (decided_nil dir)
  | cons q patterns ih =>
      rw [DiskPass.ignores, decided_cons, ← ih]
      cases hq : p.regex q with
      | none => exact iff_of_false Bool.false_ne_true fun h => Bool.false_ne_true h.1
      | some isMatch =>
          have hmatches : p.regex.Matches q dir ↔ isMatch dir = true := by
            simp [Regex.Matches, hq]
          rw [hmatches]
          by_cases hdir : isMatch dir = true
          · simp [hdir]
          · simp [hdir]

theorem ignores_append (patterns patterns' : List String) (dir : String) :
    p.ignores (patterns ++ patterns') dir = (p.ignores patterns dir).bind fun ignored =>
      if ignored then some true else p.ignores patterns' dir := by
  induction patterns with
  | nil => rfl
  | cons pattern patterns ih =>
      rw [List.cons_append, DiskPass.ignores, DiskPass.ignores]
      cases p.regex pattern with
      | none => rfl
      | some isMatch =>
          dsimp only
          split
          · rfl
          · exact ih

theorem fullPriority_range (s : Statvfs) : 0 ≤ s.fullPriority ∧ s.fullPriority ≤ 100 := by
  simp only [Statvfs.fullPriority]
  split_ifs <;> decide

theorem recordPartition_accepted (k : Nat) (dir : String) (s : Statvfs) :
    Completes (DiskPass.recordPartition k dir s) := by
  intro a ha
  simp only [DiskPass.recordPartition, List.mem_cons, List.not_mem_nil, or_false] at ha
  rcases ha with rfl | rfl | rfl | rfl | rfl | rfl | rfl | rfl <;> trivial

theorem checkFull_completes (k : Nat) (dir : String) (s : Statvfs) :
    Completes (p.checkFull lib k dir s) ↔
      (s.usage ≥ double (9 / 10) → p.Decided (allPatterns lib p) dir) := by
  rw [← ignores_isSome, allPatterns, ignores_append, DiskPass.checkFull]
  dsimp only
  split
  · next hfull =>
      rw [forall_prop_of_true hfull]
      cases p.ignores ignoreFilledPartitions dir with
      | none =>
          refine iff_of_false ?_ Bool.false_ne_true
          exact fun h => h _ List.mem_cons_self
      | some snap =>
          cases snap with
          | true => exact iff_of_true (List.forall_mem_singleton.mpr trivial) rfl
          | false =>
              simp only [Option.bind_some, Bool.false_eq_true, if_false]
              cases p.ignores (diskIgnorePatterns lib p.server) dir with
              | none =>
                  refine iff_of_false ?_ Bool.false_ne_true
                  exact fun h => h _ (List.mem_cons_of_mem _ List.mem_cons_self)
              | some user =>
                  refine iff_of_true ?_ rfl
                  cases user with
                  | true => exact List.forall_mem_singleton.mpr trivial
                  | false =>
                      exact List.forall_mem_cons.mpr
                        ⟨trivial, List.forall_mem_singleton.mpr (fullPriority_range s)⟩
  · next hfull => exact iff_of_true (List.forall_mem_nil _) fun h => absurd h hfull

theorem checkMount_completes (k : Nat) (m : Mount) :
    Completes (p.checkMount lib k m).2 ↔ MountDecided lib p m := by
  rw [DiskPass.checkMount, MountDecided]
  cases hstat : m.stat with
  | none => exact iff_of_true (List.forall_mem_nil _) fun _ h => by cases h
  | some s =>
      dsimp only
      split
      · next hblocks =>
          simp only [Option.some.injEq, forall_eq']
          rw [forall_prop_of_true hblocks, ← checkFull_completes k m.dir s]
          exact List.forall_mem_append.trans
            (and_iff_right (recordPartition_accepted k m.dir s))
      · next hblocks =>
          refine iff_of_true (List.forall_mem_nil _) ?_
          rintro _ ⟨⟩ hblocks'
          exact absurd hblocks' hblocks

/-- **A pass gets to its end exactly if for no full partition it comes to a
pattern that throws.** -/
theorem onProcessWatchDisk_completes (lib : Advgetopt) (p : DiskPass) :
    Completes (p.onProcessWatchDisk lib) ↔ ∀ m ∈ p.mounts, MountDecided lib p m := by
  have htrace := trace_forall_iff (m := p.checkMount lib) (I := fun _ => True)
    (P := fun e => Completes e.output) (Q := fun e => MountDecided lib p e.input)
    (fun k m _ => checkMount_completes k m) (fun _ _ _ _ => trivial) (s := 0) trivial p.mounts
  rw [← List.forall_mem_map (f := Event.input) (P := MountDecided lib p), trace_inputs] at htrace
  exact List.forall_mem_flatMap.trans htrace

theorem decided_literal (hregex : MatchesWhole p.regex) {patterns : List String}
    (hliteral : ∀ pattern ∈ patterns, LiteralPattern pattern) (dir : String) :
    p.Decided patterns dir := by
  rintro before pattern after rfl hnone
  obtain ⟨isMatch, hsome, -⟩ :=
    hregex pattern (hliteral pattern (List.mem_append_right _ List.mem_cons_self))
  cases hnone.symm.trans hsome

end End

/-! ## A mount

A full partition is reported as it should be exactly if its counts are compared
rightly and no pattern is found in its name without being all of it. -/

/-- The condition on a mount: where some pattern is found in its directory, the
mount is not full or a pattern is the whole name, and where none is, rounding
keeps its counts. -/
structure MountFine (lib : Advgetopt) (p : DiskPass) (m : Mount) : Prop where
  ignored : ∀ s, m.stat = some s → s.blocks ≠ 0 → FoundAmong (allPatterns lib p) m.dir →
    ¬ double s.bavail / double s.blocks < ninetyBound ∨ WholeAmong (allPatterns lib p) m.dir
  kept : ∀ s, m.stat = some s → s.blocks ≠ 0 → ¬ FoundAmong (allPatterns lib p) m.dir →
    s.CountsKept

section Mount

variable {lib : Advgetopt} {p : DiskPass}

theorem fullPartition_iff {dir : String} {s : Statvfs} :
    FullPartition lib p dir s ↔
      9 / 10 ≤ s.exactUsage ∧ ¬ FoundAmong (allPatterns lib p) dir := by
  rw [allPatterns, foundAmong_append, foundIn_builtin, not_or]
  constructor
  · intro h
    refine ⟨h.full, h.noSnap, ?_⟩
    rintro ⟨pattern, hpattern, hfound⟩
    exact h.noUser pattern hpattern hfound
  · rintro ⟨hfull, hsnap, huser⟩
    exact ⟨hfull, hsnap, fun pattern hpattern hfound => huser ⟨pattern, hpattern, hfound⟩⟩

theorem checkMount_error (hregex : MatchesWhole p.regex)
    (hliteral : ∀ pattern ∈ diskIgnorePatterns lib p.server, LiteralPattern pattern) {m : Mount}
    {s : Statvfs} (hs : m.stat = some s) (hblocks : s.blocks ≠ 0) (k : Nat) (a : PluginAction) :
    (a ∈ (p.checkMount lib k m).2 ∧ a.isError = true) ↔
      (double s.bavail / double s.blocks < ninetyBound ∧
        ¬ WholeAmong (allPatterns lib p) m.dir) ∧ a = p.closeToFull m.dir s s.fullPriority := by
  obtain ⟨snap, hsnap, hsnapWhole⟩ := ignores_literal hregex literal_builtin m.dir
  obtain ⟨user, huser, huserWhole⟩ := ignores_literal hregex hliteral m.dir
  have hall : WholeAmong (allPatterns lib p) m.dir ↔ snap = true ∨ user = true := by
    rw [allPatterns, wholeAmong_append, hsnapWhole, huserWhole]
  have hrecord : ∀ a ∈ DiskPass.recordPartition k m.dir s, a.isError = false := by
    intro a ha
    simp only [DiskPass.recordPartition, List.mem_cons, List.not_mem_nil, or_false] at ha
    rcases ha with rfl | rfl | rfl | rfl | rfl | rfl | rfl | rfl <;> rfl
  have hactions : (p.checkMount lib k m).2 =
      DiskPass.recordPartition k m.dir s ++ p.checkFull lib k m.dir s := by
    simp only [DiskPass.checkMount, hs, if_pos hblocks]
  have hrecorded : (a ∈ DiskPass.recordPartition k m.dir s ++ p.checkFull lib k m.dir s ∧
      a.isError = true) ↔ a ∈ p.checkFull lib k m.dir s ∧ a.isError = true := by
    rw [List.mem_append]
    refine and_congr_left ?_
    intro herror
    exact or_iff_right fun hmem => Bool.false_ne_true ((hrecord a hmem).symm.trans herror)
  rw [hall, hactions, hrecorded, ← usage_ninety, not_or, DiskPass.checkFull]
  dsimp only
  rw [hsnap, huser]
  split
  · next hfull =>
      cases snap with
      | true =>
          refine iff_of_false ?_ (fun h => h.1.2.1 rfl)
          rintro ⟨hmem, herror⟩
          rw [List.mem_singleton.mp hmem] at herror
          cases herror
      | false =>
          cases user with
          | true =>
              refine iff_of_false ?_ (fun h => h.1.2.2 rfl)
              rintro ⟨hmem, herror⟩
              rw [List.mem_singleton.mp hmem] at herror
              cases herror
          | false =>
              constructor
              · rintro ⟨hmem, herror⟩
                rcases List.mem_cons.mp hmem with rfl | hmem
                · cases herror
                · exact ⟨⟨hfull, Bool.false_ne_true, Bool.false_ne_true⟩,
                    List.mem_singleton.mp hmem⟩
              · rintro ⟨-, rfl⟩
                exact ⟨List.mem_cons_of_mem _ List.mem_cons_self, rfl⟩
  · next hfull => exact iff_of_false (fun h => absurd h.1 List.not_mem_nil) (fun h => hfull h.1.1)

theorem mountReported_cases (hregex : MatchesWhole p.regex)
    (hliteral : ∀ pattern ∈ diskIgnorePatterns lib p.server, LiteralPattern pattern) (m : Mount)
    (k : Nat) :
    MountReported lib p m (p.checkMount lib k m).2 ↔
      ∀ s, m.stat = some s → s.blocks ≠ 0 →
        (double s.bavail / double s.blocks < ninetyBound ∧
            ¬ WholeAmong (allPatterns lib p) m.dir ↔
          9 / 10 ≤ s.exactUsage ∧ ¬ FoundAmong (allPatterns lib p) m.dir) ∧
        (double s.bavail / double s.blocks < ninetyBound ∧
            ¬ WholeAmong (allPatterns lib p) m.dir → s.fullPriority = s.duePriority) := by
  have hraised : ∀ s, m.stat = some s → s.blocks ≠ 0 →
      ((∃ a ∈ (p.checkMount lib k m).2, a.isError = true) ↔
        double s.bavail / double s.blocks < ninetyBound ∧
          ¬ WholeAmong (allPatterns lib p) m.dir) := by
    intro s hs hblocks
    simp only [checkMount_error hregex hliteral hs hblocks, exists_and_left, exists_eq, and_true]
  constructor
  · intro h s hs hblocks
    refine ⟨?_, ?_⟩
    · rw [← hraised s hs hblocks, h.raised s hs hblocks, fullPartition_iff]
    · intro herror
      have hmem := (checkMount_error hregex hliteral hs hblocks k _).mpr ⟨herror, rfl⟩
      exact (PluginAction.appendError.inj (h.priority s hs hblocks _ hmem.1 hmem.2)).2.2.2
  · intro h
    constructor
    · intro s hs hblocks
      rw [hraised s hs hblocks, fullPartition_iff]
      exact (h s hs hblocks).1
    · intro s hs hblocks a ha herror
      obtain ⟨hfull, rfl⟩ := (checkMount_error hregex hliteral hs hblocks k a).mp ⟨ha, herror⟩
      rw [(h s hs hblocks).2 hfull]

theorem mountReported_iff (hregex : MatchesWhole p.regex)
    (hliteral : ∀ pattern ∈ diskIgnorePatterns lib p.server, LiteralPattern pattern) (m : Mount)
    (k : Nat) : MountReported lib p m (p.checkMount lib k m).2 ↔ MountFine lib p m := by
  rw [mountReported_cases hregex hliteral]
  constructor
  · intro h
    constructor
    · intro s hs hblocks hfound
      refine or_iff_not_imp_right.mpr ?_
      intro hwhole hfull
      exact ((h s hs hblocks).1.mp ⟨hfull, hwhole⟩).2 hfound
    · intro s hs hblocks hnone
      obtain ⟨herror, hpriority⟩ := h s hs hblocks
      have hwhole : ¬ WholeAmong (allPatterns lib p) m.dir := fun hwhole => hnone hwhole.found
      refine countsKept_iff.mpr ⟨?_, fun hfull => hpriority ⟨hfull, hwhole⟩⟩
      rw [and_iff_left hwhole, and_iff_left hnone] at herror
      exact herror
  · intro h s hs hblocks
    rcases em (FoundAmong (allPatterns lib p) m.dir) with hfound | hnone
    · have hquiet := h.ignored s hs hblocks hfound
      have hno : ¬ (double s.bavail / double s.blocks < ninetyBound ∧
          ¬ WholeAmong (allPatterns lib p) m.dir) := by
        rintro ⟨hfull, hwhole⟩
        exact hquiet.elim (fun h' => h' hfull) hwhole
      exact ⟨iff_of_false hno fun h' => h'.2 hfound, fun herror => absurd herror hno⟩
    · obtain ⟨hfull, hpriority⟩ := countsKept_iff.mp (h.kept s hs hblocks hnone)
      refine ⟨?_, fun herror => hpriority herror.1⟩
      rw [and_iff_left hnone, and_iff_left fun hwhole => hnone (WholeAmong.found hwhole)]
      exact hfull

end Mount

/-- **Every mount of a pass is reported as it should be exactly if, for each of
them, the patterns that are found in its directory include its whole name or it
is not full, and rounding keeps its counts where none is found.** -/
theorem diskErrors_iff (lib : Advgetopt) (p : DiskPass) (hregex : MatchesWhole p.regex)
    (hliteral : ∀ pattern ∈ diskIgnorePatterns lib p.server, LiteralPattern pattern) :
    DiskReported lib p ↔ ∀ m ∈ p.mounts, MountFine lib p m := by
  have htrace := trace_forall_iff (m := p.checkMount lib) (I := fun _ => True)
    (P := fun e => MountReported lib p e.input e.output) (Q := fun e => MountFine lib p e.input)
    (fun k m _ => mountReported_iff hregex hliteral m k) (fun _ _ _ _ => trivial)
    (s := 0) trivial p.mounts
  rw [← List.forall_mem_map (f := Event.input) (P := MountFine lib p), trace_inputs] at htrace
  refine ⟨fun h => htrace.mp h.mounts, fun h => ⟨?_, htrace.mpr h⟩⟩
  refine (onProcessWatchDisk_completes lib p).mpr fun m _ _ _ _ _ => ?_
  exact decided_literal hregex
    (List.forall_mem_append.mpr ⟨literal_builtin, hliteral⟩) m.dir

/-- What a pass does about its mounts. -/
theorem mem_onProcessWatchDisk {lib : Advgetopt} {p : DiskPass} {a : PluginAction} :
    a ∈ p.onProcessWatchDisk lib ↔
      ∃ e ∈ trace (p.checkMount lib) 0 p.mounts, a ∈ e.output := by
  rw [DiskPass.onProcessWatchDisk, List.mem_flatMap]

theorem partition_of_error {lib : Advgetopt} {p : DiskPass} {k : Nat} {m : Mount}
    {a : PluginAction} (h : a ∈ (p.checkMount lib k m).2) :
    ∃ s, m.stat = some s ∧ s.blocks ≠ 0 := by
  rw [DiskPass.checkMount] at h
  cases hstat : m.stat with
  | none =>
      rw [hstat] at h
      exact absurd h List.not_mem_nil
  | some s =>
      refine ⟨s, rfl, ?_⟩
      intro hvirtual
      simp only [hstat, if_neg (not_not_intro hvirtual)] at h
      exact absurd h List.not_mem_nil

/-- **On the condition a pass raises the errors of its full partitions and no
others.** -/
theorem onProcessWatchDisk_errors {lib : Advgetopt} {p : DiskPass} (h : DiskReported lib p)
    (a : PluginAction) :
    (a ∈ p.onProcessWatchDisk lib ∧ a.isError = true) ↔
      ∃ m ∈ p.mounts, ∃ s, m.stat = some s ∧ s.blocks ≠ 0 ∧ FullPartition lib p m.dir s ∧
        a = p.closeToFull m.dir s s.duePriority := by
  have hinputs := trace_inputs (m := p.checkMount lib) 0 p.mounts
  constructor
  · rintro ⟨hmem, herror⟩
    obtain ⟨e, he, ha⟩ := mem_onProcessWatchDisk.mp hmem
    have hinput : e.input ∈ p.mounts := hinputs ▸ List.mem_map_of_mem he
    have hpartition : ∃ s, e.input.stat = some s ∧ s.blocks ≠ 0 := by
      refine trace_forall (I := fun _ => True) (A := fun _ => True)
        (P := fun e => ∀ a ∈ e.output, ∃ s, e.input.stat = some s ∧ s.blocks ≠ 0)
        ?_ trivial (fun _ _ => trivial) e he a ha
      exact fun k m _ _ => ⟨trivial, fun a ha => partition_of_error ha⟩
    obtain ⟨s, hs, hblocks⟩ := hpartition
    have hreported := h.mounts e he
    refine ⟨e.input, hinput, s, hs, hblocks, ?_, hreported.priority s hs hblocks a ha herror⟩
    exact (hreported.raised s hs hblocks).mp ⟨a, ha, herror⟩
  · rintro ⟨m, hm, s, hs, hblocks, hfull, rfl⟩
    obtain ⟨e, he, rfl⟩ := List.mem_map.mp (hinputs.symm ▸ hm)
    have hreported := h.mounts e he
    obtain ⟨a, ha, herror⟩ := (hreported.raised s hs hblocks).mpr hfull
    rw [← hreported.priority s hs hblocks a ha herror]
    exact ⟨mem_onProcessWatchDisk.mpr ⟨e, he, ha⟩, herror⟩

/-- A pass with some patterns of the user, whose texts are matched as they
are. -/
def diskPass (ignore : String) (mounts : List Mount) : DiskPass where
  server := .create ⟨fun _ => true, fun _ => ignore⟩
  mounts := mounts
  hostname := "host"
  percentText _ := "95.000000"
  regex pattern := some fun text => text.toList = literalText pattern

theorem diskPass_matchesWhole (ignore : String) (mounts : List Mount) :
    MatchesWhole (diskPass ignore mounts).regex :=
  fun _ _ => ⟨_, rfl, fun _ => decide_eq_true_iff⟩

/-- A file system of 100 blocks. -/
def smallStatvfs (bavail : Nat) : Statvfs := ⟨100, 4096, bavail, bavail, 10, 10, 0⟩

theorem smallStatvfs_kept (bavail : Nat) : (smallStatvfs bavail).CountsKept :=
  countsKept_of_le (show 100 ≠ 0 by decide) (show 100 ≤ 2 ^ 43 by decide)

/-- A root which is used at 95%, and a full partition whose name is a pattern
of the user. -/
def homePass : DiskPass :=
  diskPass "/home" [⟨"/", some (smallStatvfs 5)⟩, ⟨"/home", some (smallStatvfs 0)⟩]

theorem homePass_patterns : diskIgnorePatterns .decimal homePass.server = ["/home"] := by decide

theorem homePass_decided : ∀ m ∈ homePass.mounts, MountDecided .decimal homePass m := by
  have hliteral : ∀ pattern ∈ allPatterns .decimal homePass, LiteralPattern pattern := by
    rw [allPatterns, homePass_patterns]
    exact List.forall_mem_append.mpr
      ⟨literal_builtin, List.forall_mem_singleton.mpr (literalPattern_of_all (by decide))⟩
  exact fun m _ _ _ _ _ => decided_literal (diskPass_matchesWhole _ _) hliteral m.dir

theorem diskErrors_home : DiskReported .decimal homePass := by
  refine (diskErrors_iff .decimal homePass (diskPass_matchesWhole _ _) ?_).mpr ?_
  · rw [homePass_patterns]
    exact List.forall_mem_singleton.mpr (literalPattern_of_all (by decide))
  · refine List.forall_mem_cons.mpr ⟨⟨?_, ?_⟩, List.forall_mem_singleton.mpr ⟨?_, ?_⟩⟩
    · intro s _ _ hfound
      rw [allPatterns, foundAmong_append, foundIn_builtin, homePass_patterns] at hfound
      rcases hfound with hsnap | ⟨pattern, hpattern, hhome⟩
      · exact absurd hsnap (by decide)
      · obtain rfl := List.mem_singleton.mp hpattern
        have hhead : "/home".toList.head? ≠ some '^' := by decide
        rw [FoundIn, if_neg hhead] at hhome
        exact absurd hhome (by decide)
    · intro s hs _ _
      exact Option.some.inj hs ▸ smallStatvfs_kept 5
    · intro s _ _ _
      refine Or.inr ⟨"/home", ?_, by decide⟩
      rw [allPatterns, homePass_patterns]
      exact List.mem_append_right _ List.mem_cons_self
    · intro s hs _ _
      exact Option.some.inj hs ▸ smallStatvfs_kept 0

/-- A full partition below `/snap/core/`. -/
def snapPass : DiskPass := diskPass "" [⟨"/snap/core/123", some (smallStatvfs 0)⟩]

/-- A partition with so many blocks that one of them is lost in rounding. -/
def hugeStatvfs : Statvfs := ⟨10 ^ 19, 4096, 10 ^ 18 + 1, 10 ^ 18 + 1, 10, 10, 0⟩

def hugePass : DiskPass := diskPass "" [⟨"/", some hugeStatvfs⟩]

/-- A tenth of the blocks and one more are available, a tenth in doubles. -/
theorem hugeStatvfs_not_kept : ¬ hugeStatvfs.CountsKept := by
  intro h
  have hbavail : double hugeStatvfs.bavail = (7812500000000000 : ℤ) * 2 ^ (7 : ℤ) := by
    refine double_eq ?_ ?_ ?_ ?_ <;> norm_num [hugeStatvfs]
  have hblocks : double hugeStatvfs.blocks = (4882812500000000 : ℤ) * 2 ^ (11 : ℤ) := by
    refine double_eq ?_ ?_ ?_ ?_ <;> norm_num [hugeStatvfs]
  have hfull : double hugeStatvfs.bavail / double hugeStatvfs.blocks < ninetyBound := by
    rw [hbavail, hblocks]
    norm_num [ninetyBound]
  have hexact := h.ninety.mp hfull
  norm_num [Statvfs.exactUsage, hugeStatvfs] at hexact

/-- Without patterns of the user the built-in one is left. -/
theorem diskPass_allPatterns (mounts : List Mount) :
    diskIgnorePatterns .decimal (diskPass "" mounts).server = [] ∧
      allPatterns .decimal (diskPass "" mounts) = ["^/snap/core/"] := by
  have hnone : diskIgnorePatterns .decimal (diskPass "" mounts).server = [] :=
    show diskIgnorePatterns .decimal (.create ⟨fun _ => true, fun _ => ""⟩) = [] by decide
  refine ⟨hnone, ?_⟩
  rw [allPatterns, hnone]
  rfl

theorem diskPass_fine {m : Mount} (h : DiskReported .decimal (diskPass "" [m])) :
    MountFine .decimal (diskPass "" [m]) m := by
  refine (mountReported_iff (diskPass_matchesWhole "" [m]) ?_ m 0).mp
    (h.mounts _ List.mem_cons_self)
  rw [(diskPass_allPatterns [m]).1]
  exact List.forall_mem_nil _

/-- The one is reported although the built-in pattern is found in its directory,
and the other although it is not used at 90%. -/
theorem diskErrors_snap :
    ¬ DiskReported .decimal snapPass ∧ ¬ DiskReported .decimal hugePass := by
  refine ⟨?_, ?_⟩
  · intro h
    have hfine := diskPass_fine h
    have hfound : FoundAmong (allPatterns .decimal snapPass) "/snap/core/123" := by
      rw [allPatterns, foundAmong_append, foundIn_builtin]
      exact Or.inl (by decide)
    rcases hfine.ignored _ rfl (show 100 ≠ 0 by decide) hfound with hfull | ⟨pattern, hmem, hwhole⟩
    · refine hfull ?_
      have hzero : ((smallStatvfs 0).bavail : ℚ) = 0 := rfl
      rw [hzero, double_zero, zero_div]
      norm_num [ninetyBound]
    · rw [(diskPass_allPatterns _).2] at hmem
      rw [List.mem_singleton.mp hmem, literalText_builtin] at hwhole
      exact absurd hwhole (by decide)
  · intro h
    have hfine := diskPass_fine h
    refine hugeStatvfs_not_kept (hfine.kept _ rfl (show 10 ^ 19 ≠ 0 by decide) ?_)
    rintro ⟨pattern, hmem, hfound⟩
    rw [(diskPass_allPatterns _).2] at hmem
    have hsnap : "/snap/core/".toList <+: "/".toList :=
      foundIn_builtin.mp ⟨pattern, hmem, hfound⟩
    exact absurd hsnap (by decide)

end Sitter
