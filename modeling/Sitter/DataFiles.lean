/-
# `Sitter.DataFiles` — the files the statistics are saved in

A pass that starts at `start` saves its results in

    data_path/date.json      date = ((start / 60) * 60) % statistics_period

The period is a whole number of hours, at least one: what the option says is
clamped from below and rounded up.  So the files are the slots of a ring of
minutes (`Base.Slots`): a file is used again after one period, not before, and
there are as many files as the period has minutes (`statisticsSlots`).

The division and the remainder are those of C++, which round towards zero; for
a time of the clock that is no different.
-/
import Sitter.Base.Slots
import Sitter.RunPlugins
import Sitter.Statistics

namespace Sitter

open Machine Slots

/-! ## Names -/

/-- The number in the name of a data file. -/
def dataDate (period startDate : Int) : Int := (startDate.tdiv 60 * 60).tmod period

namespace Server

/-- What `get_statistics_period` returns. -/
def period (lib : Advgetopt) (s : Server) : Int := (s.getStatisticsPeriod lib).1

/-- The seconds that `statistics_period` asks for, rounded up: a week where it is
no duration or a negative one, and an hour at least. -/
def clampedPeriod (lib : Advgetopt) (s : Server) : Int :=
  max 3600
    (match lib.duration (s.opts.getString "statistics_period") with
    | none => 604800
    | some duration => if duration.ceil < 0 then 604800 else duration.ceil)

/-- The data file of a pass that starts at `startDate`, if there is one. -/
def dataFileName (lib : Advgetopt) (s : Server) (startDate : Int) : Option String :=
  (s.saveData lib startDate "").1.map Prod.fst

end Server

section Names

variable {lib : Advgetopt} {s : Server} {a b : Int}

/-- The name depends on the date, the text on the pass. -/
theorem saveData_eq (lib : Advgetopt) (s : Server) (startDate : Int) (json : String) :
    (s.saveData lib startDate json).1 =
      if s.getServerParameter "data_path" = "" then none
      else some (s.getServerParameter "data_path" ++ "/"
        ++ toString (dataDate (s.period lib) startDate) ++ ".json", json) := by
  simp only [Server.saveData, Server.period, dataDate]
  split <;> rfl

theorem dataDate_eq (h : 0 ≤ a) (period : Int) : dataDate period a = slot 60 period a := by
  have hminute : a.tdiv 60 = a / 60 := Int.tdiv_eq_ediv_of_nonneg h
  have hnonneg : 0 ≤ a / 60 * 60 := by omega
  rw [dataDate, hminute, slot, Int.tmod_eq_emod_of_nonneg hnonneg]

theorem toString_inj (ha : 0 ≤ a) (hb : 0 ≤ b) (h : toString a = toString b) : a = b := by
  obtain ⟨m, rfl⟩ := Int.eq_ofNat_of_zero_le ha
  obtain ⟨n, rfl⟩ := Int.eq_ofNat_of_zero_le hb
  have hnumber := congrArg decimalNumber h
  rwa [decimalNumber_toString, decimalNumber_toString, Option.some.injEq] at hnumber

/-- Two passes save in one file exactly if they have one date. -/
theorem dataFileName_eq_iff {f g : String} (ha : 0 ≤ dataDate (s.period lib) a)
    (hb : 0 ≤ dataDate (s.period lib) b) (hf : f ∈ s.dataFileName lib a)
    (hg : g ∈ s.dataFileName lib b) :
    f = g ↔ dataDate (s.period lib) a = dataDate (s.period lib) b := by
  simp only [Server.dataFileName, saveData_eq] at hf hg
  split at hf
  · next => cases hf
  · next hpath =>
      rw [if_neg hpath] at hg
      simp only [Option.map_some, Option.mem_some_iff] at hf hg
      rw [← hf, ← hg, String.append_left_inj, String.append_right_inj]
      constructor
      · exact toString_inj ha hb
      · intro h
        rw [h]

end Names

/-! ## The period

The period is the duration clamped from below and rounded up to hours. -/

section Period

variable {lib : Advgetopt}

theorem ceil_le_of_lt {d : Rat} {n : Int} (h : d < n) : d.ceil ≤ n := Rat.ceil_le_iff.mpr h.le

/-- **The period before it is rounded** is the one that is asked for, unless its
seconds do not fit. -/
theorem clampedPeriod_eq {s : Server}
    (hfits : ∀ d, lib.duration (s.opts.getString "statistics_period") = some d →
      d.ceil < 2 ^ 63) :
    max Server.minimumStatisticsPeriod (Server.readDuration lib
        (s.opts.getString "statistics_period") Server.defaultStatisticsPeriod) =
      s.clampedPeriod lib := by
  rw [Server.clampedPeriod, Server.readDuration]
  refine congrArg (max 3600) ?_
  cases hd : lib.duration (s.opts.getString "statistics_period") with
  | none => rfl
  | some d =>
      have hhigh := hfits d hd
      dsimp only
      rw [secondsOf]
      split
      · rfl
      · next hout =>
          -- what does not fit is far below 0
          rw [if_pos (by norm_num), if_pos (by omega)]
          rfl

/-- A duration below `2 ^ 62` seconds is clamped to no more than that. -/
theorem clampedPeriod_le {s : Server}
    (h : ∀ d, lib.duration (s.opts.getString "statistics_period") = some d → d < 2 ^ 62) :
    s.clampedPeriod lib ≤ 2 ^ 62 := by
  refine max_le (by norm_num) ?_
  cases hd : lib.duration (s.opts.getString "statistics_period") with
  | none => norm_num
  | some d =>
      dsimp only
      split
      · norm_num
      · exact ceil_le_of_lt (by exact_mod_cast h d hd)

theorem roundPeriod_spec {period : Int} (hlo : 0 ≤ period) (hhi : period ≤ 2 ^ 62) :
    3600 ∣ Server.roundPeriod period ∧ period ≤ Server.roundPeriod period ∧
      Server.roundPeriod period < period + 3600 := by
  have hexact : int64 (period + (3600 - 1)) = period + (3600 - 1) :=
    int64_of_range (by omega) (by omega)
  have htrunc : (period + (3600 - 1)).tdiv 3600 = (period + (3600 - 1)) / 3600 :=
    Int.tdiv_eq_ediv_of_nonneg (by omega)
  simp only [Server.roundPeriod, Server.roundStatisticsPeriod, hexact, htrunc]
  exact ⟨Int.dvd_mul_left _ _, by omega, by omega⟩

theorem period_eq {s : Server} (hs : s.Coherent lib)
    (hfits : ∀ d, lib.duration (s.opts.getString "statistics_period") = some d →
      d.ceil < 2 ^ 63) :
    s.period lib = Server.roundPeriod (s.clampedPeriod lib) := by
  rw [← clampedPeriod_eq hfits, Server.period, (getStatisticsPeriod_spec hs).1, freshPeriod,
    Server.getStatisticsPeriod,
    if_pos (show (Server.create s.opts).statisticsPeriod ≤ 0 from Int.negSucc_le_zero 0)]
  rfl

end Period

/-! ## The ring of files

Dates of one period have different names, unless they are in one minute, and
the names repeat after it.  So there are as many files as minutes in a period,
and no more. -/

/-- The data files of a server are the slots of a ring of minutes. -/
structure Server.SlotsFit (lib : Advgetopt) (s : Server) : Prop where
  hours : 3600 ∣ s.period lib
  minimum : 3600 ≤ s.period lib
  clamped : s.clampedPeriod lib ≤ s.period lib ∧ s.period lib < s.clampedPeriod lib + 3600
  minute : ∀ a, 0 ≤ a → 60 ∣ dataDate (s.period lib) a ∧ 0 ≤ dataDate (s.period lib) a ∧
    dataDate (s.period lib) a < s.period lib
  shared : ∀ a b, 0 ≤ a → 0 ≤ b →
    (dataDate (s.period lib) a = dataDate (s.period lib) b ↔
      a / 60 ≡ b / 60 [ZMOD s.period lib / 60])
  apart : ∀ a b, 0 ≤ a → 0 ≤ b → 1 ≤ |a / 60 - b / 60| →
    |a / 60 - b / 60| < s.period lib / 60 → ∀ f ∈ s.dataFileName lib a, f ∉ s.dataFileName lib b
  files : ∀ starts : List Int, (∀ t ∈ starts, 0 ≤ t) →
    ((starts.filterMap (s.dataFileName lib)).dedup.length : Int) ≤ s.period lib / 60

theorem dataFileNames_le (lib : Advgetopt) (s : Server) (starts : List Int) :
    (starts.filterMap (s.dataFileName lib)).dedup.length ≤
      (starts.map (dataDate (s.period lib))).dedup.length := by
  have hsub : (starts.filterMap (s.dataFileName lib)).dedup ⊆
      (starts.map (dataDate (s.period lib))).dedup.map fun date =>
        s.getServerParameter "data_path" ++ "/" ++ toString date ++ ".json" := by
    intro f hf
    obtain ⟨t, ht, hname⟩ := List.mem_filterMap.mp (List.mem_dedup.mp hf)
    simp only [Server.dataFileName, saveData_eq] at hname
    split at hname
    · cases hname
    · refine List.mem_map.mpr ⟨dataDate (s.period lib) t, ?_, Option.some.inj hname⟩
      exact List.mem_dedup.mpr (List.mem_map_of_mem ht)
  have hlength := (List.subperm_of_subset (List.nodup_dedup _) hsub).length_le
  rwa [List.length_map] at hlength

theorem slotsFit_of_hours {lib : Advgetopt} {s : Server} (hhours : 3600 ∣ s.period lib)
    (hminimum : 3600 ≤ s.period lib)
    (hclamped : s.clampedPeriod lib ≤ s.period lib ∧ s.period lib < s.clampedPeriod lib + 3600) :
    s.SlotsFit lib := by
  have hring : s.period lib = 60 * (s.period lib / 60) := by
    rw [Int.mul_ediv_cancel' (Int.dvd_trans (by decide) hhours)]
  have hcount : 0 < s.period lib / 60 := by omega
  have hpositive : 0 < 60 * (s.period lib / 60) := by omega
  have hdate : ∀ a, 0 ≤ a → dataDate (s.period lib) a = slot 60 (60 * (s.period lib / 60)) a := by
    intro a ha
    rw [dataDate_eq ha, ← hring]
  have hminute : ∀ a, 0 ≤ a → 60 ∣ dataDate (s.period lib) a ∧ 0 ≤ dataDate (s.period lib) a ∧
      dataDate (s.period lib) a < s.period lib := by
    intro a ha
    have hlt := slot_lt hpositive a
    rw [hdate a ha]
    exact ⟨unit_dvd_slot (by decide) a, slot_nonneg hpositive a, by omega⟩
  have hshared : ∀ a b, 0 ≤ a → 0 ≤ b →
      (dataDate (s.period lib) a = dataDate (s.period lib) b ↔
        a / 60 ≡ b / 60 [ZMOD s.period lib / 60]) := by
    intro a b ha hb
    rw [hdate a ha, hdate b hb]
    exact slot_eq_iff (by decide)
  refine ⟨hhours, hminimum, hclamped, hminute, hshared, ?_, ?_⟩
  · intro a b ha hb hdiff hturn f hfa hfb
    have hsame := (dataFileName_eq_iff (hminute a ha).2.1 (hminute b hb).2.1 hfa hfb).mp rfl
    rw [hdate a ha, hdate b hb] at hsame
    exact slot_ne (by decide) hdiff hturn hsame
  · intro starts hstarts
    have hnames := dataFileNames_le lib s starts
    have hslots := slots_le (show (0 : Int) < 60 by decide) hcount starts
    rw [List.map_congr_left fun t ht => hdate t (hstarts t ht)] at hnames
    omega

/-- **The slots fit together** for every server, whatever getters, new values
and `clear_cache` calls came before, unless its period is enormous. -/
theorem statisticsSlots (lib : Advgetopt) (opts : Options) (calls : List StatisticsCall)
    (hduration : ∀ d, lib.duration ((final (statistics lib) (Server.create opts) calls).opts.getString
      "statistics_period") = some d → d < 2 ^ 62) :
    (final (statistics lib) (Server.create opts) calls).SlotsFit lib := by
  generalize hs : final (statistics lib) (Server.create opts) calls = s at hduration ⊢
  have hcoherent : s.Coherent lib := by
    rw [← hs]
    exact final_invariant (I := Server.Coherent lib) (A := fun _ => True)
      (fun _ call hI _ => statistics_step hI call) (create_coherent opts) (fun _ _ => trivial)
  have hfits : ∀ d, lib.duration (s.opts.getString "statistics_period") = some d →
      d.ceil < 2 ^ 63 := by
    intro d hd
    have hceil : d.ceil ≤ 2 ^ 62 := ceil_le_of_lt (by exact_mod_cast hduration d hd)
    omega
  have hperiod := period_eq hcoherent hfits
  have hlow : 3600 ≤ s.clampedPeriod lib := le_max_left _ _
  have hhigh := clampedPeriod_le hduration
  obtain ⟨hhours, hclamped, hround⟩ := roundPeriod_spec (by omega) hhigh
  rw [← hperiod] at hhours hclamped hround
  exact slotsFit_of_hours hhours (by omega) ⟨hclamped, hround⟩

/-- A server whose period is an hour and a half, in seconds. -/
theorem statisticsSlots_hour_and_a_half :
    (final (statistics .decimal) (Server.create Options.unset)
      [.newValue "statistics_period" "5400", .period]).SlotsFit .decimal := by
  refine statisticsSlots .decimal Options.unset _ ?_
  intro d hd
  have hread : (5400 : Rat) = d := Option.some.inj hd
  rw [← hread]
  norm_num

end Sitter
