/-
# `Sitter.CertificateDelays` — what `parse_delays` leaves in the map

Before each pass the delays of `certificate_warning_delays` are read anew:

    <delay>/<priority>, <delay>/<priority>, ...

An entry counts if its pieces between slashes are two integers, the delay from
1 to 3660 and the priority from 0 to 100.  What the map had before goes; of two
entries with one delay the later one stays; an entry that does not count leaves
no trace but a line in the log, once a day; where no entry counts there are
three defaults (`parseDelays_parsed`).

Two integers with a slash between them are such an entry (`delayEntry_slash`).
`split_string` drops empty pieces, so an entry such as `7//100` has the two
pieces of `7/100` and counts as well.
-/
import Sitter.Certificate

namespace Sitter

open LastWrite Machine Pieces

/-! ## The function and its state -/

/-- What `parse_delays` writes to: `f_delays_n_priorities` and
`g_last_delay_error`. -/
structure DelaysState where
  delays : Std.TreeMap Int Int
  lastDelayError : Int

/-- The body of the loop: the map and the entries that are invalid. -/
def readWarning (lib : Advgetopt) (r : Std.TreeMap Int Int × List String) (warning : String) :
    Std.TreeMap Int Int × List String :=
  match readDelay lib warning with
  | none => (r.1, r.2 ++ [warning])
  | some d => (r.1.insert d.1 d.2, r.2)

def invalidDelaysMessage (invalid : List String) : String :=
  "invalid delays or priorities, delays must be positive up to 3660 and priorities must be"
    ++ " between 0 and 100; the delay and priority must be separated by a slash; multiple"
    ++ " entries must be separated by commas; we found these that we ignored \""
    ++ joinStrings invalid ", " ++ "\"."

/-- `parse_delays` as a step: a server and the time come in, what is logged
goes out. -/
def parseDelaysStep (lib : Advgetopt) : Step DelaysState (Server × Int) (List String) :=
  fun st input =>
    -- the map is cleared first
    let r := (warningDelays lib input.1).foldl (readWarning lib) (∅, [])
    let delays :=
      if r.1.isEmpty then defaultDelays.foldl (fun delays d => delays.insert d.1 d.2) r.1 else r.1
    if r.2 ≠ [] ∧ int64 (input.2 - st.lastDelayError) ≥ 86400 then
      (⟨delays, input.2⟩, [invalidDelaysMessage r.2])
    else (⟨delays, st.lastDelayError⟩, [])

/-! ## What is expected

An entry is a delay and a priority with a slash between them, both decimal.
The setting stands for the well-formed entries in range; a text without any
stands for the defaults. -/

section Entries

variable (lib : Advgetopt) (blank : Char → Bool)

def delayEntries (s : Server) : List (List Char) :=
  pieces blank ',' (s.getServerParameter "certificate_warning_delays").toList

/-- `split_string` takes the setting and its entries apart as documented. -/
structure DelaysSplit (s : Server) : Prop where
  setting : lib.SplitsTrimmed blank (s.getServerParameter "certificate_warning_delays")
  entries : ∀ entry ∈ delayEntries blank s, lib.SplitsTrimmed blank (String.ofList entry)

/-- A well-formed entry. -/
structure DelayEntry (entry : List Char) (d p : Int) : Prop where
  parts : ∃ delay priority, pieces blank '/' entry = [delay, priority] ∧
    lib.integer (String.ofList delay) = some d ∧ lib.integer (String.ofList priority) = some p
  delay : 1 ≤ d ∧ d ≤ 3660
  priority : 0 ≤ p ∧ p ≤ 100

/-- The map has what the entries say. -/
structure DelaysParsed (entries : List (List Char)) (delays : Std.TreeMap Int Int) : Prop where
  exact : (∃ entry ∈ entries, ∃ d p, DelayEntry lib blank entry d p) → ∀ d p : Int,
    delays[d]? = some p ↔ ∃ before entry after, entries = before ++ entry :: after ∧
      DelayEntry lib blank entry d p ∧ ∀ later ∈ after, ∀ p', ¬ DelayEntry lib blank later d p'
  default : (∀ entry ∈ entries, ∀ d p, ¬ DelayEntry lib blank entry d p) →
    delays.toList = [(7, 100), (14, 85), (30, 45)]
  nonempty : delays.isEmpty = false
  inRange : ∀ d p : Int, delays[d]? = some p → (1 ≤ d ∧ d ≤ 3660) ∧ 0 ≤ p ∧ p ≤ 100

end Entries

/-! ## The step and the map

The map is a member of the plugin, and its state before a call must make no
difference after it. -/

section Step

variable {lib : Advgetopt} {blank : Char → Bool} {s s' : Server}

theorem foldl_readWarning (warnings : List String) (r : Std.TreeMap Int Int × List String) :
    (warnings.foldl (readWarning lib) r).1 =
      (warnings.filterMap (readDelay lib)).foldl (fun delays d => delays.insert d.1 d.2) r.1 := by
  induction warnings generalizing r with
  | nil => rfl
  | cons warning warnings ih =>
      rw [List.foldl_cons, ih, readWarning, List.filterMap_cons]
      cases readDelay lib warning <;> rfl

/-- **Whatever there was before, the step leaves the map of `parseDelays`.** -/
theorem parseDelaysStep_delays (st : DelaysState) (s : Server) (now : Int) :
    (parseDelaysStep lib st (s, now)).1.delays = parseDelays lib s := by
  rw [parseDelays_eq, parseDelaysStep]
  dsimp only
  rw [foldl_readWarning]
  split <;> rfl

theorem readDelay_iff {warning : String} {d p : Int} :
    readDelay lib warning = some (d, p) ↔
      (∃ delay priority, lib.splitString warning ["/"] = [delay, priority] ∧
        lib.integer delay = some d ∧ lib.integer priority = some p) ∧
      (1 ≤ d ∧ d ≤ 3660) ∧ 0 ≤ p ∧ p ≤ 100 := by
  constructor
  · intro hread
    rw [readDelay] at hread
    split at hread
    · next delay priority hparts =>
        cases hdelay : lib.integer delay with
        | none => simp only [hdelay, reduceCtorEq] at hread
        | some x =>
            cases hpriority : lib.integer priority with
            | none => simp only [hdelay, hpriority, ite_self, reduceCtorEq] at hread
            | some y =>
                simp only [hdelay, hpriority, Option.ite_none_left_eq_some, not_or, not_le, not_lt,
                  Option.some.injEq, Prod.mk.injEq] at hread
                obtain ⟨hx, hy, rfl, rfl⟩ := hread
                exact ⟨⟨delay, priority, hparts, hdelay, hpriority⟩, by omega, hy⟩
    · cases hread
  · rintro ⟨⟨delay, priority, hparts, hdelay, hpriority⟩, hd, hp⟩
    rw [readDelay, hparts]
    simp only [hdelay, hpriority]
    rw [if_neg (by omega), if_neg (by omega)]

theorem readDelay_eq_some {entry : List Char}
    (hsplit : lib.SplitsTrimmed blank (String.ofList entry)) {d p : Int} :
    readDelay lib (String.ofList entry) = some (d, p) ↔ DelayEntry lib blank entry d p := by
  have hparts : lib.splitString (String.ofList entry) ["/"] =
      (pieces blank '/' entry).map String.ofList := by
    rw [hsplit "/" '/' rfl, String.toList_ofList]
  rw [readDelay_iff, hparts]
  constructor
  · rintro ⟨⟨delayText, priorityText, htexts, hdelay, hpriority⟩, hd, hp⟩
    obtain ⟨delay, rest, hpieces, rfl, hrest⟩ := List.map_eq_cons_iff.mp htexts
    obtain ⟨priority, none, rfl, rfl, hnone⟩ := List.map_eq_cons_iff.mp hrest
    obtain rfl := List.map_eq_nil_iff.mp hnone
    exact ⟨⟨delay, priority, hpieces, hdelay, hpriority⟩, hd, hp⟩
  · rintro ⟨⟨delay, priority, hpieces, hdelay, hpriority⟩, hd, hp⟩
    refine ⟨⟨_, _, ?_, hdelay, hpriority⟩, hd, hp⟩
    rw [hpieces]
    rfl

/-- What the setting writes to the map. -/
theorem warningDelays_read (hsplit : DelaysSplit lib blank s) :
    (warningDelays lib s).filterMap (readDelay lib) =
      (delayEntries blank s).filterMap (readDelay lib ∘ String.ofList) := by
  rw [warningDelays, hsplit.setting "," ',' rfl, List.filterMap_map]
  rfl

theorem delayEntry_slash {delay priority : List Char} {d p : Int}
    (hdelay : Solid blank delay ∧ '/' ∉ delay) (hpriority : Solid blank priority ∧ '/' ∉ priority)
    (hd : lib.integer (String.ofList delay) = some d ∧ 1 ≤ d ∧ d ≤ 3660)
    (hp : lib.integer (String.ofList priority) = some p ∧ 0 ≤ p ∧ p ≤ 100) :
    DelayEntry lib blank (delay ++ '/' :: priority) d p where
  parts := by
    refine ⟨delay, priority, ?_, hd.1, hp.1⟩
    rw [pieces_cons hdelay.1 hdelay.2, pieces_single hpriority.1 hpriority.2]
  delay := hd.2
  priority := hp.2

/-- Every delay and priority of the map is in range, the defaults included. -/
theorem configuredDelays_range {d p : Int} (h : (d, p) ∈ configuredDelays lib s) :
    (1 ≤ d ∧ d ≤ 3660) ∧ 0 ≤ p ∧ p ≤ 100 := by
  rw [configuredDelays] at h
  split at h
  · have hdefaults : ∀ x ∈ defaultDelays, (1 ≤ x.1 ∧ x.1 ≤ 3660) ∧ 0 ≤ x.2 ∧ x.2 ≤ 100 := by decide
    exact hdefaults (d, p) h
  · obtain ⟨warning, -, hread⟩ := List.mem_filterMap.mp h
    exact (readDelay_iff.mp hread).2

theorem configuredDelays_ne_nil (lib : Advgetopt) (s : Server) : configuredDelays lib s ≠ [] := by
  rw [configuredDelays]
  split
  · exact List.cons_ne_nil _ _
  · next hread => exact hread

/-- **The map has what the entries say.** -/
theorem parseDelays_spec (hsplit : DelaysSplit lib blank s) :
    DelaysParsed lib blank (delayEntries blank s) (parseDelays lib s) := by
  have hread := warningDelays_read hsplit
  constructor
  · rintro ⟨entry, hentry, d, p, hvalid⟩
    intro d' p'
    have hconfigured : configuredDelays lib s =
        (delayEntries blank s).filterMap (readDelay lib ∘ String.ofList) := by
      rw [configuredDelays, hread]
      refine if_neg ?_
      exact List.ne_nil_of_mem
        (List.mem_filterMap.mpr
          ⟨entry, hentry, (readDelay_eq_some (hsplit.entries entry hentry)).mpr hvalid⟩)
    rw [parseDelays_getElem?, hconfigured, lastWrite_filterMap]
    refine exists_congr fun before => exists_congr fun entry' => exists_congr fun after =>
      and_congr_right fun hentries => ?_
    have hmem : ∀ e ∈ entry' :: after, e ∈ delayEntries blank s := by
      rw [hentries]
      exact fun e he => List.mem_append_right _ he
    refine and_congr (readDelay_eq_some (hsplit.entries _ (hmem _ List.mem_cons_self))) ?_
    refine forall₂_congr fun later hlater => forall_congr' fun p => not_congr ?_
    exact readDelay_eq_some (hsplit.entries _ (hmem _ (List.mem_cons_of_mem _ hlater)))
  · intro hnone
    have hempty : (warningDelays lib s).filterMap (readDelay lib) = [] := by
      rw [hread, List.filterMap_eq_nil_iff]
      intro entry hentry
      refine Option.eq_none_iff_forall_ne_some.mpr ?_
      intro d hd
      exact hnone entry hentry d.1 d.2
        ((readDelay_eq_some (hsplit.entries entry hentry)).mp hd)
    rw [parseDelays_eq, hempty]
    rfl
  · obtain ⟨⟨d, p⟩, hd⟩ := List.exists_mem_of_ne_nil _ (configuredDelays_ne_nil lib s)
    refine Std.TreeMap.isEmpty_eq_false_iff_exists_mem.mpr ⟨d, ?_⟩
    rw [Std.TreeMap.mem_iff_isSome_getElem?, parseDelays_getElem?, lastWrite_isSome]
    exact ⟨p, hd⟩
  · intro d p hp
    rw [parseDelays_getElem?, lastWrite_eq_some] at hp
    obtain ⟨before, after, hwrites, -⟩ := hp
    have hmem : (d, p) ∈ configuredDelays lib s := by
      rw [hwrites]
      exact List.mem_append_right _ List.mem_cons_self
    exact configuredDelays_range hmem

end Step

/-- **Whatever the map had before, `parse_delays` leaves in it what the
well-formed entries say, and the others make no difference.** -/
theorem parseDelays_parsed (lib : Advgetopt) (blank : Char → Bool)
    (st : DelaysState) (s : Server) (now : Int) (hsplit : DelaysSplit lib blank s) :
    DelaysParsed lib blank (delayEntries blank s) (parseDelaysStep lib st (s, now)).1.delays ∧
      ∀ (st' : DelaysState) (s' : Server) (now' : Int) (before after : List (List Char))
        (entry : List Char),
        lib.SplitsTrimmed blank (s'.getServerParameter "certificate_warning_delays") →
        delayEntries blank s = before ++ entry :: after →
        (∀ d p, ¬ DelayEntry lib blank entry d p) → delayEntries blank s' = before ++ after →
        (parseDelaysStep lib st (s, now)).1.delays =
          (parseDelaysStep lib st' (s', now')).1.delays := by
  rw [parseDelaysStep_delays]
  refine ⟨parseDelays_spec hsplit, ?_⟩
  intro st' s' now' before after entry hsetting hentries hinvalid hentries'
  have hsplit' : DelaysSplit lib blank s' := by
    refine ⟨hsetting, fun e he => hsplit.entries e ?_⟩
    rw [hentries'] at he
    rw [hentries]
    rcases List.mem_append.mp he with he | he
    · exact List.mem_append_left _ he
    · exact List.mem_append_right _ (List.mem_cons_of_mem _ he)
  have hentry : entry ∈ delayEntries blank s := by
    rw [hentries]
    exact List.mem_append_right _ List.mem_cons_self
  have hnone : readDelay lib (String.ofList entry) = none := by
    refine Option.eq_none_iff_forall_ne_some.mpr ?_
    intro d hd
    exact hinvalid d.1 d.2 ((readDelay_eq_some (hsplit.entries entry hentry)).mp hd)
  rw [parseDelaysStep_delays, parseDelays_eq, parseDelays_eq, warningDelays_read hsplit,
    warningDelays_read hsplit', hentries, hentries', List.filterMap_append,
    List.filterMap_cons_none (show (readDelay lib ∘ String.ofList) entry = none from hnone),
    List.filterMap_append]

/-- A delay that is given twice, a priority of 101, and a text that is no entry,
into a map that has an entry for 3 days. -/
theorem parseDelays_twice :
    DelaysParsed .decimal (· == ' ')
      (delayEntries (· == ' ') (.create ⟨fun _ => true, fun _ => "7/90, x, 14/101, 30/5, 7/80"⟩))
      (parseDelaysStep .decimal ⟨(∅ : Std.TreeMap Int Int).insert 3 4, 0⟩
        (.create ⟨fun _ => true, fun _ => "7/90, x, 14/101, 30/5, 7/80"⟩, 0)).1.delays :=
  (parseDelays_parsed .decimal (· == ' ') _ _ 0
    ⟨decimal_splitsTrimmed _, fun entry _ => decimal_splitsTrimmed (String.ofList entry)⟩).1

/-- The later priority of the 7 days. -/
example : (parseDelays .decimal
    (.create ⟨fun _ => true, fun _ => "7/90, x, 14/101, 30/5, 7/80"⟩)).toList =
      [(7, 80), (30, 5)] := by
  decide

end Sitter
