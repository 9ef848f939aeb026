/-
# `Sitter.Reboot` — the reboot plugin and the date it keeps

While `/run/reboot-required` is there, every pass raises an error, and the
longer the flag has been there the graver the error is.  Since when it has been
there is kept in `reboot.txt`:

    the file cannot be read     the date is now, and is written to the file
    it holds a number           the date is that number
    it holds anything else      the date is now, and the file stays as it is

    days since that date        below 4    below 10    below 30    from 30 on
    priority                        45          70          90         100

The third case is never left again, so that such a reminder stays at 45.  A run
escalates exactly if the file was absent at its start, or else names a day that
is early enough for each of its late passes (`rebootEscalates_iff`).
-/
import Sitter.RunPlugins

namespace Sitter

open Machine

/-! ## The pass -/

/-- What a pass meets: the flag, the clock, and whether `reboot.txt` works. -/
structure RebootPass where
  /-- `access("/run/reboot-required", R_OK) == 0` -/
  required : Bool
  now : Int
  readable : Bool
  writable : Bool
  removable : Bool
  deriving DecidableEq, Repr

/-- `reboot_date`, and the file after it. -/
def rebootDate (lib : Advgetopt) (file : Option String) (p : RebootPass) : Int × Option String :=
  match readAll p.readable file with
  | some rebootDateStr =>
      match lib.integer rebootDateStr with
      | some date => (date, file)
      | none => (p.now, file)
  | none => (p.now, writeAll p.writable file (toString p.now))

/-- The priority after so many days. -/
def rebootPriority (diff : Int) : Int :=
  if diff < 4 then 45 else if diff < 10 then 70 else if diff < 30 then 90 else 100

/-- `json["reboot"]["required"]` -/
def rebootRequired (required : Bool) : PluginAction :=
  .set [.name "reboot", .name "required"] (.text (if required then "true" else "false"))

/-- `on_process_watch` -/
def onProcessWatchReboot (lib : Advgetopt) : Step (Option String) RebootPass (List PluginAction) :=
  fun file p =>
    if p.required then
      let date := rebootDate lib file p
      -- convert to days and compute the difference
      let diff := p.now.tdiv 86400 - date.1.tdiv 86400
      (date.2, [rebootRequired true,
        .appendError passNode "reboot" "Reboot is required." (rebootPriority diff)])
    else (if p.removable then none else file, [rebootRequired false])

/-! ## More days, a higher priority -/

theorem rebootPriority_mono {d e : Int} (h : d ≤ e) : rebootPriority d ≤ rebootPriority e := by
  simp only [rebootPriority]
  grind

theorem rebootPriority_eq_hundred {d : Int} : rebootPriority d = 100 ↔ 30 ≤ d := by
  simp only [rebootPriority]
  grind

/-- The plugin never breaks a pass. -/
theorem rebootPriority_range (d : Int) : 0 ≤ rebootPriority d ∧ rebootPriority d ≤ 100 := by
  simp only [rebootPriority]
  grind

theorem onProcessWatchReboot_completes (lib : Advgetopt) (file : Option String) (p : RebootPass) :
    Completes (onProcessWatchReboot lib file p).2 := by
  intro a ha
  simp only [onProcessWatchReboot] at ha
  split at ha
  · rcases List.mem_pair.mp ha with rfl | rfl
    · trivial
    · exact rebootPriority_range _
  · obtain rfl := List.mem_singleton.mp ha
    trivial

/-! ## A run with the flag there

The date in `reboot.txt` is written by the first pass and never changed while
the flag is there.  A file without a number is kept too, and then every pass
counts from its own day. -/

/-- The flag is there, the file can be read and written, the clock has a time. -/
structure RebootPass.Stays (p : RebootPass) : Prop where
  required : p.required = true
  readable : p.readable = true
  writable : p.writable = true
  isTime : IsTime p.now

def utcDay (t : Int) : Int := t / 86400

/-- The day since which a run that begins at `start` counts for a pass. -/
def countsFrom (lib : Advgetopt) (file : Option String) (start : Int) (p : RebootPass) : Int :=
  match file with
  | none => start.tdiv 86400
  | some text => ((lib.integer text).getD p.now).tdiv 86400

section Run

variable {lib : Advgetopt} {file : Option String} {p : RebootPass}

theorem utcDay_eq {t : Int} (h : IsTime t) : t.tdiv 86400 = utcDay t :=
  Int.tdiv_eq_ediv_of_nonneg h.1

theorem utcDay_mono {t u : Int} (h : t ≤ u) : utcDay t ≤ utcDay u :=
  Int.ediv_le_ediv (by decide) h

/-- One pass: what it raises. -/
theorem reboot_raises (hp : p.Stays) :
    raisedPriorities (onProcessWatchReboot lib file p).2 =
      [rebootPriority (utcDay p.now - countsFrom lib file p.now p)] := by
  simp only [onProcessWatchReboot, hp.required, if_true, rebootDate, hp.readable, readAll_true,
    raisedPriorities, List.filterMap, PluginAction.raises, rebootRequired, countsFrom,
    utcDay_eq hp.isTime]
  cases file with
  | none => simp only [utcDay_eq hp.isTime]
  | some text =>
      cases hdate : lib.integer text with
      | none => simp only [hdate, Option.getD_none]
      | some date => simp only [hdate, Option.getD_some]

/-- A file that is there stays as it is. -/
theorem reboot_kept {text : String} (hp : p.Stays) :
    (onProcessWatchReboot lib (some text) p).1 = some text := by
  simp only [onProcessWatchReboot, hp.required, if_true, rebootDate, hp.readable, readAll_true]
  cases lib.integer text <;> rfl

/-- Without one, the first pass dates it. -/
theorem reboot_dated (hp : p.Stays) :
    (onProcessWatchReboot lib none p).1 = some (toString p.now) := by
  simp only [onProcessWatchReboot, hp.required, if_true, rebootDate, readAll_none, hp.writable,
    writeAll_true]

/-- What the passes raise from a file that is there. -/
theorem reboot_run_text {text : String} {passes : List RebootPass}
    (hpasses : ∀ p ∈ passes, p.Stays) (start : Int) :
    ∀ e ∈ trace (onProcessWatchReboot lib) (some text) passes,
      raisedPriorities e.output =
        [rebootPriority (utcDay e.input.now - countsFrom lib (some text) start e.input)] := by
  refine trace_forall (I := fun file => file = some text) (A := RebootPass.Stays) ?_ rfl hpasses
  rintro file p rfl hp
  exact ⟨reboot_kept hp, reboot_raises hp⟩

/-- **What the passes of a run raise**, whatever was in the file. -/
theorem reboot_run (hlib : lib.ReadsBack) (file : Option String) {first : RebootPass}
    {passes : List RebootPass}
    (hpasses : ∀ p ∈ first :: passes, p.Stays) :
    ∀ e ∈ trace (onProcessWatchReboot lib) file (first :: passes),
      raisedPriorities e.output =
        [rebootPriority (utcDay e.input.now - countsFrom lib file first.now e.input)] := by
  cases file with
  | some text => exact reboot_run_text hpasses first.now
  | none =>
      obtain ⟨hfirst, hrest⟩ := List.forall_mem_cons.mp hpasses
      rw [trace_cons]
      refine List.forall_mem_cons.mpr ⟨reboot_raises hfirst, ?_⟩
      intro e he
      rw [reboot_dated hfirst] at he
      have hraised := reboot_run_text hrest first.now e he
      rwa [countsFrom, hlib first.now hfirst.isTime.1 hfirst.isTime.2] at hraised

/-- The days that are counted do not go down. -/
theorem reboot_days_mono {start : Int} {q : RebootPass} (hp : p.Stays) (hq : q.Stays)
    (h : p.now ≤ q.now) :
    utcDay p.now - countsFrom lib file start p ≤ utcDay q.now - countsFrom lib file start q := by
  have hdays := utcDay_mono h
  cases file with
  | none => exact Int.sub_le_sub_right hdays _
  | some text =>
      simp only [countsFrom]
      cases lib.integer text with
      | some date => exact Int.sub_le_sub_right hdays _
      | none =>
          simp only [Option.getD_none, utcDay_eq hp.isTime, utcDay_eq hq.isTime]
          omega

end Run

/-! ## The reminder escalates -/

/-- What is asked of a run: no pass raises a lower priority than one before it,
and the passes 30 days after the first one and later raise 100. -/
structure RebootEscalates
    (run : List (Event (Option String) RebootPass (List PluginAction))) : Prop where
  grows : run.Pairwise fun e e' =>
    ∀ a ∈ raisedPriorities e.output, ∀ b ∈ raisedPriorities e'.output, a ≤ b
  late : ∀ first ∈ run.head?, ∀ e ∈ run, utcDay first.input.now + 30 ≤ utcDay e.input.now →
    100 ∈ raisedPriorities e.output

/-- The file is absent at the start, or names a day that is 30 days before
each pass that comes 30 days after the first one. -/
def DatedInTime (lib : Advgetopt) (file : Option String) (passes : List RebootPass) : Prop :=
  ∀ first ∈ passes.head?, ∀ p ∈ passes, utcDay first.now + 30 ≤ utcDay p.now →
    ∀ text ∈ file, ∃ date, lib.integer text = some date ∧ date.tdiv 86400 + 30 ≤ utcDay p.now

/-- A late pass is 30 days from the day it counts from if the file is absent or
names an early day. -/
theorem countsFrom_late {lib : Advgetopt} {file : Option String} {start : Int} {p : RebootPass}
    (hstart : IsTime start) (hp : p.Stays) (hlate : utcDay start + 30 ≤ utcDay p.now) :
    30 ≤ utcDay p.now - countsFrom lib file start p ↔
      ∀ text ∈ file, ∃ date, lib.integer text = some date ∧
        date.tdiv 86400 + 30 ≤ utcDay p.now := by
  cases file with
  | none =>
      rw [countsFrom, utcDay_eq hstart]
      exact iff_of_true (by omega) fun text htext => absurd htext.symm (Option.some_ne_none text)
  | some text =>
      simp only [countsFrom, Option.mem_some_iff, forall_eq']
      cases hdate : lib.integer text with
      | none =>
          rw [Option.getD_none, utcDay_eq hp.isTime]
          exact iff_of_false (by omega) fun ⟨date, hsome, _⟩ => Option.some_ne_none date hsome.symm
      | some date =>
          simp only [Option.getD_some, Option.some.injEq, exists_eq_left']
          omega

/-- **A run escalates exactly if `reboot.txt` was absent, or names a day early
enough for its late passes.** -/
theorem rebootEscalates_iff (lib : Advgetopt) (hlib : lib.ReadsBack) (file : Option String)
    (passes : List RebootPass) (hpasses : ∀ p ∈ passes, p.Stays)
    (hclock : passes.Pairwise fun p q => p.now ≤ q.now) :
    RebootEscalates (trace (onProcessWatchReboot lib) file passes) ↔
      DatedInTime lib file passes := by
  cases passes with
  | nil =>
      refine iff_of_true ⟨List.Pairwise.nil, ?_⟩ ?_
      · exact fun first hfirst => absurd hfirst.symm (Option.some_ne_none first)
      · exact fun first hfirst => absurd hfirst.symm (Option.some_ne_none first)
  | cons first passes =>
      have hraised := reboot_run hlib file hpasses
      have hinputs := trace_inputs (m := onProcessWatchReboot lib) file (first :: passes)
      have hstays : ∀ e ∈ trace (onProcessWatchReboot lib) file (first :: passes),
          e.input.Stays := by
        intro e he
        refine hpasses e.input ?_
        rw [← hinputs]
        exact List.mem_map_of_mem he
      have hfirst : IsTime first.now := (hpasses first List.mem_cons_self).isTime
      have hlate : ∀ e ∈ trace (onProcessWatchReboot lib) file (first :: passes),
          utcDay first.now + 30 ≤ utcDay e.input.now →
          (100 ∈ raisedPriorities e.output ↔ ∀ text ∈ file, ∃ date,
            lib.integer text = some date ∧ date.tdiv 86400 + 30 ≤ utcDay e.input.now) := by
        intro e he hday
        rw [hraised e he, List.mem_singleton, eq_comm, rebootPriority_eq_hundred]
        exact countsFrom_late hfirst (hstays e he) hday
      constructor
      · rintro ⟨-, hescalates⟩ q hq p hp hday
        obtain rfl := Option.some.inj hq
        rw [← hinputs] at hp
        obtain ⟨e, he, rfl⟩ := List.mem_map.mp hp
        exact (hlate e he hday).mp (hescalates _ rfl e he hday)
      · intro hdated
        refine ⟨?_, ?_⟩
        · rw [← hinputs] at hclock
          refine (List.pairwise_map.mp hclock).imp_of_mem ?_
          intro e e' he he' hle a ha b hb
          rw [hraised e he] at ha
          rw [hraised e' he'] at hb
          obtain rfl := List.mem_singleton.mp ha
          obtain rfl := List.mem_singleton.mp hb
          exact rebootPriority_mono (reboot_days_mono (hstays e he) (hstays e' he') hle)
        · intro q hq e he hday
          obtain rfl := Option.some.inj hq
          refine (hlate e he hday).mpr (hdated first rfl e.input ?_ hday)
          rw [← hinputs]
          exact List.mem_map_of_mem he

/-- A pass with the flag there. -/
def rebootPass (now : Int) : RebootPass := ⟨true, now, true, true, true⟩

/-- From no file, a pass and one 30 days after it. -/
theorem rebootEscalates_absent :
    RebootEscalates (trace (onProcessWatchReboot .decimal) none
      [rebootPass 0, rebootPass 2592000]) := by
  have hstays : ∀ p ∈ [rebootPass 0, rebootPass 2592000], p.Stays := by
    simp only [List.forall_mem_cons]
    refine ⟨⟨rfl, rfl, rfl, by decide, by decide⟩, ⟨rfl, rfl, rfl, by decide, by decide⟩, ?_⟩
    exact fun p hp => absurd hp List.not_mem_nil
  refine (rebootEscalates_iff .decimal Advgetopt.decimal_readsBack none _ hstays ?_).mpr ?_
  · exact List.pairwise_pair.mpr (by decide)
  · exact fun first _ p _ _ text htext => absurd htext.symm (Option.some_ne_none text)

/-- The same passes with an empty file: the second one still raises 45. -/
theorem rebootEscalates_empty_file :
    ¬ RebootEscalates (trace (onProcessWatchReboot .decimal) (some "")
      [rebootPass 0, rebootPass 2592000]) := by
  intro h
  have hlate := h.late _ rfl _ (List.mem_cons_of_mem _ List.mem_cons_self) (by decide)
  exact absurd hlate (by decide)

end Sitter
