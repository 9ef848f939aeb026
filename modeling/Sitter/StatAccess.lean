/-
# `Sitter.StatAccess` — does `sys_stats` stay within its data?

The loaders index the lists that `split_string` gives them.  An access is the
index and the size of its list (`TokenAccess`); the lists of accesses below
follow the loaders, with their guards.

    values[3]             guarded by the size of `values`
    running_threads[1]    guarded by the size of `values`, too
    values[idx + 1]       for each of the nine times, not guarded

And a getter returns its member, which has a value from its initializer, or
from the file; `f_cpu` has no initializer.

So a getter stays within the data exactly if the file it reads, if it reads
one, has its thread counts in two pieces and nine columns on each line `cpu`,
and if for the times of the CPU one of the files so far gave the value
(`sysStats_safe_iff`).
-/
import Sitter.SysStats

namespace Sitter

open Machine LastWrite

/-! ## Accesses

The loaders index the pieces of a line without a test of their number in some
places.  An access is the index with the number of pieces that are there. -/

/-- `list[index]`, for a list of this size. -/
structure TokenAccess where
  size : Nat
  index : Nat
  deriving DecidableEq, Repr

def TokenAccess.InRange (a : TokenAccess) : Prop := a.index < a.size

instance (a : TokenAccess) : Decidable a.InRange := inferInstanceAs (Decidable (_ < _))

section Accesses

variable (lib : Advgetopt)

/-- `values[1]`, where there are two of them -/
def secondAccess (values : List String) : List TokenAccess :=
  if values.length ≥ 2 then [⟨values.length, 1⟩] else []

/-- `load_uptime` -/
def uptimeAccesses (text : String) : List TokenAccess :=
  let values := lib.splitString text [" "]
  (if values.length ≥ 1 then [⟨values.length, 0⟩] else []) ++ secondAccess values

/-- `load_loadavg`.  The guards of the thread counts are on `values`. -/
def loadavgAccesses (text : String) : List TokenAccess :=
  let values := lib.splitString text [" "]
  let averages :=
    ((List.range 3).takeWhile (· < values.length)).map (TokenAccess.mk values.length)
  let threads :=
    if values.length ≥ 4 then
      let runningThreads := lib.splitString (values.getD 3 "") ["/"]
      [⟨values.length, 3⟩]
        ++ (if values.length ≥ 1 then [⟨runningThreads.length, 0⟩] else [])
        ++ (if values.length ≥ 2 then [⟨runningThreads.length, 1⟩] else [])
    else []
  averages ++ threads ++ (if values.length ≥ 5 then [⟨values.length, 4⟩] else [])

/-- One line of `load_stat`. -/
def statLineAccesses (line : String) : List TokenAccess :=
  let values := lib.splitString line [" "]
  if lineStarts line "btime " 6 then secondAccess values
  else if lineStarts line "cpu " 4 then
    (List.range 9).map fun idx => ⟨values.length, idx + 1⟩
  else if lineStarts line "ctxt " 5 then secondAccess values
  else if lineStarts line "intr " 5 then secondAccess values
  else if lineStarts line "pproc" 11 then
    if lineStarts line "pprocesses" 11 then secondAccess values
    else if lineStarts line "pprocs_running " 15 then secondAccess values
    else if lineStarts line "pprocs_blocked " 15 then secondAccess values
    else []
  else []

/-- `load_stat` -/
def statAccesses (text : String) : List TokenAccess :=
  (lib.splitString text ["\n"]).flatMap (statLineAccesses lib)

/-- The accesses of the loader of a group; `load_map` makes none. -/
def groupAccesses (files : ProcFiles) : StatsGroup → List TokenAccess
  | .uptime => (files.uptime.map (uptimeAccesses lib)).getD []
  | .loadavg => (files.loadavg.map (loadavgAccesses lib)).getD []
  | .stat => (files.stat.map (statAccesses lib)).getD []
  | .vmstat => []

/-- A group that was read is not read again. -/
def loadAccesses (r : StatsRun) (group : StatsGroup) : List TokenAccess :=
  if r.stats.defined group then [] else groupAccesses lib r.files group

/-- The accesses of one call. -/
def callAccesses (r : StatsRun) : StatsCall → List TokenAccess
  | .get (.figure f) => loadAccesses lib r f.group
  | .get (.cpuStat field) => if field < 0 ∨ field ≥ 9 then [] else loadAccesses lib r .stat
  | .get (.page _) => []
  | .reset _ => []

/-- What is asked of a call: its accesses are in their lists, and what a getter
returns was assigned before. -/
def StatsSafe (e : Event StatsRun StatsCall (Except String (Option Reading))) : Prop :=
  (∀ a ∈ callAccesses lib e.before e.input, a.InRange) ∧
    match e.input with
    | .get _ => e.output ≠ .ok none
    | .reset _ => True

/-! ## Where it stays within

The conditions are on the contents of the files: that the columns are there
that the loader goes to, and that the nine times are given before one of them
is read. -/

/-- The thread counts are in two pieces. -/
def LoadavgWide (text : String) : Prop :=
  ∀ threads, (lib.splitString text [" "])[3]? = some threads →
    2 ≤ (lib.splitString threads ["/"]).length

/-- A line `cpu` has the nine times. -/
def StatLineWide (line : String) : Prop :=
  lineStarts line "cpu " 4 → 10 ≤ (lib.splitString line [" "]).length

def StatWide (text : String) : Prop :=
  ∀ line ∈ lib.splitString text ["\n"], StatLineWide lib line

/-- The file of a group has the columns that its loader indexes. -/
def GroupWide (files : ProcFiles) : StatsGroup → Prop
  | .loadavg => ∀ text ∈ files.loadavg, LoadavgWide lib text
  | .stat => ∀ text ∈ files.stat, StatWide lib text
  | .uptime | .vmstat => True

/-- It is a line `cpu`, with a number in this column. -/
def LineGives (line : String) (idx : Fin 9) : Prop :=
  lineStarts line "cpu " 4 ∧ ∃ token n, (lib.splitString line [" "])[idx.val + 1]? = some token ∧
    lib.integer token = some n

def CpuGiven (files : ProcFiles) (idx : Fin 9) : Prop :=
  ∃ text ∈ files.stat, ∃ line ∈ lib.splitString text ["\n"], LineGives lib line idx

theorem toNat_lt_nine {field : Int} (h : 0 ≤ field ∧ field < 9) : field.toNat < 9 := by omega

/-- The file is wide enough, if it is read now, and a time of the CPU was given
by it, or before. -/
def FigureSafe (r : StatsRun) (f : Figure) : Prop :=
  (r.stats.defined f.group = false → GroupWide lib r.files f.group) ∧
    ∀ idx, f = .cpu idx → (r.stats.figures (.cpu idx)).isSome ∨
      (r.stats.defined .stat = false ∧ CpuGiven lib r.files idx)

def StatsWithin (e : Event StatsRun StatsCall (Except String (Option Reading))) : Prop :=
  match e.input with
  | .get (.figure f) => FigureSafe lib e.before f
  | .get (.cpuStat field) =>
      ∀ (h : 0 ≤ field ∧ field < 9), FigureSafe lib e.before (.cpu ⟨field.toNat, toNat_lt_nine h⟩)
  | .get (.page _) => True
  | .reset _ => True

end Accesses

/-! ## The accesses of a loader -/

section Loader

variable {lib : Advgetopt} {double : String → Option Rat} {text line : String}
  {files : ProcFiles} {group : StatsGroup}

theorem secondAccess_inRange (values : List String) : ∀ a ∈ secondAccess values, a.InRange := by
  intro a ha
  rw [secondAccess] at ha
  split at ha
  · next hlength =>
      obtain rfl := List.mem_singleton.mp ha
      exact hlength
  · cases ha

theorem guarded_inRange {size n index : Nat} (hn : index < n) :
    ∀ a ∈ (if size ≥ n then [(⟨size, index⟩ : TokenAccess)] else []), a.InRange := by
  intro a ha
  split at ha
  · next hsize =>
      obtain rfl := List.mem_singleton.mp ha
      exact lt_of_lt_of_le hn hsize
  · cases ha

theorem uptime_inRange (text : String) : ∀ a ∈ uptimeAccesses lib text, a.InRange :=
  List.forall_mem_append.mpr ⟨guarded_inRange (by decide), secondAccess_inRange _⟩

/-- The loop over the averages stops at the end of the list. -/
theorem averages_inRange (size : Nat) :
    ∀ a ∈ ((List.range 3).takeWhile (· < size)).map (TokenAccess.mk size), a.InRange := by
  intro a ha
  obtain ⟨idx, hidx, rfl⟩ := List.mem_map.mp ha
  exact of_decide_eq_true (List.all_eq_true.mp List.all_takeWhile idx hidx)

/-- What the guards leave open is the size of the list of thread counts. -/
theorem loadavg_inRange_iff (text : String) :
    (∀ a ∈ loadavgAccesses lib text, a.InRange) ↔ LoadavgWide lib text := by
  simp only [loadavgAccesses]
  rw [List.forall_mem_append, List.forall_mem_append, and_iff_left (guarded_inRange (by decide)),
    and_iff_right (averages_inRange _), LoadavgWide]
  by_cases hfour : (lib.splitString text [" "]).length ≥ 4
  · have hthreads : (lib.splitString text [" "])[3]? =
        some ((lib.splitString text [" "]).getD 3 "") := by
      rw [List.getD_eq_getElem?_getD, List.getElem?_eq_getElem hfour, Option.getD_some]
    rw [if_pos hfour, if_pos (le_trans (by decide : 1 ≤ 4) hfour),
      if_pos (le_trans (by decide : 2 ≤ 4) hfour), hthreads]
    simp only [Option.some.injEq, forall_eq', List.forall_mem_append, List.forall_mem_singleton,
      TokenAccess.InRange]
    constructor
    · exact fun h => h.2
    · exact fun h => ⟨⟨hfour, lt_of_lt_of_le (by decide) h⟩, h⟩
  · have hnone : (lib.splitString text [" "])[3]? = none :=
      List.getElem?_eq_none_iff.mpr (by omega)
    rw [if_neg hfour, hnone]
    simp

theorem readLoadavg_isSome_iff (text : String) :
    (readLoadavg lib double text).isSome ↔ LoadavgWide lib text := by
  simp only [readLoadavg, LoadavgWide]
  split
  · next hnone => simp [hnone]
  · next threads hthreads =>
      simp only [hthreads, Option.some.injEq, forall_eq']
      split <;> simp <;> omega

/-- A line that starts one way does not start the other. -/
theorem lineStarts_btime (hcpu : lineStarts line "cpu " 4 = true) :
    lineStarts line "btime " 6 = false := by
  refine Bool.eq_false_iff.mpr fun hbtime => ?_
  simp only [lineStarts, Bool.and_eq_true, List.isPrefixOf_iff_prefix] at hcpu hbtime
  rcases List.prefix_or_prefix_of_prefix hcpu.1 hbtime.1 with h | h
  · exact absurd h (by decide)
  · exact absurd h (by decide)

/-- Only the nine times are not guarded. -/
theorem statLine_inRange_iff (line : String) :
    (∀ a ∈ statLineAccesses lib line, a.InRange) ↔ StatLineWide lib line := by
  rw [StatLineWide]
  by_cases hcpu : lineStarts line "cpu " 4 = true
  · simp only [statLineAccesses, hcpu, lineStarts_btime hcpu, Bool.false_eq_true, if_false, if_true,
      List.forall_mem_map, List.mem_range, TokenAccess.InRange, forall_const]
    constructor
    · intro h
      exact h 8 (by decide)
    · intro h idx hidx
      omega
  · simp only [statLineAccesses, hcpu, if_false, false_implies, iff_true, Bool.false_eq_true]
    repeat' split
    all_goals
      first
        | exact secondAccess_inRange _
        | exact fun _ h => absurd h List.not_mem_nil

theorem readStatLine_isSome_iff (line : String) :
    (readStatLine lib line).isSome ↔ StatLineWide lib line := by
  rw [StatLineWide]
  by_cases hcpu : lineStarts line "cpu " 4 = true
  · simp only [readStatLine, hcpu, lineStarts_btime hcpu, Bool.false_eq_true, if_false, if_true,
      forall_const]
    split <;> simp <;> omega
  · simp only [readStatLine, hcpu, if_false, false_implies, iff_true, Bool.false_eq_true]
    repeat' split
    all_goals rfl

theorem readStatLines_isSome_iff (lines : List String) :
    (readStatLines lib lines).isSome ↔ ∀ line ∈ lines, StatLineWide lib line := by
  induction lines with
  | nil => simp [readStatLines]
  | cons line lines ih =>
      rw [List.forall_mem_cons, ← ih, ← readStatLine_isSome_iff, readStatLines]
      cases readStatLine lib line <;> cases readStatLines lib lines <;> simp

theorem stat_inRange_iff (text : String) :
    (∀ a ∈ statAccesses lib text, a.InRange) ↔ StatWide lib text := by
  simp only [statAccesses, List.forall_mem_flatMap, statLine_inRange_iff]
  rfl

/-- **The accesses of a loader are in their lists where the file is wide
enough.** -/
theorem group_inRange_iff : (∀ a ∈ groupAccesses lib files group, a.InRange) ↔
    GroupWide lib files group := by
  cases group with
  | uptime =>
      refine iff_of_true ?_ trivial
      rw [groupAccesses]
      cases files.uptime with
      | none => exact fun _ h => absurd h List.not_mem_nil
      | some text => exact uptime_inRange text
  | loadavg =>
      rw [groupAccesses, GroupWide]
      cases files.loadavg with
      | none => simp
      | some text => simpa using loadavg_inRange_iff text
  | stat =>
      rw [groupAccesses, GroupWide]
      cases files.stat with
      | none => simp
      | some text => simpa using stat_inRange_iff text
  | vmstat => exact iff_of_true (fun _ h => absurd h List.not_mem_nil) trivial

theorem readGroup_isSome_iff :
    (readGroup lib double files group).isSome ↔ GroupWide lib files group := by
  cases group with
  | uptime => exact iff_of_true rfl trivial
  | loadavg =>
      rw [readGroup, GroupWide]
      cases files.loadavg with
      | none => simp
      | some text => simpa using readLoadavg_isSome_iff text
  | stat =>
      rw [readGroup, GroupWide]
      cases files.stat with
      | none => simp
      | some text => simpa [readStat, StatWide] using readStatLines_isSome_iff _
  | vmstat => exact iff_of_true rfl trivial

end Loader

/-! ## The times of the CPU -/

section Cpu

variable {lib : Advgetopt} {double : String → Option Rat} {line : String} {lines : List String}
  {files : ProcFiles} {ws : Writes} {idx : Fin 9}

theorem mem_writeInteger {figure : Figure} {value : Option String} {w : Figure × Reading} :
    w ∈ writeInteger lib figure value ↔
      ∃ n, value.bind lib.integer = some n ∧ w = (figure, .int n) := by
  rw [writeInteger]
  split
  · next hnone => simp [hnone]
  · next n hsome => simp [hsome]

/-- A time is written by the lines `cpu` with a number in its column. -/
theorem readStatLine_cpu_iff (h : readStatLine lib line = some ws) :
    (∃ v, (Figure.cpu idx, v) ∈ ws) ↔ LineGives lib line idx := by
  by_cases hcpu : lineStarts line "cpu " 4 = true
  · simp only [readStatLine, hcpu, lineStarts_btime hcpu, Bool.false_eq_true, if_false,
      if_true] at h
    split at h
    · cases h
    · cases h
      simp only [LineGives, hcpu, true_and, List.mem_flatMap, List.mem_finRange, mem_writeInteger,
        Option.bind_eq_some_iff]
      constructor
      · rintro ⟨v, idx', n, ⟨token, htoken, hn⟩, hw⟩
        obtain rfl : idx = idx' := Figure.cpu.inj (congrArg Prod.fst hw)
        exact ⟨token, n, htoken, hn⟩
      · rintro ⟨token, n, htoken, hn⟩
        exact ⟨.int n, idx, n, ⟨token, htoken, hn⟩, rfl⟩
  · refine iff_of_false ?_ (fun hgives => hcpu hgives.1)
    rintro ⟨v, hv⟩
    simp only [readStatLine, hcpu, Bool.false_eq_true, if_false] at h
    repeat' split at h
    all_goals
      cases h
      first
        | (obtain ⟨n, -, hw⟩ := mem_writeInteger.mp hv
           cases hw)
        | cases List.mem_singleton.mp hv
        | cases hv

theorem readStatLines_cpu_iff (h : readStatLines lib lines = some ws) :
    (∃ v, (Figure.cpu idx, v) ∈ ws) ↔ ∃ line ∈ lines, LineGives lib line idx := by
  induction lines generalizing ws with
  | nil =>
      cases h
      simp
  | cons line lines ih =>
      rw [readStatLines] at h
      split at h
      · next hline hlines =>
          cases h
          simp only [List.mem_append, exists_or, readStatLine_cpu_iff hline, ih hlines,
            List.exists_mem_cons_iff]
      · cases h

theorem readGroup_cpu_iff (h : readGroup lib double files .stat = some ws) :
    (lastWrite ws (.cpu idx)).isSome ↔ CpuGiven lib files idx := by
  rw [lastWrite_isSome, CpuGiven]
  rw [readGroup] at h
  split at h
  · next hnone =>
      cases h
      simp [hnone]
  · next text htext =>
      rw [readStatLines_cpu_iff h]
      simp [htext]

end Cpu

/-! ## Runs -/

section Runs

variable {lib : Advgetopt} {double : String → Option Rat} {files : ProcFiles} {r : StatsRun}
  {s s' : SysStats} {f : Figure}

/-- The members with an initializer have a value. -/
def SysStats.Assigned (s : SysStats) : Prop := ∀ f, f.initial.isSome → (s.figures f).isSome

theorem create_assigned : SysStats.create.Assigned := fun _ hf => hf

theorem load_assigned (hs : s.Assigned) {group : StatsGroup}
    (h : s.load lib double files group = some s') : s'.Assigned := by
  rw [SysStats.load] at h
  split at h
  · cases h
    exact hs
  · obtain ⟨ws, -, rfl⟩ := Option.map_eq_some_iff.mp h
    intro f hf
    show ((lastWrite ws f).or (s.figures f)).isSome
    rw [Option.isSome_or, hs f hf, Bool.or_true]

theorem getFigure_assigned (hs : s.Assigned) (f : Figure) :
    (s.getFigure lib double files f).1.Assigned := by
  rw [SysStats.getFigure]
  split
  · exact hs
  · next hload => exact load_assigned hs hload

theorem sysStats_assigned (hr : r.stats.Assigned) (call : StatsCall) :
    (sysStats lib double r call).1.stats.Assigned := by
  cases call with
  | reset files => exact hr
  | get g =>
      cases g with
      | figure f => exact getFigure_assigned hr f
      | cpuStat field =>
          simp only [sysStats, SysStats.get]
          split
          · exact hr
          · exact getFigure_assigned hr _
      | page p =>
          simp only [sysStats, SysStats.get, SysStats.getPage, SysStats.loadVmstats]
          split <;> exact hr

theorem load_inRange_iff (group : StatsGroup) :
    (∀ a ∈ loadAccesses lib r group, a.InRange) ↔
      (r.stats.defined group = false → GroupWide lib r.files group) := by
  rw [loadAccesses, ← group_inRange_iff]
  cases r.stats.defined group <;> simp

/-- A time is there afterwards if it was there, or is given now. -/
theorem cpu_value_iff (hr : r.Holds lib double) {ws : Writes} {idx : Fin 9}
    (hws : readGroup lib double r.files .stat = some ws) :
    (lastWrite ws (.cpu idx)).or (r.stats.figures (.cpu idx)) ≠ none ↔
      (r.stats.figures (.cpu idx)).isSome ∨
        (r.stats.defined .stat = false ∧ CpuGiven lib r.files idx) := by
  cases hdefined : r.stats.defined .stat with
  | true =>
      obtain ⟨ws', hws', hfigures⟩ := hr .stat hdefined
      obtain rfl : ws = ws' := Option.some.inj (hws.symm.trans hws')
      cases hv : lastWrite ws (.cpu idx) with
      | none => simp [Option.ne_none_iff_isSome]
      | some v => simp [hfigures (.cpu idx) v rfl hv]
  | false =>
      rw [← readGroup_cpu_iff hws, Option.ne_none_iff_isSome, Option.isSome_or, Bool.or_eq_true,
        or_comm]
      simp

/-- **A getter of a member is safe exactly if its file is wide enough and its
member has a value.** -/
theorem getFigure_safe_iff (hr : r.Holds lib double) (ha : r.stats.Assigned) (f : Figure) :
    (∀ a ∈ loadAccesses lib r f.group, a.InRange) ∧
        (r.stats.getFigure lib double r.files f).2 ≠ none ↔
      FigureSafe lib r f := by
  rw [load_inRange_iff, getFigure_value hr, FigureSafe]
  refine and_congr_right fun hwide => ?_
  have hread : ∃ ws, readGroup lib double r.files f.group = some ws := by
    cases hdefined : r.stats.defined f.group with
    | true =>
        obtain ⟨ws, hws, -⟩ := hr f.group hdefined
        exact ⟨ws, hws⟩
    | false => exact Option.isSome_iff_exists.mp (readGroup_isSome_iff.mpr (hwide hdefined))
  obtain ⟨ws, hws⟩ := hread
  rw [hws, Option.bind_some, ne_eq, Option.map_eq_none_iff, ← ne_eq]
  by_cases hcpu : ∃ idx, f = .cpu idx
  · obtain ⟨idx, rfl⟩ := hcpu
    rw [cpu_value_iff hr hws]
    simp
  · have hinitial : f.initial.isSome := by
      cases f <;> first | rfl | exact absurd ⟨_, rfl⟩ hcpu
    refine iff_of_true ?_ (fun idx hidx => absurd ⟨idx, hidx⟩ hcpu)
    rw [Option.ne_none_iff_isSome, Option.isSome_or, ha f hinitial, Bool.or_true]

theorem safe_iff_within (hr : r.Holds lib double) (ha : r.stats.Assigned) (call : StatsCall) :
    StatsSafe lib (event (sysStats lib double) r call) ↔
      StatsWithin lib (event (sysStats lib double) r call) := by
  cases call with
  | reset files => simp [StatsSafe, StatsWithin, callAccesses]
  | get g =>
      simp only [StatsSafe, StatsWithin, event_input, event_output, event_before, sysStats]
      cases g with
      | figure f =>
          simp only [callAccesses, SysStats.get, Prod.map_snd, ne_eq, Except.ok.injEq]
          exact getFigure_safe_iff hr ha f
      | cpuStat field =>
          by_cases hfield : 0 ≤ field ∧ field < 9
          · have hrange : ¬ (field < 0 ∨ field ≥ 9) := by omega
            simp only [callAccesses, SysStats.get, dif_neg hrange, if_neg hrange, Prod.map_snd,
              ne_eq, Except.ok.injEq]
            refine (getFigure_safe_iff hr ha (.cpu ⟨field.toNat, toNat_lt_nine hfield⟩)).trans ?_
            exact ⟨fun h _ => h, fun h => h hfield⟩
          · have hrange : field < 0 ∨ field ≥ 9 := by omega
            simp only [callAccesses, SysStats.get, dif_pos hrange, if_pos hrange]
            refine iff_of_true ⟨fun _ h => absurd h List.not_mem_nil, ?_⟩
              (fun h => absurd h hfield)
            exact fun h => by cases h
      | page p =>
          refine iff_of_true ⟨fun _ h => absurd h List.not_mem_nil, ?_⟩ trivial
          exact fun h => by cases h

end Runs

/-- **`sys_stats` stays within its data in all calls of a run exactly when each
file that a getter reads is wide enough, and the times of the CPU are asked
for after a file that gave them.** -/
theorem sysStats_safe_iff (lib : Advgetopt) (double : String → Option Rat) (files : ProcFiles)
    (calls : List StatsCall) :
    (∀ e ∈ trace (sysStats lib double) ⟨SysStats.create, files⟩ calls, StatsSafe lib e) ↔
    ∀ e ∈ trace (sysStats lib double) ⟨SysStats.create, files⟩ calls, StatsWithin lib e :=
  trace_forall_iff (I := fun r => r.Holds lib double ∧ r.stats.Assigned)
    (fun _ call hr => safe_iff_within hr.1 hr.2 call)
    (fun r call hr _ => ⟨sysStats_step r call hr.1, sysStats_assigned hr.2 call⟩)
    ⟨create_holds, create_assigned⟩ calls

/-- Thread counts without a `/`, four columns on the line `cpu`, and no
`/proc/stat`. -/
theorem sysStats_unsafe :
    (¬ ∀ e ∈ trace (sysStats .decimal fun _ => none)
        ⟨SysStats.create, ⟨none, some "0 0 0 2 99\n", none, none⟩⟩
        [.get (.figure .runningThreads)], StatsSafe .decimal e) ∧
    (¬ ∀ e ∈ trace (sysStats .decimal fun _ => none)
        ⟨SysStats.create, ⟨none, none, some "cpu  1 2 3 4\n", none⟩⟩
        [.get (.figure .intr)], StatsSafe .decimal e) ∧
    ¬ ∀ e ∈ trace (sysStats .decimal fun _ => none)
        ⟨SysStats.create, ⟨none, none, none, none⟩⟩
        [.get (.cpuStat 0)], StatsSafe .decimal e := by
  refine ⟨fun hall => ?_, fun hall => ?_, fun hall => ?_⟩
  · exact absurd (hall _ List.mem_cons_self).1 (by decide)
  · exact absurd (hall _ List.mem_cons_self).1 (by decide)
  · exact absurd rfl (hall _ List.mem_cons_self).2

end Sitter
