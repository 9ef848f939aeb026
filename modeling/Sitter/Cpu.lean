/-
# `Sitter.Cpu` — the cpu plugin: how long has the load been high?

A high load is a warning; when it lasts for more than 15 minutes it becomes an
error.  The plugin is asked once a pass, and what it remembers from one pass to
the next is one date in the cache:

    high, no file     the date of the pass is stored, a warning
    high, a file      stored more than 900 seconds ago   the error
                      else, or not a number              a warning
    normal            the file is removed

So the file holds the date of the first pass of the stretch of high passes
that goes on (`final_highCpu`), and the error is raised exactly when that pass
is more than 900 seconds old (`highCpuAlarm`).

The numbers of a pass are what the getters of `sys_stats` gave.  A `double` is
a rational number; `round` stands for the rounding of a product to a `double`,
`real` for what JSON makes of one.
-/
import Sitter.Base.Stretch
import Sitter.RunPlugins

namespace Sitter

open Machine

/-- What the getters of `sys_stats` return in a pass. -/
structure CpuFigures where
  uptime : Rat
  idle : Rat
  loadAvg1m : Rat
  loadAvg5m : Rat
  loadAvg15m : Rat
  userTime : Int
  niceTime : Int
  systemTime : Int
  idleTime : Int
  iowaitTime : Int
  bootTime : Int
  processes : Int
  procsRunning : Int
  procsBlocked : Int
  pageIn : Int
  pageOut : Int
  pageSwapIn : Int
  pageSwapOut : Int
  deriving DecidableEq, Repr

/-- One pass of the plugin: the machine, the clock, and whether the file in the
cache can be read, written and removed. -/
structure CpuPass where
  hardwareConcurrency : Nat
  clockTicks : Int
  figures : CpuFigures
  startDate : Int
  readable : Bool
  writable : Bool
  removable : Bool
  deriving DecidableEq, Repr

namespace CpuPass

def cpuCount (p : CpuPass) : Nat := max 1 p.hardwareConcurrency

/-- `max_avg1`: the load from which on the processors are overloaded. -/
def maxAvg1 (round : Rat → Rat) (p : CpuPass) : Rat :=
  if p.cpuCount ≤ 1 then p.cpuCount  -- with 1 CPU, go up to 100%
  else if p.cpuCount ≤ 2 then round (p.cpuCount * round (95 / 100))
  else round (p.cpuCount * round (8 / 10))

/-- The load of the last minute is too high. -/
def high (round : Rat → Rat) (p : CpuPass) : Bool := p.figures.loadAvg1m ≥ p.maxAvg1 round

end CpuPass

/-! ## The pass -/

/-- `json["cpu"]` -/
def cpuMember (name : String) (value : Value) : PluginAction :=
  .set [.name "cpu", .name name] value

def highCpuError : PluginAction := .appendError passNode "cpu" "High CPU usage." 100

def highCpuWarning : PluginAction := cpuMember "warning" (.text "High CPU usage")

/-- What is done about the load, and the file after it. -/
def watchHighCpu (lib : Advgetopt) (round : Rat → Rat) (file : Option String) (p : CpuPass) :
    List PluginAction × Option String :=
  if p.high round then
    match readAll p.readable file with
    | some text =>
        match lib.integer text with
        | some start =>
            -- high CPU started more than 15 min. ago?
            if int64 (p.startDate - start) > 15 * 60 then ([highCpuError], file)
            else ([highCpuWarning], file)
        | none => ([highCpuWarning], file)
    | none => ([highCpuWarning], writeAll p.writable file (toString p.startDate))
  else ([], if p.removable then none else file)

/-- `on_process_watch` -/
def onProcessWatchCpu (lib : Advgetopt) (round : Rat → Rat) (real : Rat → Value) :
    Step (Option String) CpuPass (List PluginAction) := fun file p =>
  let info := p.figures
  let check := watchHighCpu lib round file p
  (check.2,
    [cpuMember "count" (.int p.cpuCount),
      cpuMember "freq" (.int p.clockTicks),
      cpuMember "uptime" (real info.uptime),
      cpuMember "idle" (real info.idle),
      cpuMember "avg1" (real info.loadAvg1m),
      cpuMember "avg5" (real info.loadAvg5m),
      cpuMember "avg15" (real info.loadAvg15m)]
    ++ check.1
    ++ [cpuMember "total_cpu_user" (.int (int64 (info.userTime + info.niceTime))),
      cpuMember "total_cpu_system" (.int info.systemTime),
      cpuMember "total_cpu_wait" (.int (int64 (info.idleTime + info.iowaitTime))),
      cpuMember "time_of_boot" (.int info.bootTime),
      cpuMember "total_processes" (.int info.processes)]
    ++ (if info.procsRunning > 1 then [cpuMember "processes_running" (.int info.procsRunning)]
      else [])
    ++ (if info.procsBlocked ≠ 0 then [cpuMember "processes_blocked" (.int info.procsBlocked)]
      else [])
    ++ [cpuMember "page_cache_in" (.int info.pageIn),
      cpuMember "page_cache_out" (.int info.pageOut),
      cpuMember "swap_cache_in" (.int info.pageSwapIn),
      cpuMember "swap_cache_out" (.int info.pageSwapOut)])

/-! ## The error and the warning come from the check

What else the pass writes to the document is no error, so the two errors of the
check can be told apart by their messages. -/

section Check

variable {lib : Advgetopt} {round : Rat → Rat} {real : Rat → Value} {file : Option String}
  {p : CpuPass}

theorem mem_highCpuError :
    highCpuError ∈ (onProcessWatchCpu lib round real file p).2 ↔
      highCpuError ∈ (watchHighCpu lib round file p).1 := by
  have hrunning : highCpuError ∉ (if p.figures.procsRunning > 1 then
      [cpuMember "processes_running" (.int p.figures.procsRunning)] else []) := by
    split <;> simp [highCpuError, cpuMember]
  have hblocked : highCpuError ∉ (if p.figures.procsBlocked ≠ 0 then
      [cpuMember "processes_blocked" (.int p.figures.procsBlocked)] else []) := by
    split <;> simp [highCpuError, cpuMember]
  simp only [onProcessWatchCpu, List.mem_append, hrunning, hblocked]
  simp [highCpuError, cpuMember]

theorem mem_highCpuWarning (h : highCpuWarning ∈ (watchHighCpu lib round file p).1) :
    highCpuWarning ∈ (onProcessWatchCpu lib round real file p).2 := by
  simp only [onProcessWatchCpu, List.mem_append]
  exact Or.inl (Or.inl (Or.inl (Or.inl (Or.inr h))))

end Check

/-! ## What the file remembers

The file holds the time of the first pass of the stretch of high passes that is
under way.  A high pass leaves a file that is there alone, and any other pass
removes it. -/

/-- A pass whose file can be read, written and removed. -/
structure CpuPass.Works (p : CpuPass) : Prop where
  readable : p.readable = true
  writable : p.writable = true
  removable : p.removable = true
  isTime : IsTime p.startDate

/-- There is no file, or the file holds a time. -/
def HoldsDate (file : Option String) : Prop :=
  ∀ text, file = some text → ∃ t, IsTime t ∧ text = toString t

theorem holdsDate_none : HoldsDate none := by
  intro text htext
  exact absurd htext.symm (Option.some_ne_none text)

/-- The date in the file. -/
def highCpuStartDate (lib : Advgetopt) (file : Option String) : Option Int :=
  file.bind lib.integer

section Stretch

variable {lib : Advgetopt} {round : Rat → Rat} {real : Rat → Value} {file : Option String}
  {p : CpuPass}

/-- What a pass does to the file. -/
theorem highCpu_file (hlib : lib.ReadsBack) (hp : p.Works) (hfile : HoldsDate file) :
    HoldsDate (onProcessWatchCpu lib round real file p).1 ∧
      highCpuStartDate lib (onProcessWatchCpu lib round real file p).1 =
        if p.high round then some ((highCpuStartDate lib file).getD p.startDate) else none := by
  simp only [onProcessWatchCpu, watchHighCpu, hp.readable, readAll_true, hp.writable, writeAll_true,
    hp.removable, if_true]
  cases hhigh : p.high round with
  | false => exact ⟨holdsDate_none, rfl⟩
  | true =>
      cases file with
      | none =>
          have hback := hlib p.startDate hp.isTime.1 hp.isTime.2
          refine ⟨?_, hback⟩
          intro text htext
          exact ⟨p.startDate, hp.isTime, (Option.some.inj htext).symm⟩
      | some text =>
          -- a file that is there stays as it is
          obtain ⟨t, ht, rfl⟩ := hfile text rfl
          have hback := hlib t ht.1 ht.2
          simp only [if_true, hback, highCpuStartDate, Option.bind_some, Option.getD_some]
          split
          · exact ⟨hfile, hback⟩
          · exact ⟨hfile, hback⟩

/-- **The file holds the date of the first pass of the stretch.** -/
theorem final_highCpu (hlib : lib.ReadsBack) {before : List CpuPass}
    (hok : ∀ q ∈ before, q.Works) :
    HoldsDate (final (onProcessWatchCpu lib round real) none before) ∧
      highCpuStartDate lib (final (onProcessWatchCpu lib round real) none before) =
        (stretchStart (CpuPass.high round) before).map CpuPass.startDate := by
  have hempty : highCpuStartDate lib none = none := rfl
  refine final_stretch (I := HoldsDate) (A := CpuPass.Works) ?_ holdsDate_none hempty hok
  intro file p hfile hp
  exact highCpu_file hlib hp hfile

/-- The check raises the error when the file holds an old date. -/
theorem highCpuError_iff (hlib : lib.ReadsBack) (hp : p.Works) (hfile : HoldsDate file) :
    highCpuError ∈ (watchHighCpu lib round file p).1 ↔
      p.high round = true ∧
        ∃ t, highCpuStartDate lib file = some t ∧ t + 900 < p.startDate := by
  simp only [watchHighCpu, hp.readable, readAll_true]
  cases hhigh : p.high round with
  | false => simp
  | true =>
      cases file with
      | none => simp [highCpuStartDate, highCpuError, highCpuWarning, cpuMember]
      | some text =>
          obtain ⟨t, ht, rfl⟩ := hfile text rfl
          have hback := hlib t ht.1 ht.2
          have hexact : int64 (p.startDate - t) = p.startDate - t := by
            obtain ⟨hlo, hhi⟩ := hp.isTime
            obtain ⟨htlo, hthi⟩ := ht
            exact int64_of_range (by omega) (by omega)
          simp only [if_true, hback, hexact, highCpuStartDate, Option.bind_some,
            Option.some.injEq, true_and, exists_eq_left']
          split
          · next hlong => simp; omega
          · next hshort => simp [highCpuError, highCpuWarning, cpuMember]; omega

/-- A high pass that raises no error is a warning. -/
theorem highCpuWarning_of_not_error (hhigh : p.high round = true)
    (h : highCpuError ∉ (watchHighCpu lib round file p).1) :
    highCpuWarning ∈ (watchHighCpu lib round file p).1 := by
  simp only [watchHighCpu, hhigh, if_true] at h ⊢
  split
  · split
    · split
      · next hlong => simp_all
      · exact List.mem_cons_self
    · exact List.mem_cons_self
  · exact List.mem_cons_self

end Stretch

/-! ## The alarm -/

/-- The high passes up to `p` go back to one more than 900 seconds before it,
where the load was not high before. -/
def HighForLong (round : Rat → Rat) (before : List CpuPass) (p : CpuPass) : Prop :=
  ∃ earlier q later, before ++ [p] = earlier ++ q :: later ∧
    (∀ c ∈ q :: later, c.high round = true) ∧
    (∀ c, earlier.getLast? = some c → c.high round = false) ∧
    q.startDate + 900 < p.startDate

theorem highForLong_iff {round : Rat → Rat} {before : List CpuPass} {p : CpuPass} :
    HighForLong round before p ↔
      ∃ q, stretchStart (CpuPass.high round) (before ++ [p]) = some q ∧
        q.startDate + 900 < p.startDate := by
  simp only [HighForLong, stretchStart_eq_some]
  constructor
  · rintro ⟨earlier, q, later, hsplit, hon, hoff, hlong⟩
    exact ⟨q, ⟨earlier, later, hsplit, hon, hoff⟩, hlong⟩
  · rintro ⟨q, ⟨earlier, later, hsplit, hon, hoff⟩, hlong⟩
    exact ⟨earlier, q, later, hsplit, hon, hoff, hlong⟩

/-- **A pass raises the error exactly when the load has been high for more than
15 minutes.**  Else a high pass is a warning, and after a normal pass there is
no file, as at the start. -/
theorem highCpuAlarm (lib : Advgetopt) (hlib : lib.ReadsBack) (round : Rat → Rat)
    (real : Rat → Value) (before : List CpuPass) (p : CpuPass)
    (hok : ∀ q ∈ before ++ [p], q.Works) :
    (highCpuError ∈ (onProcessWatchCpu lib round real
        (final (onProcessWatchCpu lib round real) none before) p).2 ↔
      p.high round = true ∧ HighForLong round before p) ∧
    (p.high round = true →
      highCpuError ∉ (onProcessWatchCpu lib round real
        (final (onProcessWatchCpu lib round real) none before) p).2 →
      highCpuWarning ∈ (onProcessWatchCpu lib round real
        (final (onProcessWatchCpu lib round real) none before) p).2) ∧
    (p.high round = false →
      (onProcessWatchCpu lib round real
        (final (onProcessWatchCpu lib round real) none before) p).1 = none) := by
  have hp : p.Works := hok p List.mem_concat_self
  have hbefore : ∀ q ∈ before, q.Works := fun q hq => hok q (List.mem_append_left _ hq)
  obtain ⟨hfile, hdate⟩ : HoldsDate (final (onProcessWatchCpu lib round real) none before) ∧ _ :=
    final_highCpu hlib hbefore
  refine ⟨?_, ?_, ?_⟩
  · rw [mem_highCpuError, highCpuError_iff hlib hp hfile, hdate, highForLong_iff]
    refine and_congr_right fun hhigh => ?_
    rw [stretchStart_concat_on hhigh]
    cases stretchStart (CpuPass.high round) before with
    | none => simp
    | some q => simp
  · intro hhigh hno
    rw [mem_highCpuError] at hno
    exact mem_highCpuWarning (highCpuWarning_of_not_error hhigh hno)
  · intro hnormal
    simp only [onProcessWatchCpu, watchHighCpu, hnormal, Bool.false_eq_true, if_false, hp.removable,
      if_true]

/-- One processor at twice its load. -/
def busyPass (startDate : Int) : CpuPass where
  hardwareConcurrency := 1
  clockTicks := 100
  figures := ⟨0, 0, 2, 2, 2, 0, 0, 0, 0, 0, 0, 0, 0, 0, 0, 0, 0, 0⟩
  startDate := startDate
  readable := true
  writable := true
  removable := true

/-- 15 minutes and 20 seconds of it are an error. -/
theorem highCpuAlarm_busy :
    highCpuError ∈ (onProcessWatchCpu .decimal id (fun _ => .null)
      (final (onProcessWatchCpu .decimal id (fun _ => .null)) none [busyPass 60, busyPass 500])
      (busyPass 980)).2 := by
  have hok : ∀ q ∈ [busyPass 60, busyPass 500] ++ [busyPass 980], q.Works := by
    have hworks : ∀ t : Int, IsTime t → (busyPass t).Works := fun _ ht => ⟨rfl, rfl, rfl, ht⟩
    simp only [List.cons_append, List.nil_append, List.forall_mem_cons]
    refine ⟨hworks 60 ?_, hworks 500 ?_, hworks 980 ?_, fun q hq => absurd hq List.not_mem_nil⟩
    all_goals exact ⟨by norm_num, by norm_num⟩
  have hhigh : ∀ c ∈ [busyPass 60, busyPass 500, busyPass 980], c.high id = true := by decide
  refine (highCpuAlarm .decimal Advgetopt.decimal_readsBack id (fun _ => .null) _ _ hok).1.mpr ?_
  refine ⟨hhigh _ (by simp), [], busyPass 60, [busyPass 500, busyPass 980], rfl, hhigh, ?_, ?_⟩
  · exact fun c hc => absurd hc.symm (Option.some_ne_none c)
  · decide

end Sitter
