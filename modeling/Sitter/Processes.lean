/-
# `Sitter.Processes` — the processes plugin: who is running and who is missing

`load_processes` makes a list of definitions with distinct names
(`LoadedProcesses`).  `on_process_watch` then goes twice over lists:

    over the running processes    the first remaining definition that matches a
                                  process is output with it and erased
    over what remains             a definition that is expected to run is an
                                  error: it can't be found

The first loop is the greedy assignment of `Base.Greedy` (`watchRunning_eq`): a
running process stands for one definition only.  A definition is then reported
missing exactly when every process that matches it stands for another one, and
that is "no process matches it" when no process matches two (`missing_iff`).
-/
import Sitter.Base.Greedy
import Sitter.RunPlugins

namespace Sitter

open Document

/-! ## Definitions -/

/-- `sitter_process` -/
structure ProcessDef where
  name : String
  mandatory : Bool
  allowDuplicates : Bool
  command : String := ""
  service : String := ""
  matchPattern : String := ""
  matchDefined : Bool := false
  serviceIsEnabled : Bool := true
  serviceIsActive : Bool := true
  serviceIsBackend : Bool := false
  deriving DecidableEq, Repr

/-- What `systemctl` says of a service: the output of `show -p UnitFileState`,
as it comes, and the exit code of `is-active`. -/
structure Systemctl where
  unitFileState : String → String
  isActive : String → Int

/-- `is_service_enabled` -/
def Systemctl.isServiceEnabled (systemctl : Systemctl) (service : String) : Bool :=
  systemctl.unitFileState service == "enabled"

/-- `is_service_active` -/
def Systemctl.isServiceActive (systemctl : Systemctl) (service : String) : Bool :=
  systemctl.isActive service == 0

/-- What the definitions take from the server's own configuration: the
`backend_status`, and the list of `backends`. -/
structure Backends where
  status : String
  valid : List String

namespace ProcessDef

/-- `set_service` -/
def setService (systemctl : Systemctl) (service : String) (backend : Bool) (d : ProcessDef) :
    ProcessDef :=
  if service = "" then
    { d with
      service
      serviceIsEnabled := true
      serviceIsActive := true
      serviceIsBackend := false }
  else
    { d with
      service
      serviceIsEnabled := systemctl.isServiceEnabled service
      serviceIsActive := systemctl.isServiceEnabled service && systemctl.isServiceActive service
      serviceIsBackend := backend }

/-- `set_match`; the assignment to the `std::regex` throws if the pattern is
none. -/
def setMatch (regex : Regex) (pattern : String) (d : ProcessDef) : Except String ProcessDef :=
  match regex pattern with
  | none => .error regexError
  | some _ => .ok { d with matchDefined := pattern ≠ "", matchPattern := pattern }

/-- `is_process_expected_to_run` -/
def isProcessExpectedToRun (backends : Backends) (d : ProcessDef) : Bool :=
  if d.service = "" then true
  else if d.serviceIsBackend then
    -- all the backends get disabled with the one flag
    if backends.status = "disabled" then false else backends.valid.contains d.service
  else d.serviceIsEnabled || d.serviceIsActive

/-- `match`, for a command without its path and a whole command line. -/
def isMatch (regex : Regex) (d : ProcessDef) (command cmdline : String) : Bool :=
  if d.command ≠ "" ∧ d.command ≠ command then false
  else if d.matchDefined = true ∧ ((regex d.matchPattern).any fun f => f cmdline) = false then false
  else if d.command = "" ∧ d.matchDefined = false ∧ d.name ≠ command then false
  else true

end ProcessDef

/-! ## Loading -/

/-- `g_processes`, as the loader leaves it. -/
structure LoadedProcesses where
  defs : List ProcessDef
  distinct : (defs.map ProcessDef.name).Nodup

/-- `set_mandatory(true)` on the first definition of a name. -/
def markMandatory (name : String) : List ProcessDef → List ProcessDef
  | [] => []
  | d :: ds =>
      if d.name = name then { d with mandatory := true } :: ds else d :: markMandatory name ds

theorem markMandatory_names (name : String) (defs : List ProcessDef) :
    (markMandatory name defs).map ProcessDef.name = defs.map ProcessDef.name := by
  induction defs with
  | nil => rfl
  | cons d ds ih =>
      simp only [markMandatory]
      split
      · rfl
      · rw [List.map_cons, List.map_cons, ih]

def ConfFile.flag (lib : Advgetopt) (file : ConfFile) (name : String) : Bool :=
  match file name with
  | none => false
  | some text => lib.isTrue text

/-- The definition of one file, before its `match`. -/
def ProcessDef.beforeMatch (lib : Advgetopt) (systemctl : Systemctl) (file : ConfFile)
    (name : String) : ProcessDef :=
  let wp : ProcessDef :=
    { name, mandatory := file.flag lib "mandatory"
      allowDuplicates := file.flag lib "allow_duplicates" }
  let wp :=
    match file "command" with
    | none => wp
    | some command => { wp with command }
  match file "service" with
  | none => wp
  | some service => wp.setService systemctl service (file.flag lib "backend")

/-- The definition of one file. -/
def ProcessDef.ofFile (lib : Advgetopt) (regex : Regex) (systemctl : Systemctl) (file : ConfFile)
    (name : String) : Except String ProcessDef :=
  let wp := beforeMatch lib systemctl file name
  match file "match" with
  | none => .ok wp
  | some pattern => wp.setMatch regex pattern

section OfFile

variable {lib : Advgetopt} {regex : Regex} {systemctl : Systemctl} {file : ConfFile}
  {name : String} {wp : ProcessDef}

theorem beforeMatch_flags (lib : Advgetopt) (systemctl : Systemctl) (file : ConfFile)
    (name : String) :
    let wp := ProcessDef.beforeMatch lib systemctl file name
    wp.name = name ∧ wp.mandatory = file.flag lib "mandatory" ∧
      wp.allowDuplicates = file.flag lib "allow_duplicates" := by
  simp only [ProcessDef.beforeMatch, ProcessDef.setService]
  cases file "command" <;> cases file "service" <;> dsimp only <;>
    first
      | exact ⟨rfl, rfl, rfl⟩
      | split <;> exact ⟨rfl, rfl, rfl⟩

theorem ofFile_eq_ok (h : ProcessDef.ofFile lib regex systemctl file name = .ok wp) :
    ∃ matchDefined matchPattern, wp =
      { ProcessDef.beforeMatch lib systemctl file name with matchDefined, matchPattern } := by
  rw [ProcessDef.ofFile] at h
  cases hmatch : file "match" with
  | none =>
      rw [hmatch] at h
      cases h
      exact ⟨_, _, rfl⟩
  | some pattern =>
      simp only [hmatch, ProcessDef.setMatch] at h
      split at h
      · cases h
      · cases h
        exact ⟨_, _, rfl⟩

theorem ofFile_flags (h : ProcessDef.ofFile lib regex systemctl file name = .ok wp) :
    wp.name = name ∧ wp.mandatory = file.flag lib "mandatory" ∧
      wp.allowDuplicates = file.flag lib "allow_duplicates" := by
  obtain ⟨matchDefined, matchPattern, rfl⟩ := ofFile_eq_ok h
  exact beforeMatch_flags lib systemctl file name

/-- The file has no `match` that is no pattern. -/
def ConfFile.MatchValid (regex : Regex) (file : ConfFile) : Prop :=
  ∀ pattern, file "match" = some pattern → (regex pattern).isSome = true

theorem ofFile_valid (h : file.MatchValid regex) (lib : Advgetopt) (systemctl : Systemctl)
    (name : String) : ∃ wp, ProcessDef.ofFile lib regex systemctl file name = .ok wp := by
  rw [ProcessDef.ofFile]
  cases hmatch : file "match" with
  | none => exact ⟨_, rfl⟩
  | some pattern =>
      obtain ⟨isMatch, hsome⟩ := Option.isSome_iff_exists.mp (h pattern hmatch)
      simp only [ProcessDef.setMatch, hsome]
      exact ⟨_, rfl⟩

end OfFile

/-- `load_process`; what it throws is an `invalid_name`, or a `regex_error`. -/
def loadProcess (lib : Advgetopt) (regex : Regex) (systemctl : Systemctl) (file : ConfFile)
    (loaded : LoadedProcesses) : Except String LoadedProcesses :=
  match file "name" with
  | none => .ok loaded
  | some name =>
      match hfound : loaded.defs.find? fun d => d.name = name with
      | some d =>
          if file.flag lib "allow_duplicates" = false ∨ d.allowDuplicates = false then
            .error ("found process \"" ++ name ++ "\" twice and duplicates are not allowed.")
          else if file.flag lib "mandatory" then
            .ok ⟨markMandatory name loaded.defs, by
              rw [markMandatory_names]
              exact loaded.distinct⟩
          else .ok loaded
      | none =>
          match hfile : ProcessDef.ofFile lib regex systemctl file name with
          | .error what => .error what
          | .ok wp =>
              .ok ⟨loaded.defs ++ [wp], by
                rw [List.map_append, List.map_singleton, (ofFile_flags hfile).1]
                refine List.nodup_append.mpr ⟨loaded.distinct, List.nodup_singleton _, ?_⟩
                intro a ha b hb
                obtain ⟨d, hd, rfl⟩ := List.mem_map.mp ha
                obtain rfl := List.mem_singleton.mp hb
                simpa using List.find?_eq_none.mp hfound d hd⟩

/-- `load_processes` -/
def loadProcesses (lib : Advgetopt) (regex : Regex) (systemctl : Systemctl)
    (files : List ConfFile) : Except String LoadedProcesses :=
  files.foldlM (fun loaded file => loadProcess lib regex systemctl file loaded)
    ⟨[], List.nodup_nil⟩

/-! ## The running processes -/

/-- `cppprocess::process_info`, as far as the plugin reads it. -/
structure ProcessInfo where
  name : String
  args : List String
  command : String
  cpuPercent : Int
  totalSize : Int
  rssSize : Int
  ttyMajor : Int
  ttyMinor : Int
  utime : Int
  stime : Int
  cutime : Int
  cstime : Int
  deriving DecidableEq, Repr

/-- The name without its path. -/
def ProcessInfo.basename (info : ProcessInfo) : String :=
  String.ofList (info.name.toList.reverse.takeWhile (· ≠ '/')).reverse

/-- The name with the arguments that are not empty. -/
def ProcessInfo.cmdline (info : ProcessInfo) : String :=
  info.args.foldl (fun cmdline arg => if arg = "" then cmdline else cmdline ++ " " ++ arg) info.name

/-- `server::output_process`, for the item `k` of the `process` array of a
node. -/
def outputProcess (pluginName : String) (json : PluginNode) (k : Nat) (info : Option ProcessInfo)
    (processName : String) (priority : Int) : List PluginAction :=
  let member (name : String) (value : Value) : PluginAction :=
    .set (json.path ++ [.name "process", .item k, .name name]) value
  [.push (json.path ++ [.name "process"]) .null, member "name" (.text processName)] ++
    match info with
    | none =>
        [member "error" (.text "missing"),
          .appendError json pluginName ("can't find mandatory processs \"" ++ processName
            ++ "\" in the list of processes. network health is not available.") priority]
    | some info =>
        [member "cmdline" (.text info.command),
          member "pcpu" (.int info.cpuPercent),
          member "total_size" (.int info.totalSize),
          member "resident" (.int info.rssSize),
          member "tty" (.text (toString info.ttyMajor ++ "," ++ toString info.ttyMinor)),
          member "utime" (.text (toString info.utime)),
          member "stime" (.text (toString info.stime)),
          member "cutime" (.text (toString info.cutime)),
          member "cstime" (.text (toString info.cstime))]

/-! ## The pass -/

/-- `json["processes"]` -/
def processesNode : PluginNode := ⟨[.name "processes"], rfl⟩

/-- `json["process"][j]`, where a missing process is described. -/
def missingNode (j : Nat) : PluginNode := ⟨[.name "process", .item j], rfl⟩

namespace ProcessDef

/-- The error about a backend that runs although it is turned off. -/
def runningErrors (backends : Backends) (d : ProcessDef) : List PluginAction :=
  if d.serviceIsBackend = true ∧ d.isProcessExpectedToRun backends = false then
    [.appendError processesNode "processes"
      ("found process \"" ++ d.name ++ "\" running when disabled.") 35]
  else []

def missingMessage (d : ProcessDef) : String :=
  (if d.mandatory then "can't find mandatory process \"" else "can't find expected process \"")
    ++ d.name ++ "\" in the list of processes."

/-- A backend which is not running while in maintenance is a very low
priority. -/
def missingPriority (maintenance : Bool) (d : ProcessDef) : Int :=
  if d.serviceIsBackend = true ∧ maintenance = true then 5 else if d.mandatory then 95 else 60

/-- What the second loop does with a definition. -/
def missing (backends : Backends) (maintenance : Bool) (j : Nat) (d : ProcessDef) :
    List PluginAction :=
  [.push [.name "process"] .null, .set ((missingNode j).path ++ [.name "name"]) (.text d.name)] ++
    if d.isProcessExpectedToRun backends then
      [.appendError (missingNode j) "processes" d.missingMessage (d.missingPriority maintenance)]
    else [.set ((missingNode j).path ++ [.name "resident"]) (.text "no")]

end ProcessDef

/-- The loop over the running processes, `k` of which were output so far, and
the definitions it leaves.  `matched` is `sitter_process::match`. -/
def watchRunning (matched : ProcessDef → ProcessInfo → Bool) (backends : Backends) :
    Nat → List ProcessInfo → List ProcessDef → List PluginAction × List ProcessDef
  | _, [], defs => ([], defs)
  | k, info :: list, defs =>
      if defs.isEmpty then ([], defs)
      else
        match defs.find? (matched · info) with
        | none => watchRunning matched backends k list defs
        | some d =>
            let r := watchRunning matched backends (k + 1) list (defs.eraseP (matched · info))
            (outputProcess "processes" processesNode k (some info) d.name 35
              ++ d.runningErrors backends ++ r.1, r.2)

/-- The loop over the definitions that are left. -/
def watchMissing (backends : Backends) (maintenance : Bool) :
    Nat → List ProcessDef → List PluginAction
  | _, [] => []
  | j, d :: defs =>
      d.missing backends maintenance j ++ watchMissing backends maintenance (j + 1) defs

/-- `on_process_watch`, once the definitions are loaded. -/
def onProcessWatchProcesses (matched : ProcessDef → ProcessInfo → Bool) (backends : Backends)
    (maintenance : Bool) (list : List ProcessInfo) (loaded : LoadedProcesses) :
    List PluginAction :=
  let r := watchRunning matched backends 0 list loaded.defs
  r.1 ++ watchMissing backends maintenance 0 r.2

/-! ## The first loop is a greedy assignment

Each running process takes the first definition that matches it and is left, so
the loop is `assign` of the general greedy assignment. -/

section Watch

variable {matched : ProcessDef → ProcessInfo → Bool} {backends : Backends} {maintenance : Bool}

/-- What the first loop does for the processes that were given a definition. -/
def outputs (backends : Backends) :
    Nat → List (ProcessInfo × Option ProcessDef) → List PluginAction
  | _, [] => []
  | k, (_, none) :: given => outputs backends k given
  | k, (info, some d) :: given =>
      outputProcess "processes" processesNode k (some info) d.name 35
        ++ d.runningErrors backends ++ outputs backends (k + 1) given

/-- With no definition left no process is given one. -/
theorem outputs_assign_nil (matched : ProcessDef → ProcessInfo → Bool) (backends : Backends)
    (k : Nat) (list : List ProcessInfo) :
    outputs backends k (Greedy.assign matched list []).1 = [] ∧
      (Greedy.assign matched list []).2 = [] := by
  induction list with
  | nil => exact ⟨rfl, rfl⟩
  | cons info list ih =>
      rw [Greedy.assign_none List.find?_nil]
      exact ih

/-- **The loop gives each running process the first definition left that
matches it.** -/
theorem watchRunning_eq (k : Nat) (list : List ProcessInfo) (defs : List ProcessDef) :
    watchRunning matched backends k list defs =
      (outputs backends k (Greedy.assign matched list defs).1,
        (Greedy.assign matched list defs).2) := by
  induction list generalizing k defs with
  | nil => rfl
  | cons info list ih =>
      cases defs with
      | nil =>
          obtain ⟨houtputs, hrest⟩ := outputs_assign_nil matched backends k (info :: list)
          rw [houtputs, hrest]
          rfl
      | cons d ds =>
          simp only [watchRunning]
          rw [if_neg (by simp)]
          cases h : (d :: ds).find? (matched · info) with
          | none =>
              rw [Greedy.assign_none h]
              exact ih k (d :: ds)
          | some e =>
              rw [Greedy.assign_some h]
              simp only [ih, outputs]

/-! ## Who is reported missing

The definitions that no process was given are looked at once more, and those
that are expected to run are reported. -/

/-- The pass has an error that says a definition can't be found. -/
def ReportedMissing (actions : List PluginAction) (d : ProcessDef) : Prop :=
  ∃ j priority, .appendError (missingNode j) "processes" d.missingMessage priority ∈ actions

theorem missingMessage_name {d e : ProcessDef} (h : d.missingMessage = e.missingMessage) :
    d.name = e.name := by
  simp only [ProcessDef.missingMessage] at h
  cases hd : d.mandatory <;> cases he : e.mandatory <;> simp only [hd, he] at h
  case false.false | true.true =>
    exact (String.append_right_inj _).mp ((String.append_left_inj _).mp h)
  all_goals
    have hlist := congrArg String.toList h
    simp at hlist

/-- What is output for the running processes reports none of them missing. -/
theorem outputs_not_missing (k : Nat) (given : List (ProcessInfo × Option ProcessDef))
    (d : ProcessDef) : ¬ ReportedMissing (outputs backends k given) d := by
  rintro ⟨j, priority, hmem⟩
  induction given generalizing k with
  | nil => exact absurd hmem List.not_mem_nil
  | cons x given ih =>
      obtain ⟨info, o⟩ := x
      cases o with
      | none => exact ih k hmem
      | some e =>
          simp only [outputs, List.mem_append] at hmem
          rcases hmem with (hout | herr) | hrest
          · simp [outputProcess] at hout
          · unfold ProcessDef.runningErrors at herr
            split at herr
            · simp only [List.mem_singleton, PluginAction.appendError.injEq] at herr
              have hpath := congrArg PluginNode.path herr.1
              simp [missingNode, processesNode] at hpath
            · exact absurd herr List.not_mem_nil
          · exact ih (k + 1) hrest

/-- The pass has an error that says so, of this priority. -/
def ReportedMissingAt (actions : List PluginAction) (d : ProcessDef) (priority : Int) : Prop :=
  ∃ j, .appendError (missingNode j) "processes" d.missingMessage priority ∈ actions

theorem reportedMissing_at {actions : List PluginAction} {d : ProcessDef} :
    ReportedMissing actions d ↔ ∃ priority, ReportedMissingAt actions d priority :=
  exists_comm

/-- The second loop reports the definitions it goes over that are expected to
run. -/
theorem watchMissing_at (maintenance : Bool) (j : Nat) (defs : List ProcessDef) (d : ProcessDef)
    (priority : Int) :
    ReportedMissingAt (watchMissing backends maintenance j defs) d priority ↔
      ∃ e ∈ defs, e.isProcessExpectedToRun backends = true ∧
        e.missingMessage = d.missingMessage ∧ e.missingPriority maintenance = priority := by
  induction defs generalizing j with
  | nil => simp [ReportedMissingAt, watchMissing]
  | cons e defs ih =>
      rw [List.exists_mem_cons_iff, ← ih (j + 1)]
      simp only [ReportedMissingAt, watchMissing, ProcessDef.missing, List.mem_append,
        List.mem_cons, List.not_mem_nil, reduceCtorEq, or_false, false_or]
      cases he : e.isProcessExpectedToRun backends with
      | false =>
          simp only [Bool.false_eq_true, if_false, List.mem_singleton, reduceCtorEq, false_or,
            false_and]
      | true =>
          simp only [if_true, List.mem_singleton, PluginAction.appendError.injEq, true_and]
          constructor
          · rintro ⟨i, ⟨-, hmessage, hpriority⟩ | hmem⟩
            · exact Or.inl ⟨hmessage.symm, hpriority.symm⟩
            · exact Or.inr ⟨i, hmem⟩
          · rintro (⟨hmessage, hpriority⟩ | ⟨i, hmem⟩)
            · exact ⟨j, Or.inl ⟨rfl, hmessage.symm, hpriority.symm⟩⟩
            · exact ⟨i, Or.inr hmem⟩

theorem watchMissing_iff (maintenance : Bool) (j : Nat) (defs : List ProcessDef)
    (hexpected : ∀ d ∈ defs, d.isProcessExpectedToRun backends = true) (d : ProcessDef) :
    ReportedMissing (watchMissing backends maintenance j defs) d ↔
      ∃ e ∈ defs, e.missingMessage = d.missingMessage := by
  simp only [reportedMissing_at, watchMissing_at]
  constructor
  · rintro ⟨priority, e, he, -, hmessage, -⟩
    exact ⟨e, he, hmessage⟩
  · rintro ⟨e, he, hmessage⟩
    exact ⟨_, e, he, hexpected e he, hmessage, rfl⟩

/-- **A definition is reported missing exactly when it is left over.** -/
theorem reportedMissing_iff (list : List ProcessInfo) (loaded : LoadedProcesses)
    (hexpected : ∀ d ∈ loaded.defs, d.isProcessExpectedToRun backends = true)
    {d : ProcessDef} (hd : d ∈ loaded.defs) :
    ReportedMissing (onProcessWatchProcesses matched backends maintenance list loaded) d ↔
      d ∈ (Greedy.assign matched list loaded.defs).2 := by
  have hmissing := watchMissing_iff maintenance 0 (Greedy.assign matched list loaded.defs).2
    (fun e he => hexpected e (Greedy.mem_of_mem_rest he)) d
  simp only [onProcessWatchProcesses]
  rw [watchRunning_eq]
  constructor
  · rintro ⟨j, priority, hmem⟩
    rcases List.mem_append.mp hmem with hrun | hmiss
    · exact absurd ⟨j, priority, hrun⟩ (outputs_not_missing 0 _ d)
    · obtain ⟨e, he, hmessage⟩ := hmissing.mp ⟨j, priority, hmiss⟩
      obtain rfl : e = d := List.inj_on_of_nodup_map loaded.distinct
        (Greedy.mem_of_mem_rest he) hd (missingMessage_name hmessage)
      exact he
  · intro hrest
    obtain ⟨j, priority, hmem⟩ := hmissing.mpr ⟨d, hrest, rfl⟩
    exact ⟨j, priority, List.mem_append_right _ hmem⟩

end Watch

def MatchOnce (matched : ProcessDef → ProcessInfo → Bool) (list : List ProcessInfo)
    (defs : List ProcessDef) : Prop :=
  ∀ info ∈ list, ∀ d ∈ defs, ∀ e ∈ defs,
    matched d info = true → matched e info = true → d = e

/-- **Missing means that every running process that matches was given to
another definition.**  If no process matches two definitions it means not
running, whatever the order of the processes and of the definitions. -/
theorem missing_iff (matched : ProcessDef → ProcessInfo → Bool) (backends : Backends)
    (maintenance : Bool) (list : List ProcessInfo) (loaded : LoadedProcesses)
    (hexpected : ∀ d ∈ loaded.defs, d.isProcessExpectedToRun backends = true)
    (d : ProcessDef) (hd : d ∈ loaded.defs) :
    (ReportedMissing (onProcessWatchProcesses matched backends maintenance list loaded) d ↔
      ∀ x ∈ (Greedy.assign matched list loaded.defs).1, matched d x.1 = true →
        ∃ e, x.2 = some e ∧ e ≠ d) ∧
    (MatchOnce matched list loaded.defs →
      (ReportedMissing (onProcessWatchProcesses matched backends maintenance list loaded) d ↔
        ∀ info ∈ list, matched d info = false) ∧
      ∀ (list' : List ProcessInfo) (loaded' : LoadedProcesses), list'.Perm list →
        loaded'.defs.Perm loaded.defs →
        (ReportedMissing (onProcessWatchProcesses matched backends maintenance list' loaded') d ↔
          ReportedMissing (onProcessWatchProcesses matched backends maintenance list loaded)
            d)) := by
  have hnodup : loaded.defs.Nodup := loaded.distinct.of_map _
  refine ⟨?_, ?_⟩
  · rw [reportedMissing_iff list loaded hexpected hd]
    exact Greedy.mem_rest_iff hnodup hd
  · intro honce
    have hrunning :
        ReportedMissing (onProcessWatchProcesses matched backends maintenance list loaded) d ↔
          ∀ info ∈ list, matched d info = false := by
      rw [reportedMissing_iff list loaded hexpected hd]
      exact Greedy.mem_rest_iff_unmatched hnodup hd honce
    refine ⟨hrunning, ?_⟩
    intro list' loaded' hlist hdefs
    have hd' : d ∈ loaded'.defs := hdefs.mem_iff.mpr hd
    have honce' : MatchOnce matched list' loaded'.defs := by
      intro info hinfo a ha b hb
      exact honce info (hlist.mem_iff.mp hinfo) a (hdefs.mem_iff.mp ha) b (hdefs.mem_iff.mp hb)
    rw [hrunning, reportedMissing_iff list' loaded'
      (fun e he => hexpected e (hdefs.mem_iff.mp he)) hd',
      Greedy.mem_rest_iff_unmatched (loaded'.distinct.of_map _) hd' honce']
    simp only [hlist.mem_iff]

/-- A running process with this name, and no more to tell. -/
def runningProcess (name : String) : ProcessInfo :=
  ⟨name, [], name, 0, 0, 0, 0, 0, 0, 0, 0, 0⟩

/-- A mandatory definition of the java command. -/
def javaDef (name : String) : ProcessDef where
  name := name
  mandatory := true
  allowDuplicates := false
  command := "java"

def twoJavas : LoadedProcesses where
  defs := [javaDef "cassandra", javaDef "tomcat"]
  distinct := by decide

/-- The match of the plugin, for definitions without a regular expression. -/
def matchedByName (d : ProcessDef) (info : ProcessInfo) : Bool :=
  d.isMatch (fun _ => some fun _ => true) info.basename info.cmdline

/-- While only bash runs, tomcat is missing. -/
theorem missing_without_java :
    ReportedMissing (onProcessWatchProcesses matchedByName ⟨"", []⟩ false
      [runningProcess "/bin/bash"] twoJavas) (javaDef "tomcat") := by
  have honce : MatchOnce matchedByName [runningProcess "/bin/bash"] twoJavas.defs := by
    simp only [MatchOnce]
    decide
  exact ((missing_iff matchedByName ⟨"", []⟩ false [runningProcess "/bin/bash"] twoJavas
    (by decide) (javaDef "tomcat") (by decide)).2 honce).1.mpr (by decide)

/-- The one java that runs matches both definitions, and tomcat is reported
missing. -/
theorem missing_second_java :
    ¬ ∀ d ∈ twoJavas.defs,
      (ReportedMissing (onProcessWatchProcesses matchedByName ⟨"", []⟩ false
        [runningProcess "/usr/bin/java"] twoJavas) d ↔
          ∀ info ∈ [runningProcess "/usr/bin/java"], matchedByName d info = false) := by
  intro hall
  have htomcat := hall (javaDef "tomcat") (by decide)
  have hreported : ReportedMissing (onProcessWatchProcesses matchedByName ⟨"", []⟩ false
      [runningProcess "/usr/bin/java"] twoJavas) (javaDef "tomcat") :=
    ⟨0, 95, List.mem_of_getElem? (i := 13) rfl⟩
  exact absurd (htomcat.mp hreported) (by decide)

end Sitter
