/-
# `Sitter.Scripts` — the scripts plugin

`on_process_watch` runs the scripts of a folder one after the other.  What a
script printed is reported under a header, together with its exit code:

    stdout    of a script that failed     to the output log, priority 65
    stderr    if there is any             to the error log, priority 90

and `json["scripts"]["script"]`, a member, gets its name, its exit code and the
reported output.  A log is replaced each time something is written to it.

So the results of a pass are all there exactly if it runs no more than one
script (`scriptResults_iff`).

A script should be told of if it fails or prints something.  One that fails
without a word is not, and neither is what a script prints that does not fail,
for which there is a priority of 35 (`scriptReported_iff`).
-/
import Sitter.Records

namespace Sitter

open Document

/-! ## One script -/

/-- A script and what came of it: `start` and `wait` of its process, and the
two streams. -/
structure ScriptRun where
  filename : String
  startDate : Int
  start : Int
  wait : Int
  stdout : String
  stderr : String
  deriving DecidableEq, Repr

/-- What `generate_header` reads: the version, `format_date`, `/etc/hostname`,
the `my_address` of communicatord and the addresses of this computer. -/
structure ScriptHost where
  version : String
  formatDate : Int → String
  hostname : Option String
  trimString : String → String
  myAddress : String
  localAddresses : Option (List String)

/-- `generate_header` -/
def ScriptHost.generateHeader (host : ScriptHost) (run : ScriptRun) (type : String) : String :=
  let header :=
    "--- " ++ type ++ " -----------------------------------------------------------\n"
      ++ "Sitter-Version: " ++ host.version ++ "\n"
      ++ "Output-Type: " ++ type ++ "\n"
      ++ "Date: " ++ host.formatDate run.startDate ++ "\n"
      ++ "Script: " ++ run.filename ++ "\n"
  let header :=
    match host.hostname with
    | none => header
    | some hostname => header ++ "Hostname: " ++ host.trimString hostname ++ "\n"
  let header :=
    if host.myAddress ≠ "" then header ++ "IP-Address: " ++ host.myAddress ++ "\n"
    else
      match host.localAddresses with
      | none => header
      | some ips => header ++ "IP-Addresses: " ++ joinStrings ips ", " ++ "\n"
  header ++ "\n"

/-- A text that ends its last line. -/
def endLine (text : String) : String :=
  if text.toList.getLast? = some '\n' then text else text ++ "\n"

/-- `json["scripts"]` -/
def scriptsNode : PluginNode := ⟨[.name "scripts"], rfl⟩

/-- `json["scripts"]["script"]` -/
def scriptNode : PluginNode := ⟨[.name "scripts", .name "script"], rfl⟩

namespace ScriptRun

variable (host : ScriptHost) (run : ScriptRun)

/-- `find("README")` finds it: such a file is not run. -/
def isReadme : Bool := run.filename.toList.tails.any fun rest => "README".toList.isPrefixOf rest

def exitCode : Int := if run.start = 0 then run.wait else run.start

/-- The output that is reported, if it is. -/
def reportedOutput : Option String :=
  if run.exitCode ≠ 0 ∧ run.stdout ≠ "" then
    some (endLine (host.generateHeader run "OUTPUT" ++ run.stdout))
  else none

/-- The errors that are reported, if there are any. -/
def reportedError : Option String :=
  if run.stderr ≠ "" then some (endLine (host.generateHeader run "ERROR" ++ run.stderr)) else none

end ScriptRun

/-- The two log files. -/
structure ScriptLogs where
  output : Option String
  error : Option String
  deriving DecidableEq, Repr

/-- `process_script` -/
def processScript (host : ScriptHost) (run : ScriptRun) (logs : ScriptLogs) :
    List PluginAction × ScriptLogs :=
  if run.isReadme then ([], logs)
  else
    let member (name : String) (value : Value) : PluginAction :=
      .set (scriptNode.path ++ [.name name]) value
    let actions := [member "name" (.text run.filename), member "exit_code" (.int run.exitCode)]
    let (actions, logs) :=
      match run.reportedOutput host with
      | none => (actions, logs)
      | some output =>
          (actions ++ [member "output" (.text output),
            .appendError scriptNode "scripts" output (if run.exitCode = 0 then 35 else 65)],
            { logs with output := writeAll true logs.output output })
    match run.reportedError host with
    | none => (actions, logs)
    | some error =>
        (actions ++ [.appendError scriptNode "scripts" error 90],
          { logs with error := writeAll true logs.error error })

/-- `on_process_watch` -/
def onProcessWatchScripts (host : ScriptHost) :
    List ScriptRun → ScriptLogs → List PluginAction × ScriptLogs
  | [], logs => ([], logs)
  | run :: runs, logs =>
      let done := processScript host run logs
      let rest := onProcessWatchScripts host runs done.2
      (done.1 ++ rest.1, rest.2)

/-! ## What a script tells

The record of a script is its members on the one node that all scripts share. -/

/-- The record of a script. -/
def ScriptRun.record (host : ScriptHost) (run : ScriptRun) : Record where
  members := [("name", .text run.filename), ("exit_code", .int run.exitCode)] ++
    (run.reportedOutput host).toList.map fun output => ("output", .text output)
  errors := (run.reportedOutput host).toList.map (fun output =>
      (output, if run.exitCode = 0 then 35 else 65)) ++
    (run.reportedError host).toList.map fun error => (error, 90)

def scriptsRun (runs : List ScriptRun) : List ScriptRun := runs.filter fun run => !run.isReadme

section Run

variable {host : ScriptHost} {run : ScriptRun} {runs : List ScriptRun} {logs : ScriptLogs}

theorem processScript_readme (h : run.isReadme = true) :
    processScript host run logs = ([], logs) := by
  rw [processScript, if_pos h]

/-- A script that is run writes its record, and to a log what it reports. -/
theorem processScript_run (h : run.isReadme = false) :
    processScript host run logs =
      ((run.record host).writeTo scriptNode "scripts",
        ⟨(run.reportedOutput host).or logs.output, (run.reportedError host).or logs.error⟩) := by
  rw [processScript, if_neg (by rw [h]; exact Bool.false_ne_true)]
  dsimp only [ScriptRun.record]
  cases run.reportedOutput host <;> cases run.reportedError host <;> rfl

theorem scriptsRun_readme (h : run.isReadme = true) : scriptsRun (run :: runs) = scriptsRun runs :=
  List.filter_cons_of_neg (by simp [h])

theorem scriptsRun_run (h : run.isReadme = false) :
    scriptsRun (run :: runs) = run :: scriptsRun runs :=
  List.filter_cons_of_pos (by simp [h])

theorem scriptRecord_names :
    (run.record host).members.map Prod.fst = ["name", "exit_code"] ∨
      (run.record host).members.map Prod.fst = ["name", "exit_code", "output"] := by
  simp only [ScriptRun.record]
  cases run.reportedOutput host with
  | none => exact Or.inl rfl
  | some output => exact Or.inr rfl

theorem scriptRecord_nodup : ((run.record host).members.map Prod.fst).Nodup := by
  rcases scriptRecord_names with h | h
  · rw [h]
    decide
  · rw [h]
    decide

theorem scriptRecord_members (m : String × Value) (hm : m ∈ (run.record host).members) :
    isErrorMember m.1 = false := by
  have hall : ∀ k ∈ ["name", "exit_code", "output"], isErrorMember k = false := by decide
  have hname : m.1 ∈ (run.record host).members.map Prod.fst := List.mem_map_of_mem hm
  refine hall m.1 ?_
  rcases scriptRecord_names with h | h
  · rw [h] at hname
    exact List.mem_append_left ["output"] hname
  · rw [h] at hname
    exact hname

theorem scriptRecord_plain : (run.record host).Plain := by
  refine ⟨scriptRecord_members, ?_⟩
  intro e he
  simp only [ScriptRun.record, List.mem_append, List.mem_map] at he
  rcases he with ⟨output, -, rfl⟩ | ⟨error, -, rfl⟩
  · dsimp only
    split <;> exact ⟨by norm_num, by norm_num⟩
  · exact ⟨by norm_num, by norm_num⟩

/-- All scripts write to the one node. -/
theorem onProcessWatchScripts_shares (runs : List ScriptRun) (logs : ScriptLogs) :
    SharesNode scriptNode "scripts" (onProcessWatchScripts host runs logs).1
      ((scriptsRun runs).map (ScriptRun.record host)) := by
  induction runs generalizing logs with
  | nil => exact sharesNode_nil
  | cons run runs ih =>
      simp only [onProcessWatchScripts]
      cases h : run.isReadme with
      | true =>
          rw [processScript_readme h, scriptsRun_readme h]
          exact ih logs
      | false =>
          rw [processScript_run h, scriptsRun_run h]
          exact (sharesNode_writeTo scriptRecord_plain).append (ih _)

theorem getLast?_filterMap_cons {α β : Type} (f : α → Option β) (x : α) (xs : List α) :
    ((x :: xs).filterMap f).getLast? = (xs.filterMap f).getLast?.or (f x) := by
  cases hx : f x with
  | none => rw [List.filterMap_cons_none hx, Option.or_none]
  | some y =>
      rw [List.filterMap_cons_some hx, List.getLast?_cons]
      cases (xs.filterMap f).getLast? <;> rfl

/-- **A log is what was reported last.** -/
theorem onProcessWatchScripts_logs (runs : List ScriptRun) (logs : ScriptLogs) :
    (onProcessWatchScripts host runs logs).2 =
      ⟨((scriptsRun runs).filterMap (ScriptRun.reportedOutput host)).getLast?.or logs.output,
        ((scriptsRun runs).filterMap (ScriptRun.reportedError host)).getLast?.or logs.error⟩ := by
  induction runs generalizing logs with
  | nil => rfl
  | cons run runs ih =>
      simp only [onProcessWatchScripts]
      cases h : run.isReadme with
      | true =>
          rw [processScript_readme h, scriptsRun_readme h]
          exact ih logs
      | false =>
          rw [processScript_run h, scriptsRun_run h, ih,
            getLast?_filterMap_cons, getLast?_filterMap_cons, Option.or_assoc, Option.or_assoc]

end Run

/-! ## Which scripts are told of -/

structure ScriptReported (run : ScriptRun) (priorities : List Int) : Prop where
  reported : run.exitCode ≠ 0 ∨ run.stderr ≠ "" ∨ run.stdout ≠ "" → priorities ≠ []
  printed : run.exitCode = 0 → run.stdout ≠ "" → run.stderr = "" → priorities = [35]
  failed : run.exitCode ≠ 0 → ∀ p ∈ priorities, 65 ≤ p

section Reported

variable {host : ScriptHost} {run : ScriptRun} {logs : ScriptLogs}

theorem processScript_priorities (h : run.isReadme = false) :
    raisedPriorities (processScript host run logs).1 =
      (if run.exitCode ≠ 0 ∧ run.stdout ≠ "" then [65] else []) ++
        if run.stderr ≠ "" then [90] else [] := by
  rw [processScript_run h, Record.raisedPriorities_writeTo, ScriptRun.record, List.map_append,
    ScriptRun.reportedOutput, ScriptRun.reportedError]
  congr 1
  · by_cases hfailed : run.exitCode ≠ 0 ∧ run.stdout ≠ ""
    · rw [if_pos hfailed, if_pos hfailed, if_neg hfailed.1]
      rfl
    · rw [if_neg hfailed, if_neg hfailed]
      rfl
  · split <;> rfl

/-- A script that neither fails silently nor prints to its output only is told
of as expected. -/
theorem scriptReported_of (h : run.isReadme = false)
    (hcond : run.stderr ≠ "" ∨ (run.exitCode = 0 ↔ run.stdout = "")) :
    ScriptReported run (raisedPriorities (processScript host run logs).1) := by
  rw [processScript_priorities h]
  constructor
  case reported =>
    intro hany
    by_cases herr : run.stderr = ""
    · have hiff := hcond.resolve_left (not_not_intro herr)
      have hboth : run.exitCode ≠ 0 ∧ run.stdout ≠ "" := by tauto
      rw [if_pos hboth]
      exact List.cons_ne_nil _ _
    · rw [if_pos herr]
      exact List.append_ne_nil_of_right_ne_nil _ (List.cons_ne_nil _ _)
  case printed =>
    intro hzero hout herr
    exact absurd ((hcond.resolve_left (not_not_intro herr)).mp hzero) hout
  case failed =>
    intro _ p hp
    rcases List.mem_append.mp hp with hp | hp <;> split at hp
    · rw [List.mem_singleton.mp hp]
    · cases hp
    · rw [List.mem_singleton.mp hp]
      norm_num
    · cases hp

end Reported

/-- **A script is told of as expected exactly if it prints errors, or prints
something if and only if it fails.** -/
theorem scriptReported_iff (host : ScriptHost) (logs : ScriptLogs) {run : ScriptRun}
    (h : run.isReadme = false) :
    ScriptReported run (raisedPriorities (processScript host run logs).1) ↔
      run.stderr ≠ "" ∨ (run.exitCode = 0 ↔ run.stdout = "") := by
  refine ⟨?_, scriptReported_of h⟩
  intro hreported
  by_contra hcond
  obtain ⟨herr, hiff⟩ := not_or.mp hcond
  have hnone : raisedPriorities (processScript host run logs).1 = [] := by
    rw [processScript_priorities h, if_neg herr, List.append_nil]
    refine if_neg ?_
    tauto
  refine hreported.reported ?_ hnone
  by_cases hzero : run.exitCode = 0
  · right
    right
    intro hout
    exact hiff (iff_of_true hzero hout)
  · exact Or.inl hzero

/-! ## What is left of the scripts

The two log files are replaced by each script that has something to report, and
the members of the node are set again by each. -/

/-- The file is there and the text is in it. -/
def ContainsText (file : Option String) (text : String) : Prop :=
  ∃ contents, file = some contents ∧ text.toList <:+: contents.toList

/-- Each script of a pass has a record of its own, and the logs have all that
was reported. -/
structure ScriptResultsKept (host : ScriptHost) (runs : List ScriptRun) (doc : Document Value)
    (logs : ScriptLogs) : Prop where
  records : ∃ placed : List (Path × Record),
    placed.map Prod.snd = (scriptsRun runs).map (ScriptRun.record host) ∧
      (placed.map Prod.fst).Nodup ∧
      ∀ x ∈ placed, root ++ scriptsNode.path <+: x.1 ∧ HoldsRecord doc x.1 x.2
  output : ∀ run ∈ scriptsRun runs, ∀ text ∈ run.reportedOutput host,
    ContainsText logs.output text
  error : ∀ run ∈ scriptsRun runs, ∀ text ∈ run.reportedError host, ContainsText logs.error text

theorem containsText_single {f : ScriptRun → Option String} {runs : List ScriptRun}
    (hone : runs.length ≤ 1) {file : Option String} {run : ScriptRun} (hrun : run ∈ runs)
    {text : String} (htext : text ∈ f run) :
    ContainsText ((runs.filterMap f).getLast?.or file) text := by
  obtain ⟨other, rfl⟩ := List.length_eq_one_iff.mp
    (Nat.le_antisymm hone (List.length_pos_of_mem hrun))
  obtain rfl := List.mem_singleton.mp hrun
  rw [List.filterMap_cons_some htext]
  exact ⟨text, rfl, List.infix_refl _⟩

theorem scriptRecords_single {host : ScriptHost} {runs : List ScriptRun} {logs : ScriptLogs}
    {st : PassState} (hfresh : Fresh (root ++ scriptsNode.path) st.doc)
    (h : ScriptResultsKept host runs
      (processWatch st (onProcessWatchScripts host runs logs).1).1.doc
      (onProcessWatchScripts host runs logs).2) : (scriptsRun runs).length ≤ 1 := by
  obtain ⟨placed, hplaced, hnodup, hholds⟩ := h.records
  have hone : ∀ x ∈ placed, x.1 = root ++ scriptNode.path := by
    intro x hx
    have hr : x.2 ∈ (scriptsRun runs).map (ScriptRun.record host) :=
      hplaced ▸ List.mem_map_of_mem hx
    obtain ⟨run, -, hrecord⟩ := List.mem_map.mp hr
    have hm : ("name", Value.text run.filename) ∈ x.2.members := hrecord ▸ List.mem_cons_self
    exact (onProcessWatchScripts_shares runs logs).node_of_holds hfresh hm rfl (hholds x hx).1
      (hholds x hx).2
  have hlength : placed.length = (scriptsRun runs).length := by
    have hmap := congrArg List.length hplaced
    rwa [List.length_map, List.length_map] at hmap
  rw [← hlength]
  cases placed with
  | nil => exact Nat.zero_le 1
  | cons x rest =>
      cases rest with
      | nil => exact Nat.le_refl 1
      | cons y rest =>
          have hx := hone x List.mem_cons_self
          have hy := hone y (List.mem_cons_of_mem x List.mem_cons_self)
          simp [hx, hy] at hnodup

/-- The record of the only script is there. -/
theorem scriptRecord_kept {host : ScriptHost} {runs : List ScriptRun} {logs : ScriptLogs}
    {st : PassState} {run : ScriptRun} (hrun : scriptsRun runs = [run]) :
    HoldsRecord (processWatch st (onProcessWatchScripts host runs logs).1).1.doc
      (root ++ scriptNode.path) (run.record host) := by
  have hshares : SharesNode scriptNode "scripts" (onProcessWatchScripts host runs logs).1 _ :=
    onProcessWatchScripts_shares runs logs
  rw [hrun, List.map_singleton, ← List.nil_append [run.record host]] at hshares
  exact hshares.holds_last scriptRecord_nodup scriptRecord_members

/-- **The results of a pass are all kept exactly if it runs one script at
most.** -/
theorem scriptResults_iff (host : ScriptHost) (runs : List ScriptRun) (logs : ScriptLogs)
    (st : PassState) (hfresh : Fresh (root ++ scriptsNode.path) st.doc) :
    ScriptResultsKept host runs (processWatch st (onProcessWatchScripts host runs logs).1).1.doc
        (onProcessWatchScripts host runs logs).2 ↔
      (scriptsRun runs).length ≤ 1 := by
  constructor
  · exact scriptRecords_single hfresh
  · intro hone
    rw [onProcessWatchScripts_logs]
    refine ⟨?_, fun run hrun text htext => containsText_single hone hrun htext,
      fun run hrun text htext => containsText_single hone hrun htext⟩
    rcases Nat.le_one_iff_eq_zero_or_eq_one.mp hone with hnone | hsingle
    · rw [List.length_eq_zero_iff.mp hnone]
      exact ⟨[], rfl, List.nodup_nil, List.forall_mem_nil _⟩
    · obtain ⟨run, hrun⟩ := List.length_eq_one_iff.mp hsingle
      refine ⟨[(root ++ scriptNode.path, run.record host)], by rw [hrun]; rfl,
        List.nodup_singleton _, ?_⟩
      intro x hx
      obtain rfl := List.mem_singleton.mp hx
      exact ⟨⟨[.name "script"], rfl⟩, scriptRecord_kept hrun⟩

/-- A host with a name and an address. -/
def ScriptHost.plain : ScriptHost where
  version := "1.0"
  formatDate t := toString t
  hostname := some "host\n"
  trimString text := String.ofList (trimBlanks text.toList)
  myAddress := "10.0.0.1"
  localAddresses := none

/-- A script that fails and says why. -/
def failingScript (filename : String) : ScriptRun where
  filename
  startDate := 1700000000
  start := 0
  wait := 2
  stdout := "down"
  stderr := "no answer"

/-- It is told of. -/
theorem scriptReported_failing :
    ScriptReported (failingScript "a.sh")
      (raisedPriorities (processScript .plain (failingScript "a.sh") ⟨none, none⟩).1) :=
  (scriptReported_iff .plain ⟨none, none⟩ (by decide)).mpr (Or.inl (by decide))

/-- A script that fails without a word is not. -/
theorem scriptReported_silent :
    ¬ ScriptReported ⟨"a.sh", 1700000000, 0, 1, "", ""⟩
      (raisedPriorities
        (processScript .plain ⟨"a.sh", 1700000000, 0, 1, "", ""⟩ ⟨none, none⟩).1) := by
  intro h
  refine h.reported (Or.inl (by decide)) ?_
  rw [processScript_priorities (by decide)]
  rfl

/-- The results of a single script. -/
theorem scriptResults_one_script :
    ScriptResultsKept .plain [failingScript "a.sh"]
      (processWatch PassState.blank
        (onProcessWatchScripts .plain [failingScript "a.sh"] ⟨none, none⟩).1).1.doc
      (onProcessWatchScripts .plain [failingScript "a.sh"] ⟨none, none⟩).2 :=
  (scriptResults_iff .plain [failingScript "a.sh"] ⟨none, none⟩ PassState.blank
    (fresh_empty _)).mpr (by decide)

/-- Those of two scripts are not. -/
theorem scriptResults_two_scripts :
    ¬ ScriptResultsKept .plain [failingScript "a.sh", failingScript "b.sh"]
      (processWatch PassState.blank
        (onProcessWatchScripts .plain [failingScript "a.sh", failingScript "b.sh"]
          ⟨none, none⟩).1).1.doc
      (onProcessWatchScripts .plain [failingScript "a.sh", failingScript "b.sh"]
        ⟨none, none⟩).2 := by
  intro h
  exact absurd (scriptRecords_single (fresh_empty _) h) (by decide)

end Sitter
