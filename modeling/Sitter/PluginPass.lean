/-
# `Sitter.PluginPass` — the thirteen plugins in one pass

What a plugin does in a pass depends on what it finds and on nothing that
another plugin puts in the document, so the plugins are a team:

    apt, disk, firewall, flags,      the member of that name
    memory, network, scripts
    certificate, cpu, packages,      the member of that name, and errors of the
    reboot                           whole pass
    log                              `logs`
    processes                        `processes`, and `process`

Four of them load something first and throw if it is wrong: the definitions of
the logs, `/proc/meminfo`, the packages, the processes.  The disk plugin throws
when it comes to a pattern that is no regular expression.  Flags and packages
can end a pass by a priority that is out of range.  Of what the plugins do
themselves nothing else ends one (`pass_completes`); what the system and the
libraries may throw, when there is no memory left or `/proc` cannot be read, is
not in it.
-/
import Sitter.Apt
import Sitter.CertificateDelays
import Sitter.Cpu
import Sitter.Flags
import Sitter.ItemRecords
import Sitter.LogMode
import Sitter.Memory
import Sitter.Network
import Sitter.PackagePriorities
import Sitter.PassOrder
import Sitter.ProcessLoader
import Sitter.Reboot
import Sitter.Scripts

namespace Sitter

open Document Machine

inductive Plugin where
  | apt | certificate | cpu | disk | firewall | flags | log | memory | network | packages
  | processes | reboot | scripts
  deriving DecidableEq, Repr

/-- What the plugins find in a pass. -/
structure PassInputs where
  lib : Advgetopt
  snapdev : Snapdev
  round : Rat → Rat
  real : Rat → Value
  boolean : Bool → Value
  dateText : Timespec → String
  timeText : Int → String
  apt : AptPass
  accessErrors : AccessErrors
  certificate : CertificatePass
  highCpu : Option String
  cpu : CpuPass
  disk : DiskPass
  ipwall : Option ProcessInfo
  flags : List Flag
  logHost : LogHost
  logFiles : List LogFile
  glob : String → List LogMatch
  tokenize : TokenizeString
  meminfo : Option MeminfoFile
  communicatord : Option ProcessInfo
  connection : ConnectionTimes
  now : Int
  packageFiles : List ConfFile
  installed : String → Bool
  systemctl : Systemctl
  processFiles : List ConfFile
  regex : Regex
  backends : Backends
  maintenance : Bool
  processes : List ProcessInfo
  rebootFile : Option String
  reboot : RebootPass
  scriptHost : ScriptHost
  scripts : List ScriptRun
  scriptLogs : ScriptLogs

/-! ## What each plugin does -/

/-- `json["firewall"]` -/
def firewallNode : PluginNode := ⟨[.name "firewall"], rfl⟩

/-- `firewall::on_process_watch` -/
def onProcessWatchFirewall (info : Option ProcessInfo) : List PluginAction :=
  outputProcess "firewall" firewallNode 0 info "ipwall" 95

def LogError.what : LogError → String
  | .missingParameter what => what
  | .invalidParameter what => what
  | .logicError what => what

/-- `load`, for the files of log definitions. -/
def loadLogs (host : LogHost) (files : List LogFile) : Except LogError (List LogDefinition) :=
  files.foldlM (fun result file => file.loadConfig host result) []

namespace PassInputs

variable (w : PassInputs)

def watch : Plugin → List PluginAction
  | .apt => w.apt.onProcessWatchApt w.lib w.snapdev
  | .certificate => (onProcessWatchCertificate w.lib w.dateText w.accessErrors w.certificate).2
  | .cpu => (onProcessWatchCpu w.lib w.round w.real w.highCpu w.cpu).2
  | .disk => w.disk.onProcessWatchDisk w.lib
  | .firewall => onProcessWatchFirewall w.ipwall
  | .flags => onProcessWatchFlags w.boolean w.flags
  | .log =>
      watchLoaded (((loadLogs w.logHost w.logFiles).mapError LogError.what).map
        (onProcessWatchLog w.glob))
  | .memory =>
      watchLoaded ((onProcessWatchMemory w.tokenize w.meminfo).mapError fun _ => "stoll")
  | .network => onProcessWatchNetwork w.timeText w.communicatord w.connection w.now
  | .packages =>
      watchLoaded ((onProcessWatchPackages w.lib w.snapdev w.packageFiles).map
        fun watch => watch.run w.installed)
  | .processes =>
      watchLoaded ((loadProcesses w.lib w.regex w.systemctl w.processFiles).map
        (onProcessWatchProcesses (fun d info => d.isMatch w.regex info.basename info.cmdline)
          w.backends w.maintenance w.processes))
  | .reboot => (onProcessWatchReboot w.lib w.rebootFile w.reboot).2
  | .scripts => (onProcessWatchScripts w.scriptHost w.scripts w.scriptLogs).1

end PassInputs

/-- The members of the root that belong to a plugin. -/
def Plugin.names : Plugin → List String
  | .apt => ["apt"]
  | .certificate => ["certificate"]
  | .cpu => ["cpu"]
  | .disk => ["disk"]
  | .firewall => ["firewall"]
  | .flags => ["flags"]
  | .log => ["logs"]
  | .memory => ["memory"]
  | .network => ["network"]
  | .packages => ["packages"]
  | .processes => processMembers
  | .reboot => ["reboot"]
  | .scripts => ["scripts"]

/-- All of them. -/
def Plugin.all : List Plugin :=
  [.apt, .certificate, .cpu, .disk, .firewall, .flags, .log, .memory, .network, .packages,
    .processes, .reboot, .scripts]

/-- The plugin a member of the root belongs to. -/
def Plugin.ownerOf (n : String) : Option Plugin := Plugin.all.find? fun i => n ∈ i.names

/-! ## Each plugin keeps to its members

Each plugin reads and writes its own members of the root and appends errors to
arrays below them.  The loops of a plugin are taken apart by the rules of
`Arrays`. -/

section Keeps

variable {names : List String} {x : String}

theorem outputProcess_safe (hx : x ∈ names) {node : PluginNode} (hnode : node.path = [.name x])
    (plugin : String) (k : Nat) (info : Option ProcessInfo) (process : String) {priority : Int}
    (hpriority : 0 ≤ priority ∧ priority ≤ 100) :
    ∀ a ∈ outputProcess plugin node k info process priority, a.Safe names := by
  have hlast : [Key.name x, .name "process"].getLast? ≠ some (.name "error") := by simp
  have hmember (name : String) (value : Value) : (PluginAction.set (node.path ++
      [.name "process", .item k, .name name]) value).Safe names := by
    rw [hnode]
    exact ⟨of_item hx hlast k name value, trivial⟩
  have hpush : (PluginAction.push (node.path ++ [.name "process"]) .null).Safe names := by
    rw [hnode]
    exact ⟨⟨hlast, x, rfl, Or.inr hx⟩, trivial⟩
  have herror (message : String) :
      (PluginAction.appendError node plugin message priority).Safe names := by
    refine safe_error ?_ _ _ hpriority
    rw [hnode]
    simpa using hx
  cases info with
  | none => simp [outputProcess, hmember, hpush, herror]
  | some info => simp [outputProcess, hmember, hpush]

variable (w : PassInputs)

theorem apt_safe : ∀ a ∈ w.apt.onProcessWatchApt w.lib w.snapdev, a.Safe ["apt"] := by
  have hmember (name : String) (value : Int) : (aptMember name value).Safe ["apt"] :=
    ⟨of_member (List.mem_singleton.mpr rfl) name _, trivial⟩
  have hnode : ∀ k ∈ aptNode.path.head?, ∃ x ∈ ["apt"], k = .name x := by simp [aptNode]
  have herror (message : String) {priority : Int} (h : 0 ≤ priority ∧ priority ≤ 100) :
      (aptError message priority).Safe ["apt"] := safe_error hnode _ _ h
  rw [AptPass.onProcessWatchApt]
  split
  · exact List.forall_mem_singleton.mpr (herror _ (by decide))
  · dsimp only
    split
    · exact List.forall_mem_singleton.mpr (herror _ (by decide))
    · split
      · rw [AptPass.watchCounts]
        refine List.forall_mem_cons.mpr ⟨hmember _ _, ?_⟩
        split_ifs <;> simp [hmember, herror]
      · exact List.forall_mem_singleton.mpr (herror _ (by decide))

theorem parseDelays_range {lib : Advgetopt} {s : Server} {d : Int × Int}
    (h : d ∈ (parseDelays lib s).toList) : 0 ≤ d.2 ∧ d.2 ≤ 100 := by
  rw [Std.TreeMap.mem_toList_iff_getElem?_eq_some, parseDelays_getElem?] at h
  obtain ⟨before, after, hsplit, -⟩ := LastWrite.lastWrite_eq_some.mp h
  exact (configuredDelays_range (hsplit ▸ List.mem_append_right _ List.mem_cons_self)).2

theorem certificate_safe (dateText : Timespec → String) (lib : Advgetopt) (s : Server)
    (p : CertificatePass) (files : List CertificateFile) (errors : AccessErrors) :
    ∀ a ∈ (checkFiles dateText (parseDelays lib s) p errors files).2,
      a.Safe ["certificate"] := by
  have hdomain (domain : String) : (PluginAction.set [.name "certificate", .name "domain"]
      (.text domain)).Safe ["certificate"] := ⟨of_member (List.mem_singleton.mpr rfl) _ _, trivial⟩
  have herror (message : String) {priority : Int} (h : 0 ≤ priority ∧ priority ≤ 100) :
      (certificateError message priority).Safe ["certificate"] := safe_passError _ _ h
  have hexpiry (domain : String) (notAfter : Timespec) (today : Int) :
      ∀ a ∈ checkExpiry dateText domain notAfter (parseDelays lib s) today,
        a.Safe ["certificate"] := by
    rw [checkExpiry]
    split
    · dsimp only
      split
      · exact List.forall_mem_singleton.mpr (herror _ (by decide))
      · split
        · exact List.forall_mem_nil _
        · next hfind =>
            exact List.forall_mem_singleton.mpr
              (herror _ (parseDelays_range (List.mem_of_find?_eq_some hfind)))
    · exact List.forall_mem_singleton.mpr (herror _ (by decide))
  have haccess (domain : String) (errors : AccessErrors) :
      ∀ a ∈ (checkAccess errors p.now domain).2, a.Safe ["certificate"] := by
    rw [checkAccess]
    split
    · exact List.forall_mem_singleton.mpr (herror _ (by split_ifs <;> decide))
    · exact List.forall_mem_nil _
  induction files generalizing errors with
  | nil => exact List.forall_mem_nil _
  | cons f files ih =>
      refine List.forall_mem_append.mpr ⟨?_, ih _⟩
      rw [checkFile]
      split
      · exact List.forall_mem_nil _
      · dsimp only
        split
        · exact List.forall_mem_cons.mpr ⟨hdomain _, hexpiry _ _ _⟩
        · exact List.forall_mem_cons.mpr ⟨hdomain _, haccess _ _⟩

theorem cpu_safe : ∀ a ∈ (onProcessWatchCpu w.lib w.round w.real w.highCpu w.cpu).2,
    a.Safe ["cpu"] := by
  have hmember (name : String) (value : Value) : (cpuMember name value).Safe ["cpu"] :=
    ⟨of_member (List.mem_singleton.mpr rfl) name value, trivial⟩
  have herror : highCpuError.Safe ["cpu"] := safe_passError _ _ (by decide)
  have hwarning : highCpuWarning.Safe ["cpu"] := hmember _ _
  have hcheck : ∀ a ∈ (watchHighCpu w.lib w.round w.highCpu w.cpu).1, a.Safe ["cpu"] := by
    rw [watchHighCpu]
    split
    · split
      · split
        · split
          · exact List.forall_mem_singleton.mpr herror
          · exact List.forall_mem_singleton.mpr hwarning
        · exact List.forall_mem_singleton.mpr hwarning
      · exact List.forall_mem_singleton.mpr hwarning
    · exact List.forall_mem_nil _
  rw [onProcessWatchCpu]
  simp only [List.forall_mem_append]
  refine ⟨⟨⟨⟨⟨?_, hcheck⟩, ?_⟩, ?_⟩, ?_⟩, ?_⟩
  · simp [hmember]
  · simp [hmember]
  · split_ifs <;> simp [hmember]
  · split_ifs <;> simp [hmember]
  · simp [hmember]

theorem memory_safe (info : Meminfo) : ∀ a ∈ watchMemory info, a.Safe ["memory"] := by
  have hmember (name : String) (value : Int) : (memoryMember name value).Safe ["memory"] :=
    ⟨of_member (List.mem_singleton.mpr rfl) name _, trivial⟩
  have hnode : ∀ k ∈ memoryNode.path.head?, ∃ x ∈ ["memory"], k = .name x := by simp [memoryNode]
  rw [watchMemory]
  refine List.forall_mem_append.mpr ⟨List.forall_mem_append.mpr ⟨?_, ?_⟩, ?_⟩
  · simp [hmember]
  · split
    · exact List.forall_mem_singleton.mpr (safe_error hnode _ _ (by decide))
    · exact List.forall_mem_nil _
  · split
    · exact List.forall_mem_singleton.mpr (safe_error hnode _ _ (by decide))
    · exact List.forall_mem_nil _

theorem log_safe (glob : String → List LogMatch) (defs : List LogDefinition) :
    ∀ a ∈ onProcessWatchLog glob defs, a.Safe ["logs"] := by
  have hcheck (d : LogDefinition) (f : LogMatch) : ∀ a ∈ d.checkLog f, a.Safe ["logs"] := by
    rw [LogDefinition.checkLog]
    split
    · exact List.forall_mem_nil _
    · refine List.forall_mem_append.mpr ⟨List.forall_mem_map.mpr fun m _ => ?_,
        List.forall_mem_map.mpr fun e he => ?_⟩
      · exact ⟨of_inner (List.mem_singleton.mpr rfl) "log" m.1 m.2, trivial⟩
      · obtain ⟨hlo, hhi⟩ := errorsOf_priority he
        exact safe_error (by simp [logNode]) _ _ (by omega)
  rw [onProcessWatchLog]
  refine List.forall_mem_flatMap.mpr fun d _ => ?_
  rw [LogDefinition.watch]
  refine List.forall_mem_append.mpr ⟨List.forall_mem_flatMap.mpr fun f _ => hcheck d f, ?_⟩
  split
  · exact List.forall_mem_nil _
  · exact List.forall_mem_singleton.mpr (safe_error (by simp [logsNode]) _ _ (by decide))

theorem network_safe :
    ∀ a ∈ onProcessWatchNetwork w.timeText w.communicatord w.connection w.now,
      a.Safe ["network"] := by
  have hnetwork : "network" ∈ ["network"] := List.mem_singleton.mpr rfl
  have hservice (name : String) (value : Value) : (PluginAction.set (networkNode.path ++
      [.name "service", .name name]) value).Safe ["network"] :=
    ⟨of_inner hnetwork "service" name value, trivial⟩
  have houtage (duration : Int) : (outageError w.timeText duration).Safe ["network"] := by
    refine safe_error (by simp [networkNode]) _ _ ?_
    simp only [outagePriority]
    split_ifs <;> decide
  rw [onProcessWatchNetwork]
  refine List.forall_mem_append.mpr ⟨outputProcess_safe hnetwork rfl _ _ _ _ (by decide), ?_⟩
  split
  · rw [verifyCommunicatordConnection]
    split
    · exact List.forall_mem_nil _
    · dsimp only
      split
      · split <;> simp [hservice, houtage]
      · simp [hservice, houtage]
  · exact List.forall_mem_nil _

theorem reboot_safe : ∀ a ∈ (onProcessWatchReboot w.lib w.rebootFile w.reboot).2,
    a.Safe ["reboot"] := by
  have hrequired (required : Bool) : (rebootRequired required).Safe ["reboot"] :=
    ⟨of_member (List.mem_singleton.mpr rfl) _ _, trivial⟩
  rw [onProcessWatchReboot]
  split
  · refine List.forall_mem_cons.mpr ⟨hrequired true, List.forall_mem_singleton.mpr ?_⟩
    refine safe_passError _ _ ?_
    simp only [rebootPriority]
    split_ifs <;> decide
  · exact List.forall_mem_singleton.mpr (hrequired false)

theorem scripts_safe (host : ScriptHost) (runs : List ScriptRun) (logs : ScriptLogs) :
    ∀ a ∈ (onProcessWatchScripts host runs logs).1, a.Safe ["scripts"] := by
  have hmember (name : String) (value : Value) : (PluginAction.set (scriptNode.path ++
      [.name name]) value).Safe ["scripts"] :=
    ⟨of_inner (List.mem_singleton.mpr rfl) "script" name value, trivial⟩
  have herror (message : String) {priority : Int} (h : 0 ≤ priority ∧ priority ≤ 100) :
      (PluginAction.appendError scriptNode "scripts" message priority).Safe ["scripts"] :=
    safe_error (by simp [scriptNode]) _ _ h
  have houtput (message : String) (code : Int) : (PluginAction.appendError scriptNode "scripts"
      message (if code = 0 then 35 else 65)).Safe ["scripts"] :=
    herror _ (by split_ifs <;> decide)
  induction runs generalizing logs with
  | nil => exact List.forall_mem_nil _
  | cons run runs ih =>
      refine List.forall_mem_append.mpr ⟨?_, ih _⟩
      rw [processScript]
      split
      · exact List.forall_mem_nil _
      · cases run.reportedOutput host <;> cases run.reportedError host <;>
          simp [hmember, herror, houtput]

theorem watchLoaded_forall {P : PluginAction → Prop} {e : Except String (List PluginAction)}
    (h : ∀ actions, e = .ok actions → ∀ a ∈ actions, P a) :
    ∀ a ∈ watchLoaded e, (∃ what, a = .throw what) ∨ P a := by
  cases e with
  | error what => exact List.forall_mem_singleton.mpr (Or.inl ⟨what, rfl⟩)
  | ok actions => exact fun a ha => Or.inr (h actions rfl a ha)

theorem map_eq_ok {ε α β : Type} {e : Except ε α} {f : α → β} {b : β} :
    e.map f = .ok b ↔ ∃ a, e = .ok a ∧ f a = b := by
  cases e with
  | error what =>
      refine iff_of_false (fun h => by cases h) ?_
      rintro ⟨a, ha, -⟩
      cases ha
  | ok a => simp [Except.map]

theorem mapError_eq_ok {ε δ α : Type} {e : Except ε α} {f : ε → δ} {a : α} :
    e.mapError f = .ok a ↔ e = .ok a := by
  cases e <;> simp [Except.mapError]

/-- **Each plugin keeps to its own members**, and to the errors of the pass. -/
theorem watch_of (i : Plugin) :
    ∀ a ∈ w.watch i, (∃ what, a = .throw what) ∨ a.Of i.names := by
  cases i with
  | apt => exact fun a ha => Or.inr (apt_safe w a ha).1
  | certificate => exact fun a ha => Or.inr (certificate_safe _ _ _ _ _ _ a ha).1
  | cpu => exact fun a ha => Or.inr (cpu_safe w a ha).1
  | disk => exact (DiskPass.fillsItems_mounts w.lib w.disk w.disk.mounts 0).2
  | firewall =>
      exact fun a ha => Or.inr
        (outputProcess_safe (List.mem_singleton.mpr rfl) rfl _ _ _ _ (by decide) a ha).1
  | flags => exact fun a ha => Or.inr (onProcessWatchFlags_of a ha)
  | log =>
      refine watchLoaded_forall fun actions hwatch => ?_
      obtain ⟨defs, -, rfl⟩ := map_eq_ok.mp hwatch
      exact fun a ha => (log_safe _ _ a ha).1
  | memory =>
      refine watchLoaded_forall fun actions hwatch => ?_
      obtain ⟨info, -, rfl⟩ := map_eq_ok.mp (mapError_eq_ok.mp hwatch)
      exact fun a ha => (memory_safe info a ha).1
  | network => exact fun a ha => Or.inr (network_safe w a ha).1
  | packages =>
      refine watchLoaded_forall fun actions hwatch => ?_
      obtain ⟨watch, hload, rfl⟩ := map_eq_ok.mp hwatch
      obtain ⟨packages, -, rfl⟩ := map_eq_ok.mp hload
      exact watchPackages_of
  | processes =>
      refine watchLoaded_forall fun actions hwatch => ?_
      obtain ⟨loaded, -, rfl⟩ := map_eq_ok.mp hwatch
      exact fun a ha => (onProcessWatchProcesses_of _ _ _ _ _ a ha).1
  | reboot => exact fun a ha => Or.inr (reboot_safe w a ha).1
  | scripts => exact fun a ha => Or.inr (scripts_safe _ _ _ a ha).1

end Keeps

/-! ## The pass

A plugin gets to its end under conditions on what it finds, which are stated
for each plugin without its actions. -/

theorem ownerOf_names (i : Plugin) : ∀ n ∈ i.names, Plugin.ownerOf n = some i := by
  cases i <;> decide

namespace PassInputs

variable (w : PassInputs)

/-- The plugins of a pass. -/
def team : Team Plugin where
  watch := w.watch
  owner := Plugin.ownerOf
  owned i a ha := by
    refine (watch_of w i a ha).imp_right fun h => ?_
    obtain ⟨n, hn, hown⟩ := h.member
    exact ⟨n, hn, hown.imp id (ownerOf_names i n)⟩
  calm i a ha := by
    rcases watch_of w i a ha with ⟨what, rfl⟩ | h
    · trivial
    · exact h.calm

/-- What a plugin needs to get to its end. -/
def Fine : Plugin → Prop
  | .disk => ∀ m ∈ w.disk.mounts, MountDecided w.lib w.disk m
  | .flags => ∀ f ∈ w.flags, f.priority ≤ 100
  | .log => ∃ defs, loadLogs w.logHost w.logFiles = .ok defs
  | .memory => ∃ info, getMeminfo w.tokenize w.meminfo = .ok info
  | .packages => ∃ packages, loadPackages w.lib w.snapdev w.packageFiles = .ok packages ∧
      ∀ pc ∈ packages, pc.Raises w.installed → 0 ≤ pc.priority ∧ pc.priority ≤ 100
  | .processes => ∃ loaded, loadProcesses w.lib w.regex w.systemctl w.processFiles = .ok loaded
  | _ => True

end PassInputs

section Complete

variable {w : PassInputs}

theorem expected_accepted_iff {inst : String → Bool} {pc : Package} (k : Nat) :
    (∀ e ∈ pc.expected inst k, e.Accepted) ↔
      (pc.Raises inst → 0 ≤ pc.priority ∧ pc.priority ≤ 100) := by
  refine ⟨?_, fun h => expected_accepted_of_raises h k⟩
  intro h hraises
  have hpriority : pc.priority ∈ raisedPriorities (pc.expected inst k) := by
    rw [expected_priorities, if_pos hraises]
    exact List.mem_singleton.mpr rfl
  obtain ⟨a, ha, hraised⟩ := List.mem_filterMap.mp hpriority
  cases a with
  | set path value => cases hraised
  | push path value => cases hraised
  | appendError node plugin message priority =>
      cases hraised
      exact h _ ha
  | throw what => cases hraised

theorem completes_packages_iff {inst : String → Bool} (packages : List Package) (k : Nat) :
    Completes ((watchPackages k packages).run inst) ↔
      ∀ pc ∈ packages, pc.Raises inst → 0 ≤ pc.priority ∧ pc.priority ≤ 100 := by
  induction packages generalizing k with
  | nil => exact iff_of_true (List.forall_mem_nil _) (List.forall_mem_nil _)
  | cons pc packages ih =>
      have hrecord : Completes (pc.record k) := by
        rw [pc.record_eq]
        exact accepted_writeItem _
      rw [run_watchPackages_cons, List.forall_mem_cons, ← expected_accepted_iff k, ← ih (k + 1)]
      split
      · next haccepted =>
          rw [and_iff_right haccepted]
          constructor
          · exact fun h a ha => h a (List.mem_append_right _ ha)
          · exact fun h => List.forall_mem_append.mpr
              ⟨List.forall_mem_append.mpr ⟨hrecord, haccepted⟩, h⟩
      · next hrefused =>
          refine iff_of_false ?_ fun h => hrefused h.1
          exact fun h => hrefused fun e he => h e (List.mem_append_right _ he)

theorem completes_watchLoaded {e : Except String (List PluginAction)} :
    Completes (watchLoaded e) ↔ ∃ actions, e = .ok actions ∧ Completes actions := by
  cases e with
  | error what =>
      refine iff_of_false (fun h => h _ List.mem_cons_self) ?_
      rintro ⟨actions, hactions, -⟩
      cases hactions
  | ok actions => simp [watchLoaded]

theorem completes_accepted {i : Plugin} (h : ∀ a ∈ w.watch i, a.Accepted) (hfine : w.Fine i) :
    w.team.Completes i ↔ w.Fine i :=
  iff_of_true h hfine

theorem completes_iff_fine (i : Plugin) : w.team.Completes i ↔ w.Fine i := by
  cases i with
  | apt => exact completes_accepted (fun a ha => (apt_safe w a ha).2) trivial
  | certificate =>
      exact completes_accepted (fun a ha => (certificate_safe _ _ _ _ _ _ a ha).2) trivial
  | cpu => exact completes_accepted (fun a ha => (cpu_safe w a ha).2) trivial
  | disk => exact onProcessWatchDisk_completes w.lib w.disk
  | firewall =>
      exact completes_accepted (fun a ha =>
        (outputProcess_safe (List.mem_singleton.mpr rfl) rfl _ _ _ _ (by decide) a ha).2) trivial
  | flags => exact onProcessWatchFlags_accepted w.boolean
  | log =>
      refine completes_watchLoaded.trans ⟨?_, ?_⟩
      · rintro ⟨actions, hwatch, -⟩
        obtain ⟨defs, hdefs, -⟩ := map_eq_ok.mp hwatch
        exact ⟨defs, mapError_eq_ok.mp hdefs⟩
      · rintro ⟨defs, hdefs⟩
        exact ⟨_, map_eq_ok.mpr ⟨defs, mapError_eq_ok.mpr hdefs, rfl⟩,
          fun a ha => (log_safe _ _ a ha).2⟩
  | memory =>
      refine completes_watchLoaded.trans ⟨?_, ?_⟩
      · rintro ⟨actions, hwatch, -⟩
        obtain ⟨info, hinfo, -⟩ := map_eq_ok.mp (mapError_eq_ok.mp hwatch)
        exact ⟨info, hinfo⟩
      · rintro ⟨info, hinfo⟩
        exact ⟨_, mapError_eq_ok.mpr (map_eq_ok.mpr ⟨info, hinfo, rfl⟩),
          fun a ha => (memory_safe info a ha).2⟩
  | network => exact completes_accepted (fun a ha => (network_safe w a ha).2) trivial
  | packages =>
      refine completes_watchLoaded.trans ⟨?_, ?_⟩
      · rintro ⟨actions, hwatch, hok⟩
        obtain ⟨watch, hload, rfl⟩ := map_eq_ok.mp hwatch
        obtain ⟨packages, hpackages, rfl⟩ := map_eq_ok.mp hload
        exact ⟨packages, hpackages, (completes_packages_iff packages 0).mp hok⟩
      · rintro ⟨packages, hpackages, hrange⟩
        exact ⟨_, map_eq_ok.mpr ⟨_, map_eq_ok.mpr ⟨packages, hpackages, rfl⟩, rfl⟩,
          (completes_packages_iff packages 0).mpr hrange⟩
  | processes =>
      refine completes_watchLoaded.trans ⟨?_, ?_⟩
      · rintro ⟨actions, hwatch, -⟩
        obtain ⟨loaded, hloaded, -⟩ := map_eq_ok.mp hwatch
        exact ⟨loaded, hloaded⟩
      · rintro ⟨loaded, hloaded⟩
        exact ⟨_, map_eq_ok.mpr ⟨loaded, hloaded, rfl⟩,
          fun a ha => (onProcessWatchProcesses_of _ _ _ _ _ a ha).2⟩
  | reboot => exact completes_accepted (fun a ha => (reboot_safe w a ha).2) trivial
  | scripts => exact completes_accepted (fun a ha => (scripts_safe _ _ _ a ha).2) trivial

end Complete

/-- **When a pass gets to its end**, in whatever order its plugins are called. -/
theorem pass_completes (w : PassInputs) (st : PassState) (order : List Plugin) :
    (w.team.run st order).2 = none ↔ ∀ i ∈ order, w.Fine i := by
  rw [Team.run_completes]
  exact forall₂_congr fun i _ => completes_iff_fine i

/-- A computer with a busy processor, a full partition and no `ipwall`, and with
nothing else to tell. -/
def PassInputs.busyHost : PassInputs where
  lib := .decimal
  snapdev := .spaces
  round x := x
  real _ := .null
  boolean b := .int (if b then 1 else 0)
  dateText _ := "01/01/26"
  timeText t := toString t
  apt := checkedHourAgo
  accessErrors _ := none
  certificate := certificatePass "10-example.conf" 500
  highCpu := none
  cpu := busyPass 1700000000
  disk := homePass
  ipwall := none
  flags := []
  logHost := .plain
  logFiles := []
  glob _ := []
  tokenize := tokenizeLine
  meminfo := none
  communicatord := none
  connection := ⟨1700000000, 1600000000⟩
  now := 1700000900
  packageFiles := []
  installed _ := false
  systemctl := noServices
  processFiles := []
  regex := .plain
  backends := ⟨"", []⟩
  maintenance := false
  processes := []
  rebootFile := none
  reboot := rebootPass 1700000000
  scriptHost := .plain
  scripts := [failingScript "50-mail.sh"]
  scriptLogs := ⟨none, none⟩

theorem PassInputs.busyHost_fine : ∀ i ∈ Plugin.all, PassInputs.busyHost.Fine i := by
  intro i _
  cases i with
  | flags => exact List.forall_mem_nil _
  | log => exact ⟨[], rfl⟩
  | memory => exact ⟨_, rfl⟩
  | packages => exact ⟨[], rfl, List.forall_mem_nil _⟩
  | processes => exact ⟨_, rfl⟩
  | apt => trivial
  | certificate => trivial
  | cpu => trivial
  | disk => exact homePass_decided
  | firewall => trivial
  | network => trivial
  | reboot => trivial
  | scripts => trivial

/-- **The plugins do not interfere**: a member of the root that belongs to a
plugin is, after a pass that gets to its end, what this plugin leaves there when
it is the only one. -/
theorem pass_no_interference (w : PassInputs) (st : PassState) (order : List Plugin)
    (hnodup : order.Nodup) (hok : (w.team.run st order).2 = none) (i : Plugin) (hi : i ∈ order)
    (n : String) (hn : n ∈ i.names) :
    (w.team.run st order).1.doc.below (memberPath n) =
      (w.team.run st [i]).1.doc.below (memberPath n) := by
  have hne : n ≠ "error" := by
    have hall : ∀ j : Plugin, ∀ m ∈ j.names, m ≠ "error" := by
      intro j
      cases j <;> decide
    exact hall i n hn
  exact Team.below (Team.run_completes.mp hok) hnodup hi hne (ownerOf_names i n hn)

/-- The disks, after all the others. -/
theorem pass_no_interference_disk :
    (PassInputs.busyHost.team.run .blank Plugin.all.reverse).1.doc.below (memberPath "disk") =
      (PassInputs.busyHost.team.run .blank [.disk]).1.doc.below (memberPath "disk") := by
  refine pass_no_interference .busyHost .blank Plugin.all.reverse (by decide) ?_ .disk (by decide)
    "disk" List.mem_cons_self
  refine Team.run_completes.mpr fun i hi => (completes_iff_fine i).mpr ?_
  exact PassInputs.busyHost_fine i (List.mem_reverse.mp hi)

/-- **The order of the plugins makes no difference** to what a pass gets to its
end with, but for the order of the errors. -/
theorem pass_order (w : PassInputs) (st : PassState) (order order' : List Plugin)
    (hnodup : order.Nodup) (hperm : order.Perm order')
    (hok : (w.team.run st order).2 = none) :
    (w.team.run st order').2 = none ∧
      Team.SamePass st (w.team.run st order).1 (w.team.run st order').1 := by
  have hcompletes := Team.run_completes.mp hok
  refine ⟨?_, Team.order_irrelevant hcompletes hnodup hperm⟩
  exact Team.run_completes.mpr fun i hi => hcompletes i (hperm.mem_iff.mpr hi)

/-- The plugins, and the plugins backwards. -/
theorem pass_order_reversed :
    (PassInputs.busyHost.team.run .blank Plugin.all.reverse).2 = none ∧
      Team.SamePass .blank (PassInputs.busyHost.team.run .blank Plugin.all).1
        (PassInputs.busyHost.team.run .blank Plugin.all.reverse).1 := by
  refine pass_order .busyHost .blank Plugin.all Plugin.all.reverse (by decide)
    (List.reverse_perm _).symm ?_
  refine Team.run_completes.mpr fun i hi => ?_
  exact (completes_iff_fine i).mpr (PassInputs.busyHost_fine i hi)

end Sitter
