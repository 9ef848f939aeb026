/-
# `Sitter.Services` — are the processes of services watched?

A definition with a service is expected to run when the service is enabled.
`set_service` asks systemctl twice and keeps the two answers:

    systemctl show -p UnitFileState    the state of the unit, on a line
    systemctl is-active                an exit code, asked for if enabled

The text of the first answer is compared with `enabled` as it comes, with the
end of its line; it is the trimmed text that goes to the log.  So no service is
ever enabled: a definition with a service is expected to run only when it is a
backend, and what is expected of the others is right exactly when they are not
enabled (`serviceWatched_iff`).
-/
import Sitter.Processes

namespace Sitter

open Machine

/-! ## `systemctl` -/

/-- `systemctl` as it prints: the state of a unit and the end of the line. -/
def Systemctl.printing (state : String → String) (isActive : String → Int) : Systemctl where
  unitFileState service := state service ++ "\n"
  isActive := isActive

/-- No line is the word `enabled`. -/
theorem line_ne_enabled (state : String) : state ++ "\n" ≠ "enabled" := by
  intro h
  have hlast := congrArg (fun text : String => text.toList.getLast?) h
  simp at hlast

theorem printing_isServiceEnabled (state : String → String) (isActive : String → Int)
    (service : String) :
    (Systemctl.printing state isActive).isServiceEnabled service = false :=
  beq_eq_false_iff_ne.mpr (line_ne_enabled (state service))

/-! ## The flags of a definition

Whether a service is active is asked only if it is enabled, and what later
files add to a definition keeps its flags. -/

/-- The flags of a definition with a service are what systemctl said. -/
def ProcessDef.Asked (systemctl : Systemctl) (d : ProcessDef) : Prop :=
  d.service ≠ "" → d.serviceIsEnabled = systemctl.isServiceEnabled d.service ∧
    d.serviceIsActive =
      (systemctl.isServiceEnabled d.service && systemctl.isServiceActive d.service)

section Loader

variable {lib : Advgetopt} {regex : Regex} {systemctl : Systemctl}

theorem setService_asked (service : String) (backend : Bool) (d : ProcessDef) :
    (d.setService systemctl service backend).Asked systemctl := by
  simp only [ProcessDef.setService]
  split
  · next hempty => exact fun h => absurd hempty h
  · exact fun _ => ⟨rfl, rfl⟩

theorem ofFile_asked {file : ConfFile} {name : String} {wp : ProcessDef}
    (h : ProcessDef.ofFile lib regex systemctl file name = .ok wp) : wp.Asked systemctl := by
  obtain ⟨matchDefined, matchPattern, rfl⟩ := ofFile_eq_ok h
  show (ProcessDef.beforeMatch lib systemctl file name).Asked systemctl
  rw [ProcessDef.beforeMatch]
  cases file "service" with
  | none => cases file "command" <;> exact fun h => absurd rfl h
  | some service => exact setService_asked service _ _

/-- A second file of a name may make its definition mandatory; it asks nothing
anew. -/
theorem markMandatory_asked {name : String} {defs : List ProcessDef}
    (h : ∀ d ∈ defs, d.Asked systemctl) : ∀ d ∈ markMandatory name defs, d.Asked systemctl := by
  induction defs with
  | nil => exact h
  | cons e defs ih =>
      have htail := fun d hd => h d (List.mem_cons_of_mem e hd)
      simp only [markMandatory]
      split
      · intro d hd
        rcases List.mem_cons.mp hd with rfl | hd
        · exact h e List.mem_cons_self
        · exact htail d hd
      · intro d hd
        rcases List.mem_cons.mp hd with rfl | hd
        · exact h d List.mem_cons_self
        · exact ih htail d hd

theorem loadProcess_asked (loaded : LoadedProcesses) (file : ConfFile)
    (loaded' : LoadedProcesses) (h : ∀ d ∈ loaded.defs, d.Asked systemctl)
    (hload : loadProcess lib regex systemctl file loaded = .ok loaded') :
    ∀ d ∈ loaded'.defs, d.Asked systemctl := by
  simp only [loadProcess] at hload
  cases hname : file "name" with
  | none =>
      simp only [hname, Except.ok.injEq] at hload
      exact hload ▸ h
  | some name =>
      simp only [hname] at hload
      split at hload
      · split at hload
        · cases hload
        · split at hload
          · cases hload
            exact markMandatory_asked h
          · cases hload
            exact h
      · split at hload
        · cases hload
        · next wp hfile =>
            cases hload
            intro d hd
            rcases List.mem_append.mp hd with hd | hd
            · exact h d hd
            · rw [List.mem_singleton.mp hd]
              exact ofFile_asked hfile

/-- **Every definition that was loaded has the answers of systemctl.** -/
theorem loadProcesses_asked {files : List ConfFile} {loaded : LoadedProcesses}
    (hload : loadProcesses lib regex systemctl files = .ok loaded) :
    ∀ d ∈ loaded.defs, d.Asked systemctl :=
  foldlM_invariant (I := fun l : LoadedProcesses => ∀ d ∈ l.defs, d.Asked systemctl)
    (fun l file l' h hstep => loadProcess_asked l file l' h hstep)
    (fun _ hd => absurd hd List.not_mem_nil) hload

end Loader

/-! ## Who is expected to run -/

/-- A service that is not enabled was not asked whether it is active. -/
theorem expected_iff_enabled {systemctl : Systemctl} {backends : Backends} {d : ProcessDef}
    (hasked : d.Asked systemctl) (hservice : d.service ≠ "")
    (hbackend : d.serviceIsBackend = false) :
    d.isProcessExpectedToRun backends = systemctl.isServiceEnabled d.service := by
  obtain ⟨henabled, hactive⟩ := hasked hservice
  simp only [ProcessDef.isProcessExpectedToRun, if_neg hservice, hbackend, Bool.false_eq_true,
    if_false, henabled, hactive]
  cases systemctl.isServiceEnabled d.service <;> rfl

section Watch

variable {matched : ProcessDef → ProcessInfo → Bool} {backends : Backends} {maintenance : Bool}

/-- **A definition no running process matches is reported exactly when it is
expected to run**, with its own priority. -/
theorem reportedMissingAt_unmatched {list : List ProcessInfo} {loaded : LoadedProcesses}
    {d : ProcessDef} (hd : d ∈ loaded.defs) (hunmatched : ∀ info ∈ list, matched d info = false)
    (priority : Int) :
    ReportedMissingAt (onProcessWatchProcesses matched backends maintenance list loaded) d
        priority ↔
      d.isProcessExpectedToRun backends = true ∧ d.missingPriority maintenance = priority := by
  have hrest : d ∈ (Greedy.assign matched list loaded.defs).2 := by
    rw [Greedy.mem_rest_iff (loaded.distinct.of_map _) hd]
    intro x hx hmatch
    have hinfo : x.1 ∈ list :=
      Greedy.assign_map_fst (m := matched) list loaded.defs ▸ List.mem_map_of_mem hx
    rw [hunmatched x.1 hinfo] at hmatch
    exact absurd hmatch Bool.false_ne_true
  have hmissing : ReportedMissingAt (watchMissing backends maintenance 0
      (Greedy.assign matched list loaded.defs).2) d priority ↔ _ :=
    watchMissing_at maintenance 0 _ d priority
  simp only [onProcessWatchProcesses]
  rw [watchRunning_eq]
  constructor
  · rintro ⟨j, hmem⟩
    rcases List.mem_append.mp hmem with hrun | hmiss
    · exact absurd ⟨j, priority, hrun⟩ (outputs_not_missing 0 _ d)
    · obtain ⟨e, he, hexpected, hmessage, hpriority⟩ := hmissing.mp ⟨j, hmiss⟩
      obtain rfl : e = d := List.inj_on_of_nodup_map loaded.distinct
        (Greedy.mem_of_mem_rest he) hd (missingMessage_name hmessage)
      exact ⟨hexpected, hpriority⟩
  · rintro ⟨hexpected, hpriority⟩
    obtain ⟨j, hmem⟩ := hmissing.mpr ⟨d, hrest, hexpected, rfl, hpriority⟩
    exact ⟨j, List.mem_append_right _ hmem⟩

end Watch

/-! ## Services are watched -/

/-- What is asked of the definition of a service: it is expected to run, and
reported when nothing that runs matches it, exactly when the trimmed state of
its unit is `enabled`.  `trimmed` is `get_trimmed_output` of an output. -/
structure ServiceWatched (trimmed : String → String) (systemctl : Systemctl)
    (backends : Backends) (loaded : LoadedProcesses) (d : ProcessDef) : Prop where
  expected : d.isProcessExpectedToRun backends = true ↔
    trimmed (systemctl.unitFileState d.service) = "enabled"
  reported : ∀ (matched : ProcessDef → ProcessInfo → Bool) (maintenance : Bool)
    (list : List ProcessInfo), (∀ info ∈ list, matched d info = false) → ∀ priority : Int,
      ReportedMissingAt (onProcessWatchProcesses matched backends maintenance list loaded) d
          priority ↔
        trimmed (systemctl.unitFileState d.service) = "enabled" ∧
          priority = if d.mandatory then 95 else 60

/-- **A service is watched exactly when it is not enabled**: then nothing is
expected of it. -/
theorem serviceWatched_iff (lib : Advgetopt) (regex : Regex) (trimmed : String → String)
    (state : String → String) (isActive : String → Int) (backends : Backends)
    (files : List ConfFile) (loaded : LoadedProcesses) (d : ProcessDef)
    (hload : loadProcesses lib regex (Systemctl.printing state isActive) files = .ok loaded)
    (hd : d ∈ loaded.defs) (hservice : d.service ≠ "") (hbackend : d.serviceIsBackend = false) :
    ServiceWatched trimmed (Systemctl.printing state isActive) backends loaded d ↔
      trimmed (state d.service ++ "\n") ≠ "enabled" := by
  have hidle : d.isProcessExpectedToRun backends = false :=
    (expected_iff_enabled (loadProcesses_asked hload d hd) hservice hbackend).trans
      (printing_isServiceEnabled state isActive d.service)
  constructor
  · intro hwatched henabled
    have hexpected := hwatched.expected.mpr henabled
    exact absurd (hidle.symm.trans hexpected) Bool.false_ne_true
  · intro hdisabled
    refine ⟨?_, ?_⟩
    · rw [hidle]
      exact iff_of_false Bool.false_ne_true hdisabled
    · intro matched maintenance list hunmatched priority
      rw [reportedMissingAt_unmatched hd hunmatched, hidle]
      exact iff_of_false (fun h => Bool.false_ne_true h.1) (fun h => hdisabled h.1)

def apacheFile : ConfFile
  | "name" => some "apache2"
  | "service" => some "apache2"
  | "mandatory" => some "true"
  | _ => none

/-- What the loader makes of it. -/
def apacheLoaded (systemctl : Systemctl) : LoadedProcesses where
  defs := [.beforeMatch .decimal systemctl apacheFile "apache2"]
  distinct := List.nodup_singleton _

theorem apacheLoaded_eq (systemctl : Systemctl) :
    loadProcesses .decimal .plain systemctl [apacheFile] = .ok (apacheLoaded systemctl) := rfl

/-- The text without the blanks around it. -/
def trimOutput (text : String) : String :=
  String.ofList
    ((text.toList.dropWhile Char.isWhitespace).reverse.dropWhile Char.isWhitespace).reverse

/-- Nothing is expected of a service that is disabled. -/
theorem serviceWatched_disabled :
    ServiceWatched trimOutput (Systemctl.printing (fun _ => "disabled") fun _ => 3) ⟨"", []⟩
      (apacheLoaded (Systemctl.printing (fun _ => "disabled") fun _ => 3))
      (.beforeMatch .decimal (Systemctl.printing (fun _ => "disabled") fun _ => 3) apacheFile
        "apache2") :=
  (serviceWatched_iff .decimal .plain trimOutput (fun _ => "disabled") (fun _ => 3) ⟨"", []⟩
    [apacheFile] _ _ (apacheLoaded_eq _) List.mem_cons_self (by decide) (by decide)).mpr (by decide)

/-- A service that is enabled, and active, is not expected to run. -/
theorem serviceWatched_enabled :
    ∃ loaded, loadProcesses .decimal .plain (Systemctl.printing (fun _ => "enabled") fun _ => 0)
        [apacheFile] = .ok loaded ∧
      ∃ d ∈ loaded.defs, d.service ≠ "" ∧ d.serviceIsBackend = false ∧
        ¬ ServiceWatched trimOutput (Systemctl.printing (fun _ => "enabled") fun _ => 0) ⟨"", []⟩
          loaded d := by
  refine ⟨_, apacheLoaded_eq _, _, List.mem_cons_self, by decide, by decide, ?_⟩
  intro hwatched
  have hexpected := hwatched.expected.mpr (by decide)
  exact absurd hexpected (by decide)

end Sitter
