/-
# `Sitter.Packages` — the packages plugin: what is loaded and what is raised

One file of the packages path defines one package:

    name          of the package; a file without one is skipped
    priority      of its errors; 15 if there is none
    installation  optional, required or unwanted
    description   goes into the message of a conflict
    conflicts     packages that cannot be installed along with it

For each package, `on_process_watch` raises at most one error: required and not
installed, or unwanted and installed, or installed along with packages it is in
conflict with.  Whether a package is installed is asked for, one name at a time
(`Base.Ask`), so the plugin is the same whether dpkg-query answers, or its
cache, or a predicate.

What is raised for the packages that were loaded is what their records ask for
(`watch_errors`).  What is loaded is not always what the file says: the loader
looks for a parameter named `intallation` before it reads `installation`.
-/
import Sitter.Base.Ask
import Sitter.RunPlugins

namespace Sitter

open Document

/-! ## Packages and their files -/

/-- `installation_t` -/
inductive Installation where
  | optional
  | required
  | unwanted
  deriving DecidableEq, Repr

/-- `get_installation_as_string` -/
def Installation.asString : Installation → String
  | .optional => "optional"
  | .required => "required"
  | .unwanted => "unwanted"

/-- `installation_from_string` -/
def installationFromString (installation : String) : Except String Installation :=
  if installation = "" ∨ installation = "optional" then .ok .optional
  else if installation = "required" then .ok .required
  else if installation = "unwanted" then .ok .unwanted
  else .error "invalid installation name, cannot load your configuration file"

/-- `sitter_package_t`, without the conflicts found by the last check. -/
structure Package where
  name : String
  description : String
  conflicts : Std.TreeSet String
  installation : Installation
  priority : Int

/-- `add_conflict` -/
def Package.addConflict (pc : Package) (packageName : String) : Except String Package :=
  if packageName = pc.name then .error "a package cannot be in conflict with itself"
  else .ok { pc with conflicts := pc.conflicts.insert packageName }

/-- The priority of a package file, before it becomes an `int`. -/
def ConfFile.priority (lib : Advgetopt) (file : ConfFile) : Int :=
  match file "priority" with
  | none => 15
  | some text => (lib.integer text).getD 15

/-- The names in the `conflicts` of a package file. -/
def ConfFile.conflicts (lib : Advgetopt) (file : ConfFile) : List String :=
  match file "conflicts" with
  | none => []
  | some text => lib.splitString text [","]

/-- The installation `load_package` reads.  The parameter it looks for is
misspelt. -/
def ConfFile.installation (file : ConfFile) : Except String Installation :=
  if (file "intallation").isSome then installationFromString ((file "installation").getD "")
  else .ok .optional

/-- `load_package`; `none` for a file without a name. -/
def loadPackage (lib : Advgetopt) (snapdev : Snapdev) (file : ConfFile) :
    Except String (Option Package) :=
  match file "name" with
  | none => .ok none
  | some name => do
      let installation ← file.installation
      let wp : Package :=
        { name
          description := snapdev.trimString ((file "description").getD "")
          conflicts := ∅
          installation
          priority := int32 (file.priority lib) }
      some <$> (file.conflicts lib).foldlM Package.addConflict wp

/-- `load_packages` -/
def loadPackages (lib : Advgetopt) (snapdev : Snapdev) :
    List ConfFile → Except String (List Package)
  | [] => .ok []
  | file :: files => do
      let package ← loadPackage lib snapdev file
      let packages ← loadPackages lib snapdev files
      return package.toList ++ packages

/-! ## The check -/

/-- The node of the package at a position: `json["packages"]["package"][k]`. -/
def packageNode (k : Nat) : PluginNode where
  path := [.name "packages", .name "package", .item k]
  beside := rfl

namespace Package

def record (pc : Package) (k : Nat) : List PluginAction :=
  let package := (packageNode k).path
  [.push [.name "packages", .name "package"] .null,
    .set (package ++ [.name "name"]) (.text pc.name),
    .set (package ++ [.name "installation"]) (.text pc.installation.asString)] ++
  if pc.conflicts.isEmpty then []
  else [.set (package ++ [.name "conflicts"]) (.text (joinStrings pc.conflicts.toList ", "))]

def requiredError (pc : Package) (k : Nat) : PluginAction :=
  .appendError (packageNode k) "packages"
    ("The \"" ++ pc.name ++ "\" package is required but not (yet) installed."
      ++ " Please install this package at your earliest convenience.") pc.priority

def unwantedError (pc : Package) (k : Nat) : PluginAction :=
  .appendError (packageNode k) "packages"
    ("The \"" ++ pc.name ++ "\" package is expected to NOT ever be installed."
      ++ " Please remove this package at your earliest convenience.") pc.priority

def conflictError (pc : Package) (conflicts : List String) : PluginAction :=
  .appendError passNode "packages"
    (pc.description ++ " The \"" ++ pc.name ++ "\" package is in conflict with \""
      ++ joinStrings conflicts "\", \"" ++ "\".") pc.priority

/-- Those of some packages that are installed. -/
def installedAmong : List String → Ask String Bool (List String)
  | [] => pure []
  | u :: us => do
      let installed ← Ask.question u
      let rest ← installedAmong us
      return if installed then u :: rest else rest

/-- `is_in_conflict`, with `get_packages_in_conflict`: no conflict is the empty
list. -/
def inConflict (pc : Package) : Ask String Bool (List String) := do
  -- if the expected package is not even installed, there cannot be a conflict
  let installed ← Ask.question pc.name
  if installed then installedAmong pc.conflicts.toList else return []

/-- The last part of the loop's body. -/
def checkConflict (pc : Package) : Ask String Bool (List PluginAction) := do
  let conflicts ← pc.inConflict
  return if conflicts = [] then [] else [pc.conflictError conflicts]

/-- The errors of one package. -/
def check (pc : Package) (k : Nat) : Ask String Bool (List PluginAction) := do
  match pc.installation with
  | .required =>
      let installed ← Ask.question pc.name
      if installed then pc.checkConflict else return [pc.requiredError k]
  | .unwanted =>
      let installed ← Ask.question pc.name
      if installed then return [pc.unwantedError k] else pc.checkConflict
  | .optional => pc.checkConflict

end Package

/-- The loop over the packages, from the position `k` on.  An error that is
refused throws out of it. -/
def watchPackages : Nat → List Package → Ask String Bool (List PluginAction)
  | _, [] => pure []
  | k, pc :: rest => do
      let errors ← pc.check k
      if ∀ e ∈ errors, e.Accepted then
        let later ← watchPackages (k + 1) rest
        return pc.record k ++ errors ++ later
      else return pc.record k ++ errors

/-- `on_process_watch`: the errors of a load are thrown, else the actions of the
plugin. -/
def onProcessWatchPackages (lib : Advgetopt) (snapdev : Snapdev) (files : List ConfFile) :
    Except String (Ask String Bool (List PluginAction)) :=
  (loadPackages lib snapdev files).map (watchPackages 0)

/-! ## What is raised for a list of packages

A package raises one error at most, and which one depends on the statuses
alone. -/

section Watch

variable (inst : String → Bool)

def Package.installedConflicts (pc : Package) : List String := pc.conflicts.toList.filter inst

/-- The error a package asks for. -/
def Package.expected (k : Nat) (pc : Package) : List PluginAction :=
  if pc.installation = .required ∧ inst pc.name = false then [pc.requiredError k]
  else if pc.installation = .unwanted ∧ inst pc.name = true then [pc.unwantedError k]
  else if inst pc.name = true ∧ pc.installedConflicts inst ≠ [] then
    [pc.conflictError (pc.installedConflicts inst)]
  else []

/-- The errors some packages ask for, from the position `k` on. -/
def expectedErrors : Nat → List Package → List PluginAction
  | _, [] => []
  | k, pc :: rest => pc.expected inst k ++ expectedErrors (k + 1) rest

theorem run_installedAmong (names : List String) :
    (Package.installedAmong names).run inst = names.filter inst := by
  induction names with
  | nil => rfl
  | cons u us ih =>
      simp only [Package.installedAmong, Ask.run_bind, Ask.run_question, Ask.run_pure, ih,
        List.filter_cons]

theorem run_checkConflict (pc : Package) :
    pc.checkConflict.run inst =
      if inst pc.name = true ∧ pc.installedConflicts inst ≠ [] then
        [pc.conflictError (pc.installedConflicts inst)]
      else [] := by
  simp only [Package.checkConflict, Package.inConflict, Ask.run_bind, Ask.run_question,
    Ask.run_pure]
  by_cases hinst : inst pc.name = true
  · simp only [hinst, if_true, run_installedAmong, true_and]
    by_cases hnone : pc.conflicts.toList.filter inst = []
    · simp [Package.installedConflicts, hnone]
    · simp [Package.installedConflicts, hnone]
  · simp [hinst]

/-- **The check of one package raises the error it asks for.** -/
theorem run_check (pc : Package) (k : Nat) : (pc.check k).run inst = pc.expected inst k := by
  have hconflict := run_checkConflict inst pc
  simp only [Package.check, Package.expected]
  cases pc.installation with
  | optional => simpa using hconflict
  | required =>
      simp only [Ask.run_bind, Ask.run_question]
      by_cases hinst : inst pc.name = true
      · simpa [hinst] using hconflict
      · simp [hinst]
  | unwanted =>
      simp only [Ask.run_bind, Ask.run_question]
      by_cases hinst : inst pc.name = true
      · simp [hinst]
      · simpa [hinst] using hconflict

theorem record_isError (pc : Package) (k : Nat) :
    (pc.record k).filter PluginAction.isError = [] := by
  simp only [Package.record]
  split <;> rfl

theorem expected_isError (pc : Package) (k : Nat) :
    (pc.expected inst k).filter PluginAction.isError = pc.expected inst k := by
  simp only [Package.expected]
  split
  · rfl
  · split
    · rfl
    · split <;> rfl

theorem expected_accepted {pc : Package} (hpc : 0 ≤ pc.priority ∧ pc.priority ≤ 100) (k : Nat) :
    ∀ e ∈ pc.expected inst k, e.Accepted := by
  simp only [Package.expected]
  split
  · simpa [Package.requiredError, PluginAction.Accepted] using hpc
  · split
    · simpa [Package.unwantedError, PluginAction.Accepted] using hpc
    · split
      · simpa [Package.conflictError, PluginAction.Accepted] using hpc
      · simp

/-- **The pass raises what the loaded packages ask for**, and nothing else. -/
theorem watch_errors {packages : List Package}
    (hok : ∀ pc ∈ packages, ∀ k, ∀ e ∈ pc.expected inst k, e.Accepted) (k : Nat) :
    ((watchPackages k packages).run inst).filter PluginAction.isError =
      expectedErrors inst k packages := by
  induction packages generalizing k with
  | nil => rfl
  | cons pc rest ih =>
      have hrest := ih (fun p hp => hok p (List.mem_cons_of_mem _ hp)) (k + 1)
      have haccepted := hok pc List.mem_cons_self k
      simp only [watchPackages, Ask.run_bind, run_check, if_pos haccepted, Ask.run_pure,
        List.filter_append, record_isError, expected_isError, hrest, List.nil_append,
        expectedErrors]

theorem record_accepted (pc : Package) (k : Nat) : Completes (pc.record k) := by
  intro a ha
  simp only [Package.record, List.mem_append, List.mem_cons, List.not_mem_nil, or_false] at ha
  split at ha
  · rcases ha with (rfl | rfl | rfl) | ha
    · trivial
    · trivial
    · trivial
    · exact absurd ha List.not_mem_nil
  · rcases ha with (rfl | rfl | rfl) | ha
    · trivial
    · trivial
    · trivial
    · rw [List.mem_singleton.mp ha]
      trivial

/-- A pass whose errors are accepted gets to its end. -/
theorem completes_watch {packages : List Package}
    (hok : ∀ pc ∈ packages, ∀ k, ∀ e ∈ pc.expected inst k, e.Accepted) (k : Nat) :
    Completes ((watchPackages k packages).run inst) := by
  induction packages generalizing k with
  | nil => exact List.forall_mem_nil _
  | cons pc rest ih =>
      have hrest := ih (fun p hp => hok p (List.mem_cons_of_mem _ hp)) (k + 1)
      have haccepted := hok pc List.mem_cons_self k
      simp only [watchPackages, Ask.run_bind, run_check, if_pos haccepted, Ask.run_pure]
      exact List.forall_mem_append.mpr
        ⟨List.forall_mem_append.mpr ⟨record_accepted pc k, haccepted⟩, hrest⟩

end Watch

/-! ## What is loaded from a list of files

The loader asks for a parameter `intallation`, so the installation of a file is
never read and the default stands in its place. -/

/-- A file as the documentation asks for it: a name, one of the three
installations if any, a priority in range, and no conflict with itself. -/
structure PackageFile (lib : Advgetopt) where
  conf : ConfFile
  name : String
  named : conf "name" = some name
  installation : ∀ text, conf "installation" = some text →
    text = "optional" ∨ text = "required" ∨ text = "unwanted"
  priority : 0 ≤ conf.priority lib ∧ conf.priority lib ≤ 100
  conflicts : name ∉ conf.conflicts lib

namespace PackageFile

variable {lib : Advgetopt} (snapdev : Snapdev)

/-- The `installation` of the file, in its own words. -/
def asksFor (f : PackageFile lib) (installation : String) : Prop :=
  f.conf "installation" = some installation

/-- The package a file stands for, with some installation. -/
def package (f : PackageFile lib) (installation : Installation) : Package where
  name := f.name
  description := snapdev.trimString ((f.conf "description").getD "")
  conflicts := (f.conf.conflicts lib).foldl (fun names c => names.insert c) ∅
  installation := installation
  priority := f.conf.priority lib

/-- The installation the file says. -/
def documented (f : PackageFile lib) : Installation :=
  match f.conf "installation" with
  | some "required" => .required
  | some "unwanted" => .unwanted
  | _ => .optional

/-- The installation the loader comes to. -/
def loaded (f : PackageFile lib) : Installation :=
  if (f.conf "intallation").isSome then f.documented else .optional

/-- The loader read the installation, or it makes no difference. -/
def Harmless (inst : String → Bool) (f : PackageFile lib) : Prop :=
  (f.conf "intallation").isSome = true ∨
    ¬ (f.asksFor "required" ∧ inst f.name = false) ∧ ¬ (f.asksFor "unwanted" ∧ inst f.name = true)

theorem installationFromString_documented (f : PackageFile lib) :
    installationFromString ((f.conf "installation").getD "") = .ok f.documented := by
  simp only [installationFromString, documented]
  cases h : f.conf "installation" with
  | none => rfl
  | some text => rcases f.installation text h with rfl | rfl | rfl <;> rfl

theorem addConflicts (names : List String) (pc : Package) (h : pc.name ∉ names) :
    names.foldlM Package.addConflict pc =
      .ok { pc with conflicts := names.foldl (fun cs c => cs.insert c) pc.conflicts } := by
  induction names generalizing pc with
  | nil => rfl
  | cons c names ih =>
      have hc : c ≠ pc.name := by
        rintro rfl
        exact h List.mem_cons_self
      have hrest : pc.name ∉ names := by
        intro hm
        exact h (List.mem_cons_of_mem _ hm)
      have hadd : pc.addConflict c = .ok { pc with conflicts := pc.conflicts.insert c } :=
        if_neg hc
      rw [List.foldlM_cons, hadd]
      exact ih { pc with conflicts := pc.conflicts.insert c } hrest

/-- **A documented file loads**, as a package with the loaded installation. -/
theorem loadPackage_file (f : PackageFile lib) :
    loadPackage lib snapdev f.conf = .ok (some (f.package snapdev f.loaded)) := by
  have hpriority : int32 (f.conf.priority lib) = f.conf.priority lib := by
    have h := f.priority
    exact int32_of_range (by omega) (by omega)
  have hinstallation : f.conf.installation = .ok f.loaded := by
    simp only [ConfFile.installation, loaded]
    split
    · exact f.installationFromString_documented
    · rfl
  simp only [loadPackage, f.named, hinstallation, hpriority]
  have hadd := addConflicts (f.conf.conflicts lib)
    { name := f.name, description := snapdev.trimString ((f.conf "description").getD ""),
      conflicts := ∅, installation := f.loaded, priority := f.conf.priority lib } f.conflicts
  exact congrArg (fun r => some <$> r) hadd

theorem loadPackages_files (files : List (PackageFile lib)) :
    loadPackages lib snapdev (files.map conf) =
      .ok (files.map fun f => f.package snapdev f.loaded) := by
  induction files with
  | nil => rfl
  | cons f files ih =>
      rw [List.map_cons, loadPackages, loadPackage_file, ih]
      rfl

/-! ### When the errors are those of the files -/

/-- The error is on a package's own node: it is about its installation. -/
def isStatusError : PluginAction → Bool
  | .appendError node _ _ _ => node.path ≠ []
  | _ => false

theorem countStatus_expected (inst : String → Bool) (k : Nat) (pc : Package) :
    (pc.expected inst k).countP isStatusError =
      if pc.installation = .required ∧ inst pc.name = false ∨
        pc.installation = .unwanted ∧ inst pc.name = true then 1 else 0 := by
  simp only [Package.expected]
  by_cases hrequired : pc.installation = .required ∧ inst pc.name = false
  · rw [if_pos hrequired, if_pos (Or.inl hrequired)]
    rfl
  · rw [if_neg hrequired]
    by_cases hunwanted : pc.installation = .unwanted ∧ inst pc.name = true
    · rw [if_pos hunwanted, if_pos (Or.inr hunwanted)]
      rfl
    · rw [if_neg hunwanted, if_neg (not_or.mpr ⟨hrequired, hunwanted⟩)]
      split <;> rfl

variable {snapdev} {inst : String → Bool} {f : PackageFile lib}

theorem documented_required : f.documented = .required ↔ f.asksFor "required" := by
  simp only [documented, asksFor]
  cases h : f.conf "installation" with
  | none => exact iff_of_false nofun nofun
  | some text => rcases f.installation text h with rfl | rfl | rfl <;> simp

theorem documented_unwanted : f.documented = .unwanted ↔ f.asksFor "unwanted" := by
  simp only [documented, asksFor]
  cases h : f.conf "installation" with
  | none => exact iff_of_false nofun nofun
  | some text => rcases f.installation text h with rfl | rfl | rfl <;> simp

/-- Without an error about its installation a package asks for its conflicts. -/
theorem expected_conflicts (pc : Package)
    (hrequired : ¬ (pc.installation = .required ∧ inst pc.name = false))
    (hunwanted : ¬ (pc.installation = .unwanted ∧ inst pc.name = true)) (k : Nat) :
    pc.expected inst k =
      if inst pc.name = true ∧ pc.installedConflicts inst ≠ [] then
        [pc.conflictError (pc.installedConflicts inst)]
      else [] := by
  rw [Package.expected, if_neg hrequired, if_neg hunwanted]

theorem expected_of_harmless (h : f.Harmless inst) (k : Nat) :
    (f.package snapdev f.loaded).expected inst k =
      (f.package snapdev f.documented).expected inst k := by
  by_cases hread : (f.conf "intallation").isSome = true
  · rw [loaded, if_pos hread]
  · obtain ⟨hrequired, hunwanted⟩ := h.resolve_left hread
    have hloaded : f.loaded = .optional := if_neg hread
    rw [expected_conflicts (f.package snapdev f.loaded) (by simp [package, hloaded])
      (by simp [package, hloaded])]
    rw [expected_conflicts (f.package snapdev f.documented)
      (by rwa [package, documented_required]) (by rwa [package, documented_unwanted])]
    rfl

/-- The loader never adds an error about an installation, and it keeps all of
them only if the file is harmless. -/
theorem countStatus_loaded (snapdev : Snapdev) (f : PackageFile lib) (inst : String → Bool)
    (k : Nat) :
    ((f.package snapdev f.loaded).expected inst k).countP isStatusError ≤
        ((f.package snapdev f.documented).expected inst k).countP isStatusError ∧
      (((f.package snapdev f.loaded).expected inst k).countP isStatusError =
        ((f.package snapdev f.documented).expected inst k).countP isStatusError →
          f.Harmless inst) := by
  by_cases hread : (f.conf "intallation").isSome = true
  · rw [loaded, if_pos hread]
    exact ⟨le_refl _, fun _ => Or.inl hread⟩
  · have hloaded : f.loaded = .optional := if_neg hread
    simp only [countStatus_expected, package, hloaded, reduceCtorEq, false_and, or_false, if_false]
    split
    · next hmissed => exact ⟨Nat.zero_le _, fun h => by omega⟩
    · next hnone =>
        rw [documented_required, documented_unwanted] at hnone
        exact ⟨le_refl _, fun _ => Or.inr (not_or.mp hnone)⟩

theorem countStatus_files (snapdev : Snapdev) (inst : String → Bool) (k : Nat)
    (files : List (PackageFile lib)) :
    (expectedErrors inst k (files.map fun f => f.package snapdev f.loaded)).countP isStatusError ≤
      (expectedErrors inst k
        (files.map fun f => f.package snapdev f.documented)).countP isStatusError := by
  induction files generalizing k with
  | nil => exact le_refl _
  | cons f files ih =>
      have hf := (countStatus_loaded snapdev f inst k).1
      have hrest := ih (k + 1)
      simp only [List.map_cons, expectedErrors, List.countP_append]
      omega

/-- The errors are those the files ask for exactly when every file is
harmless. -/
theorem expectedErrors_files_iff (snapdev : Snapdev) (inst : String → Bool) (k : Nat)
    (files : List (PackageFile lib)) :
    expectedErrors inst k (files.map fun f => f.package snapdev f.loaded) =
        expectedErrors inst k (files.map fun f => f.package snapdev f.documented) ↔
      ∀ f ∈ files, f.Harmless inst := by
  induction files generalizing k with
  | nil => simp [expectedErrors]
  | cons f files ih =>
      simp only [List.map_cons, expectedErrors, List.forall_mem_cons]
      constructor
      · intro heq
        -- the counts add up only if they agree file by file
        have hcount := congrArg (List.countP isStatusError) heq
        simp only [List.countP_append] at hcount
        obtain ⟨hle, hharmless⟩ := countStatus_loaded snapdev f inst k
        have hrest := countStatus_files snapdev inst (k + 1) files
        have hf : f.Harmless inst := hharmless (by omega)
        rw [expected_of_harmless hf] at heq
        exact ⟨hf, (ih (k + 1)).mp (List.append_cancel_left heq)⟩
      · rintro ⟨hf, hfiles⟩
        rw [expected_of_harmless hf, (ih (k + 1)).mpr hfiles]

end PackageFile

/-- **A pass raises what the files ask for exactly when no installation that
matters was left unread.** -/
theorem packageReport_iff (lib : Advgetopt) (snapdev : Snapdev) (inst : String → Bool)
    (files : List (PackageFile lib)) :
    (onProcessWatchPackages lib snapdev (files.map PackageFile.conf)).map
        (fun watch => (watch.run inst).filter PluginAction.isError) =
      .ok (expectedErrors inst 0 (files.map fun f => f.package snapdev f.documented)) ↔
    ∀ f ∈ files, f.Harmless inst := by
  have hok : ∀ pc ∈ files.map (fun f => f.package snapdev f.loaded),
      ∀ k, ∀ e ∈ pc.expected inst k, e.Accepted := by
    intro pc hpc k
    obtain ⟨f, -, rfl⟩ := List.mem_map.mp hpc
    exact expected_accepted inst f.priority k
  rw [← PackageFile.expectedErrors_files_iff snapdev inst 0 files,
    onProcessWatchPackages, PackageFile.loadPackages_files]
  simp only [Except.map, watch_errors inst hok, Except.ok.injEq]

def requiresNtp : PackageFile .decimal where
  conf parameter :=
    match parameter with
    | "name" => some "ntp"
    | "installation" => some "required"
    | _ => none
  name := "ntp"
  named := rfl
  installation text h := by
    obtain rfl : "required" = text := Option.some.inj h
    exact Or.inr (Or.inl rfl)
  priority := by decide
  conflicts := by decide

/-- It is not installed, and nothing is raised. -/
theorem packageReport_required_ntp :
    (onProcessWatchPackages .decimal ⟨id⟩ ([requiresNtp].map PackageFile.conf)).map
        (fun watch => (watch.run fun _ => false).filter PluginAction.isError) ≠
      .ok (expectedErrors (fun _ => false) 0
        ([requiresNtp].map fun f => f.package ⟨id⟩ f.documented)) := by
  intro h
  have hcount := congrArg (fun r => r.toOption.map List.length) h
  exact absurd hcount (by decide)

end Sitter
