/-
# `Sitter.PackagePriorities` — the priority of a package, from its file to the error

The text of `priority` is read as a 64 bit integer, handed to a parameter of
type `int`, and only looked at when the package raises an error:

    file      any integer text; 15 if there is none
    package   the integer, wrapped to 32 bits
    error     append_error throws unless it is in 0..100

So a file with a priority out of range is accepted, and the pass in which its
package raises an error is over: the packages and the plugins after it are not
checked, and the statuses are not saved.  A pass keeps to its end, with the
priorities the files say, exactly if the packages that raise an error have one
in range (`packagePriorities_iff`).
-/
import Sitter.PackageCache

namespace Sitter

open Machine

/-! ## Files and their packages -/

/-- The files that define a package, each with the package. -/
def loadedPackages (lib : Advgetopt) (snapdev : Snapdev) (files : List ConfFile) :
    List (ConfFile × Package) :=
  files.filterMap fun file =>
    match loadPackage lib snapdev file with
    | .ok (some pc) => some (file, pc)
    | _ => none

/-- The package has something to raise: it is required and not installed, or
unwanted and installed, or installed along with one of its conflicts. -/
def Package.Raises (inst : String → Bool) (pc : Package) : Prop :=
  (pc.installation = .required ∧ inst pc.name = false) ∨
    (pc.installation = .unwanted ∧ inst pc.name = true) ∨
    (inst pc.name = true ∧ pc.installedConflicts inst ≠ [])

instance decRaises (inst : String → Bool) (pc : Package) : Decidable (pc.Raises inst) :=
  inferInstanceAs (Decidable (_ ∨ _ ∨ _))

section Load

variable {lib : Advgetopt} {snapdev : Snapdev} {inst : String → Bool}

/-- What was loaded comes from the files, in their order. -/
theorem loadPackages_eq {files : List ConfFile} {packages : List Package}
    (h : loadPackages lib snapdev files = .ok packages) :
    packages = (loadedPackages lib snapdev files).map Prod.snd := by
  induction files generalizing packages with
  | nil =>
      cases h
      rfl
  | cons file files ih =>
      rw [loadPackages] at h
      cases hfile : loadPackage lib snapdev file with
      | error what =>
          rw [hfile] at h
          cases h
      | ok o =>
          cases hfiles : loadPackages lib snapdev files with
          | error what =>
              rw [hfile, hfiles] at h
              cases h
          | ok rest =>
              rw [hfile, hfiles] at h
              cases h
              rw [loadedPackages, List.filterMap_cons, hfile]
              cases o with
              | none => exact ih hfiles
              | some pc => exact congrArg (pc :: ·) (ih hfiles)

/-- The priority of a package is that of its file, as an `int`. -/
theorem loadPackage_priority {file : ConfFile} {pc : Package}
    (h : loadPackage lib snapdev file = .ok (some pc)) :
    pc.priority = int32 (file.priority lib) := by
  simp only [loadPackage] at h
  cases hname : file "name" with
  | none =>
      rw [hname] at h
      cases h
  | some name =>
      cases hinstallation : file.installation with
      | error what =>
          rw [hname, hinstallation] at h
          cases h
      | ok installation =>
          rw [hname, hinstallation] at h
          dsimp only [bind, Except.bind] at h
          generalize hstart : Package.mk name _ ∅ installation (int32 (file.priority lib)) = wp at h
          cases hfold : (file.conflicts lib).foldlM Package.addConflict wp with
          | error what =>
              rw [hfold] at h
              cases h
          | ok wp' =>
              rw [hfold] at h
              cases h
              refine foldlM_invariant (I := fun pc => pc.priority = int32 (file.priority lib)) ?_
                (by rw [← hstart]) hfold
              intro pc conflict pc' hpc hadd
              simp only [Package.addConflict] at hadd
              split at hadd
              · cases hadd
              · cases hadd
                exact hpc

theorem mem_loadedPackages {files : List ConfFile} {x : ConfFile × Package}
    (h : x ∈ loadedPackages lib snapdev files) :
    loadPackage lib snapdev x.1 = .ok (some x.2) := by
  obtain ⟨file, -, hx⟩ := List.mem_filterMap.mp h
  split at hx
  · next pc hload =>
      obtain rfl := Option.some.inj hx
      exact hload
  · cases hx

theorem expected_priorities (inst : String → Bool) (pc : Package) (k : Nat) :
    raisedPriorities (pc.expected inst k) = if pc.Raises inst then [pc.priority] else [] := by
  rw [Package.expected]
  by_cases hrequired : pc.installation = .required ∧ inst pc.name = false
  · have hraises : pc.Raises inst := Or.inl hrequired
    rw [if_pos hrequired, if_pos hraises]
    rfl
  · rw [if_neg hrequired]
    by_cases hunwanted : pc.installation = .unwanted ∧ inst pc.name = true
    · have hraises : pc.Raises inst := Or.inr (Or.inl hunwanted)
      rw [if_pos hunwanted, if_pos hraises]
      rfl
    · rw [if_neg hunwanted]
      by_cases hconflict : inst pc.name = true ∧ pc.installedConflicts inst ≠ []
      · have hraises : pc.Raises inst := Or.inr (Or.inr hconflict)
        rw [if_pos hconflict, if_pos hraises]
        rfl
      · have hquiet : ¬ pc.Raises inst :=
          not_or.mpr ⟨hrequired, not_or.mpr ⟨hunwanted, hconflict⟩⟩
        rw [if_neg hconflict, if_neg hquiet]
        rfl

theorem expected_accepted_of_raises {pc : Package}
    (h : pc.Raises inst → 0 ≤ pc.priority ∧ pc.priority ≤ 100) (k : Nat) :
    ∀ e ∈ pc.expected inst k, e.Accepted := by
  by_cases hraises : pc.Raises inst
  · exact expected_accepted inst (h hraises) k
  · intro e he
    have hpriorities := expected_priorities inst pc k
    rw [if_neg hraises] at hpriorities
    cases e with
    | set path value => trivial
    | push path value => trivial
    | appendError node plugin message priority =>
        have hmem : priority ∈ raisedPriorities (pc.expected inst k) :=
          List.mem_filterMap.mpr ⟨_, he, rfl⟩
        rw [hpriorities] at hmem
        exact absurd hmem List.not_mem_nil
    | throw what =>
        rw [← expected_isError] at he
        cases (List.mem_filter.mp he).2

theorem expectedErrors_priorities (k : Nat) (packages : List Package) :
    raisedPriorities (expectedErrors inst k packages) =
      packages.filterMap fun pc => if pc.Raises inst then some pc.priority else none := by
  induction packages generalizing k with
  | nil => rfl
  | cons pc rest ih =>
      have hsplit : raisedPriorities (pc.expected inst k ++ expectedErrors inst (k + 1) rest) =
          raisedPriorities (pc.expected inst k) ++
            raisedPriorities (expectedErrors inst (k + 1) rest) := List.filterMap_append
      rw [expectedErrors, hsplit, expected_priorities, ih, List.filterMap_cons]
      by_cases hraises : pc.Raises inst
      · rw [if_pos hraises, if_pos hraises]
        rfl
      · rw [if_neg hraises, if_neg hraises]
        rfl

theorem raisedPriorities_filter (actions : List PluginAction) :
    raisedPriorities (actions.filter PluginAction.isError) = raisedPriorities actions := by
  induction actions with
  | nil => rfl
  | cons a actions ih =>
      simp only [raisedPriorities] at ih ⊢
      cases a with
      | set path value => exact ih
      | push path value => exact ih
      | appendError node plugin message priority => exact congrArg (priority :: ·) ih
      | throw what => exact ih

end Load

/-! ## The pass

A priority out of range goes through the loader and reaches `append_error`,
which throws. -/

/-- The priorities the files say, of the packages that raise an error. -/
def configuredPriorities (lib : Advgetopt) (snapdev : Snapdev) (inst : String → Bool)
    (files : List ConfFile) : List Int :=
  (loadedPackages lib snapdev files).filterMap fun x =>
    if x.2.Raises inst then some (x.1.priority lib) else none

/-- What is asked of a pass over accepted files, when `inst` says what is
installed: no action throws, the errors have the priorities the files say, and
the plugin goes on to save the statuses. -/
structure PackagesPassKept (lib : Advgetopt) (snapdev : Snapdev) (inst : String → Bool)
    (files : List ConfFile) (watch : Ask String Bool (List PluginAction)) : Prop where
  completes : ∀ st, (processWatch st (watch.run inst)).2 = none
  range : ∀ priority ∈ raisedPriorities (watch.run inst), 0 ≤ priority ∧ priority ≤ 100
  configured : raisedPriorities (watch.run inst) = configuredPriorities lib snapdev inst files
  saved : ∀ (st : PackagesState) (p : PackagesPass), p.files = files → st.running = true →
    (∀ a ∈ watch.answers (isPackageInstalled (readAll p.readable st.file) p.dpkg) st.statuses,
      a.2 = inst a.1) →
    (packagesDaemon lib snapdev st (.pass p)).1.running = true ∧
      (packagesDaemon lib snapdev st (.pass p)).1.file =
        (packagesDaemon lib snapdev st (.pass p)).1.statuses.save p.writable st.file

/-- The packages that raise an error have a priority in range. -/
def PrioritiesInRange (lib : Advgetopt) (snapdev : Snapdev) (inst : String → Bool)
    (files : List ConfFile) : Prop :=
  ∀ x ∈ loadedPackages lib snapdev files, x.2.Raises inst →
    0 ≤ x.1.priority lib ∧ x.1.priority lib ≤ 100

section Pass

variable {lib : Advgetopt} {snapdev : Snapdev} {inst : String → Bool} {files : List ConfFile}
  {watch : Ask String Bool (List PluginAction)}

/-- With priorities in range the packages have those of their files. -/
theorem priority_of_inRange (h : PrioritiesInRange lib snapdev inst files)
    {x : ConfFile × Package} (hx : x ∈ loadedPackages lib snapdev files)
    (hraises : x.2.Raises inst) : x.2.priority = x.1.priority lib := by
  have hrange := h x hx hraises
  rw [loadPackage_priority (mem_loadedPackages hx)]
  exact int32_of_range (by omega) (by omega)

theorem expected_accepted_of_inRange (h : PrioritiesInRange lib snapdev inst files)
    {packages : List Package} (hpackages : loadPackages lib snapdev files = .ok packages) :
    ∀ pc ∈ packages, ∀ k, ∀ e ∈ pc.expected inst k, e.Accepted := by
  intro pc hpc k
  rw [loadPackages_eq hpackages] at hpc
  obtain ⟨x, hx, rfl⟩ := List.mem_map.mp hpc
  refine expected_accepted_of_raises (fun hraises => ?_) k
  rw [priority_of_inRange h hx hraises]
  exact h x hx hraises

theorem raised_of_inRange (h : PrioritiesInRange lib snapdev inst files)
    {packages : List Package} (hpackages : loadPackages lib snapdev files = .ok packages) :
    raisedPriorities ((watchPackages 0 packages).run inst) =
      configuredPriorities lib snapdev inst files := by
  rw [← raisedPriorities_filter, watch_errors inst (expected_accepted_of_inRange h hpackages) 0,
    expectedErrors_priorities, loadPackages_eq hpackages, List.filterMap_map,
    configuredPriorities]
  refine List.filterMap_congr ?_
  intro x hx
  show (if x.2.Raises inst then some x.2.priority else none) = _
  by_cases hraises : x.2.Raises inst
  · rw [if_pos hraises, if_pos hraises, priority_of_inRange h hx hraises]
  · rw [if_neg hraises, if_neg hraises]

theorem configured_inRange (h : PrioritiesInRange lib snapdev inst files) :
    ∀ priority ∈ configuredPriorities lib snapdev inst files, 0 ≤ priority ∧ priority ≤ 100 := by
  intro priority hmem
  obtain ⟨x, hx, hsome⟩ := List.mem_filterMap.mp hmem
  split at hsome
  · next hraises =>
      obtain rfl := Option.some.inj hsome
      exact h x hx hraises
  · cases hsome

/-- A pass whose errors are accepted goes on to save the statuses. -/
theorem packagesDaemon_saves {st : PackagesState} {p : PackagesPass} (hrun : st.running = true)
    (hload : onProcessWatchPackages lib snapdev p.files = .ok watch)
    (hok : ∀ a ∈ (watch.exec (isPackageInstalled (readAll p.readable st.file) p.dpkg)
      st.statuses).1, a.Accepted) :
    (packagesDaemon lib snapdev st (.pass p)).1.running = true ∧
      (packagesDaemon lib snapdev st (.pass p)).1.file =
        (packagesDaemon lib snapdev st (.pass p)).1.statuses.save p.writable st.file := by
  have hrunning : ¬ st.running = false := by
    rw [hrun]
    exact Bool.noConfusion
  simp only [packagesDaemon, if_neg hrunning, hload, if_pos hok, and_self]

/-- **A pass keeps to its end, with the priorities the files say, exactly if the
packages that raise an error have one in range.** -/
theorem packagePriorities_iff (lib : Advgetopt) (snapdev : Snapdev) (inst : String → Bool)
    (files : List ConfFile) (watch : Ask String Bool (List PluginAction))
    (hload : onProcessWatchPackages lib snapdev files = .ok watch) :
    PackagesPassKept lib snapdev inst files watch ↔ PrioritiesInRange lib snapdev inst files := by
  constructor
  · intro h x hx hraises
    refine h.range _ ?_
    rw [h.configured, configuredPriorities]
    exact List.mem_filterMap.mpr ⟨x, hx, if_pos hraises⟩
  · intro h
    cases hpackages : loadPackages lib snapdev files with
    | error what =>
        rw [onProcessWatchPackages, hpackages] at hload
        cases hload
    | ok packages =>
        have hwatch : watch = watchPackages 0 packages := by
          rw [onProcessWatchPackages, hpackages] at hload
          exact (Except.ok.inj hload).symm
        have hconfigured : raisedPriorities (watch.run inst) =
            configuredPriorities lib snapdev inst files := by
          rw [hwatch, raised_of_inRange h hpackages]
        have hrange : ∀ priority ∈ raisedPriorities (watch.run inst),
            0 ≤ priority ∧ priority ≤ 100 := by
          rw [hconfigured]
          exact configured_inRange h
        have hcompletes : Completes (watch.run inst) := by
          rw [hwatch]
          exact completes_watch inst (expected_accepted_of_inRange h hpackages) 0
        refine ⟨fun st => processWatch_completes.mpr hcompletes, hrange, hconfigured, ?_⟩
        rintro st p rfl hrun hanswers
        refine packagesDaemon_saves hrun hload ?_
        rw [(Ask.exec_of_right hanswers).1]
        exact hcompletes

end Pass

/-- A file of ntp, which is in conflict with ntpd. -/
def conflictFile (priority : String) : ConfFile := fun parameter =>
  match parameter with
  | "name" => some "ntp"
  | "conflicts" => some "ntpd"
  | "priority" => some priority
  | _ => none

/-- The pass over that file. -/
def conflictWatch (priority : Int) : Ask String Bool (List PluginAction) :=
  watchPackages 0 [⟨"ntp", "", (∅ : Std.TreeSet String).insert "ntpd", .optional, priority⟩]

/-- With a priority of 100 everything is fine, when both packages are installed. -/
theorem packagePriorities_hundred :
    PackagesPassKept .decimal ⟨id⟩ (fun _ => true) [conflictFile "100"] (conflictWatch 100) := by
  refine (packagePriorities_iff .decimal ⟨id⟩ (fun _ => true) [conflictFile "100"]
    (conflictWatch 100) rfl).mpr ?_
  intro x hx _
  obtain ⟨file, hfile, hpair⟩ := List.mem_filterMap.mp hx
  obtain rfl := List.mem_singleton.mp hfile
  split at hpair
  · obtain rfl := Option.some.inj hpair
    have hrange : 0 ≤ (conflictFile "100").priority .decimal ∧
        (conflictFile "100").priority .decimal ≤ 100 := by decide
    exact hrange
  · cases hpair

/-- With a priority of 101 the file is accepted as well, and the pass is over. -/
theorem packagePriorities_hundred_and_one :
    onProcessWatchPackages .decimal ⟨id⟩ [conflictFile "101"] = .ok (conflictWatch 101) ∧
      ¬ PackagesPassKept .decimal ⟨id⟩ (fun _ => true) [conflictFile "101"]
        (conflictWatch 101) := by
  refine ⟨rfl, ?_⟩
  intro h
  exact absurd (h.range 101 (by decide)) (by decide)

end Sitter
