/-
# `Sitter.Maintenance` — the file that says whether the system is in maintenance

`is_in_maintenance` looks for `##MAINTENANCE-START##` in a configuration file
of the web server.  What follows is commented out while the system is live, so
the first character after it that is not a space tells: a `#` means live.  The
file must have a `Retry-After` header too (`ShowsMaintenance`).

    scanMaintenance     the two searches and the loop over the spaces
    isInMaintenance     the same on the contents of the file

The scan decides that of any text, and reads no further than the NUL which ends
it (`scanMaintenance_eq`).  But the contents of a `file_contents` are empty
until `read_all` was called, and it is not called here: the answer is always
no, and it is wrong exactly of the files of a system in maintenance
(`maintenanceDetected_iff`).  So no missing backend ever gets the very low
priority (`missingPriority_maintenance`).
-/
import Sitter.Base.Text
import Sitter.Processes

namespace Sitter

open Text

/-! ## The scan

The scan looks for the marker and skips the spaces after it; the answer depends
on the character it stops at, and on whether there is a `Retry-After` anywhere. -/

/-- `##MAINTENANCE-START##` -/
def maintenanceStart : String := "##MAINTENANCE-START##"

/-- `Retry-After` -/
def retryAfter : String := "Retry-After"

/-- The part of `is_in_maintenance` that follows `contents()`.  An error is an
index past the end of the text. -/
def scanMaintenance (contents : List Char) : Except Nat Bool :=
  match findText maintenanceStart.toList contents with
  | none => .ok false
  | some pos => do
      let s ← skipWhile isspace nul contents (pos + 21)
      let c ← readAt nul contents s
      if c = '#' then .ok false
      else
        match findText retryAfter.toList contents with
        | none => .ok false
        | some _ => .ok true

/-- The text is that of a system in maintenance: the lines after the marker are
not commented out, and there is a header. -/
def ShowsMaintenance (text : List Char) : Prop :=
  ∃ before after, FirstPlace maintenanceStart.toList text before after ∧
    (after.dropWhile isspace).head? ≠ some '#' ∧ retryAfter.toList <:+: text

section Scan

variable {text : List Char}

theorem maintenanceStart_length : maintenanceStart.toList.length = 21 := by decide

theorem isspace_nul : isspace nul = false := by decide

theorem showsMaintenance_at {before after : List Char}
    (h : FirstPlace maintenanceStart.toList text before after) :
    ShowsMaintenance text ↔
      (after.dropWhile isspace).head? ≠ some '#' ∧ retryAfter.toList <:+: text := by
  constructor
  · rintro ⟨before', after', h', hlive, hretry⟩
    obtain ⟨-, rfl⟩ := firstPlace_unique h h'
    exact ⟨hlive, hretry⟩
  · rintro ⟨hlive, hretry⟩
    exact ⟨before, after, h, hlive, hretry⟩

/-- The pointer stops at what follows the marker and the spaces. -/
theorem scan_marker {before after : List Char}
    (h : FirstPlace maintenanceStart.toList text before after) :
    ∃ s, skipWhile isspace nul text (before.length + 21) = .ok s ∧
      readAt nul text s = .ok ((after.dropWhile isspace).headD nul) := by
  have hstart : (before ++ maintenanceStart.toList).length = before.length + 21 := by
    rw [List.length_append, maintenanceStart_length]
  have hsplit : text = before ++ maintenanceStart.toList ++ after := by
    rw [h.split, List.append_assoc]
  have hspaces : text = before ++ maintenanceStart.toList ++ after.takeWhile isspace ++
      after.dropWhile isspace := by
    rw [List.append_assoc _ (after.takeWhile isspace), List.takeWhile_append_dropWhile, hsplit]
  have hskip := skipWhile_eq isspace_nul (before ++ maintenanceStart.toList) after
  rw [← hsplit, hstart] at hskip
  have hread := readAt_after nul (before ++ maintenanceStart.toList ++ after.takeWhile isspace)
    (after.dropWhile isspace)
  rw [← hspaces] at hread
  exact ⟨_, hskip, hread⟩

theorem headD_nul_eq (rest : List Char) : rest.headD nul = '#' ↔ rest.head? = some '#' := by
  cases rest with
  | nil => exact iff_of_false (by decide) (by simp)
  | cons c rest => rw [List.headD_cons, List.head?_cons, Option.some.injEq]

/-- **The scan decides it of every text**, and never reads past the end. -/
theorem scanMaintenance_eq (text : List Char) :
    ∃ on, scanMaintenance text = .ok on ∧ (on = true ↔ ShowsMaintenance text) := by
  rcases findText_cases maintenanceStart.toList text with ⟨hnone, hnowhere⟩ |
    ⟨before, after, hplace, hsome⟩
  · refine ⟨false, by rw [scanMaintenance, hnone], iff_of_false Bool.false_ne_true ?_⟩
    rintro ⟨before, after, hplace, -⟩
    exact hnowhere ⟨before, after, by rw [hplace.split, List.append_assoc]⟩
  · obtain ⟨s, hskip, hread⟩ := scan_marker hplace
    have hscan : scanMaintenance text =
        if (after.dropWhile isspace).headD nul = '#' then .ok false
        else
          match findText retryAfter.toList text with
          | none => .ok false
          | some _ => .ok true := by
      rw [scanMaintenance, hsome]
      dsimp only
      rw [hskip]
      show (do let c ← readAt nul text s; _) = _
      rw [hread]
      rfl
    rw [showsMaintenance_at hplace, hscan, ne_eq, ← headD_nul_eq]
    split
    · next hlive => exact ⟨false, rfl, iff_of_false Bool.false_ne_true fun h => h.1 hlive⟩
    · next hlive =>
        rcases findText_cases retryAfter.toList text with ⟨hnone, hnowhere⟩ |
          ⟨before', after', hretry, hsome'⟩
        · rw [hnone]
          exact ⟨false, rfl, iff_of_false Bool.false_ne_true fun h => hnowhere h.2⟩
        · rw [hsome']
          refine ⟨true, rfl, iff_of_true rfl ⟨hlive, before', after', ?_⟩⟩
          rw [hretry.split, List.append_assoc]

end Scan

/-! ## The file -/

/-- `snapdev::file_contents`, for the one file it is made with: the text on the
disk, if it is there. -/
structure FileContents where
  Conf : Type
  make : Option String → Conf
  fileExists : Conf → Bool
  readAll : Conf → Conf
  contents : Conf → String

/-- What is documented of it. -/
structure FileContents.Documented (fc : FileContents) : Prop where
  exists_make : ∀ file, fc.fileExists (fc.make file) = file.isSome
  contents_make : ∀ file, fc.contents (fc.make file) = ""
  contents_readAll : ∀ text, fc.contents (fc.readAll (fc.make (some text))) = text

/-- `is_in_maintenance` -/
def isInMaintenance (fc : FileContents) (file : Option String) : Except Nat Bool :=
  let conf := fc.make file
  if fc.fileExists conf then scanMaintenance (fc.contents conf).toList
  else .ok false

/-- The answer for an existing file is what its text shows. -/
def MaintenanceDetected (fc : FileContents) (text : String) : Prop :=
  ∃ on, isInMaintenance fc (some text) = .ok on ∧ (on = true ↔ ShowsMaintenance text.toList)

section File

variable {fc : FileContents}

/-- The scan goes over an empty text, whatever is in the file. -/
theorem isInMaintenance_eq (h : fc.Documented) (file : Option String) :
    isInMaintenance fc file = .ok false := by
  have hempty : scanMaintenance [] = .ok false := by
    rw [scanMaintenance, findText, if_neg (by decide)]
  simp only [isInMaintenance, h.contents_make, String.toList_empty, hempty, ite_self]

/-- After `read_all` the same scan would tell. -/
theorem scan_readAll (h : fc.Documented) (text : String) :
    ∃ on, scanMaintenance (fc.contents (fc.readAll (fc.make (some text)))).toList = .ok on ∧
      (on = true ↔ ShowsMaintenance text.toList) := by
  rw [h.contents_readAll]
  exact scanMaintenance_eq text.toList

end File

/-- **The answer is right exactly of the files that do not show maintenance.** -/
theorem maintenanceDetected_iff (fc : FileContents) (h : fc.Documented) (text : String) :
    MaintenanceDetected fc text ↔ ¬ ShowsMaintenance text.toList := by
  rw [MaintenanceDetected, isInMaintenance_eq h]
  constructor
  · rintro ⟨on, hon, hshows⟩ hmaintenance
    rw [← hshows, ← Except.ok.inj hon] at hmaintenance
    cases hmaintenance
  · intro hlive
    exact ⟨false, rfl, iff_of_false Bool.false_ne_true hlive⟩

/-- A configuration with this in front of the header. -/
def maintenanceFile (lead : String) : String :=
  maintenanceStart ++ (lead ++ retryAfter)

/-- What comes first in front of the header decides. -/
theorem showsMaintenance_file (lead : String) :
    ShowsMaintenance (maintenanceFile lead).toList ↔
      ((lead.toList ++ retryAfter.toList).dropWhile isspace).head? ≠ some '#' := by
  have hsplit : (maintenanceFile lead).toList =
      maintenanceStart.toList ++ (lead.toList ++ retryAfter.toList) :=
    String.toList_append.trans (congrArg (maintenanceStart.toList ++ ·) String.toList_append)
  have hretry : retryAfter.toList <:+: (maintenanceFile lead).toList := by
    rw [hsplit]
    exact ((List.suffix_append _ retryAfter.toList).trans (List.suffix_append _ _)).isInfix
  rw [showsMaintenance_at (firstPlace_start hsplit), and_iff_left hretry]

/-- One concrete `file_contents`: the text on the disk, and what was read. -/
def FileContents.onDisk : FileContents where
  Conf := Option String × String
  make file := (file, "")
  fileExists conf := conf.1.isSome
  readAll conf := (conf.1, conf.1.getD conf.2)
  contents := Prod.snd

theorem FileContents.onDisk_documented : FileContents.onDisk.Documented where
  exists_make _ := rfl
  contents_make _ := rfl
  contents_readAll _ := rfl

/-- It is right of a file in which the header is commented out. -/
theorem maintenanceDetected_live : MaintenanceDetected .onDisk (maintenanceFile "\n# ") := by
  refine (maintenanceDetected_iff .onDisk FileContents.onDisk_documented _).mpr ?_
  rw [showsMaintenance_file]
  intro hlive
  exact hlive (by simp [isspace])

/-- With the header in place the system is in maintenance, and it says no. -/
theorem maintenanceDetected_header :
    ¬ MaintenanceDetected .onDisk (maintenanceFile "\n") := by
  have hshows : ShowsMaintenance (maintenanceFile "\n").toList := by
    rw [showsMaintenance_file]
    simp [isspace, retryAfter]
  rintro ⟨on, hon, hiff⟩
  rw [isInMaintenance_eq FileContents.onDisk_documented] at hon
  rw [← hiff, ← Except.ok.inj hon] at hshows
  cases hshows

/-! ## The priority of a missing backend -/

/-- **No missing definition is of a very low priority**, whatever the file says. -/
theorem missingPriority_maintenance {fc : FileContents} (h : fc.Documented)
    {file : Option String} {maintenance : Bool} (hon : isInMaintenance fc file = .ok maintenance)
    {matched : ProcessDef → ProcessInfo → Bool} {backends : Backends} {list : List ProcessInfo}
    {loaded : LoadedProcesses} {d : ProcessDef} (hd : d ∈ loaded.defs) {priority : Int}
    (hmissing : ReportedMissingAt
      (onProcessWatchProcesses matched backends maintenance list loaded) d priority) :
    priority = if d.mandatory then 95 else 60 := by
  rw [isInMaintenance_eq h] at hon
  obtain rfl := Except.ok.inj hon
  obtain ⟨j, hmem⟩ := hmissing
  simp only [onProcessWatchProcesses, watchRunning_eq] at hmem
  rcases List.mem_append.mp hmem with hrun | hmiss
  · exact absurd ⟨j, priority, hrun⟩ (outputs_not_missing 0 _ d)
  · obtain ⟨e, he, -, hmessage, hpriority⟩ :=
      (watchMissing_at false 0 _ d priority).mp ⟨j, hmiss⟩
    have hmem : e ∈ loaded.defs := Greedy.mem_of_mem_rest he
    obtain rfl : e = d := List.inj_on_of_nodup_map loaded.distinct hmem hd
      (missingMessage_name hmessage)
    have hlive : ¬ (e.serviceIsBackend = true ∧ false = true) := fun h => Bool.false_ne_true h.2
    rw [← hpriority, ProcessDef.missingPriority, if_neg hlive]

end Sitter
