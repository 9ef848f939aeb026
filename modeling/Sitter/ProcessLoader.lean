/-
# `Sitter.ProcessLoader` — the definitions do not depend on the order of the files

`load_processes` goes over the files of a directory.  The first file of a name
makes the definition; a later one is merged into it, which comes down to the
flag `mandatory`, if both the file and the definition allow duplicates, and is
an error if one of them does not.

The definition has the flag of its first file only.  That is enough, since as
long as nothing was thrown all the files of a name agree on it
(`LoadedFrom.duplicates`).  So a load fails exactly if some name has two files
and one that does not allow duplicates, and else the definitions say of each
name what its files say together (`processLoading`).  A load can also fail at a
`match` that is no regular expression, of the first file of a name only; of
files with such a `match` just the second half holds.
-/
import Sitter.Processes

namespace Sitter

/-! ## What the files say

A name is in conflict if two files or more define it and one of them does not
allow duplicates.  That does not depend on the order of the files. -/

/-- The file defines the process of that name. -/
def ConfFile.defines (file : ConfFile) (name : String) : Bool := file "name" == some name

/-- A name with two files or more, one of which does not allow duplicates. -/
def NameConflict (lib : Advgetopt) (files : List ConfFile) : Prop :=
  ∃ name, 2 ≤ files.countP (·.defines name) ∧
    ∃ file ∈ files, file.defines name = true ∧ file.flag lib "allow_duplicates" = false

/-- The load throws. -/
def LoadRaises (lib : Advgetopt) (regex : Regex) (systemctl : Systemctl)
    (files : List ConfFile) : Prop :=
  ∃ what, loadProcesses lib regex systemctl files = .error what

/-- What the definitions say of the files they were loaded from. -/
structure LoadedFrom (lib : Advgetopt) (files : List ConfFile) (defs : List ProcessDef) : Prop where
  names : ∀ name, name ∈ defs.map ProcessDef.name ↔ ∃ file ∈ files, file.defines name = true
  mandatory : ∀ d ∈ defs, d.mandatory = true ↔
    ∃ file ∈ files, file.defines d.name = true ∧ file.flag lib "mandatory" = true
  duplicates : ∀ d ∈ defs, ∀ file ∈ files, file.defines d.name = true →
    file.flag lib "allow_duplicates" = d.allowDuplicates
  apart : ¬ NameConflict lib files

section Files

variable {lib : Advgetopt} {files files' : List ConfFile} {file : ConfFile} {name : String}

theorem defines_iff : file.defines name = true ↔ file "name" = some name := beq_iff_eq

/-- A conflict is one in any order. -/
theorem nameConflict_perm (h : files.Perm files') :
    NameConflict lib files ↔ NameConflict lib files' := by
  simp only [NameConflict, h.countP_eq, h.mem_iff]

/-- More files do not resolve it. -/
theorem NameConflict.append (h : NameConflict lib files) (more : List ConfFile) :
    NameConflict lib (files ++ more) := by
  obtain ⟨name, htwo, file, hfile, hdefines, hflag⟩ := h
  refine ⟨name, ?_, file, List.mem_append_left _ hfile, hdefines, hflag⟩
  rw [List.countP_append]
  omega

theorem nameConflict_concat (h : NameConflict lib (files ++ [file]))
    (hbefore : ¬ NameConflict lib files) :
    ∃ name, file.defines name = true ∧ (∃ f ∈ files, f.defines name = true) ∧
      ∃ f ∈ files ++ [file], f.defines name = true ∧ f.flag lib "allow_duplicates" = false := by
  obtain ⟨name, htwo, f, hf, hdefines, hflag⟩ := h
  rw [List.countP_append, List.countP_singleton] at htwo
  cases hnew : file.defines name with
  | true =>
      rw [hnew, if_pos rfl] at htwo
      have hone : 0 < files.countP (·.defines name) := by omega
      obtain ⟨g, hg, hgdefines⟩ := List.countP_pos_iff.mp hone
      exact ⟨name, hnew, ⟨g, hg, hgdefines⟩, f, hf, hdefines, hflag⟩
  | false =>
      rw [hnew, if_neg Bool.false_ne_true, Nat.add_zero] at htwo
      refine absurd ⟨name, htwo, f, ?_, hdefines, hflag⟩ hbefore
      rcases List.mem_append.mp hf with hf | hf
      · exact hf
      · rw [List.mem_singleton.mp hf, hnew] at hdefines
        cases hdefines

theorem defines_unique (h : file "name" = some name) {other : String} :
    file.defines other = true ↔ other = name := by
  rw [defines_iff, h, Option.some.injEq, eq_comm]

end Files

/-! ## One file

A file adds a definition, marks the one of its name, or is refused; a file
without a name says nothing. -/

section Load

variable {lib : Advgetopt} {regex : Regex} {systemctl : Systemctl} {files : List ConfFile}
  {file : ConfFile} {defs : List ProcessDef} {name : String}

theorem markMandatory_eq (hdistinct : (defs.map ProcessDef.name).Nodup) (name : String) :
    markMandatory name defs =
      defs.map fun d => if d.name = name then { d with mandatory := true } else d := by
  induction defs with
  | nil => rfl
  | cons d ds ih =>
      rw [List.map_cons] at hdistinct
      obtain ⟨hd, hds⟩ := List.nodup_cons.mp hdistinct
      rw [markMandatory, List.map_cons]
      split
      · next hname =>
          have hothers : ∀ e ∈ ds,
              (if e.name = name then { e with mandatory := true } else e) = e := by
            intro e he
            refine if_neg ?_
            rintro rfl
            exact hd (hname ▸ List.mem_map_of_mem he)
          rw [List.map_congr_left hothers, List.map_id']
      · rw [ih hds]

/-- What a later file of a name makes of its definition. -/
def mergeMandatory (name : String) (mandatory : Bool) (d : ProcessDef) : ProcessDef :=
  if d.name = name then { d with mandatory := d.mandatory || mandatory } else d

theorem mergeMandatory_spec (name : String) (mandatory : Bool) (d : ProcessDef) :
    (mergeMandatory name mandatory d).name = d.name ∧
      (mergeMandatory name mandatory d).allowDuplicates = d.allowDuplicates ∧
      ((mergeMandatory name mandatory d).mandatory = true ↔
        d.mandatory = true ∨ (d.name = name ∧ mandatory = true)) := by
  rw [mergeMandatory]
  split
  · next h => exact ⟨rfl, rfl, by simp [h]⟩
  · next h => exact ⟨rfl, rfl, by simp [h]⟩

/-- **What a file does**: nothing without a name, else it makes a definition,
is merged into one, or throws. -/
theorem loadProcess_cases (lib : Advgetopt) (regex : Regex) (systemctl : Systemctl)
    (file : ConfFile) (loaded : LoadedProcesses) :
    (file "name" = none ∧ loadProcess lib regex systemctl file loaded = .ok loaded) ∨
    ∃ name, file "name" = some name ∧
      ((name ∉ loaded.defs.map ProcessDef.name ∧
          ((∃ what, ProcessDef.ofFile lib regex systemctl file name = .error what ∧
              loadProcess lib regex systemctl file loaded = .error what) ∨
            ∃ wp, ProcessDef.ofFile lib regex systemctl file name = .ok wp ∧
              ∃ loaded', loadProcess lib regex systemctl file loaded = .ok loaded' ∧
                loaded'.defs = loaded.defs ++ [wp])) ∨
        ∃ d ∈ loaded.defs, d.name = name ∧
          (((file.flag lib "allow_duplicates" = false ∨ d.allowDuplicates = false) ∧
              ∃ what, loadProcess lib regex systemctl file loaded = .error what) ∨
            (file.flag lib "allow_duplicates" = true ∧ d.allowDuplicates = true ∧
              ∃ loaded', loadProcess lib regex systemctl file loaded = .ok loaded' ∧
                loaded'.defs =
                  loaded.defs.map (mergeMandatory name (file.flag lib "mandatory"))))) := by
  simp only [loadProcess]
  cases hname : file "name" with
  | none => exact Or.inl ⟨rfl, rfl⟩
  | some name =>
      refine Or.inr ⟨name, rfl, ?_⟩
      dsimp only
      split
      · next d hfound =>
          have hd : d ∈ loaded.defs := List.mem_of_find?_eq_some hfound
          have hdname : d.name = name := by simpa using List.find?_some hfound
          refine Or.inr ⟨d, hd, hdname, ?_⟩
          split
          · next hrefused => exact Or.inl ⟨hrefused, _, rfl⟩
          · next hallowed =>
              simp only [not_or, Bool.not_eq_false] at hallowed
              refine Or.inr ⟨hallowed.1, hallowed.2, ?_⟩
              split
              · next hflag =>
                  refine ⟨_, rfl, ?_⟩
                  dsimp only
                  rw [markMandatory_eq loaded.distinct, hflag]
                  refine List.map_congr_left fun e _ => ?_
                  rw [mergeMandatory, Bool.or_true]
              · next hflag =>
                  refine ⟨_, rfl, ?_⟩
                  have hkept : ∀ e ∈ loaded.defs,
                      mergeMandatory name (file.flag lib "mandatory") e = e := by
                    intro e _
                    rw [mergeMandatory, Bool.eq_false_iff.mpr hflag, Bool.or_false]
                    exact ite_self e
                  rw [List.map_congr_left hkept, List.map_id']
      · next hfound =>
          refine Or.inl ⟨?_, ?_⟩
          · intro hmem
            obtain ⟨d, hd, hdname⟩ := List.mem_map.mp hmem
            have hnot := List.find?_eq_none.mp hfound d hd
            rw [hdname] at hnot
            simp at hnot
          · split
            · next what hfile => exact Or.inl ⟨what, hfile, rfl⟩
            · next wp hfile => exact Or.inr ⟨wp, hfile, _, rfl, rfl⟩

theorem exists_mem_concat {P : ConfFile → Prop} :
    (∃ f ∈ files ++ [file], P f) ↔ (∃ f ∈ files, P f) ∨ P file := by
  simp only [List.mem_append, List.mem_singleton, or_and_right, exists_or, exists_eq_left]

theorem forall_mem_concat {P : ConfFile → Prop} :
    (∀ f ∈ files ++ [file], P f) ↔ (∀ f ∈ files, P f) ∧ P file := by
  rw [List.forall_mem_append, List.forall_mem_singleton]

/-- A file without a name says nothing. -/
theorem loadedFrom_unnamed (h : LoadedFrom lib files defs) (hname : file "name" = none) :
    LoadedFrom lib (files ++ [file]) defs := by
  have hsilent : ∀ other, ¬ file.defines other = true := by
    intro other hdefines
    rw [defines_iff, hname] at hdefines
    cases hdefines
  refine ⟨?_, ?_, ?_, ?_⟩
  · intro other
    rw [h.names, exists_mem_concat, or_iff_left (hsilent other)]
  · intro d hd
    rw [h.mandatory d hd, exists_mem_concat, or_iff_left fun hboth => hsilent _ hboth.1]
  · intro d hd
    exact forall_mem_concat.mpr
      ⟨h.duplicates d hd, fun hdefines => absurd hdefines (hsilent _)⟩
  · intro hconflict
    obtain ⟨other, hdefines, -⟩ := nameConflict_concat hconflict h.apart
    exact hsilent other hdefines

/-- A file of a new name makes a definition of what it says. -/
theorem loadedFrom_new (h : LoadedFrom lib files defs) (hname : file "name" = some name)
    (hnew : name ∉ defs.map ProcessDef.name) {wp : ProcessDef}
    (hfile : ProcessDef.ofFile lib regex systemctl file name = .ok wp) :
    LoadedFrom lib (files ++ [file]) (defs ++ [wp]) := by
  have hnone : ∀ f ∈ files, ¬ f.defines name = true := by
    intro f hf hdefines
    exact hnew ((h.names name).mpr ⟨f, hf, hdefines⟩)
  have hold : ∀ d ∈ defs, ¬ file.defines d.name = true := by
    intro d hd hdefines
    rw [defines_unique hname] at hdefines
    exact hnew (hdefines ▸ List.mem_map_of_mem hd)
  obtain ⟨hwp, hmandatory, hduplicates⟩ := ofFile_flags hfile
  have hown : file.defines name = true := defines_iff.mpr hname
  refine ⟨?_, ?_, ?_, ?_⟩
  · intro other
    rw [exists_mem_concat, ← h.names, List.map_append, List.mem_append, List.map_singleton,
      List.mem_singleton, hwp, defines_unique hname]
  · intro d hd
    rw [exists_mem_concat]
    rcases List.mem_append.mp hd with hd | hd
    · rw [h.mandatory d hd, or_iff_left fun hboth => hold d hd hboth.1]
    · rw [List.mem_singleton.mp hd, hwp, hmandatory, or_iff_right]
      · simp [hown]
      · rintro ⟨f, hf, hdefines, -⟩
        exact hnone f hf hdefines
  · intro d hd
    rw [forall_mem_concat]
    rcases List.mem_append.mp hd with hd | hd
    · exact ⟨h.duplicates d hd, fun hdefines => absurd hdefines (hold d hd)⟩
    · rw [List.mem_singleton.mp hd, hwp, hduplicates]
      exact ⟨fun f hf hdefines => absurd hdefines (hnone f hf), fun _ => rfl⟩
  · intro hconflict
    obtain ⟨other, hdefines, ⟨f, hf, hother⟩, -⟩ := nameConflict_concat hconflict h.apart
    rw [defines_unique hname] at hdefines
    exact hnone f hf (hdefines ▸ hother)

/-- A file of a name that is there, where both allow it, adds its flag. -/
theorem loadedFrom_merged (h : LoadedFrom lib files defs) (hname : file "name" = some name)
    {d : ProcessDef} (hd : d ∈ defs) (hdname : d.name = name)
    (hfile : file.flag lib "allow_duplicates" = true) (hallows : d.allowDuplicates = true) :
    LoadedFrom lib (files ++ [file])
      (defs.map (mergeMandatory name (file.flag lib "mandatory"))) := by
  obtain ⟨g, hg, hgdefines⟩ := (h.names name).mp (hdname ▸ List.mem_map_of_mem hd)
  have hagree : ∀ f ∈ files, f.defines name = true → f.flag lib "allow_duplicates" = true := by
    intro f hf hdefines
    rw [h.duplicates d hd f hf (hdname ▸ hdefines), hallows]
  refine ⟨?_, ?_, ?_, ?_⟩
  · intro other
    have hsame : (defs.map (mergeMandatory name (file.flag lib "mandatory"))).map
        ProcessDef.name = defs.map ProcessDef.name := by
      rw [List.map_map]
      exact List.map_congr_left fun e _ => (mergeMandatory_spec name _ e).1
    rw [hsame, h.names, exists_mem_concat, defines_unique hname]
    refine (or_iff_left_of_imp ?_).symm
    rintro rfl
    exact ⟨g, hg, hgdefines⟩
  · intro d' hd'
    obtain ⟨e, he, rfl⟩ := List.mem_map.mp hd'
    obtain ⟨hename, -, hemandatory⟩ := mergeMandatory_spec name (file.flag lib "mandatory") e
    rw [hemandatory, hename, h.mandatory e he, exists_mem_concat, defines_unique hname]
  · intro d' hd'
    obtain ⟨e, he, rfl⟩ := List.mem_map.mp hd'
    obtain ⟨hename, heallows, -⟩ := mergeMandatory_spec name (file.flag lib "mandatory") e
    rw [hename, heallows]
    refine forall_mem_concat.mpr ⟨h.duplicates e he, ?_⟩
    intro hdefines
    have heq : e.name = name := (defines_unique hname).mp hdefines
    rw [hfile, ← h.duplicates e he g hg (heq ▸ hgdefines), hagree g hg hgdefines]
  · intro hconflict
    obtain ⟨other, hdefines, -, hrefuses⟩ := nameConflict_concat hconflict h.apart
    rw [defines_unique hname] at hdefines
    subst hdefines
    rcases exists_mem_concat.mp hrefuses with ⟨f, hf, hother, hflag⟩ | ⟨-, hflag⟩
    · rw [hagree f hf hother] at hflag
      cases hflag
    · rw [hfile] at hflag
      cases hflag

/-- **One file**: it brings a conflict and throws, it throws for its `match`,
or the definitions say what the files up to it say. -/
theorem loadProcess_step (regex : Regex) (systemctl : Systemctl) {loaded : LoadedProcesses}
    (h : LoadedFrom lib files loaded.defs) (file : ConfFile) :
    ((NameConflict lib (files ++ [file]) ∨ ¬ file.MatchValid regex) ∧
        ∃ what, loadProcess lib regex systemctl file loaded = .error what) ∨
      ∃ loaded', loadProcess lib regex systemctl file loaded = .ok loaded' ∧
        LoadedFrom lib (files ++ [file]) loaded'.defs := by
  rcases loadProcess_cases lib regex systemctl file loaded with ⟨hname, hload⟩ |
    ⟨name, hname, ⟨hnew, ⟨what, hfile, hload⟩ | ⟨wp, hfile, loaded', hload, hdefs⟩⟩ |
      ⟨d, hd, hdname, ⟨hrefused, what, hload⟩ | ⟨hfile, hallows, loaded', hload, hdefs⟩⟩⟩
  · exact Or.inr ⟨loaded, hload, loadedFrom_unnamed h hname⟩
  · refine Or.inl ⟨Or.inr ?_, what, hload⟩
    intro hvalid
    obtain ⟨wp, hok⟩ := ofFile_valid hvalid lib systemctl name
    cases hfile.symm.trans hok
  · refine Or.inr ⟨loaded', hload, ?_⟩
    rw [hdefs]
    exact loadedFrom_new h hname hnew hfile
  · refine Or.inl ⟨Or.inl ?_, what, hload⟩
    obtain ⟨g, hg, hgdefines⟩ := (h.names name).mp (hdname ▸ List.mem_map_of_mem hd)
    have hown : file.defines name = true := defines_iff.mpr hname
    refine ⟨name, ?_, ?_⟩
    · have hone : 0 < files.countP (·.defines name) := List.countP_pos_iff.mpr ⟨g, hg, hgdefines⟩
      rw [List.countP_append, List.countP_singleton, if_pos hown]
      omega
    · rcases hrefused with hflag | hflag
      · exact ⟨file, List.mem_concat_self, hown, hflag⟩
      · refine ⟨g, List.mem_append_left _ hg, hgdefines, ?_⟩
        rw [h.duplicates d hd g hg (hdname ▸ hgdefines), hflag]
  · refine Or.inr ⟨loaded', hload, ?_⟩
    rw [hdefs]
    exact loadedFrom_merged h hname hd hdname hfile hallows

/-- **All files**, after those that were loaded. -/
theorem loadProcesses_run (regex : Regex) (systemctl : Systemctl) {loaded : LoadedProcesses}
    (h : LoadedFrom lib files loaded.defs) (more : List ConfFile) :
    ((NameConflict lib (files ++ more) ∨ ∃ file ∈ more, ¬ file.MatchValid regex) ∧
        ∃ what, more.foldlM (fun loaded file => loadProcess lib regex systemctl file loaded)
          loaded = .error what) ∨
      ∃ loaded', more.foldlM (fun loaded file => loadProcess lib regex systemctl file loaded)
          loaded = .ok loaded' ∧ LoadedFrom lib (files ++ more) loaded'.defs := by
  induction more generalizing files loaded with
  | nil =>
      rw [List.append_nil]
      exact Or.inr ⟨loaded, rfl, h⟩
  | cons file more ih =>
      have hsplit : files ++ file :: more = files ++ [file] ++ more := by
        rw [List.append_assoc, List.singleton_append]
      rw [hsplit, List.foldlM_cons, List.exists_mem_cons_iff]
      rcases loadProcess_step regex systemctl h file with ⟨hreason, what, hload⟩ |
        ⟨loaded', hload, hfrom⟩
      · rw [hload]
        exact Or.inl ⟨hreason.imp (fun hconflict => hconflict.append more) Or.inl, what, rfl⟩
      · rw [hload]
        exact (ih hfrom).imp_left fun hraises => ⟨hraises.1.imp_right Or.inr, hraises.2⟩

theorem loadedFrom_nil (lib : Advgetopt) : LoadedFrom lib [] [] where
  names other := by simp
  mandatory d hd := absurd hd List.not_mem_nil
  duplicates d hd := absurd hd List.not_mem_nil
  apart h := by
    obtain ⟨_, _, file, hfile, _⟩ := h
    exact absurd hfile List.not_mem_nil

/-- **A load** throws for a conflict or for a `match`, or it ends with
definitions that say what the files say. -/
theorem loadProcesses_cases (lib : Advgetopt) (regex : Regex) (systemctl : Systemctl)
    (files : List ConfFile) :
    ((NameConflict lib files ∨ ∃ file ∈ files, ¬ file.MatchValid regex) ∧
        LoadRaises lib regex systemctl files) ∨
      ∃ loaded, loadProcesses lib regex systemctl files = .ok loaded ∧
        LoadedFrom lib files loaded.defs := by
  have hempty : LoadedFrom lib [] (⟨[], List.nodup_nil⟩ : LoadedProcesses).defs :=
    loadedFrom_nil lib
  exact loadProcesses_run regex systemctl hempty files

/-- A load of files without such a `match` throws exactly if there is a
conflict. -/
theorem loadRaises_iff (hvalid : ∀ file ∈ files, file.MatchValid regex) :
    LoadRaises lib regex systemctl files ↔ NameConflict lib files := by
  rcases loadProcesses_cases lib regex systemctl files with ⟨hreason, hraises⟩ |
    ⟨loaded', hload, hfrom⟩
  · refine iff_of_true hraises (hreason.resolve_right ?_)
    rintro ⟨file, hfile, hinvalid⟩
    exact hinvalid (hvalid file hfile)
  · refine iff_of_false ?_ hfrom.apart
    rintro ⟨what, hraises⟩
    rw [hload] at hraises
    cases hraises

end Load

/-- **Loading does not depend on the order of the files.**  If no `match` is
refused, it throws exactly if some name has two files and one that does not
allow duplicates; and where it does not throw, each name of the files has one
definition, which is mandatory if one of them is. -/
theorem processLoading (lib : Advgetopt) (regex : Regex) (systemctl : Systemctl)
    (files : List ConfFile) :
    ((∀ file ∈ files, file.MatchValid regex) →
      (∀ files', files.Perm files' →
        (LoadRaises lib regex systemctl files ↔ LoadRaises lib regex systemctl files')) ∧
      (LoadRaises lib regex systemctl files ↔ NameConflict lib files)) ∧
    ∀ loaded, loadProcesses lib regex systemctl files = .ok loaded →
      (loaded.defs.map ProcessDef.name).Nodup ∧
      (∀ name, name ∈ loaded.defs.map ProcessDef.name ↔
        ∃ file ∈ files, file.defines name = true) ∧
      ∀ d ∈ loaded.defs, d.mandatory = true ↔
        ∃ file ∈ files, file.defines d.name = true ∧ file.flag lib "mandatory" = true := by
  refine ⟨?_, ?_⟩
  · intro hvalid
    refine ⟨?_, loadRaises_iff hvalid⟩
    intro files' hperm
    have hvalid' : ∀ file ∈ files', file.MatchValid regex :=
      fun file hfile => hvalid file (hperm.mem_iff.mpr hfile)
    rw [loadRaises_iff hvalid, loadRaises_iff hvalid', nameConflict_perm hperm]
  · intro loaded hload
    rcases loadProcesses_cases lib regex systemctl files with ⟨-, what, herror⟩ |
      ⟨loaded', hload', hfrom⟩
    · rw [herror] at hload
      cases hload
    · rw [hload'] at hload
      obtain rfl := Except.ok.inj hload
      exact ⟨loaded'.distinct, hfrom.names, hfrom.mandatory⟩

def processFile (name mandatory : String) : ConfFile := fun field =>
  if field = "name" then some name
  else if field = "mandatory" then some mandatory
  else if field = "allow_duplicates" then some "true"
  else none

/-- A `systemctl` that knows of no service. -/
def noServices : Systemctl where
  unitFileState _ := ""
  isActive _ := 4

/-- The second of two files makes the definition of both mandatory. -/
theorem processLoading_two_files :
    (LoadRaises .decimal .plain noServices [processFile "bash" "no", processFile "bash" "yes"] ↔
      LoadRaises .decimal .plain noServices
        [processFile "bash" "yes", processFile "bash" "no"]) ∧
    ∃ loaded, loadProcesses .decimal .plain noServices
        [processFile "bash" "no", processFile "bash" "yes"] = .ok loaded ∧
      ∃ d ∈ loaded.defs, d.name = "bash" ∧ d.mandatory = true := by
  obtain ⟨horder, hloaded⟩ := processLoading .decimal .plain noServices
    [processFile "bash" "no", processFile "bash" "yes"]
  obtain ⟨hperm, -⟩ := horder fun _ _ _ _ => rfl
  refine ⟨hperm _ (List.Perm.swap _ _ _), _, rfl, ?_⟩
  obtain ⟨-, hnames, hmandatory⟩ := hloaded _ rfl
  obtain ⟨d, hd, hname⟩ := List.mem_map.mp
    ((hnames "bash").mpr ⟨processFile "bash" "no", List.mem_cons_self, by decide⟩)
  refine ⟨d, hd, hname, (hmandatory d hd).mpr ⟨processFile "bash" "yes", ?_, ?_⟩⟩
  · exact List.mem_cons_of_mem _ List.mem_cons_self
  · rw [hname]
    decide

end Sitter
