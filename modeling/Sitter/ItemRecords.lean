/-
# `Sitter.ItemRecords` — the plugins that keep what they find

Three plugins have an array with an item for each thing they tell of:

    disk         disk.partition         the mounts whose file systems have blocks
    packages     packages.package       the packages of the configuration
    processes    processes.process      the running ones, with their definitions
                 process                the definitions that are left over

Each fills the items one after the other (`FillsItems`), so its array has all
records in their order, if the plugin gets to its end.  For the processes this
says that the document accounts for every definition: it is an item of one of
the two arrays, and of one only (`onProcessWatchProcesses_kept`).
-/
import Sitter.Arrays
import Sitter.Disk
import Sitter.Packages
import Sitter.Processes

namespace Sitter

open Document Machine

/-! ## The partitions

A mount without blocks makes no item.  The others make one each, in their
order, with the members of a full partition where the usage asks for them. -/

/-- `e["partition"]` -/
def partitionArray : Path := [.name "disk", .name "partition"]

theorem partitionArray_last : partitionArray.getLast? ≠ some (.name "error") := by decide

namespace DiskPass

/-- What the item of every partition has. -/
def partitionMembers (x : String × Statvfs) : List (String × Value) :=
  [("dir", .text x.1), ("blocks", .int (x.2.kilobytes x.2.blocks)),
    ("bfree", .int (x.2.kilobytes x.2.bfree)), ("available", .int (x.2.kilobytes x.2.bavail)),
    ("ffree", .int x.2.ffree), ("favailable", .int x.2.favail), ("flags", .int x.2.flag)]

/-- What it has if the partition is full. -/
def fullMembers (p : DiskPass) (x : String × Statvfs) : List (String × Value) :=
  if x.2.usage ≥ Double.double (9 / 10) then
    match p.ignores ignoreFilledPartitions x.1 with
    | none => []
    | some true => [("error", .text "partition used over 90% (ignore)")]
    | some false => [("error", .text "partition used over 90%")]
  else []

/-- The record of a partition. -/
def partitionRecord (p : DiskPass) (x : String × Statvfs) : List (String × Value) :=
  partitionMembers x ++ p.fullMembers x

def partitions (mounts : List Mount) : List (String × Statvfs) :=
  mounts.filterMap fun m => m.stat.bind fun s => if s.blocks ≠ 0 then some (m.dir, s) else none

section Partitions

variable (lib : Advgetopt) (p : DiskPass)

theorem recordPartition_eq (k : Nat) (dir : String) (s : Statvfs) :
    recordPartition k dir s = writeItem partitionArray k (partitionMembers (dir, s)) := rfl

theorem fillsItems_partition (k : Nat) (dir : String) (s : Statvfs) :
    FillsItems partitionArray k (recordPartition k dir s ++ p.checkFull lib k dir s)
      [p.partitionRecord (dir, s)] := by
  rw [recordPartition_eq]
  refine fillsItems_item ?_ ?_
  · simp only [checkFull]
    split
    · cases p.ignores ignoreFilledPartitions dir with
      | none => rfl
      | some snap =>
          cases snap with
          | true => rfl
          | false => rcases p.ignores (diskIgnorePatterns lib p.server) dir with _ | _ | _ <;> rfl
    · rfl
  · have hmember : itemMember partitionArray
        [.name "disk", .name "partition", .item k, .name "error"] = some (k, "error") :=
      itemMember_eq_some.mpr rfl
    simp only [checkFull, fullMembers]
    split
    · cases p.ignores ignoreFilledPartitions dir with
      | none => rfl
      | some snap =>
          cases snap with
          | true => simp [itemWrites, hmember]
          | false =>
              rcases p.ignores (diskIgnorePatterns lib p.server) dir with _ | _ | _ <;>
                simp [itemWrites, closeToFull, hmember]
    · rfl

theorem partition_of (k : Nat) (dir : String) (s : Statvfs) :
    ∀ a ∈ recordPartition k dir s ++ p.checkFull lib k dir s,
      (∃ what, a = .throw what) ∨ a.Of ["disk"] := by
  have hdisk : "disk" ∈ ["disk"] := List.mem_singleton.mpr rfl
  have herror (text : String) : (PluginAction.set [.name "disk", .name "partition", .item k,
      .name "error"] (.text text)).Of ["disk"] :=
    of_item hdisk partitionArray_last k "error" (.text text)
  have hfull : (p.closeToFull dir s s.fullPriority).Of ["disk"] :=
    of_error (by simp [diskNode]) _ _ _
  rw [recordPartition_eq]
  refine List.forall_mem_append.mpr ⟨?_, ?_⟩
  · exact fun a ha => Or.inr (of_writeItem hdisk partitionArray_last k _ a ha)
  · simp only [checkFull]
    split
    · cases p.ignores ignoreFilledPartitions dir with
      | none => exact List.forall_mem_singleton.mpr (Or.inl ⟨_, rfl⟩)
      | some snap =>
          cases snap with
          | true => exact List.forall_mem_singleton.mpr (Or.inr (herror _))
          | false =>
              refine List.forall_mem_cons.mpr ⟨Or.inr (herror _), ?_⟩
              cases p.ignores (diskIgnorePatterns lib p.server) dir with
              | none => exact List.forall_mem_singleton.mpr (Or.inl ⟨_, rfl⟩)
              | some user =>
                  cases user with
                  | true => exact List.forall_mem_nil _
                  | false => exact List.forall_mem_singleton.mpr (Or.inr hfull)
    · exact List.forall_mem_nil _

theorem fillsItems_mount (m : Mount) (k : Nat) :
    (p.checkMount lib k m).1 = k + (partitions [m]).length ∧
      FillsItems partitionArray k (p.checkMount lib k m).2
        ((partitions [m]).map p.partitionRecord) ∧
      ∀ a ∈ (p.checkMount lib k m).2, (∃ what, a = .throw what) ∨ a.Of ["disk"] := by
  cases hstat : m.stat with
  | none =>
      simp only [checkMount, partitions, hstat, List.filterMap_cons, Option.bind_none]
      exact ⟨rfl, fillsItems_nil, List.forall_mem_nil _⟩
  | some s =>
      by_cases hblocks : s.blocks ≠ 0
      · simp only [checkMount, partitions, hstat, List.filterMap_cons, Option.bind_some,
          if_pos hblocks]
        exact ⟨rfl, fillsItems_partition lib p k m.dir s, partition_of lib p k m.dir s⟩
      · simp only [checkMount, partitions, hstat, List.filterMap_cons, Option.bind_some,
          if_neg hblocks]
        exact ⟨rfl, fillsItems_nil, List.forall_mem_nil _⟩

theorem fillsItems_mounts (mounts : List Mount) (k : Nat) :
    FillsItems partitionArray k ((trace (p.checkMount lib) k mounts).flatMap Event.output)
        ((partitions mounts).map p.partitionRecord) ∧
      ∀ a ∈ (trace (p.checkMount lib) k mounts).flatMap Event.output,
        (∃ what, a = .throw what) ∨ a.Of ["disk"] := by
  induction mounts generalizing k with
  | nil => exact ⟨fillsItems_nil, List.forall_mem_nil _⟩
  | cons m mounts ih =>
      obtain ⟨hnext, hfills, hof⟩ := fillsItems_mount lib p m k
      obtain ⟨hrest, hof'⟩ := ih (p.checkMount lib k m).1
      have hsplit : partitions (m :: mounts) = partitions [m] ++ partitions mounts :=
        List.filterMap_append (l := [m])
      rw [trace_cons, List.flatMap_cons, hsplit, List.map_append]
      refine ⟨hfills.append ?_, List.forall_mem_append.mpr ⟨hof, hof'⟩⟩
      rw [List.length_map, ← hnext]
      exact hrest

end Partitions

end DiskPass

/-- **The disk plugin gets to its end exactly if for no full partition it comes
to a pattern that throws, and then it keeps every partition**, in the order of
the mounts. -/
theorem onProcessWatchDisk_kept (lib : Advgetopt) (p : DiskPass) (st : PassState)
    (hfresh : Fresh (root ++ partitionArray) st.doc) :
    ((processWatch st (p.onProcessWatchDisk lib)).2 = none ↔
      ∀ m ∈ p.mounts, MountDecided lib p m) ∧
    ((processWatch st (p.onProcessWatchDisk lib)).2 = none →
      ItemsKept partitionArray ((DiskPass.partitions p.mounts).map p.partitionRecord)
        (processWatch st (p.onProcessWatchDisk lib)).1.doc) := by
  refine ⟨processWatch_completes.trans (onProcessWatchDisk_completes lib p), ?_⟩
  intro hend
  have hok := processWatch_completes.mp hend
  obtain ⟨hfills, hof⟩ := DiskPass.fillsItems_mounts lib p p.mounts 0
  have hcalm : ∀ a ∈ p.onProcessWatchDisk lib, a.Calm := by
    intro a ha
    rcases hof a ha with ⟨what, rfl⟩ | ha
    · trivial
    · exact ha.calm
  rw [processWatch_doc, ranActions_completes hok]
  exact hfills.kept hcalm hok partitionArray_last hfresh

/-- Two full partitions, and a pattern of the user that matches the second. -/
theorem onProcessWatchDisk_home :
    (processWatch .blank (homePass.onProcessWatchDisk .decimal)).2 = none ∧
      ItemsKept partitionArray ((DiskPass.partitions homePass.mounts).map homePass.partitionRecord)
        (processWatch .blank (homePass.onProcessWatchDisk .decimal)).1.doc := by
  obtain ⟨hends, hkept⟩ := onProcessWatchDisk_kept .decimal homePass .blank (fresh_empty _)
  have hend := hends.mpr homePass_decided
  exact ⟨hend, hkept hend⟩

/-! ## The packages

Each package makes one item with its name, its installation and its conflicts,
before it is checked.  A package whose error has a priority out of range ends
the loop. -/

/-- `e["package"]` -/
def packageArray : Path := [.name "packages", .name "package"]

theorem packageArray_last : packageArray.getLast? ≠ some (.name "error") := by decide

namespace Package

/-- The members of the item of a package. -/
def members (pc : Package) : List (String × Value) :=
  [("name", .text pc.name), ("installation", .text pc.installation.asString)] ++
  if pc.conflicts.isEmpty then []
  else [("conflicts", .text (joinStrings pc.conflicts.toList ", "))]

theorem record_eq (pc : Package) (k : Nat) :
    pc.record k = writeItem packageArray k pc.members := by
  simp only [record, writeItem, members, packageNode, packageArray]
  split <;> rfl

theorem record_of (pc : Package) (k : Nat) : ∀ a ∈ pc.record k, a.Of ["packages"] := by
  rw [record_eq]
  exact of_writeItem (List.mem_singleton.mpr rfl) packageArray_last k _

theorem expected_of (inst : String → Bool) (pc : Package) (k : Nat) :
    ∀ a ∈ pc.expected inst k, a.Of ["packages"] := by
  have hnode : ∀ key ∈ (packageNode k).path.head?, ∃ x ∈ ["packages"], key = .name x := by
    simp [packageNode]
  simp only [expected]
  split_ifs
  · exact List.forall_mem_singleton.mpr (of_error hnode _ _ _)
  · exact List.forall_mem_singleton.mpr (of_error hnode _ _ _)
  · exact List.forall_mem_singleton.mpr (of_passError _ _ _)
  · exact List.forall_mem_nil _

end Package

section Packages

variable {inst : String → Bool} {k : Nat} {packages : List Package}

theorem expected_errors (k : Nat) (pc : Package) :
    ∀ a ∈ pc.expected inst k, a.isError = true := by
  intro a ha
  rw [← expected_isError] at ha
  exact (List.mem_filter.mp ha).2

theorem run_watchPackages_cons (pc : Package) :
    (watchPackages k (pc :: packages)).run inst =
      if ∀ e ∈ pc.expected inst k, e.Accepted then
        pc.record k ++ pc.expected inst k ++ (watchPackages (k + 1) packages).run inst
      else pc.record k ++ pc.expected inst k := by
  rw [watchPackages, Ask.run_bind, run_check]
  split
  · rw [Ask.run_bind]
    rfl
  · rfl

theorem watchPackages_of :
    ∀ a ∈ (watchPackages k packages).run inst, a.Of ["packages"] := by
  induction packages generalizing k with
  | nil => exact List.forall_mem_nil _
  | cons pc packages ih =>
      have hone : ∀ a ∈ pc.record k ++ pc.expected inst k, a.Of ["packages"] :=
        List.forall_mem_append.mpr ⟨pc.record_of k, pc.expected_of inst k⟩
      rw [run_watchPackages_cons]
      split
      · exact List.forall_mem_append.mpr ⟨hone, ih⟩
      · exact hone

theorem fillsItems_packages (hok : Completes ((watchPackages k packages).run inst)) :
    FillsItems packageArray k ((watchPackages k packages).run inst)
      (packages.map Package.members) := by
  induction packages generalizing k with
  | nil => exact fillsItems_nil
  | cons pc packages ih =>
      have hone : FillsItems packageArray k (pc.record k ++ pc.expected inst k) [pc.members] := by
        rw [pc.record_eq]
        exact (fillsItems_writeItem _).then_nothing
          (fillsItems_errors (k := 0) (expected_errors k pc))
      rw [run_watchPackages_cons] at hok ⊢
      split at hok
      · next haccepted =>
          rw [if_pos haccepted]
          exact hone.append (ih fun a ha => hok a (List.mem_append_right _ ha))
      · next hrefused =>
          exact absurd (fun e he => hok e (List.mem_append_right _ he)) hrefused

/-- **A pass over the packages that gets to its end keeps every package**, in
the order of the files. -/
theorem watchPackages_kept (st : PassState)
    (hok : (processWatch st ((watchPackages 0 packages).run inst)).2 = none)
    (hfresh : Fresh (root ++ packageArray) st.doc) :
    ItemsKept packageArray (packages.map Package.members)
      (processWatch st ((watchPackages 0 packages).run inst)).1.doc := by
  have hcompletes := processWatch_completes.mp hok
  rw [processWatch_doc, ranActions_completes hcompletes]
  exact (fillsItems_packages hcompletes).kept (fun a ha => (watchPackages_of a ha).calm) hcompletes
    packageArray_last hfresh

end Packages

def requiredPackage (name : String) : Package := ⟨name, "", ∅, .required, 15⟩

/-- One that is there, and one that is not. -/
theorem watchPackages_two :
    ItemsKept packageArray ([requiredPackage "ntp", requiredPackage "bind9"].map Package.members)
      (processWatch .blank ((watchPackages 0 [requiredPackage "ntp",
        requiredPackage "bind9"]).run (· == "ntp"))).1.doc :=
  watchPackages_kept .blank (by decide) (fresh_empty _)

/-! ## The processes

The definitions that the first loop gives away describe running processes, and
the second loop describes those that are left. -/

/-- `e["process"]`, of the processes that run. -/
def runningArray : Path := [.name "processes", .name "process"]

/-- `json["process"]`, of the definitions that are left. -/
def missingArray : Path := [.name "process"]

theorem runningArray_last : runningArray.getLast? ≠ some (.name "error") := by decide

theorem missingArray_last : missingArray.getLast? ≠ some (.name "error") := by decide

/-- The members of the item of a running process, which was given a
definition. -/
def runningRecord (x : ProcessInfo × ProcessDef) : List (String × Value) :=
  [("name", .text x.2.name), ("cmdline", .text x.1.command), ("pcpu", .int x.1.cpuPercent),
    ("total_size", .int x.1.totalSize), ("resident", .int x.1.rssSize),
    ("tty", .text (toString x.1.ttyMajor ++ "," ++ toString x.1.ttyMinor)),
    ("utime", .text (toString x.1.utime)), ("stime", .text (toString x.1.stime)),
    ("cutime", .text (toString x.1.cutime)), ("cstime", .text (toString x.1.cstime))]

/-- The members of the item of a definition that is left. -/
def missingRecord (backends : Backends) (d : ProcessDef) : List (String × Value) :=
  ("name", .text d.name) ::
    if d.isProcessExpectedToRun backends then [] else [("resident", .text "no")]

/-- The processes that were given a definition. -/
def givenOf (given : List (ProcessInfo × Option ProcessDef)) : List (ProcessInfo × ProcessDef) :=
  given.filterMap fun x => x.2.map fun d => (x.1, d)

section Processes

variable {matched : ProcessDef → ProcessInfo → Bool} {backends : Backends} {maintenance : Bool}

theorem outputProcess_eq (k : Nat) (x : ProcessInfo × ProcessDef) (priority : Int) :
    outputProcess "processes" processesNode k (some x.1) x.2.name priority =
      writeItem runningArray k (runningRecord x) := rfl

/-- The members of the root that the plugin touches. -/
def processMembers : List String := ["processes", "process"]

theorem runningErrors_of (d : ProcessDef) :
    ∀ a ∈ d.runningErrors backends, a.isError = true ∧ a.Of processMembers ∧ a.Accepted := by
  simp only [ProcessDef.runningErrors]
  split
  · refine List.forall_mem_singleton.mpr ⟨rfl, of_error ?_ _ _ _, by decide, by decide⟩
    simp [processesNode, processMembers]
  · exact List.forall_mem_nil _

theorem fillsItems_outputs (backends : Backends)
    (given : List (ProcessInfo × Option ProcessDef)) (k : Nat) :
    FillsItems runningArray k (outputs backends k given) ((givenOf given).map runningRecord) ∧
      FillsItems missingArray 0 (outputs backends k given) [] ∧
      ∀ a ∈ outputs backends k given, a.Of processMembers ∧ a.Accepted := by
  induction given generalizing k with
  | nil => exact ⟨fillsItems_nil, fillsItems_nil, List.forall_mem_nil _⟩
  | cons x given ih =>
      obtain ⟨info, o⟩ := x
      cases o with
      | none => exact ih k
      | some d =>
          obtain ⟨hrunning, hmissing, hof⟩ := ih (k + 1)
          have herrors : ∀ a ∈ d.runningErrors backends, a.isError = true :=
            fun a ha => (runningErrors_of d a ha).1
          rw [outputs, outputProcess_eq k (info, d)]
          refine ⟨?_, ?_, ?_⟩
          · exact ((fillsItems_writeItem (runningRecord (info, d))).then_nothing
              (fillsItems_errors (k := 0) herrors)).append hrunning
          · exact ((fillsItems_other (k := 0) (by decide) k _).then_nothing
              (fillsItems_errors (k := 0) herrors)).then_nothing hmissing
          · refine List.forall_mem_append.mpr ⟨List.forall_mem_append.mpr ⟨?_, ?_⟩, hof⟩
            · intro a ha
              exact ⟨of_writeItem (by decide) runningArray_last k _ a ha, accepted_writeItem _ a ha⟩
            · exact fun a ha => (runningErrors_of d a ha).2

theorem missingPriority_range (d : ProcessDef) :
    0 ≤ d.missingPriority maintenance ∧ d.missingPriority maintenance ≤ 100 := by
  simp only [ProcessDef.missingPriority]
  split_ifs <;> decide

theorem fillsItems_missing (backends : Backends) (maintenance : Bool) (d : ProcessDef) (j : Nat) :
    FillsItems missingArray j (d.missing backends maintenance j) [missingRecord backends d] ∧
      FillsItems runningArray 0 (d.missing backends maintenance j) [] ∧
      ∀ a ∈ d.missing backends maintenance j, a.Of processMembers ∧ a.Accepted := by
  have hname : ∀ r : List (String × Value), ∀ a ∈ writeItem missingArray j r,
      a.Of processMembers ∧ a.Accepted :=
    fun r a ha => ⟨of_writeItem (by decide) missingArray_last j r a ha, accepted_writeItem r a ha⟩
  by_cases hexpected : d.isProcessExpectedToRun backends
  · have hrecord : missingRecord backends d = [("name", .text d.name)] := by
      rw [missingRecord, if_pos hexpected]
    have hactions : d.missing backends maintenance j =
        writeItem missingArray j [("name", .text d.name)] ++
          [.appendError (missingNode j) "processes" d.missingMessage
            (d.missingPriority maintenance)] := by
      rw [ProcessDef.missing, if_pos hexpected]
      rfl
    have herror : ∀ a ∈ [PluginAction.appendError (missingNode j) "processes" d.missingMessage
        (d.missingPriority maintenance)], a.isError = true := List.forall_mem_singleton.mpr rfl
    rw [hactions, hrecord]
    refine ⟨?_, ?_, ?_⟩
    · exact (fillsItems_writeItem _).then_nothing (fillsItems_errors (k := 0) herror)
    · exact (fillsItems_other (by decide) j _).then_nothing (fillsItems_errors (k := 0) herror)
    · refine List.forall_mem_append.mpr ⟨hname _,
        List.forall_mem_singleton.mpr ⟨of_error ?_ _ _ _, missingPriority_range d⟩⟩
      simp [missingNode, processMembers]
  · have hrecord : missingRecord backends d =
        [("name", .text d.name), ("resident", .text "no")] := by
      rw [missingRecord, if_neg hexpected]
    have hactions : d.missing backends maintenance j =
        writeItem missingArray j [("name", .text d.name), ("resident", .text "no")] := by
      rw [ProcessDef.missing, if_neg hexpected]
      rfl
    rw [hactions, hrecord]
    exact ⟨fillsItems_writeItem _, fillsItems_other (by decide) j _, hname _⟩

theorem fillsItems_watchMissing (backends : Backends) (maintenance : Bool)
    (defs : List ProcessDef) (j : Nat) :
    FillsItems missingArray j (watchMissing backends maintenance j defs)
        (defs.map (missingRecord backends)) ∧
      FillsItems runningArray 0 (watchMissing backends maintenance j defs) [] ∧
      ∀ a ∈ watchMissing backends maintenance j defs, a.Of processMembers ∧ a.Accepted := by
  induction defs generalizing j with
  | nil => exact ⟨fillsItems_nil, fillsItems_nil, List.forall_mem_nil _⟩
  | cons d defs ih =>
      obtain ⟨hmissing, hrunning, hof⟩ :=
        fillsItems_missing backends maintenance d j
      obtain ⟨hmissing', hrunning', hof'⟩ := ih (j + 1)
      exact ⟨hmissing.append hmissing', hrunning.then_nothing hrunning',
        List.forall_mem_append.mpr ⟨hof, hof'⟩⟩

theorem givenOf_sublist (given : List (ProcessInfo × Option ProcessDef)) :
    ((givenOf given).map Prod.fst).Sublist (given.map Prod.fst) := by
  induction given with
  | nil => exact List.Sublist.refl _
  | cons x given ih =>
      obtain ⟨info, o⟩ := x
      cases o with
      | none => exact ih.cons info
      | some d => exact ih.cons_cons info

theorem givenOf_snd (given : List (ProcessInfo × Option ProcessDef)) :
    (givenOf given).map Prod.snd = given.filterMap Prod.snd := by
  rw [givenOf, List.map_filterMap]
  congr 1
  funext x
  rw [Option.map_map]
  exact Option.map_id'

theorem givenOf_matches {list : List ProcessInfo} {defs : List ProcessDef} :
    ∀ x ∈ givenOf (Greedy.assign matched list defs).1, matched x.2 x.1 = true := by
  intro x hx
  obtain ⟨y, hy, hyx⟩ := List.mem_filterMap.mp hx
  obtain ⟨d, hd, rfl⟩ := Option.map_eq_some_iff.mp hyx
  exact Greedy.assign_matches y hy d hd

theorem onProcessWatchProcesses_eq (matched : ProcessDef → ProcessInfo → Bool)
    (backends : Backends) (maintenance : Bool) (list : List ProcessInfo)
    (loaded : LoadedProcesses) :
    onProcessWatchProcesses matched backends maintenance list loaded =
      outputs backends 0 (Greedy.assign matched list loaded.defs).1 ++
        watchMissing backends maintenance 0 (Greedy.assign matched list loaded.defs).2 := by
  rw [onProcessWatchProcesses, watchRunning_eq]

theorem onProcessWatchProcesses_of (matched : ProcessDef → ProcessInfo → Bool)
    (backends : Backends) (maintenance : Bool) (list : List ProcessInfo)
    (loaded : LoadedProcesses) :
    ∀ a ∈ onProcessWatchProcesses matched backends maintenance list loaded,
      a.Of processMembers ∧ a.Accepted := by
  rw [onProcessWatchProcesses_eq]
  exact List.forall_mem_append.mpr ⟨(fillsItems_outputs _ _ 0).2.2,
    (fillsItems_watchMissing _ _ _ 0).2.2⟩

end Processes

/-- **The processes plugin gets to its end, and the document accounts for every
definition**: it is the item of a matching process that runs, or it is left
over, and no process is the item of two. -/
theorem onProcessWatchProcesses_kept (matched : ProcessDef → ProcessInfo → Bool)
    (backends : Backends) (maintenance : Bool) (list : List ProcessInfo)
    (loaded : LoadedProcesses) (st : PassState) (hrunning : Fresh (root ++ runningArray) st.doc)
    (hmissing : Fresh (root ++ missingArray) st.doc) :
    let pass := processWatch st
      (onProcessWatchProcesses matched backends maintenance list loaded)
    pass.2 = none ∧ ∃ (given : List (ProcessInfo × ProcessDef)) (rest : List ProcessDef),
      ItemsKept runningArray (given.map runningRecord) pass.1.doc ∧
      ItemsKept missingArray (rest.map (missingRecord backends)) pass.1.doc ∧
      (given.map Prod.fst).Sublist list ∧ (∀ x ∈ given, matched x.2 x.1 = true) ∧
      (given.map Prod.snd ++ rest).Perm loaded.defs := by
  intro pass
  obtain ⟨hfills, hother, -⟩ := fillsItems_outputs backends
    (Greedy.assign matched list loaded.defs).1 0
  obtain ⟨hfills', hother', -⟩ := fillsItems_watchMissing backends maintenance
    (Greedy.assign matched list loaded.defs).2 0
  have hof := onProcessWatchProcesses_of matched backends maintenance list loaded
  have hok : Completes (onProcessWatchProcesses matched backends maintenance list loaded) :=
    fun a ha => (hof a ha).2
  have hdoc : pass.1.doc = applyAll st.doc
      (onProcessWatchProcesses matched backends maintenance list loaded) := by
    rw [processWatch_doc, ranActions_completes hok]
  have hrun : FillsItems runningArray 0
      (onProcessWatchProcesses matched backends maintenance list loaded)
      ((givenOf (Greedy.assign matched list loaded.defs).1).map runningRecord) := by
    rw [onProcessWatchProcesses_eq]
    exact hfills.then_nothing hother'
  have hmiss : FillsItems missingArray 0
      (onProcessWatchProcesses matched backends maintenance list loaded)
      ((Greedy.assign matched list loaded.defs).2.map (missingRecord backends)) := by
    rw [onProcessWatchProcesses_eq]
    exact hother.after_nothing hfills'
  refine ⟨processWatch_completes.mpr hok, givenOf (Greedy.assign matched list loaded.defs).1,
    (Greedy.assign matched list loaded.defs).2, ?_, ?_, ?_, givenOf_matches, ?_⟩
  · rw [hdoc]
    exact hrun.kept (fun a ha => (hof a ha).1.calm) hok runningArray_last hrunning
  · rw [hdoc]
    exact hmiss.kept (fun a ha => (hof a ha).1.calm) hok missingArray_last hmissing
  · have hsub := givenOf_sublist (Greedy.assign matched list loaded.defs).1
    rw [Greedy.assign_map_fst] at hsub
    exact hsub
  · rw [givenOf_snd]
    exact Greedy.assign_perm list loaded.defs

/-- A java, which both definitions match, and a process that neither matches. -/
theorem onProcessWatchProcesses_javas :
    let pass := processWatch .blank (onProcessWatchProcesses matchedByName ⟨"", []⟩ false
      [runningProcess "/usr/bin/java", runningProcess "/bin/bash"] twoJavas)
    pass.2 = none ∧ ∃ (given : List (ProcessInfo × ProcessDef)) (rest : List ProcessDef),
      ItemsKept runningArray (given.map runningRecord) pass.1.doc ∧
      ItemsKept missingArray (rest.map (missingRecord ⟨"", []⟩)) pass.1.doc ∧
      (given.map Prod.fst).Sublist [runningProcess "/usr/bin/java", runningProcess "/bin/bash"] ∧
      (∀ x ∈ given, matchedByName x.2 x.1 = true) ∧
      (given.map Prod.snd ++ rest).Perm twoJavas.defs :=
  onProcessWatchProcesses_kept matchedByName ⟨"", []⟩ false
    [runningProcess "/usr/bin/java", runningProcess "/bin/bash"] twoJavas .blank (fresh_empty _)
    (fresh_empty _)

end Sitter
