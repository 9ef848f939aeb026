/-
# `Sitter.LogRecords` — which log files keep their record

Each file a definition has found should be described by a record of its own,
with the errors that were raised about it.  All of them are written to
`json["logs"]["log"]`, so the records are kept exactly if they all are those of
one file, found by definitions of one name (`logRecords_iff`).
-/
import Sitter.Log
import Sitter.Records

namespace Sitter

open Document

/-- A file that could be `stat`ed, with the definition that found it. -/
structure LogVisit where
  d : LogDefinition
  filename : String
  stat : LogStat
  deriving DecidableEq

/-- What the plugin tells of a file. -/
def LogVisit.record (v : LogVisit) : Record :=
  ⟨v.d.recordOf v.filename v.stat, v.d.errorsOf v.filename v.stat⟩

/-- The files a definition finds. -/
def LogDefinition.visits (glob : String → List LogMatch) (d : LogDefinition) : List LogVisit :=
  (d.matchedFiles glob).filterMap fun f => f.stat.map fun st => ⟨d, f.filename, st⟩

/-- The files a pass finds. -/
def logVisits (glob : String → List LogMatch) (defs : List LogDefinition) : List LogVisit :=
  defs.flatMap fun d => d.visits glob

/-- The names of the members of a record. -/
def logMembers : List String := ["name", "filename", "size", "mode", "uid", "gid", "mtime"]

theorem record_names (v : LogVisit) : v.record.members.map Prod.fst = logMembers := rfl

theorem record_inj {v w : LogVisit} :
    v.record.members = w.record.members ↔
      v.d.name = w.d.name ∧ v.filename = w.filename ∧ v.stat = w.stat := by
  obtain ⟨d, filename, ⟨size, mode, uid, gid, mtime⟩⟩ := v
  obtain ⟨d', filename', ⟨size', mode', uid', gid', mtime'⟩⟩ := w
  simp [LogVisit.record, LogDefinition.recordOf, BitVec.toNat_inj]

/-! ## The actions of the plugin

The plugin sets the members of all its files on one node.  What is left there
is the record of the last file, so the records of a pass are kept only where
they agree. -/

section Watch

variable {glob : String → List LogMatch}

theorem record_plain (v : LogVisit) : v.record.Plain := by
  refine ⟨?_, ?_⟩
  · intro m hm
    have hname : m.1 ∈ logMembers := List.mem_map_of_mem hm
    have hall : ∀ k ∈ logMembers, isErrorMember k = false := by decide
    exact hall m.1 hname
  · intro e he
    have hrange := errorsOf_priority he
    omega

/-- A file is described on the one node. -/
theorem checkLog_shares (d : LogDefinition) (f : LogMatch) :
    SharesNode logNode "log" (d.checkLog f)
      ((f.stat.map fun st => LogVisit.mk d f.filename st).toList.map LogVisit.record) := by
  obtain ⟨filename, stat⟩ := f
  cases stat with
  | none => exact sharesNode_nil
  | some st => exact sharesNode_writeTo (record_plain ⟨d, filename, st⟩)

theorem watch_shares (d : LogDefinition) :
    SharesNode logNode "log" (d.watch glob) ((d.visits glob).map LogVisit.record) := by
  have hfiles : SharesNode logNode "log" ((d.matchedFiles glob).flatMap d.checkLog)
      ((d.visits glob).map LogVisit.record) := by
    rw [LogDefinition.visits, List.filterMap_eq_flatMap_toList, List.map_flatMap]
    exact SharesNode.flatMap fun f _ => checkLog_shares d f
  rw [LogDefinition.watch, ← List.append_nil ((d.visits glob).map LogVisit.record)]
  refine hfiles.append ?_
  split
  · exact sharesNode_nil
  · exact sharesNode_elsewhere (by decide) (by norm_num) (by norm_num)

theorem onProcessWatchLog_shares (defs : List LogDefinition) :
    SharesNode logNode "log" (onProcessWatchLog glob defs)
      ((logVisits glob defs).map LogVisit.record) := by
  rw [onProcessWatchLog, logVisits, List.map_flatMap]
  exact SharesNode.flatMap fun d _ => watch_shares d

/-- An error that is not on the node of the files is about a definition without
any. -/
theorem entries_missing {defs : List LogDefinition} {e : ErrorEntry}
    (he : e ∈ entriesOf (onProcessWatchLog glob defs)) (hnode : e.node ≠ root ++ logNode.path) :
    e.priority = some (.int 85) := by
  obtain ⟨a, ha, hentry⟩ := List.mem_filterMap.mp he
  obtain ⟨d, -, ha⟩ := List.mem_flatMap.mp ha
  rcases List.mem_append.mp ha with hfile | hmissing
  · obtain ⟨⟨filename, stat⟩, -, hfile⟩ := List.mem_flatMap.mp hfile
    cases stat with
    | none => exact absurd hfile List.not_mem_nil
    | some st =>
        rcases List.mem_append.mp hfile with hset | herror
        · obtain ⟨m, -, rfl⟩ := List.mem_map.mp hset
          simp at hentry
        · obtain ⟨m, -, rfl⟩ := List.mem_map.mp herror
          obtain rfl := Option.some.inj hentry
          exact absurd rfl hnode
  · split at hmissing
    · exact absurd hmissing List.not_mem_nil
    · obtain rfl := List.mem_singleton.mp hmissing
      obtain rfl := Option.some.inj hentry
      rfl

theorem entriesOn_priority {v : LogVisit} {n : Path} {e : ErrorEntry}
    (he : e ∈ v.record.entriesOn "log" n) : e.priority ≠ some (.int 85) := by
  obtain ⟨m, hm, rfl⟩ := List.mem_map.mp he
  have hrange := errorsOf_priority hm
  intro h
  simp only [ErrorEntry.of, Option.some.injEq, Value.int.injEq] at h
  omega

/-- The records of a pass are kept exactly if they have the same members. -/
theorem logRecords_same (defs : List LogDefinition) {st : PassState}
    (hfresh : Fresh (root ++ logsNode.path) st.doc) :
    RecordsKept (root ++ logsNode.path) "log" ((logVisits glob defs).map LogVisit.record)
        (processWatch st (onProcessWatchLog glob defs)).1.doc ↔
      ∀ v ∈ logVisits glob defs, ∀ w ∈ logVisits glob defs,
        v.record.members = w.record.members := by
  have hnames : ∀ r ∈ (logVisits glob defs).map LogVisit.record,
      r.members.map Prod.fst = logMembers :=
    List.forall_mem_map.mpr fun v _ => record_names v
  have hother : ∀ e ∈ entriesOf (onProcessWatchLog glob defs), e.node ≠ root ++ logNode.path →
      ∀ r ∈ (logVisits glob defs).map LogVisit.record, e ∉ r.entriesOn "log" e.node := by
    intro e he hnode
    refine List.forall_mem_map.mpr ?_
    intro v _ hmem
    exact entriesOn_priority hmem (entries_missing he hnode)
  rw [(onProcessWatchLog_shares defs).recordsKept_iff hfresh ⟨[.name "log"], rfl⟩ logMembers hnames
    (by decide) (by decide) (by decide) hother]
  simp only [List.forall_mem_map]

end Watch

/-- All files of a pass are one, found by definitions of one name. -/
def OneFile (visits : List LogVisit) : Prop :=
  ∀ v ∈ visits, ∀ w ∈ visits, v.d.name = w.d.name ∧ v.filename = w.filename ∧ v.stat = w.stat

/-- **Every file keeps its record, with its errors, exactly in the passes that
find no more than one.** -/
theorem logRecords_iff (glob : String → List LogMatch) (defs : List LogDefinition)
    (st : PassState) (hfresh : Fresh (root ++ logsNode.path) st.doc) :
    RecordsKept (root ++ logsNode.path) "log" ((logVisits glob defs).map LogVisit.record)
        (processWatch st (onProcessWatchLog glob defs)).1.doc ↔
      OneFile (logVisits glob defs) := by
  rw [logRecords_same defs hfresh]
  simp only [record_inj, OneFile]

/-- The logs of a mail server. -/
def mailLogs : LogDefinition := { name := "mail", mandatory := true, maxSize := 1000 }

def mailLog (filename : String) (size : Int) : LogMatch :=
  ⟨filename, some ⟨size, 0o100640, 0, 4, 1700000000⟩⟩

def singleLog (_ : String) : List LogMatch := [mailLog "/var/log/mail.log" 2000]

def twoLogs (_ : String) : List LogMatch :=
  [mailLog "/var/log/mail.log" 2000, mailLog "/var/log/mail.err" 10]

/-- The record of a single file. -/
theorem logRecords_single :
    RecordsKept (root ++ logsNode.path) "log"
      ((logVisits singleLog [mailLogs]).map LogVisit.record)
      (processWatch PassState.blank (onProcessWatchLog singleLog [mailLogs])).1.doc := by
  refine (logRecords_iff singleLog [mailLogs] PassState.blank (fresh_empty _)).mpr ?_
  intro v hv w hw
  obtain rfl := List.mem_singleton.mp hv
  obtain rfl := List.mem_singleton.mp hw
  exact ⟨rfl, rfl, rfl⟩

/-- Of two files the second one writes over the first. -/
theorem logRecords_two_files :
    ¬ RecordsKept (root ++ logsNode.path) "log"
      ((logVisits twoLogs [mailLogs]).map LogVisit.record)
      (processWatch PassState.blank (onProcessWatchLog twoLogs [mailLogs])).1.doc := by
  intro h
  rw [logRecords_same [mailLogs] (fresh_empty _)] at h
  have hsame := h _ List.mem_cons_self _ (List.mem_cons_of_mem _ List.mem_cons_self)
  exact absurd (record_inj.mp hsame).2.1 (by decide)

end Sitter
