/-
# `Sitter.Log` — the log plugin: which files it looks at and what it asks of them

`on_process_watch` goes over the definitions, the patterns of each, and the
files a pattern matches.  `check_log` describes a file it can `stat` in seven
members and compares it with its definition:

    size      more than `max_size`             58, or 73 for more than twice
    owner     not the one that is asked for    63
    group     not the one that is asked for    59
    mode      not the one under the mask       64

and a definition none of whose files can be `stat`ed is an error too, 85.

The node a file is described in is `json["log"]` of the node of the plugin, a
member: it is the same for all files.
-/
import Sitter.LogDefinition
import Sitter.RunPlugins

namespace Sitter

open Document

/-- `struct stat`, as far as the plugin reads it. -/
structure LogStat where
  size : Int
  mode : BitVec 32
  uid : BitVec 32
  gid : BitVec 32
  mtime : Int
  deriving DecidableEq, Repr

/-- A file that a pattern matched, and its `stat` if it has one. -/
structure LogMatch where
  filename : String
  stat : Option LogStat
  deriving DecidableEq, Repr

/-- `json["logs"]` -/
def logsNode : PluginNode := ⟨[.name "logs"], rfl⟩

/-- `json["logs"]["log"]` -/
def logNode : PluginNode := ⟨[.name "logs", .name "log"], rfl⟩

/-- The size as a `size_t`. -/
def LogStat.unsignedSize (st : LogStat) : Nat := (st.size % 2 ^ 64).toNat

namespace LogDefinition

variable (d : LogDefinition) (filename : String) (st : LogStat)

/-- The members of a file's record. -/
def recordOf : List (String × Value) :=
  [("name", .text d.name), ("filename", .text filename), ("size", .int st.size),
    ("mode", .int st.mode.toNat), ("uid", .int st.uid.toNat), ("gid", .int st.gid.toNat),
    ("mtime", .int st.mtime)]

/-! The errors, each a message and a priority. -/

def sizeErrors : List (String × Int) :=
  if st.unsignedSize > d.maxSize then
    [("size of log file  " ++ d.name ++ " (" ++ filename ++ ") is " ++ toString st.size
        ++ ", which is more than the maximum size of " ++ toString d.maxSize,
      if st.unsignedSize > d.maxSize * 2 % 2 ^ 64 then 73 else 58)]
  else []

def ownerErrors : List (String × Int) :=
  if d.uid ≠ -1 ∧ d.uid ≠ st.uid then
    [("log file owner mismatched for " ++ d.name ++ " (" ++ filename ++ "), found "
      ++ toString st.uid.toNat ++ " expected " ++ toString d.uid.toNat, 63)]
  else []

def groupErrors : List (String × Int) :=
  if d.gid ≠ -1 ∧ d.gid ≠ st.gid then
    [("log file group mismatched for " ++ d.name ++ " (" ++ filename ++ "), found "
      ++ toString st.gid.toNat ++ " expected " ++ toString d.gid.toNat, 59)]
  else []

def modeMessage : String :=
  "log file mode mismatched " ++ d.name ++ " (" ++ filename ++ "), found "
    ++ toString st.mode.toNat ++ " expected " ++ toString d.mode.toNat

def modeErrors : List (String × Int) :=
  if d.mode ≠ 0 ∧ st.mode &&& d.modeMask ≠ d.mode then [(d.modeMessage filename st, 64)] else []

/-- What `check_log` finds wrong with a file. -/
def errorsOf : List (String × Int) :=
  d.sizeErrors filename st ++ d.ownerErrors filename st ++ d.groupErrors filename st
    ++ d.modeErrors filename st

/-- `check_log` -/
def checkLog (f : LogMatch) : List PluginAction :=
  match f.stat with
  | none => []
  | some st =>
      (d.recordOf f.filename st).map (fun m => .set (logNode.path ++ [.name m.1]) m.2)
        ++ (d.errorsOf f.filename st).map fun e => .appendError logNode "log" e.1 e.2

/-- The files the patterns of a definition match. -/
def matchedFiles (glob : String → List LogMatch) : List LogMatch :=
  d.patterns.flatMap fun p => glob (d.path ++ "/" ++ p)

def missingLogsMessage : String :=
  "no logs found for " ++ d.name ++ " which says it is mandatory to have at least one log file"

/-- The body of the loop over the definitions. -/
def watch (glob : String → List LogMatch) : List PluginAction :=
  (d.matchedFiles glob).flatMap d.checkLog ++
    if (d.matchedFiles glob).any fun f => f.stat.isSome then []
    else [.appendError logsNode "log" d.missingLogsMessage 85]

end LogDefinition

/-- `on_process_watch`, once the definitions are loaded; `glob` is what
`read_path` finds. -/
def onProcessWatchLog (glob : String → List LogMatch) (defs : List LogDefinition) :
    List PluginAction :=
  defs.flatMap fun d => d.watch glob

/-! ## The mode error -/

/-- `check_log` raises the error about the mode. -/
def RaisesModeError (d : LogDefinition) (filename : String) (st : LogStat) : Prop :=
  .appendError logNode "log" (d.modeMessage filename st) 64 ∈ d.checkLog ⟨filename, some st⟩

section Priorities

variable {d : LogDefinition} {filename : String} {st : LogStat} {e : String × Int}

theorem eq_of_mem_ite {c : Prop} [Decidable c] {x : String × Int}
    (he : e ∈ if c then [x] else []) : e = x := by
  split at he
  · exact List.mem_singleton.mp he
  · exact absurd he List.not_mem_nil

theorem sizeErrors_priority (he : e ∈ d.sizeErrors filename st) : e.2 = 73 ∨ e.2 = 58 := by
  obtain rfl := eq_of_mem_ite he
  dsimp only
  split
  · exact Or.inl rfl
  · exact Or.inr rfl

theorem ownerErrors_priority (he : e ∈ d.ownerErrors filename st) : e.2 = 63 :=
  congrArg Prod.snd (eq_of_mem_ite he)

theorem groupErrors_priority (he : e ∈ d.groupErrors filename st) : e.2 = 59 :=
  congrArg Prod.snd (eq_of_mem_ite he)

theorem modeErrors_priority (he : e ∈ d.modeErrors filename st) : e.2 = 64 :=
  congrArg Prod.snd (eq_of_mem_ite he)

/-- None of them has the priority of a definition without logs. -/
theorem errorsOf_priority (he : e ∈ d.errorsOf filename st) : 58 ≤ e.2 ∧ e.2 ≤ 73 := by
  simp only [LogDefinition.errorsOf, List.mem_append] at he
  rcases he with ((he | he) | he) | he
  · have hsize := sizeErrors_priority he
    omega
  · have howner := ownerErrors_priority he
    omega
  · have hgroup := groupErrors_priority he
    omega
  · have hmode := modeErrors_priority he
    omega

/-- The errors of `check_log` are told apart by their priorities. -/
theorem raisesModeError_iff :
    RaisesModeError d filename st ↔ d.mode ≠ 0 ∧ st.mode &&& d.modeMask ≠ d.mode := by
  have hmem : RaisesModeError d filename st ↔
      (d.modeMessage filename st, (64 : Int)) ∈ d.errorsOf filename st := by
    simp only [RaisesModeError, LogDefinition.checkLog, List.mem_append, List.mem_map, reduceCtorEq,
      and_false, exists_false, false_or, PluginAction.appendError.injEq, true_and, Prod.exists]
    constructor
    · rintro ⟨message, priority, he, rfl, rfl⟩
      exact he
    · intro he
      exact ⟨_, _, he, rfl, rfl⟩
  rw [hmem]
  simp only [LogDefinition.errorsOf, List.mem_append]
  constructor
  · rintro (((he | he) | he) | he)
    · rcases sizeErrors_priority he with h | h <;> exact absurd h (by norm_num)
    · exact absurd (ownerErrors_priority he) (by norm_num)
    · exact absurd (groupErrors_priority he) (by norm_num)
    · by_contra hnot
      simp only [LogDefinition.modeErrors, if_neg hnot, List.not_mem_nil] at he
  · intro h
    refine Or.inr ?_
    simp only [LogDefinition.modeErrors, if_pos h, List.mem_singleton]

end Priorities

end Sitter
