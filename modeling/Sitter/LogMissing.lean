/-
# `Sitter.LogMissing` — definitions without a log

The plugin has one flag for three loops: `f_found` is cleared for a definition,
set by `check_log` for a file that can be `stat`ed, and read when the patterns
of the definition are through (`LogPass`).  Nothing of it is left for the next
definition, so a pass is the passes over the single definitions one after the
other (`run_actions`).

The error says that the definition is mandatory, and `mandatory` is never
looked at.  So the errors are the documented ones exactly if every definition
without a log is mandatory (`missingReported_iff`).
-/
import Sitter.LogMode

namespace Sitter

/-! ## The loops -/

/-- A definition's turn: what `read_path` finds for its `i`-th pattern. -/
structure LogTurn where
  definition : LogDefinition
  glob : Nat → String → List LogMatch

/-- The flag of the plugin, and what it did so far. -/
structure LogPass where
  found : Bool := false
  actions : List PluginAction := []

namespace LogPass

/-- `check_log` -/
def checkLog (d : LogDefinition) (s : LogPass) (f : LogMatch) : LogPass :=
  match f.stat with
  | none => s
  | some _ => { found := true, actions := s.actions ++ d.checkLog f }

/-- The body of the loop over the patterns. -/
def pattern (turn : LogTurn) (s : LogPass) (p : String × Nat) : LogPass :=
  (turn.glob p.2 (turn.definition.path ++ "/" ++ p.1)).foldl (checkLog turn.definition) s

/-- The body of the loop over the definitions. -/
def definition (s : LogPass) (turn : LogTurn) : LogPass :=
  let s := { s with found := false }
  let s := turn.definition.patterns.zipIdx.foldl (pattern turn) s
  if s.found then s
  else
    { s with actions :=
        s.actions ++ [.appendError logsNode "log" turn.definition.missingLogsMessage 85] }

/-- `on_process_watch`, once the definitions are loaded. -/
def run (turns : List LogTurn) : LogPass := turns.foldl definition {}

end LogPass

namespace LogTurn

variable (turn : LogTurn)

/-- The files that are found for a definition. -/
def files : List LogMatch :=
  turn.definition.patterns.zipIdx.flatMap fun p =>
    turn.glob p.2 (turn.definition.path ++ "/" ++ p.1)

/-- One of them can be `stat`ed. -/
def hasLog : Bool := turn.files.any fun f => f.stat.isSome

def missingError : PluginAction :=
  .appendError logsNode "log" turn.definition.missingLogsMessage 85

def actions : List PluginAction :=
  turn.files.flatMap turn.definition.checkLog ++ if turn.hasLog then [] else [turn.missingError]

end LogTurn

/-- An error of this priority is one about a definition without a log. -/
def PluginAction.isMissing (a : PluginAction) : Bool := a.raises = some 85

/-- What is asked of a pass. -/
structure MissingReported (turns : List LogTurn) : Prop where
  missing : (LogPass.run turns).actions.filter PluginAction.isMissing =
    (turns.filter fun t => t.definition.mandatory && !t.hasLog).map LogTurn.missingError
  separate : (LogPass.run turns).actions = turns.flatMap fun t => (LogPass.run [t]).actions

/-! ## What the loops do

The flag is set by a file that can be `stat`ed.  A definition whose turn ends
without it is an error, whether it is mandatory or not. -/

section Loops

variable {turn : LogTurn} {turns : List LogTurn}

/-- A file sets the flag if it can be `stat`ed. -/
theorem checkLog_eq (d : LogDefinition) (s : LogPass) (f : LogMatch) :
    s.checkLog d f = ⟨s.found || f.stat.isSome, s.actions ++ d.checkLog f⟩ := by
  rw [LogPass.checkLog, LogDefinition.checkLog]
  cases f.stat with
  | none => simp
  | some st => simp

theorem foldl_checkLog (d : LogDefinition) (files : List LogMatch) (s : LogPass) :
    files.foldl (LogPass.checkLog d) s =
      ⟨s.found || files.any fun f => f.stat.isSome, s.actions ++ files.flatMap d.checkLog⟩ := by
  induction files generalizing s with
  | nil => simp
  | cons f files ih =>
      rw [List.foldl_cons, ih, checkLog_eq, List.any_cons, List.flatMap_cons, Bool.or_assoc,
        List.append_assoc]

/-- The turn of a definition starts without a flag. -/
theorem definition_eq (s : LogPass) :
    s.definition turn = ⟨turn.hasLog, s.actions ++ turn.actions⟩ := by
  have hpatterns : turn.definition.patterns.zipIdx.foldl (LogPass.pattern turn)
      { s with found := false } =
        ⟨turn.hasLog, s.actions ++ turn.files.flatMap turn.definition.checkLog⟩ := by
    have hfiles := foldl_checkLog turn.definition turn.files { s with found := false }
    rw [LogTurn.files, List.foldl_flatMap, ← LogTurn.files, Bool.false_or] at hfiles
    exact hfiles
  rw [LogPass.definition, LogTurn.actions, hpatterns]
  cases turn.hasLog with
  | true => simp
  | false => simp [LogTurn.missingError]

/-- **A pass does what is done in its turns.** -/
theorem run_actions (turns : List LogTurn) :
    (LogPass.run turns).actions = turns.flatMap LogTurn.actions := by
  have hfold : ∀ s : LogPass, (turns.foldl LogPass.definition s).actions =
      s.actions ++ turns.flatMap LogTurn.actions := by
    induction turns with
    | nil => simp
    | cons turn turns ih =>
        intro s
        rw [List.foldl_cons, ih, definition_eq, List.flatMap_cons, List.append_assoc]
  exact hfold {}

/-- A pass where the same is found whenever it is looked for. -/
theorem run_eq (glob : String → List LogMatch) (defs : List LogDefinition) :
    (LogPass.run (defs.map fun d => ⟨d, fun _ => glob⟩)).actions = onProcessWatchLog glob defs := by
  rw [run_actions, List.flatMap_map, onProcessWatchLog]
  congr 1
  funext d
  have hfiles : (LogTurn.files ⟨d, fun _ => glob⟩) = d.matchedFiles glob := by
    rw [LogDefinition.matchedFiles, ← List.zipIdx_map_fst 0 d.patterns, List.flatMap_map]
    rfl
  rw [LogTurn.actions, LogTurn.hasLog, hfiles]
  rfl

/-- No file is an error about a definition without a log. -/
theorem checkLog_notMissing (d : LogDefinition) (f : LogMatch) :
    (d.checkLog f).filter PluginAction.isMissing = [] := by
  rw [List.filter_eq_nil_iff]
  intro a ha
  rw [LogDefinition.checkLog] at ha
  split at ha
  · cases ha
  · rcases List.mem_append.mp ha with ha | ha
    · obtain ⟨m, -, rfl⟩ := List.mem_map.mp ha
      simp [PluginAction.isMissing, PluginAction.raises]
    · obtain ⟨e, he, rfl⟩ := List.mem_map.mp ha
      have hpriority := errorsOf_priority he
      simp only [PluginAction.isMissing, PluginAction.raises, Option.some.injEq, decide_eq_true_eq]
      omega

theorem actions_missing (turn : LogTurn) :
    turn.actions.filter PluginAction.isMissing =
      if turn.hasLog then [] else [turn.missingError] := by
  have hfiles :
      (turn.files.flatMap turn.definition.checkLog).filter PluginAction.isMissing = [] := by
    rw [List.filter_flatMap, List.flatMap_eq_nil_iff]
    intro f _
    exact checkLog_notMissing turn.definition f
  rw [LogTurn.actions, List.filter_append, hfiles, List.nil_append]
  split <;> rfl

theorem run_missing (turns : List LogTurn) :
    (LogPass.run turns).actions.filter PluginAction.isMissing =
      (turns.filter fun t => !t.hasLog).map LogTurn.missingError := by
  rw [run_actions, List.filter_flatMap]
  induction turns with
  | nil => rfl
  | cons turn turns ih =>
      rw [List.flatMap_cons, ih, actions_missing, List.filter_cons]
      cases turn.hasLog <;> rfl

end Loops

/-! ## The documentation -/

/-- **The errors are the documented ones exactly if every definition without a
log is mandatory.** -/
theorem missingReported_iff (turns : List LogTurn) :
    MissingReported turns ↔
      ∀ t ∈ turns, (∀ f ∈ t.files, f.stat = none) → t.definition.mandatory = true := by
  have hsplit : (turns.filter fun t => t.definition.mandatory && !t.hasLog) =
      (turns.filter fun t => !t.hasLog).filter fun t => t.definition.mandatory :=
    (List.filter_filter ..).symm
  have hnone : ∀ t : LogTurn, t.hasLog = false ↔ ∀ f ∈ t.files, f.stat = none := by
    intro t
    simp [LogTurn.hasLog]
  constructor
  · intro h t ht hlogs
    have hlength := congrArg List.length h.missing
    rw [run_missing, hsplit, List.length_map, List.length_map] at hlength
    refine List.length_filter_eq_length_iff.mp hlength.symm t (List.mem_filter.mpr ⟨ht, ?_⟩)
    rw [(hnone t).mpr hlogs]
    rfl
  · intro h
    constructor
    case missing =>
      rw [run_missing, hsplit]
      congr 1
      refine (List.filter_eq_self.mpr ?_).symm
      intro t ht
      obtain ⟨ht, hlogs⟩ := List.mem_filter.mp ht
      refine h t ht ((hnone t).mp ?_)
      simpa using hlogs
    case separate =>
      rw [run_actions]
      congr 1
      funext t
      rw [run_actions, List.flatMap_singleton]

/-- A definition that may be without a log. -/
theorem missingReported_optional :
    ¬ MissingReported [⟨{ name := "mail", mandatory := false }, fun _ _ => []⟩] := by
  intro h
  have hlength := congrArg List.length h.missing
  rw [run_missing, List.length_map, List.length_map] at hlength
  exact absurd hlength (by decide)

end Sitter
