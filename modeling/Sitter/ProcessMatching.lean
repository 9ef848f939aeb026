/-
# `Sitter.ProcessMatching` — what becomes of each definition in a pass

`Processes` writes the pass over lists.  Here it is over the vector
`g_processes`, as the source has it: both inner loops count an index up to the
size they read before them, and the first erases at that index.

    findDefinition      for(j = 0; j < max_re; ++j): match, output, erase, break
    listMissing         for(j = 0; j < max_re; ++j): what is left

Neither loop reads past the end, since the one that erases is left at once
(`watchDefinitions_eq`), and over any definitions, of one name or not, the pass
is the greedy assignment of `Base.Greedy`.  So a definition is output with one
process or listed as missing, and none that is listed matches a process that
was left without (`processMatching`).
-/
import Sitter.Processes

namespace Sitter

open Document

/-! ## The pass by index

The source goes over a vector by index and marks what it has used.  The model
of `Processes` removes from a list instead; the pass by index does the same. -/

/-- The loop over the definitions for one running process, with `n` turns to
go, from the index `j`.  An error is an index past the end. -/
def findDefinition (matched : ProcessDef → Bool) (processes : List ProcessDef) :
    Nat → Nat → Except Nat (Option (ProcessDef × List ProcessDef))
  | 0, _ => .ok none
  | n + 1, j =>
      match processes[j]? with
      | none => .error j
      | some d =>
          if matched d then .ok (some (d, processes.eraseIdx j))
          else findDefinition matched processes n (j + 1)

/-- The loop over the running processes, `k` of which were output so far. -/
def watchProcesses (matched : ProcessDef → ProcessInfo → Bool) (backends : Backends) :
    Nat → List ProcessInfo → List ProcessDef → Except Nat (List PluginAction × List ProcessDef)
  | _, [], processes => .ok ([], processes)
  | k, info :: list, processes =>
      if processes.isEmpty then .ok ([], processes)
      else do
        let maxRe := processes.length
        match ← findDefinition (matched · info) processes maxRe 0 with
        | none => watchProcesses matched backends k list processes
        | some (d, left) =>
            let r ← watchProcesses matched backends (k + 1) list left
            .ok (outputProcess "processes" processesNode k (some info) d.name 35
              ++ d.runningErrors backends ++ r.1, r.2)

/-- The loop over the definitions that are left. -/
def listMissing (backends : Backends) (maintenance : Bool) (processes : List ProcessDef) :
    Nat → Nat → Except Nat (List PluginAction)
  | 0, _ => .ok []
  | n + 1, j =>
      match processes[j]? with
      | none => .error j
      | some d => do
          let actions ← listMissing backends maintenance processes n (j + 1)
          .ok (d.missing backends maintenance j ++ actions)

/-- `on_process_watch`, for the definitions in `g_processes`. -/
def watchDefinitions (matched : ProcessDef → ProcessInfo → Bool) (backends : Backends)
    (maintenance : Bool) (list : List ProcessInfo) (processes : List ProcessDef) :
    Except Nat (List PluginAction) := do
  let r ← watchProcesses matched backends 0 list processes
  let missing ← listMissing backends maintenance r.2 r.2.length 0
  .ok (r.1 ++ missing)

section Loops

variable {matched : ProcessDef → ProcessInfo → Bool} {backends : Backends} {maintenance : Bool}

theorem definition_at (before processes : List ProcessDef) (d : ProcessDef) :
    (before ++ d :: processes)[before.length]? = some d := by
  rw [List.getElem?_append_right le_rfl, Nat.sub_self, List.getElem?_cons_zero]

/-- From an index on, the loop finds the first definition that matches, and
erases that one. -/
theorem findDefinition_eq (f : ProcessDef → Bool) (before processes : List ProcessDef) :
    findDefinition f (before ++ processes) processes.length before.length =
      .ok ((processes.find? f).map fun d => (d, before ++ processes.eraseP f)) := by
  induction processes generalizing before with
  | nil => rfl
  | cons d ds ih =>
      simp only [List.length_cons, findDefinition, definition_at]
      cases hd : f d with
      | true =>
          rw [if_pos rfl, List.find?_cons_of_pos hd, List.eraseP_cons_of_pos hd,
            List.eraseIdx_append_of_length_le le_rfl, Nat.sub_self]
          rfl
      | false =>
          have hneg : ¬ f d = true := by simp [hd]
          have hnext := ih (before ++ [d])
          rw [← List.append_cons, List.length_append, List.length_singleton] at hnext
          rw [if_neg Bool.false_ne_true, hnext, List.find?_cons_of_neg hneg,
            List.eraseP_cons_of_neg hneg]
          simp only [← List.append_cons]

theorem watchProcesses_eq (k : Nat) (list : List ProcessInfo) (processes : List ProcessDef) :
    watchProcesses matched backends k list processes =
      .ok (watchRunning matched backends k list processes) := by
  induction list generalizing k processes with
  | nil => rfl
  | cons info list ih =>
      rw [watchProcesses, watchRunning]
      split
      · rfl
      · have hfind := findDefinition_eq (matched · info) [] processes
        rw [List.nil_append, List.length_nil] at hfind
        dsimp only
        rw [hfind]
        cases processes.find? (matched · info) with
        | none => exact ih k processes
        | some d =>
            show (do
              let r ← watchProcesses matched backends (k + 1) list
                (processes.eraseP (matched · info))
              _) = _
            rw [ih]
            rfl

/-- The second loop goes over what is left, in order. -/
theorem listMissing_eq (backends : Backends) (maintenance : Bool)
    (before processes : List ProcessDef) :
    listMissing backends maintenance (before ++ processes) processes.length before.length =
      .ok (watchMissing backends maintenance before.length processes) := by
  induction processes generalizing before with
  | nil => rfl
  | cons d ds ih =>
      have hnext := ih (before ++ [d])
      rw [← List.append_cons, List.length_append, List.length_singleton] at hnext
      simp only [List.length_cons, listMissing, definition_at, hnext]
      rfl

/-- **The pass reads no definition past the end**, and it is that of the lists,
whatever the definitions. -/
theorem watchDefinitions_eq (list : List ProcessInfo) (processes : List ProcessDef) :
    watchDefinitions matched backends maintenance list processes =
      .ok ((watchRunning matched backends 0 list processes).1 ++
        watchMissing backends maintenance 0
          (watchRunning matched backends 0 list processes).2) := by
  have hmissing := listMissing_eq backends maintenance []
    (watchRunning matched backends 0 list processes).2
  rw [List.nil_append, List.length_nil] at hmissing
  simp only [watchDefinitions, watchProcesses_eq]
  show (do
    let missing ← listMissing backends maintenance
      (watchRunning matched backends 0 list processes).2 _ 0
    _) = _
  rw [hmissing]
  rfl

/-- On the definitions of a load it is the pass of `Processes`. -/
theorem watchDefinitions_loaded (list : List ProcessInfo) (loaded : LoadedProcesses) :
    watchDefinitions matched backends maintenance list loaded.defs =
      .ok (onProcessWatchProcesses matched backends maintenance list loaded) :=
  watchDefinitions_eq list loaded.defs

end Loops

/-! ## What the document says -/

/-- The name under `json["processes"]["process"]`, of a process that is output. -/
def outputName : PluginAction → Option String
  | .set [.name node, .name array, .item _, .name field] (.text name) =>
      if node = "processes" ∧ array = "process" ∧ field = "name" then some name else none
  | _ => none

/-- The name under `json["process"]`, of a definition that is missing. -/
def missingName : PluginAction → Option String
  | .set [.name array, .item _, .name field] (.text name) =>
      if array = "process" ∧ field = "name" then some name else none
  | _ => none

theorem outputProcess_names (k : Nat) (info : ProcessInfo) (name : String) :
    (outputProcess "processes" processesNode k (some info) name 35).filterMap outputName =
        [name] ∧
      (outputProcess "processes" processesNode k (some info) name 35).filterMap missingName =
        [] := by
  constructor <;> simp [outputProcess, processesNode, List.filterMap_cons, outputName, missingName]

theorem runningErrors_names (backends : Backends) (d : ProcessDef) :
    (d.runningErrors backends).filterMap outputName = [] ∧
      (d.runningErrors backends).filterMap missingName = [] := by
  simp only [ProcessDef.runningErrors]
  split <;> exact ⟨rfl, rfl⟩

theorem missing_names (backends : Backends) (maintenance : Bool) (j : Nat) (d : ProcessDef) :
    (d.missing backends maintenance j).filterMap outputName = [] ∧
      (d.missing backends maintenance j).filterMap missingName = [d.name] := by
  simp only [ProcessDef.missing]
  split <;> constructor <;> simp [missingNode, List.filterMap_cons, outputName, missingName]

theorem outputs_names (backends : Backends) (k : Nat)
    (given : List (ProcessInfo × Option ProcessDef)) :
    (outputs backends k given).filterMap outputName =
        (given.filterMap Prod.snd).map ProcessDef.name ∧
      (outputs backends k given).filterMap missingName = [] := by
  induction given generalizing k with
  | nil => exact ⟨rfl, rfl⟩
  | cons x given ih =>
      obtain ⟨info, _ | d⟩ := x
      · exact ih k
      · obtain ⟨houtput, hmissing⟩ := outputProcess_names k info d.name
        obtain ⟨hnoOutput, hnoMissing⟩ := runningErrors_names backends d
        obtain ⟨ihoutput, ihmissing⟩ := ih (k + 1)
        simp only [outputs, List.filterMap_append, houtput, hmissing, hnoOutput, hnoMissing,
          ihoutput, ihmissing]
        exact ⟨rfl, rfl⟩

theorem watchMissing_names (backends : Backends) (maintenance : Bool) (j : Nat)
    (rest : List ProcessDef) :
    (watchMissing backends maintenance j rest).filterMap outputName = [] ∧
      (watchMissing backends maintenance j rest).filterMap missingName =
        rest.map ProcessDef.name := by
  induction rest generalizing j with
  | nil => exact ⟨rfl, rfl⟩
  | cons d rest ih =>
      obtain ⟨hnoOutput, hmissing⟩ := missing_names backends maintenance j d
      obtain ⟨ihoutput, ihmissing⟩ := ih (j + 1)
      simp only [watchMissing, List.filterMap_append, hnoOutput, hmissing, ihoutput, ihmissing]
      exact ⟨rfl, rfl⟩

/-! ## Every definition is accounted for -/

/-- Each running process with the definition it was output for, if any, and
the definitions that remain. -/
structure Matching (matched : ProcessDef → ProcessInfo → Bool) (list : List ProcessInfo)
    (defs : List ProcessDef) (given : List (ProcessInfo × Option ProcessDef))
    (rest : List ProcessDef) : Prop where
  processes : given.map Prod.fst = list
  conserved : (given.filterMap Prod.snd ++ rest).Perm defs
  matches_given : ∀ x ∈ given, ∀ d, x.2 = some d → matched d x.1 = true
  maximal : ∀ x ∈ given, x.2 = none → ∀ d ∈ rest, matched d x.1 = false

/-- **The pass accounts for each definition once**: it is output for one
process, which matches it, or listed as missing, and a process without a
definition matches none of those that are listed. -/
theorem processMatching (matched : ProcessDef → ProcessInfo → Bool) (backends : Backends)
    (maintenance : Bool) (list : List ProcessInfo) (defs : List ProcessDef) :
    ∃ given rest, Matching matched list defs given rest ∧
      ∃ actions, watchDefinitions matched backends maintenance list defs = .ok actions ∧
        actions = outputs backends 0 given ++ watchMissing backends maintenance 0 rest ∧
        actions.filterMap outputName = (given.filterMap Prod.snd).map ProcessDef.name ∧
        actions.filterMap missingName = rest.map ProcessDef.name := by
  refine ⟨(Greedy.assign matched list defs).1, (Greedy.assign matched list defs).2,
    ⟨Greedy.assign_map_fst list defs, Greedy.assign_perm list defs, Greedy.assign_matches, ?_⟩,
    _, watchDefinitions_eq list defs, ?_⟩
  · intro x hx hnone d hd
    rw [Bool.eq_false_iff]
    intro hmatch
    exact Greedy.assign_maximal d hd x hx hmatch hnone
  · rw [watchRunning_eq]
    obtain ⟨houtput, hnoMissing⟩ := outputs_names backends 0
      (Greedy.assign matched list defs).1
    obtain ⟨hnoOutput, hmissing⟩ := watchMissing_names backends maintenance 0
      (Greedy.assign matched list defs).2
    refine ⟨rfl, ?_, ?_⟩
    · rw [List.filterMap_append, houtput, hnoOutput, List.append_nil]
    · rw [List.filterMap_append, hnoMissing, hmissing, List.nil_append]

end Sitter
