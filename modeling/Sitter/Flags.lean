/-
# `Sitter.Flags` — the flags plugin, and what it tells of each flag

A flag is raised by another program and stays up until it is taken down.  The
plugin copies every raised flag to an item of `flags.flag`, with the tags of the
flag in an array below that item, and raises one error for all of them:

    flags.flag[k]           the members of the k-th flag
    flags.flag[k].tags      its tags, in their order
    flags.error             one entry, with the names and the greatest priority

The greatest priority is 5 at least, and nothing bounds it: a flag of more than
100 ends the pass, after all flags were copied (`onProcessWatchFlags_accepted`).
-/
import Sitter.Arrays

namespace Sitter

open Document LastWrite

/-- What the plugin reads of a `communicator::flag`. -/
structure Flag where
  unit : String
  section_ : String
  name : String
  priority : Int
  manualDown : Bool
  date : Int
  modified : Int
  message : String
  sourceFile : String
  function : String
  line : Int
  tags : List String
  deriving DecidableEq, Repr

/-- `json["flags"]` -/
def flagsNode : PluginNode := ⟨[.name "flags"], rfl⟩

/-- `flg["flag"]` -/
def flagArray : Path := [.name "flags", .name "flag"]

/-- `e["tags"]`, for the flag at a position. -/
def tagArray (k : Nat) : Path := flagArray ++ [.item k, .name "tags"]

namespace Flag

/-- The members of the item of a flag.  `boolean` is what JSON makes of a
`bool`. -/
def record (boolean : Bool → Value) (f : Flag) : List (String × Value) :=
  [("unit", .text f.unit), ("section", .text f.section_), ("name", .text f.name),
    ("priority", .int f.priority), ("manual-down", boolean f.manualDown), ("date", .int f.date),
    ("modified", .int f.modified), ("message", .text f.message),
    ("source-file", .text f.sourceFile), ("function", .text f.function), ("line", .int f.line)]

/-- The body of the loop, for the flag at a position. -/
def watch (boolean : Bool → Value) (k : Nat) (f : Flag) : List PluginAction :=
  writeItem flagArray k (f.record boolean) ++ f.tags.map fun t => .push (tagArray k) (.text t)

end Flag

/-- The names, with a comma before a name where there is something to its
left. -/
def flagNames (list : List Flag) : String :=
  list.foldl (fun names f => (if names ≠ "" then names ++ ", " else names) ++ f.name) ""

def maxFlagPriority (list : List Flag) : Int :=
  list.foldl (fun max_priority f => max max_priority f.priority) 5

def flagsMessage (list : List Flag) : String :=
  toString list.length ++ " flag" ++ (if list.length = 1 then "" else "s") ++ " "
    ++ (if list.length = 1 then "is" else "are") ++ " raised -- " ++ flagNames list

/-- The loop over the flags, the first of which is at the position `k`. -/
def watchFlags (boolean : Bool → Value) : Nat → List Flag → List PluginAction
  | _, [] => []
  | k, f :: list => f.watch boolean k ++ watchFlags boolean (k + 1) list

/-- `on_process_watch` -/
def onProcessWatchFlags (boolean : Bool → Value) (list : List Flag) : List PluginAction :=
  if list.isEmpty then []
  else
    watchFlags boolean 0 list
      ++ [.appendError flagsNode "flags" (flagsMessage list) (maxFlagPriority list)]

/-! ## The loop

Each flag fills one item of the array and one array of tags, so that the items
and their tags stay together by their position. -/

section Watch

variable {boolean : Bool → Value} {k : Nat} {f : Flag} {list : List Flag}

theorem flagArray_last : flagArray.getLast? ≠ some (.name "error") := by decide

theorem tagArray_last : (tagArray k).getLast? ≠ some (.name "error") := by
  simp [tagArray]

theorem fillsItems_watch : FillsItems flagArray k (f.watch boolean k) [f.record boolean] := by
  refine (fillsItems_writeItem _).then_nothing (fillsItems_elsewhere (k := 0) ?_)
  refine List.forall_mem_map.mpr fun t _ => ⟨?_, rfl⟩
  have hne : tagArray k ≠ flagArray := fun h => absurd (congrArg List.length h) (by simp [tagArray])
  simp [pushedTo, hne]

theorem fillsItems_watchFlags :
    FillsItems flagArray k (watchFlags boolean k list) (list.map (Flag.record boolean)) := by
  induction list generalizing k with
  | nil => exact fillsItems_nil
  | cons f list ih => exact fillsItems_watch.append ih

/-- The tags of a flag go to its own array. -/
theorem pushedTo_watch (j : Nat) :
    pushedTo (tagArray j) (f.watch boolean k) = if j = k then f.tags.map Value.text else [] := by
  have hwrite : pushedTo (tagArray j) (writeItem flagArray k (f.record boolean)) = [] := by
    have hne : flagArray ≠ tagArray j :=
      fun h => absurd (congrArg List.length h) (by simp [tagArray])
    simp [pushedTo, writeItem, List.filterMap_map, hne]
  have htags : pushedTo (tagArray j) (f.tags.map fun t => .push (tagArray k) (.text t)) =
      if j = k then f.tags.map Value.text else [] := by
    have heq : tagArray k = tagArray j ↔ j = k := by
      simp [tagArray, eq_comm]
    rw [pushedTo, List.filterMap_map]
    by_cases h : j = k
    · simp [h]
    · simp [heq, h]
  rw [Flag.watch, pushedTo_append, hwrite, htags, List.nil_append]

theorem pushedTo_watchFlags (j : Nat) :
    pushedTo (tagArray j) (watchFlags boolean k list) =
      if k ≤ j then ((list[j - k]?).elim [] Flag.tags).map Value.text else [] := by
  induction list generalizing k with
  | nil => split <;> rfl
  | cons f list ih =>
      rw [watchFlags, pushedTo_append, pushedTo_watch, ih]
      rcases Nat.lt_trichotomy j k with hj | rfl | hj
      · rw [if_neg hj.ne, if_neg (by omega), if_neg (by omega), List.append_nil]
      · rw [if_pos rfl, if_neg (by omega), if_pos (le_refl _), Nat.sub_self, List.append_nil]
        rfl
      · have hnext : j - k = j - (k + 1) + 1 := by omega
        rw [if_neg hj.ne', if_pos (by omega), if_pos hj.le, hnext, List.getElem?_cons_succ,
          List.nil_append]

theorem watchFlags_of :
    ∀ a ∈ watchFlags boolean k list, a.Of ["flags"] ∧ a.Accepted ∧ a.isError = false := by
  have hflags : "flags" ∈ ["flags"] := List.mem_singleton.mpr rfl
  induction list generalizing k with
  | nil => exact List.forall_mem_nil _
  | cons f list ih =>
      refine List.forall_mem_append.mpr ⟨List.forall_mem_append.mpr ⟨?_, ?_⟩, ih⟩
      · intro a ha
        exact ⟨of_writeItem hflags flagArray_last k _ a ha, accepted_writeItem _ a ha,
          not_isError_writeItem _ a ha⟩
      · exact List.forall_mem_map.mpr fun _ _ =>
          ⟨⟨tagArray_last, "flags", rfl, Or.inr hflags⟩, trivial, rfl⟩

theorem onProcessWatchFlags_of : ∀ a ∈ onProcessWatchFlags boolean list, a.Of ["flags"] := by
  rw [onProcessWatchFlags]
  split
  · exact List.forall_mem_nil _
  · refine List.forall_mem_append.mpr ⟨fun a ha => (watchFlags_of a ha).1, ?_⟩
    exact List.forall_mem_singleton.mpr (of_error (by simp [flagsNode]) _ _ _)

/-- The greatest priority is within a bound of 5 or more if all of them are. -/
theorem maxFlagPriority_le {bound : Int} (hbound : 5 ≤ bound) :
    maxFlagPriority list ≤ bound ↔ ∀ f ∈ list, f.priority ≤ bound := by
  have hfold : ∀ top : Int, list.foldl (fun max_priority f => max max_priority f.priority) top ≤
      bound ↔ top ≤ bound ∧ ∀ f ∈ list, f.priority ≤ bound := by
    induction list with
    | nil => simp
    | cons f list ih =>
        intro top
        rw [List.foldl_cons, ih, List.forall_mem_cons, max_le_iff, and_assoc]
  rw [maxFlagPriority, hfold, and_iff_right hbound]

theorem le_maxFlagPriority (list : List Flag) : 5 ≤ maxFlagPriority list := by
  have hfold : ∀ top : Int, top ≤
      list.foldl (fun max_priority f => max max_priority f.priority) top := by
    induction list with
    | nil => exact fun _ => le_rfl
    | cons f list ih => exact fun top => (le_max_left _ _).trans (ih _)
  exact hfold 5

theorem onProcessWatchFlags_accepted (boolean : Bool → Value) :
    Completes (onProcessWatchFlags boolean list) ↔ ∀ f ∈ list, f.priority ≤ 100 := by
  cases list with
  | nil => exact iff_of_true (List.forall_mem_nil _) (List.forall_mem_nil _)
  | cons f list =>
      have hlow := le_maxFlagPriority (f :: list)
      rw [← maxFlagPriority_le (by norm_num : (5 : Int) ≤ 100), onProcessWatchFlags]
      constructor
      · intro h
        exact (h _ List.mem_concat_self).2
      · intro h
        refine List.forall_mem_append.mpr ⟨fun a ha => (watchFlags_of a ha).2.1, ?_⟩
        intro a ha
        obtain rfl := List.mem_singleton.mp ha
        exact ⟨by omega, h⟩

/-- The actions that run are the loop's, with the error or without. -/
theorem ranActions_flags (boolean : Bool → Value) (list : List Flag) :
    ∃ errors, ranActions (onProcessWatchFlags boolean list) = watchFlags boolean 0 list ++ errors ∧
      ∀ a ∈ errors, a.isError = true := by
  cases list with
  | nil => exact ⟨[], rfl, List.forall_mem_nil _⟩
  | cons f list =>
      rw [onProcessWatchFlags, if_neg (by simp),
        ranActions_append fun a ha => (watchFlags_of a ha).2.1]
      refine ⟨_, rfl, ?_⟩
      intro a ha
      obtain rfl := List.mem_singleton.mp (List.takeWhile_subset _ ha)
      rfl

end Watch

/-! ## What is kept -/

/-- The document has every flag, each with its tags. -/
structure FlagsKept (boolean : Bool → Value) (list : List Flag) (doc : Document Value) : Prop where
  records : ItemsKept flagArray (list.map (Flag.record boolean)) doc
  tags : ∀ k f, list[k]? = some f →
    doc.items (root ++ tagArray k) = f.tags.map fun t => some (.text t)

/-- The entry for the flags, where there are any. -/
def flagEntries (list : List Flag) : List ErrorEntry :=
  if list.isEmpty then []
  else [ErrorEntry.of (root ++ flagsNode.path) "flags" (flagsMessage list) (maxFlagPriority list)]

theorem entriesOf_flags (boolean : Bool → Value) (list : List Flag) :
    entriesOf (onProcessWatchFlags boolean list) = flagEntries list := by
  rw [onProcessWatchFlags, flagEntries]
  split
  · rfl
  · rw [entriesOf_append, entriesOf_eq_nil fun a ha => (watchFlags_of a ha).2.2]
    rfl

/-- **Every flag is kept with all its members and tags**, in the order of the
list, whatever its priority is.  The plugin throws exactly if some priority is
over 100, and otherwise adds the one entry. -/
theorem onProcessWatchFlags_kept (boolean : Bool → Value) (list : List Flag) (st : PassState)
    (hfresh : Fresh (root ++ flagArray) st.doc) :
    FlagsKept boolean list (processWatch st (onProcessWatchFlags boolean list)).1.doc ∧
      ((processWatch st (onProcessWatchFlags boolean list)).2 = none ↔
        ∀ f ∈ list, f.priority ≤ 100) ∧
      ((∀ f ∈ list, f.priority ≤ 100) →
        errorEntries (processWatch st (onProcessWatchFlags boolean list)).1.doc =
          errorEntries st.doc ++ flagEntries list) := by
  obtain ⟨errors, hran, herrors⟩ := ranActions_flags boolean list
  have hcalm : ∀ a ∈ ranActions (onProcessWatchFlags boolean list), a.Calm :=
    fun a ha => (onProcessWatchFlags_of a (List.takeWhile_subset _ ha)).calm
  have hok := completes_ranActions (onProcessWatchFlags boolean list)
  have hdoc := processWatch_doc st (onProcessWatchFlags boolean list)
  refine ⟨⟨?_, ?_⟩, ?_, ?_⟩
  · rw [hdoc]
    refine FillsItems.kept ?_ hcalm hok flagArray_last hfresh
    rw [hran]
    exact fillsItems_watchFlags.then_nothing (fillsItems_errors (k := 0) herrors)
  · intro k f hf
    have hempty : st.doc.items (root ++ tagArray k) = [] := by
      refine items_eq_nil fun n hn => hfresh _ hn ?_
      rw [tagArray, ← List.append_assoc, List.append_assoc]
      exact List.prefix_append _ _
    rw [hdoc, (applyAll_added st.doc hcalm hok).items _ tagArray_last, hempty, hran,
      pushedTo_append, pushedTo_errors herrors, pushedTo_watchFlags, if_pos (Nat.zero_le k),
      Nat.sub_zero, hf]
    simp
  · rw [processWatch_completes, onProcessWatchFlags_accepted]
  · intro hall
    have hcompletes := (onProcessWatchFlags_accepted boolean).mpr hall
    rw [ranActions_completes hcompletes] at hcalm
    rw [(processWatch_added st hcalm hcompletes).entries, entriesOf_flags]

/-- A flag of a settings file that cannot be read. -/
def settingsFlag (priority : Int) : Flag where
  unit := "sitter"
  section_ := "settings"
  name := "unreadable"
  priority
  manualDown := false
  date := 1700000000
  modified := 1700000600
  message := "the settings cannot be read"
  sourceFile := "settings.cpp"
  function := "load"
  line := 12
  tags := ["settings", "initialization"]

/-- The first of two flags ends the pass. -/
theorem onProcessWatchFlags_two :
    let boolean (b : Bool) : Value := .int (if b then 1 else 0)
    let list := [settingsFlag 120, settingsFlag 20]
    let pass := processWatch .blank (onProcessWatchFlags boolean list)
    FlagsKept boolean list pass.1.doc ∧
      (pass.2 = none ↔ ∀ f ∈ list, f.priority ≤ 100) ∧
      ((∀ f ∈ list, f.priority ≤ 100) →
        errorEntries pass.1.doc = errorEntries PassState.blank.doc ++ flagEntries list) :=
  onProcessWatchFlags_kept _ [settingsFlag 120, settingsFlag 20] .blank (fresh_empty _)

end Sitter
