/-
# `Sitter.PluginNames` — the plugins that the worker asks for

`load_plugins` reads one option.  Nothing, or a star, is every plugin there is.
Anything else is a list of names with commas between them; a name may be
written without its `sitter_`, and the names are put together again with commas
for `serverplugins`, which takes them apart once more.

So a list goes through a join and a split.  No name is lost on the way and no
two become one; and the text that is handed over, written back in the option,
asks for the same plugins (`loadPlugins_again`).  The list of no names is the
one exception: it asks for nothing, and the empty text for everything.
-/
import Sitter.Server

namespace Sitter

open Pieces

/-! ## load_plugins -/

/-- What `serverplugins::names` is asked for. -/
inductive PluginsAsked where
  /-- `find_plugins`: all whose name starts so -/
  | find (start : String)
  /-- `add`: those in the list -/
  | add (plugins : String)
  deriving DecidableEq, Repr

structure PluginsToLoad where
  path : String
  asked : PluginsAsked

/-- A name of the list, with `sitter_` before it. -/
def sitterName (p : String) : String :=
  if String.ofList (p.toList.take 7) ≠ "sitter_" then "sitter_" ++ p else p

/-- The body of the loop over the list. -/
def addPluginName (plugins p : String) : String :=
  (if plugins ≠ "" then plugins ++ "," else plugins) ++ sitterName p

/-- `load_plugins`, up to the loading itself. -/
def loadPlugins (lib : Advgetopt) (snapdev : Snapdev) (s : Server) : PluginsToLoad where
  path := s.getServerParameter "plugins-path"
  asked :=
    let plugins := snapdev.trimString (s.getServerParameter "plugins")
    if plugins = "" ∨ plugins = "*" then .find "sitter_"
    else
      -- user specified list
      .add ((lib.splitString plugins [","]).foldl addPluginName "")

/-! ## The names that are put together

Every name gets `sitter_` in front exactly if it has not got it, so a second
time changes nothing. -/

/-- `sitterName`, on characters. -/
def sitterChars (p : List Char) : List Char :=
  if p.take 7 ≠ "sitter_".toList then "sitter_".toList ++ p else p

theorem sitterName_ofList (p : List Char) :
    sitterName (String.ofList p) = String.ofList (sitterChars p) := by
  have hiff : String.ofList (p.take 7) = "sitter_" ↔ p.take 7 = "sitter_".toList := by
    constructor
    · intro h
      rw [← h, String.toList_ofList]
    · intro h
      rw [h, String.ofList_toList]
  rw [sitterName, sitterChars, String.toList_ofList]
  by_cases h : p.take 7 = "sitter_".toList
  · rw [if_neg (not_not.mpr (hiff.mpr h)), if_neg (not_not.mpr h)]
  · rw [if_pos (mt hiff.mp h), if_pos h, String.ofList_append, String.ofList_toList]

theorem take_sitterChars (p : List Char) : (sitterChars p).take 7 = "sitter_".toList := by
  rw [sitterChars]
  split
  · rfl
  · next h => exact not_not.mp h

theorem sitterChars_ne_nil (p : List Char) : sitterChars p ≠ [] := by
  intro h
  have htake := take_sitterChars p
  rw [h] at htake
  cases htake

theorem sitterChars_twice (p : List Char) : sitterChars (sitterChars p) = sitterChars p := by
  rw [sitterChars, if_neg (not_not.mpr (take_sitterChars p))]

/-- With names before it, a name is put after a comma. -/
theorem foldl_addPluginName (names : List (List Char)) {done : String} (h : done ≠ "") :
    (names.map String.ofList).foldl addPluginName done =
      done ++ String.ofList (spaced ',' (names.map fun p => (0, sitterChars p))) := by
  induction names generalizing done with
  | nil => exact String.append_empty.symm
  | cons p names ih =>
      have hstep : addPluginName done (String.ofList p) =
          done ++ String.ofList (',' :: sitterChars p) := by
        rw [addPluginName, if_pos h, sitterName_ofList, String.append_assoc, String.ofList_cons]
        rfl
      have hne : done ++ String.ofList (',' :: sitterChars p) ≠ "" :=
        mt String.append_eq_empty_iff.mp fun hboth => h hboth.1
      rw [List.map_cons, List.foldl_cons, hstep, ih hne, String.append_assoc,
        ← String.ofList_append]
      rfl

/-- The names with commas between them. -/
def namesJoined : List (List Char) → List Char
  | [] => []
  | p :: names => sitterChars p ++ spaced ',' (names.map fun p => (0, sitterChars p))

theorem foldl_names (names : List (List Char)) :
    (names.map String.ofList).foldl addPluginName "" = String.ofList (namesJoined names) := by
  cases names with
  | nil => rfl
  | cons p names =>
      have hstep : addPluginName "" (String.ofList p) = String.ofList (sitterChars p) := by
        rw [addPluginName, if_neg (not_not.mpr rfl), sitterName_ofList, String.empty_append]
      have hne : String.ofList (sitterChars p) ≠ "" :=
        mt String.ofList_eq_empty_iff.mp (sitterChars_ne_nil p)
      rw [List.map_cons, List.foldl_cons, hstep, foldl_addPluginName names hne,
        ← String.ofList_append, namesJoined]

section Blank

variable {blank : Char → Bool} {names : List (List Char)}

theorem sitterChars_solid (hs : blank 's' = false) {p : List Char}
    (hp : Solid blank p ∧ ',' ∉ p) : Solid blank (sitterChars p) ∧ ',' ∉ sitterChars p := by
  rw [sitterChars]
  split
  · refine ⟨⟨List.append_ne_nil_of_right_ne_nil _ hp.1.nonempty, ?_, ?_⟩, ?_⟩
    · intro c hc
      cases hc
      exact hs
    · intro c hc
      rw [List.getLast?_append_of_ne_nil _ hp.1.nonempty] at hc
      exact hp.1.ends c hc
    · rw [List.mem_append, not_or]
      exact ⟨by decide, hp.2⟩
  · exact hp

/-- **Taken apart again, they are the names.** -/
theorem pieces_namesJoined (hs : blank 's' = false)
    (h : ∀ p ∈ names, Solid blank p ∧ ',' ∉ p) :
    pieces blank ',' (namesJoined names) = names.map sitterChars := by
  cases names with
  | nil => exact pieces_nil
  | cons p names =>
      obtain ⟨hp, hnames⟩ := List.forall_mem_cons.mp h
      rw [namesJoined, pieces_spaced (sitterChars_solid hs hp), List.map_map, List.map_cons]
      · rfl
      · intro w hw
        obtain ⟨q, hq, rfl⟩ := List.mem_map.mp hw
        exact sitterChars_solid hs (hnames q hq)

theorem solid_namesJoined (hs : blank 's' = false) (h : ∀ p ∈ names, Solid blank p ∧ ',' ∉ p)
    (hne : names ≠ []) : Solid blank (namesJoined names) := by
  cases names with
  | nil => exact absurd rfl hne
  | cons p names =>
      obtain ⟨hp, hnames⟩ := List.forall_mem_cons.mp h
      refine solid_spaced (sitterChars_solid hs hp).1 ?_
      intro w hw
      obtain ⟨q, hq, rfl⟩ := List.mem_map.mp hw
      exact (sitterChars_solid hs (hnames q hq)).1

/-- Names that have their `sitter_` stay as they are. -/
theorem namesJoined_twice (names : List (List Char)) :
    namesJoined (names.map sitterChars) = namesJoined names := by
  cases names with
  | nil => rfl
  | cons p names =>
      rw [List.map_cons, namesJoined, namesJoined, sitterChars_twice, List.map_map]
      have hsame : ((fun p => (0, sitterChars p)) ∘ sitterChars) =
          fun p : List Char => ((0 : Nat), sitterChars p) :=
        funext fun q => Prod.ext rfl (sitterChars_twice q)
      rw [hsame]

theorem namesJoined_eq_nil : namesJoined names = [] ↔ names = [] := by
  cases names with
  | nil => exact iff_of_true rfl rfl
  | cons p names =>
      refine iff_of_false ?_ (List.cons_ne_nil p names)
      exact List.append_ne_nil_of_left_ne_nil (sitterChars_ne_nil p) _

/-- What starts with `sitter_` is no star. -/
theorem namesJoined_ne_star (names : List (List Char)) : namesJoined names ≠ ['*'] := by
  cases names with
  | nil => exact (List.cons_ne_nil _ _).symm
  | cons p names =>
      intro h
      have hlong := congrArg List.length (take_sitterChars p)
      have hshort := congrArg List.length h
      rw [List.length_take] at hlong
      rw [namesJoined, List.length_append] at hshort
      simp only [String.length_toList, List.length_singleton] at hlong hshort
      have hseven : "sitter_".length = 7 := rfl
      omega

/-! ## The list of the option -/

variable {lib : Advgetopt} {snapdev : Snapdev} {s : Server}

/-- What a list is put together from. -/
theorem loadPlugins_names {plugins : String}
    (hlib : lib.SplitsTrimmed blank (snapdev.trimString (s.getServerParameter "plugins")))
    (h : (loadPlugins lib snapdev s).asked = .add plugins) :
    ∃ names : List (List Char), (∀ p ∈ names, Solid blank p ∧ ',' ∉ p) ∧
      lib.splitString (snapdev.trimString (s.getServerParameter "plugins")) [","] =
        names.map String.ofList ∧ plugins = String.ofList (namesJoined names) := by
  simp only [loadPlugins] at h
  split at h
  · cases h
  · refine ⟨pieces blank ',' (snapdev.trimString (s.getServerParameter "plugins")).toList,
      fun p hp => mem_pieces hp, hlib _ _ rfl, ?_⟩
    rw [hlib _ _ rfl, foldl_names] at h
    cases h
    rfl

theorem loadPlugins_joined (hs : blank 's' = false)
    (hlib : lib.SplitsTrimmed blank (String.ofList (namesJoined names)))
    (htrim : ∀ text, snapdev.trimString text = String.ofList (trim blank text.toList))
    (hnames : ∀ p ∈ names, Solid blank p ∧ ',' ∉ p)
    (h : s.getServerParameter "plugins" = String.ofList (namesJoined names)) :
    (loadPlugins lib snapdev s).asked =
      if names = [] then .find "sitter_" else .add (String.ofList (namesJoined names)) := by
  simp only [loadPlugins]
  rw [h, htrim, String.toList_ofList]
  by_cases hne : names = []
  · rw [if_pos hne, hne]
    exact if_pos (Or.inl rfl)
  · have hsolid := solid_namesJoined hs hnames hne
    have hempty : String.ofList (namesJoined names) ≠ "" :=
      mt String.ofList_eq_empty_iff.mp hsolid.nonempty
    have hstar : String.ofList (namesJoined names) ≠ "*" := by
      intro heq
      refine namesJoined_ne_star names ?_
      rw [← String.toList_ofList (l := namesJoined names), heq]
      rfl
    rw [trim_solid hsolid, if_neg (not_or.mpr ⟨hempty, hstar⟩), if_neg hne,
      hlib "," ',' rfl, String.toList_ofList, pieces_namesJoined hs hnames, foldl_names, namesJoined_twice]

end Blank

/-- **A list of plugins survives.**  The text that is handed over is taken
apart to the names of the list, each with its `sitter_`; and written in the
option, it asks for the same again, unless it has no name. -/
theorem loadPlugins_again (lib : Advgetopt) (snapdev : Snapdev) (blank : Char → Bool)
    (hs : blank 's' = false)
    (htrim : ∀ text, snapdev.trimString text = String.ofList (trim blank text.toList))
    (s s' : Server) (plugins : String)
    (hlib : lib.SplitsTrimmed blank (snapdev.trimString (s.getServerParameter "plugins")))
    (hjoined : lib.SplitsTrimmed blank plugins) (h : (loadPlugins lib snapdev s).asked = .add plugins)
    (h' : s'.getServerParameter "plugins" = plugins) :
    lib.splitString plugins [","] =
        (lib.splitString (snapdev.trimString (s.getServerParameter "plugins")) [","]).map
          sitterName ∧
      (loadPlugins lib snapdev s').asked =
        if plugins = "" then .find "sitter_" else .add plugins := by
  obtain ⟨names, hnames, hsplit, rfl⟩ := loadPlugins_names hlib h
  refine ⟨?_, ?_⟩
  · rw [hjoined "," ',' rfl, String.toList_ofList, pieces_namesJoined hs hnames, hsplit,
      List.map_map, List.map_map]
    exact List.map_congr_left fun p _ => (sitterName_ofList p).symm
  · rw [loadPlugins_joined hs hjoined htrim hnames h']
    refine if_congr ?_ rfl rfl
    rw [String.ofList_eq_empty_iff, namesJoined_eq_nil]

/-- Three names, one of them with its `sitter_`. -/
theorem loadPlugins_again_three :
    let snapdev : Snapdev := ⟨fun text => String.ofList (trim (· == ' ') text.toList)⟩
    let given (text : String) := Server.create (Options.replace ⟨fun _ => true, fun _ => ""⟩
      "plugins" text)
    let s := given " cpu, sitter_disk,,log "
    let s' := given "sitter_cpu,sitter_disk,sitter_log"
    Advgetopt.decimal.splitString "sitter_cpu,sitter_disk,sitter_log" [","] =
        (Advgetopt.decimal.splitString
          (snapdev.trimString (s.getServerParameter "plugins")) [","]).map sitterName ∧
      (loadPlugins .decimal snapdev s').asked = .add "sitter_cpu,sitter_disk,sitter_log" :=
  loadPlugins_again .decimal _ (· == ' ') (by decide) (fun _ => rfl) _ _ _
    (decimal_splitsTrimmed _) (decimal_splitsTrimmed _) (by decide) (by decide)

end Sitter
