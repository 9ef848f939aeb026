/-
# `Sitter.Apt` — what the apt plugin makes of `apt-check.output`

Another daemon leaves three numbers in a file: when it checked, how many
packages can be upgraded, and how many of these are security updates.

    1700000000;12;3

    the file cannot be read                        20
    `-1`                                           98
    not three pieces                               15
    a check of more than a day and an hour ago     50
    no updates                                     nothing
    updates, none of them for security             45
    security updates                               52

So an old check hides what it found: its updates are not even recorded.  For a
file that has three numbers `onProcessWatchApt_counts` says all that is done,
and a pass raises one error or none (`onProcessWatchApt_one`).
-/
import Sitter.RunPlugins

namespace Sitter

open Pieces

/-- One pass of the plugin: the configuration of the daemon that checks, what
`read_all` finds in a file, and the clock. -/
structure AptPass where
  config : ConfFile
  files : String → Option String
  now : Int

/-- `json["apt"]` -/
def aptNode : PluginNode := ⟨[.name "apt"], rfl⟩

def aptMember (name : String) (value : Int) : PluginAction :=
  .set [.name "apt", .name name] (.int value)

def aptError (message : String) (priority : Int) : PluginAction :=
  .appendError aptNode "apt" message priority

/-! ## The messages -/

def aptNotFound : String :=
  "we are unable to check whether some updates are"
    ++ " available (the `apt-check` command was not found)"

def aptSecurityUpdates : String :=
  "there are packages including security updates that need to be upgraded on this system."

def aptStandardUpdates : String :=
  "there are standard packages that can be upgraded now on this system."

namespace AptPass

variable (lib : Advgetopt) (snapdev : Snapdev) (p : AptPass)

/-- `apt_check_output` -/
def output : String :=
  (p.config "cache_path").getD "/var/cache/snapwebsites" ++ "/apt-check.output"

def outOfDate : String :=
  "\"" ++ p.output
    ++ "\" file is out of date, the snapmanagerdaemon did not update it for more than a day"

def unknownFormat : String :=
  "could not figure out the contents of \"" ++ p.output
    ++ "\", snapmanagerdaemon may have changed the format since we wrote the sitter apt plugin?"

def missing : String :=
  "\"" ++ p.output
    ++ "\" file is missing, sitter is not getting APT status updates from snapmanagerdaemon"

/-! ## The pass -/

/-- What is done with the three texts of a check. -/
def watchCounts (checked updates security : String) : List PluginAction :=
  let cachedOn := (lib.integer checked).getD 0
  aptMember "last-updated" cachedOn ::
    -- an hour more than a day, since it can take a little while to check
    if int64 (cachedOn + 86400 + 60 * 60) ≥ p.now then
      if updates = "0" then []
      else
        [aptMember "total-updates" ((lib.integer updates).getD 0),
          aptMember "security-updates" ((lib.integer security).getD 0),
          if security ≠ "0" then aptError aptSecurityUpdates 52 else aptError aptStandardUpdates 45]
    else [aptError p.outOfDate 50]

/-- `on_process_watch` -/
def onProcessWatchApt : List PluginAction :=
  match p.files p.output with
  | none => [aptError p.missing 20]
  | some text =>
      let contents := snapdev.trimString text
      if contents = "-1" then [aptError aptNotFound 98]
      else
        match lib.splitString contents [";"] with
        | [checked, updates, security] => p.watchCounts lib checked updates security
        | _ => [aptError p.unknownFormat 15]

end AptPass

/-! ## A file of three numbers

The contents are three numbers with a blank after each of the first two.  Their
decimal texts are solid, so trimming and splitting give them back, and the
texts that are compared with `"0"` are those of the numbers. -/

section Counts

variable {blank : Char → Bool}

theorem digits_toString (n : Nat) :
    (toString (n : Int)).toList ≠ [] ∧ ∀ c ∈ (toString (n : Int)).toList, c.isDigit = true := by
  have hlist : (toString (n : Int)).toList = Nat.toDigits 10 n := by
    rw [show toString (n : Int) = n.repr from rfl, Nat.toList_repr]
  rw [hlist]
  exact ⟨Nat.toDigits_ne_nil,
    fun c hc => Nat.isDigit_of_mem_toDigits (by norm_num) (by norm_num) hc⟩

theorem solid_toString (hdigits : ∀ c, c.isDigit = true → blank c = false) (n : Nat) :
    Solid blank (toString (n : Int)).toList ∧ ';' ∉ (toString (n : Int)).toList := by
  obtain ⟨hne, hall⟩ := digits_toString n
  refine ⟨solid_of_forall hne fun c hc => hdigits c (hall c hc), ?_⟩
  intro hsep
  exact absurd (hall _ hsep) (by decide)

theorem toString_eq_zero {n : Nat} : toString (n : Int) = "0" ↔ n = 0 := by
  constructor
  · intro h
    have hread := decimalNumber_toString n
    rw [h] at hread
    have hzero : decimalNumber "0" = some 0 := by decide
    exact_mod_cast (Option.some.inj (hread.symm.trans hzero))
  · rintro rfl
    rfl

/-- What the plugin does about a check at `checked` that found so many
updates. -/
def AptPass.due (p : AptPass) (checked updates security : Nat) : List PluginAction :=
  aptMember "last-updated" checked ::
    if p.now ≤ checked + 90000 then
      if updates = 0 then []
      else
        [aptMember "total-updates" updates, aptMember "security-updates" security,
          if security = 0 then aptError aptStandardUpdates 45 else aptError aptSecurityUpdates 52]
    else [aptError p.outOfDate 50]

/-- **Three numbers are read as the check wrote them.** -/
theorem onProcessWatchApt_counts (lib : Advgetopt) (hreads : lib.ReadsBack)
    (hdigits : ∀ c, c.isDigit = true → blank c = false) (snapdev : Snapdev) (p : AptPass)
    (text : String) (hsplits : lib.SplitsTrimmed blank (snapdev.trimString text))
    (hfile : p.files p.output = some text)
    (checked updates security : Nat) (hchecked : checked + 90000 < 2 ^ 63)
    (hupdates : updates < 2 ^ 63) (hsecurity : security < 2 ^ 63)
    (htrim : snapdev.trimString text = toString (checked : Int) ++ ";" ++ toString (updates : Int)
      ++ ";" ++ toString (security : Int)) :
    p.onProcessWatchApt lib snapdev = p.due checked updates security := by
  obtain ⟨hsolid, hsep⟩ := solid_toString hdigits checked
  obtain ⟨hsolid', hsep'⟩ := solid_toString hdigits updates
  obtain ⟨hsolid'', hsep''⟩ := solid_toString hdigits security
  have hcontents : snapdev.trimString text ≠ "-1" := by
    intro h
    have hmem : ';' ∈ (snapdev.trimString text).toList := by
      rw [htrim]
      simp
    rw [h] at hmem
    exact absurd hmem (by decide)
  have hsplit : lib.splitString (snapdev.trimString text) [";"] =
      [toString (checked : Int), toString (updates : Int), toString (security : Int)] := by
    have hlist : (snapdev.trimString text).toList = (toString (checked : Int)).toList ++
        ';' :: ((toString (updates : Int)).toList ++ ';' :: (toString (security : Int)).toList) := by
      rw [htrim]
      simp
    rw [hsplits ";" ';' rfl, hlist, pieces_cons hsolid hsep, pieces_cons hsolid' hsep',
      pieces_single hsolid'' hsep'']
    simp
  have hread : ∀ n : Nat, n < 2 ^ 63 → lib.integer (toString (n : Int)) = some (n : Int) :=
    fun n hn => hreads n (Int.natCast_nonneg n) (by exact_mod_cast hn)
  have hdeadline : int64 ((checked : Int) + 86400 + 60 * 60) = checked + 90000 := by
    rw [int64_of_range (by omega) (by omega)]
    omega
  rw [AptPass.onProcessWatchApt, hfile]
  simp only [if_neg hcontents, hsplit, AptPass.watchCounts, hread checked (by omega),
    hread updates hupdates, hread security hsecurity, Option.getD_some, hdeadline, ge_iff_le,
    ne_eq, toString_eq_zero, ite_not, AptPass.due]

end Counts

/-- A check of an hour ago, in the file that snapwebsites writes by default. -/
def checkedHourAgo : AptPass where
  config := fun _ => none
  files name :=
    if name = "/var/cache/snapwebsites/apt-check.output" then some "1700000000;12;3\n" else none
  now := 1700003600

/-- `trim_string` takes the white space from both ends. -/
def Snapdev.spaces : Snapdev := ⟨fun text => String.ofList (trim isspace text.toList)⟩

theorem onProcessWatchApt_hour_ago :
    checkedHourAgo.onProcessWatchApt .decimal .spaces = checkedHourAgo.due 1700000000 12 3 := by
  refine onProcessWatchApt_counts .decimal Advgetopt.decimal_readsBack ?_ .spaces checkedHourAgo
    "1700000000;12;3\n" (decimal_splitsTrimmed _) (by decide) 1700000000 12 3 (by norm_num)
    (by norm_num) (by norm_num) (by decide)
  intro c hc
  refine beq_eq_false_iff_ne.mpr ?_
  rintro rfl
  exact absurd hc (by decide)

/-! ## Any file

Whatever the file holds, the pass raises one error at most: the cases of
`on_process_watch` exclude each other. -/

/-- **A pass raises one error or none**, with a priority that is accepted. -/
theorem onProcessWatchApt_one (lib : Advgetopt) (snapdev : Snapdev) (p : AptPass) :
    raisedPriorities (p.onProcessWatchApt lib snapdev) = [] ∨
      ∃ priority ∈ [15, 20, 45, 50, 52, 98],
        raisedPriorities (p.onProcessWatchApt lib snapdev) = [priority] := by
  rw [AptPass.onProcessWatchApt]
  split
  · exact Or.inr ⟨20, by decide, rfl⟩
  · dsimp only
    split
    · exact Or.inr ⟨98, by decide, rfl⟩
    · split
      · rw [AptPass.watchCounts]
        split
        · split
          · exact Or.inl rfl
          · split
            · exact Or.inr ⟨52, by decide, rfl⟩
            · exact Or.inr ⟨45, by decide, rfl⟩
        · exact Or.inr ⟨50, by decide, rfl⟩
      · exact Or.inr ⟨15, by decide, rfl⟩

end Sitter
