/-
# `Sitter.FindProcess` — the tool that looks for a process

    find_process [--script <s>] [--regex] <process name>

tells by its exit code whether a process of that name runs.  With `--script`
the process is one that runs a script: its own name is the one of the
interpreter, and the name of the script is the first argument that is no option,
without its path.  With `--regex` both names are patterns.

The loop over the processes ends at the first one that is found and goes on
over those that tell nothing; a pattern that is none ends the program before
it.  What comes out is stated without loops (`findProcess_iff`): so the answer
does not depend on the order in which the processes are listed.
-/
import Sitter.Processes
import Sitter.Base.Text

namespace Sitter

open Text

/-! ## find_process -/

/-- The command line of the tool, as far as the answer depends on it. -/
structure FindOptions where
  script : String
  processName : String
  regex : Bool

/-- The loop over the arguments, from the second one on. -/
def scriptCommand : List String → String
  | [] => ""
  | a :: args => if a.toList ≠ [] ∧ a.toList.head? ≠ some '-' then a else scriptCommand args

/-- The command without its path. -/
def commandName (command : String) : String := String.ofList (afterLast command.toList '/')

/-- How a name is tested. -/
def nameTest (regex : Regex) (opts : FindOptions) (text : String) : Option (String → Bool) :=
  if opts.regex then regex text else some (fun name => name = text)

/-- The loop over the processes: the exit code. -/
def findLoop (basename : ProcessInfo → String) (script : Option (String → Bool))
    (processName : String → Bool) : List ProcessInfo → Int
  | [] => 1
  | p :: ps =>
      let name := basename p
      if name = "" then findLoop basename script processName ps
      else
        match script with
        | none => if processName name then 0 else findLoop basename script processName ps
        | some isScript =>
            let command := scriptCommand (p.args.drop 1)
            if command = "" then findLoop basename script processName ps
            else if !isScript name then findLoop basename script processName ps
            else if processName (commandName command) then 0
            else findLoop basename script processName ps

/-- `main`: the exit code.  A `regex` that throws leaves it at 1. -/
def findProcess (regex : Regex) (basename : ProcessInfo → String) (opts : FindOptions)
    (processes : List ProcessInfo) : Int :=
  if opts.script = "" then
    match nameTest regex opts opts.processName with
    | none => 1
    | some isName => findLoop basename none isName processes
  else
    match nameTest regex opts opts.script, nameTest regex opts opts.processName with
    | some isScript, some isName => findLoop basename (some isScript) isName processes
    | _, _ => 1

/-! ## What is looked for -/

def IsCommand (a : String) : Prop := ∃ c cs, a.toList = c :: cs ∧ c ≠ '-'

/-- The script of a process: its first argument that is no option. -/
def RunsScript (p : ProcessInfo) (command : String) : Prop :=
  ∃ first before after, p.args = first :: before ++ command :: after ∧ IsCommand command ∧
    ∀ a ∈ before, ¬ IsCommand a

def FileName (path name : String) : Prop :=
  '/' ∉ name.toList ∧ (path = name ∨ ∃ dir, path = dir ++ "/" ++ name)

def Wanted (basename : ProcessInfo → String) (script : Option (String → Bool))
    (isName : String → Bool) (p : ProcessInfo) : Prop :=
  basename p ≠ "" ∧
    match script with
    | none => isName (basename p) = true
    | some isScript => isScript (basename p) = true ∧
        ∃ command name, RunsScript p command ∧ FileName command name ∧ isName name = true

/-- The two tests that the command line stands for. -/
structure FindOptions.Tests (opts : FindOptions) (regex : Regex) (script : Option (String → Bool))
    (isName : String → Bool) : Prop where
  script : if opts.script = "" then script = none
    else ∃ isScript, nameTest regex opts opts.script = some isScript ∧ script = some isScript
  name : nameTest regex opts opts.processName = some isName

/-! ## The script and its name

The loop looks for the first argument that is no option, and takes the text
after its last slash. -/

theorem isCommand_iff {a : String} : IsCommand a ↔ a.toList ≠ [] ∧ a.toList.head? ≠ some '-' := by
  rw [IsCommand]
  cases a.toList with
  | nil => simp
  | cons c cs => simp

/-- The loop finds the first command of the arguments. -/
theorem scriptCommand_cases (args : List String) :
    (scriptCommand args = "" ∧ ∀ a ∈ args, ¬ IsCommand a) ∨
      ∃ before after, args = before ++ scriptCommand args :: after ∧
        IsCommand (scriptCommand args) ∧ ∀ a ∈ before, ¬ IsCommand a := by
  induction args with
  | nil => exact Or.inl ⟨rfl, List.forall_mem_nil _⟩
  | cons a args ih =>
      by_cases ha : IsCommand a
      · have hhere : scriptCommand (a :: args) = a := if_pos (isCommand_iff.mp ha)
        rw [hhere]
        exact Or.inr ⟨[], args, rfl, ha, List.forall_mem_nil _⟩
      · have hnext : scriptCommand (a :: args) = scriptCommand args :=
          if_neg (mt isCommand_iff.mpr ha)
        rw [hnext]
        rcases ih with ⟨hnone, hall⟩ | ⟨before, after, hsplit, hcommand, hall⟩
        · exact Or.inl ⟨hnone, List.forall_mem_cons.mpr ⟨ha, hall⟩⟩
        · exact Or.inr ⟨a :: before, after, congrArg (a :: ·) hsplit, hcommand,
            List.forall_mem_cons.mpr ⟨ha, hall⟩⟩

theorem command_unique {before before' after after' : List String} {a a' : String}
    (h : before ++ a :: after = before' ++ a' :: after') (ha : IsCommand a) (ha' : IsCommand a')
    (hall : ∀ b ∈ before, ¬ IsCommand b) (hall' : ∀ b ∈ before', ¬ IsCommand b) : a = a' := by
  induction before generalizing before' with
  | nil =>
      cases before' with
      | nil => exact (List.cons.inj h).1
      | cons b before' =>
          obtain rfl := (List.cons.inj h).1
          exact absurd ha (hall' a List.mem_cons_self)
  | cons b before ih =>
      cases before' with
      | nil =>
          obtain rfl := (List.cons.inj h).1
          exact absurd ha' (hall b List.mem_cons_self)
      | cons b' before' =>
          refine ih (List.cons.inj h).2 ?_ ?_
          · exact (List.forall_mem_cons.mp hall).2
          · exact (List.forall_mem_cons.mp hall').2

theorem commandName_eq_iff {command name : String} :
    commandName command = name ↔ FileName command name := by
  have hof : commandName command = name ↔ afterLast command.toList '/' = name.toList := by
    rw [commandName]
    constructor
    · intro h
      rw [← h, String.toList_ofList]
    · intro h
      rw [h, String.ofList_toList]
  rw [hof, afterLast_eq_iff, FileName]
  refine and_congr_right fun _ => or_congr String.toList_inj ?_
  constructor
  · rintro ⟨dir, hdir⟩
    refine ⟨String.ofList dir, String.toList_inj.mp ?_⟩
    rw [hdir, String.toList_append, String.toList_append, String.toList_ofList, List.append_assoc]
    rfl
  · rintro ⟨dir, rfl⟩
    refine ⟨dir.toList, ?_⟩
    rw [String.toList_append, String.toList_append, List.append_assoc]
    rfl

/-! ## What the loop finds

By induction on the list of processes: the exit code says whether one of them
is looked for. -/

section Loop

variable {basename : ProcessInfo → String} {isName isScript : String → Bool} {p : ProcessInfo}

theorem runsScript_iff :
    (∃ command name, RunsScript p command ∧ FileName command name ∧ isName name = true) ↔
      scriptCommand (p.args.drop 1) ≠ "" ∧
        isName (commandName (scriptCommand (p.args.drop 1))) = true := by
  have hrest : ∀ {command : String}, RunsScript p command ↔
      ∃ before after, p.args.drop 1 = before ++ command :: after ∧ IsCommand command ∧
        ∀ a ∈ before, ¬ IsCommand a := by
    intro command
    rw [RunsScript]
    cases p.args with
    | nil => simp
    | cons first args => simp
  rcases scriptCommand_cases (p.args.drop 1) with ⟨hnone, hall⟩ | ⟨before, after, hsplit, hc, hall⟩
  · rw [hnone]
    refine iff_of_false ?_ (fun h => h.1 rfl)
    rintro ⟨command, name, hruns, -⟩
    obtain ⟨before, after, hsplit, hc, -⟩ := hrest.mp hruns
    refine hall command ?_ hc
    rw [hsplit]
    exact List.mem_append_right _ List.mem_cons_self
  · constructor
    · rintro ⟨command, name, hruns, hfile, hname⟩
      obtain ⟨before', after', hsplit', hc', hall'⟩ := hrest.mp hruns
      have hsame := command_unique (hsplit.symm.trans hsplit') hc hc' hall hall'
      rw [← hsame, ← commandName_eq_iff] at hfile
      rw [hfile]
      refine ⟨?_, hname⟩
      rintro hempty
      obtain ⟨c, cs, hlist, -⟩ := hc
      rw [hempty] at hlist
      cases hlist
    · rintro ⟨-, hname⟩
      exact ⟨_, _, hrest.mpr ⟨before, after, hsplit, hc, hall⟩, commandName_eq_iff.mp rfl, hname⟩

theorem findLoop_cons (script : Option (String → Bool)) (ps : List ProcessInfo) :
    (Wanted basename script isName p ∧ findLoop basename script isName (p :: ps) = 0) ∨
      (¬ Wanted basename script isName p ∧
        findLoop basename script isName (p :: ps) = findLoop basename script isName ps) := by
  simp only [Wanted, findLoop]
  by_cases hname : basename p = ""
  · simp [hname]
  · cases script with
    | none => cases hfound : isName (basename p) <;> simp [hname]
    | some isScript =>
        simp only [runsScript_iff]
        generalize scriptCommand (p.args.drop 1) = command
        by_cases hcommand : command = ""
        · simp [hcommand]
        · cases hscript : isScript (basename p) with
          | false => simp
          | true => cases hfound : isName (commandName command) <;> simp [hname, hcommand]

/-- **The loop finds a process that is wanted, wherever it is.** -/
theorem findLoop_iff (script : Option (String → Bool)) (ps : List ProcessInfo) :
    (findLoop basename script isName ps = 0 ∧ ∃ p ∈ ps, Wanted basename script isName p) ∨
      (findLoop basename script isName ps = 1 ∧ ∀ p ∈ ps, ¬ Wanted basename script isName p) := by
  induction ps with
  | nil => exact Or.inr ⟨rfl, List.forall_mem_nil _⟩
  | cons p ps ih =>
      rcases findLoop_cons (p := p) script ps with ⟨hwanted, hzero⟩ | ⟨hnot, hnext⟩
      · exact Or.inl ⟨hzero, p, List.mem_cons_self, hwanted⟩
      · rw [hnext]
        rcases ih with ⟨hzero, q, hq, hwanted⟩ | ⟨hone, hall⟩
        · exact Or.inl ⟨hzero, q, List.mem_cons_of_mem _ hq, hwanted⟩
        · exact Or.inr ⟨hone, List.forall_mem_cons.mpr ⟨hnot, hall⟩⟩

theorem findLoop_eq_zero {script : Option (String → Bool)} {ps : List ProcessInfo} :
    findLoop basename script isName ps = 0 ↔ ∃ p ∈ ps, Wanted basename script isName p := by
  rcases findLoop_iff script ps with ⟨hzero, hfound⟩ | ⟨hone, hall⟩
  · exact iff_of_true hzero hfound
  · rw [hone]
    refine iff_of_false (by decide) ?_
    rintro ⟨p, hp, hwanted⟩
    exact hall p hp hwanted

/-- Only which processes there are matters. -/
theorem findLoop_congr {script : Option (String → Bool)} {ps ps' : List ProcessInfo}
    (h : ∀ p, p ∈ ps' ↔ p ∈ ps) :
    findLoop basename script isName ps' = findLoop basename script isName ps := by
  rcases findLoop_iff script ps with ⟨hzero, p, hp, hwanted⟩ | ⟨hone, hall⟩
  · rw [hzero, findLoop_eq_zero]
    exact ⟨p, (h p).mpr hp, hwanted⟩
  · rcases findLoop_iff script ps' with ⟨-, p, hp, hwanted⟩ | ⟨hone', -⟩
    · exact absurd hwanted (hall p ((h p).mp hp))
    · rw [hone, hone']

end Loop

/-! ## The tool -/

section Tool

variable {regex : Regex} {opts : FindOptions} {script script' : Option (String → Bool)}
  {isName isName' : String → Bool}

theorem FindOptions.Tests.unique (h : opts.Tests regex script isName)
    (h' : opts.Tests regex script' isName') : script = script' ∧ isName = isName' := by
  refine ⟨?_, Option.some.inj (h.name.symm.trans h'.name)⟩
  have hs := h.script
  have hs' := h'.script
  split at hs
  · next hnone =>
      rw [if_pos hnone] at hs'
      rw [hs, hs']
  · next hsome =>
      rw [if_neg hsome] at hs'
      obtain ⟨t, ht, rfl⟩ := hs
      obtain ⟨t', ht', rfl⟩ := hs'
      exact ht.symm.trans ht'

theorem findProcess_cases (regex : Regex) (basename : ProcessInfo → String) (opts : FindOptions) :
    (∃ script isName, opts.Tests regex script isName ∧ ∀ processes,
        findProcess regex basename opts processes = findLoop basename script isName processes) ∨
      ((∀ script isName, ¬ opts.Tests regex script isName) ∧
        ∀ processes, findProcess regex basename opts processes = 1) := by
  simp only [findProcess]
  by_cases hnone : opts.script = ""
  · cases hname : nameTest regex opts opts.processName with
    | none =>
        refine Or.inr ⟨fun script isName h => ?_, fun _ => if_pos hnone⟩
        cases hname.symm.trans h.name
    | some isName =>
        exact Or.inl ⟨none, isName, ⟨(if_pos hnone).symm ▸ rfl, hname⟩, fun _ => if_pos hnone⟩
  · have hscript : ∀ {script isName}, opts.Tests regex script isName →
        ∃ isScript, nameTest regex opts opts.script = some isScript := by
      intro script isName h
      have hs := h.script
      rw [if_neg hnone] at hs
      exact ⟨hs.choose, hs.choose_spec.1⟩
    cases htest : nameTest regex opts opts.script with
    | none =>
        refine Or.inr ⟨fun script isName h => ?_, fun _ => if_neg hnone⟩
        obtain ⟨isScript, hsome⟩ := hscript h
        cases htest.symm.trans hsome
    | some isScript =>
        cases hname : nameTest regex opts opts.processName with
        | none =>
            refine Or.inr ⟨fun script isName h => ?_, fun _ => if_neg hnone⟩
            cases hname.symm.trans h.name
        | some isName =>
            refine Or.inl ⟨some isScript, isName, ⟨?_, hname⟩, fun _ => if_neg hnone⟩
            rw [if_neg hnone]
            exact ⟨isScript, htest, rfl⟩

end Tool

/-- **What the tool answers**: 0 exactly if both names can be tested and some
process is wanted, and 1 otherwise; so the order of the processes, and how often
one is listed, makes no difference. -/
theorem findProcess_iff (regex : Regex) (basename : ProcessInfo → String) (opts : FindOptions)
    (processes : List ProcessInfo) :
    (findProcess regex basename opts processes = 0 ∨
        findProcess regex basename opts processes = 1) ∧
      (findProcess regex basename opts processes = 0 ↔
        ∃ script isName, opts.Tests regex script isName ∧
          ∃ p ∈ processes, Wanted basename script isName p) ∧
      ∀ processes' : List ProcessInfo, (∀ p, p ∈ processes' ↔ p ∈ processes) →
        findProcess regex basename opts processes' = findProcess regex basename opts processes := by
  rcases findProcess_cases regex basename opts with ⟨script, isName, htests, hloop⟩ | ⟨hnot, hone⟩
  · simp only [hloop]
    refine ⟨?_, ?_, fun _ hsame => findLoop_congr hsame⟩
    · exact (findLoop_iff script processes).imp (·.1) (·.1)
    · rw [findLoop_eq_zero]
      constructor
      · intro hfound
        exact ⟨script, isName, htests, hfound⟩
      · rintro ⟨script', isName', htests', hfound⟩
        obtain ⟨rfl, rfl⟩ := htests.unique htests'
        exact hfound
  · refine ⟨Or.inr (hone _), ?_, fun _ _ => (hone _).trans (hone _).symm⟩
    rw [hone]
    refine iff_of_false (by decide) ?_
    rintro ⟨script, isName, htests, -⟩
    exact hnot script isName htests

/-- A java that runs tomcat is found, before or after a shell. -/
theorem findProcess_iff_tomcat :
    let shell := runningProcess "/bin/bash"
    let java := { runningProcess "/usr/bin/java" with args := ["java", "-Xmx1g", "/opt/tomcat"] }
    let opts : FindOptions := ⟨"java", "tomcat", false⟩
    findProcess (fun _ => none) ProcessInfo.basename opts [shell, java] = 0 ∧
      findProcess (fun _ => none) ProcessInfo.basename opts [java, shell] =
        findProcess (fun _ => none) ProcessInfo.basename opts [shell, java] := by
  intro shell java opts
  refine ⟨by decide, (findProcess_iff _ _ opts _).2.2 _ fun p => ?_⟩
  rw [List.mem_pair, List.mem_pair, or_comm]

end Sitter
