/-
# `Sitter.RecordUsage` — the files of the RUSAGE messages

Another service tells how much a process of its has used.  `record_usage` makes
a document of the parameters of the message and saves it in

    data_path/rusage/process_name-hour.json      hour = (now / 3600) % 24

where the name is the one of the message.  It is taken as it is, so the file is
in that directory exactly if there is no slash in it (`directChild_iff`).

The hour is appended to a `std::string` as a number, and a string takes that
for a character: the name has the control character of this number in it, never
its decimal text (`usageNamed_never`).  What is opened at midnight is
`process_name-`, for the character of 0 ends the name (`openedName_eq`).  Two
messages of plain names share a file as they should (`openedName_inj`).
-/
import Sitter.Server
import Mathlib.Data.List.TakeWhile

namespace Sitter

open Document

/-! ## The message and its file -/

/-- The parameters that are saved, in the order they are read in. -/
def usageParameters : List String :=
  ["process_name", "pid", "user_time", "system_time", "maxrss", "minor_page_fault",
    "major_page_fault", "in_block", "out_block", "volontary_context_switches",
    "involontary_context_switches"]

/-- The functions `record_usage` calls: `to_string` of a document and
`mkdir_p`. -/
structure UsageHost where
  render : Document Value → String
  mkdirP : String → Int

/-- `(start_date / 3600) % 24` where a `char` is expected. -/
def hourChar (startDate : Int) : Char :=
  Char.ofNat ((startDate.tdiv 3600).tmod 24 % 256).toNat

def usageName (processName : String) (startDate : Int) : String :=
  processName ++ "-" ++ String.singleton (hourChar startDate) ++ ".json"

/-- The members of the document; `get_parameter` throws where a parameter is
missing, and that is its name. -/
def usageMembers (message : String → Option String) :
    List String → Except String (List (String × Value))
  | [] => .ok []
  | name :: names =>
      match message name with
      | none => .error name
      | some text => (usageMembers message names).map fun ms => (name, .text text) :: ms

/-- `record_usage`: the file that is written and its text, if there is one. -/
def Server.recordUsage (host : UsageHost) (s : Server) (message : String → Option String)
    (startDate : Int) : Except String (Option (String × String)) :=
  let dataPath := s.getServerParameter "data_path"
  if dataPath = "" then .ok none
  else
    (usageMembers message usageParameters).map fun members =>
      let json := Document.empty.setMembers [.name "rusage"]
        (members ++ [("date", .int startDate)])
      let directory := dataPath ++ "/rusage/"
      if host.mkdirP directory ≠ 0 then none
      else
        let processName := (message "process_name").getD ""
        some (directory ++ usageName processName startDate, host.render json)

/-- What the operating system makes of a name: a `nul` ends it. -/
def openedName (name : String) : String :=
  String.ofList (name.toList.takeWhile (· ≠ Char.ofNat 0))

/-! ## What is expected -/

/-- The file is a direct child of the directory. -/
def DirectChild (directory filename : String) : Prop :=
  ∃ name, filename = directory ++ name ∧ '/' ∉ name.toList ∧ name ≠ "." ∧ name ≠ ".."

/-- A character nobody sees. -/
def isControl (c : Char) : Bool := c.toNat < 32 || c.toNat == 127

/-- A name without slashes and control characters. -/
def PlainName (name : String) : Prop := ∀ c ∈ name.toList, c ≠ '/' ∧ isControl c = false

/-- The hour of the day. -/
def hourOf (startDate : Int) : Int := startDate / 3600 % 24

/-- What is expected of the name of a file. -/
structure UsageNamed (processName : String) (startDate : Int) : Prop where
  name : usageName processName startDate =
    processName ++ "-" ++ toString (hourOf startDate) ++ ".json"
  plain : ∀ c ∈ (usageName processName startDate).toList, isControl c = false
  opened : openedName (usageName processName startDate) = usageName processName startDate
  shared : ∀ processName' startDate', PlainName processName' → 0 ≤ startDate' →
    (openedName (usageName processName startDate) =
        openedName (usageName processName' startDate') ↔
      processName = processName' ∧ hourOf startDate = hourOf startDate')

/-! ## The directory

A slash in the name of the process takes the file out of the directory. -/

section Directory

variable {host : UsageHost} {s : Server} {message : String → Option String}
  {processName filename data : String} {startDate : Int}

/-- A file that is written has its name from the message. -/
theorem recordUsage_filename (hname : message "process_name" = some processName)
    (h : s.recordUsage host message startDate = .ok (some (filename, data))) :
    filename = s.getServerParameter "data_path" ++ "/rusage/" ++
      usageName processName startDate := by
  rw [Server.recordUsage] at h
  dsimp only at h
  split at h
  · cases h
  · cases hmembers : usageMembers message usageParameters with
    | error name =>
        rw [hmembers] at h
        cases h
    | ok members =>
        rw [hmembers, hname] at h
        have hsome := Except.ok.inj h
        split at hsome
        · cases hsome
        · exact (congrArg Prod.fst (Option.some.inj hsome)).symm

theorem usageName_toList (processName : String) (startDate : Int) :
    (usageName processName startDate).toList =
      processName.toList ++ '-' :: hourChar startDate :: ['.', 'j', 's', 'o', 'n'] := by
  rw [usageName, String.toList_append, String.toList_append, String.toList_append,
    String.toList_singleton]
  simp

theorem hourChar_toNat (startDate : Int) :
    (hourChar startDate).toNat = ((startDate.tdiv 3600).tmod 24 % 256).toNat := by
  have hvalid : ((startDate.tdiv 3600).tmod 24 % 256).toNat.isValidChar := by
    left
    omega
  rw [hourChar, Char.ofNat, dif_pos hvalid]
  rfl

theorem hourChar_ne_slash (startDate : Int) : hourChar startDate ≠ '/' := by
  intro h
  have hnat := hourChar_toNat startDate
  rw [h] at hnat
  have hlow : -24 < (startDate.tdiv 3600).tmod 24 := Int.lt_tmod_of_pos _ (by norm_num)
  have hhigh : (startDate.tdiv 3600).tmod 24 < 24 := Int.tmod_lt_of_pos _ (by norm_num)
  have hslash : '/'.toNat = 47 := rfl
  omega

/-- A slash in what is appended is one in the name of the process. -/
theorem slash_mem_usageName (processName : String) (startDate : Int) :
    '/' ∈ (usageName processName startDate).toList ↔ '/' ∈ processName.toList := by
  rw [usageName_toList, List.mem_append]
  have hrest : '/' ∉ '-' :: hourChar startDate :: ['.', 'j', 's', 'o', 'n'] := by
    simp [(hourChar_ne_slash startDate).symm]
  exact or_iff_left hrest

theorem usageName_length (processName : String) (startDate : Int) :
    7 ≤ (usageName processName startDate).length := by
  rw [← String.length_toList, usageName_toList, List.length_append]
  simp

end Directory

/-- **The file of a message is in the directory exactly if there is no slash in
the name of the process.** -/
theorem directChild_iff (host : UsageHost) (s : Server) (message : String → Option String)
    (processName : String) (startDate : Int) {filename data : String}
    (hname : message "process_name" = some processName)
    (h : s.recordUsage host message startDate = .ok (some (filename, data))) :
    DirectChild (s.getServerParameter "data_path" ++ "/rusage/") filename ↔
      '/' ∉ processName.toList := by
  rw [recordUsage_filename hname h]
  constructor
  · rintro ⟨name, heq, hslash, -, -⟩
    rw [String.append_right_inj] at heq
    rw [← slash_mem_usageName processName startDate, heq]
    exact hslash
  · intro hslash
    have hlength := usageName_length processName startDate
    refine ⟨usageName processName startDate, rfl, mt (slash_mem_usageName _ _).mp hslash, ?_, ?_⟩
    · intro hdot
      rw [hdot] at hlength
      exact absurd hlength (by decide)
    · intro hdots
      rw [hdots] at hlength
      exact absurd hlength (by decide)

/-- A server whose data goes to `/data`. -/
def usageServer : Server := .create ⟨fun _ => true, fun _ => "/data"⟩

/-- A host that can create the directory. -/
def UsageHost.plain : UsageHost := ⟨fun _ => "\x7b\x7d", fun _ => 0⟩

def usageMessage (processName : String) : String → Option String := fun name =>
  some (if name = "process_name" then processName else "0")

/-- The file of a process. -/
theorem directChild_process :
    ∃ filename data, usageServer.recordUsage .plain (usageMessage "ipload") 1700000000 =
        .ok (some (filename, data)) ∧
      DirectChild (usageServer.getServerParameter "data_path" ++ "/rusage/") filename :=
  ⟨_, _, rfl, (directChild_iff .plain usageServer (usageMessage "ipload") "ipload" 1700000000 rfl
    rfl).mpr (by simp)⟩

/-- The file of a process that has a path for a name. -/
theorem directChild_path :
    ∃ filename data, usageServer.recordUsage .plain (usageMessage "../../etc/x") 1700000000 =
        .ok (some (filename, data)) ∧
      ¬ DirectChild (usageServer.getServerParameter "data_path" ++ "/rusage/") filename := by
  refine ⟨_, _, rfl, ?_⟩
  rintro ⟨name, heq, hslash, -, -⟩
  have happended : usageName "../../etc/x" 1700000000 = name := (String.append_right_inj _).mp heq
  rw [← happended, slash_mem_usageName] at hslash
  simp at hslash

/-! ## The hour

The hour is a number where a `char` is expected, so the name has a control
character in it; at midnight it is the NUL that ends the name. -/

section Hour

variable {processName processName' : String} {startDate startDate' : Int}

theorem hourChar_hour (h : 0 ≤ startDate) :
    ((hourChar startDate).toNat : Int) = hourOf startDate ∧ (hourChar startDate).toNat < 24 := by
  have hdiv : startDate.tdiv 3600 = startDate / 3600 := Int.tdiv_eq_ediv_of_nonneg h
  have hmod : (startDate.tdiv 3600).tmod 24 = startDate / 3600 % 24 := by
    rw [hdiv]
    exact Int.tmod_eq_emod_of_nonneg (by omega)
  rw [hourChar_toNat, hmod, hourOf]
  omega

theorem hourChar_control (h : 0 ≤ startDate) : isControl (hourChar startDate) = true := by
  have hlt := (hourChar_hour h).2
  have hcontrol : (hourChar startDate).toNat < 32 := by omega
  rw [isControl, decide_eq_true hcontrol]
  rfl

theorem hourChar_mem : hourChar startDate ∈ (usageName processName startDate).toList := by
  rw [usageName_toList]
  simp

/-- The hour is not written in decimal. -/
theorem usageName_ne_decimal (h : 0 ≤ startDate) :
    usageName processName startDate ≠
      processName ++ "-" ++ toString (hourOf startDate) ++ ".json" := by
  intro heq
  obtain ⟨hhour, hlt⟩ := hourChar_hour h
  have htext : (toString (hourOf startDate)).toList =
      Nat.toDigits 10 (hourChar startDate).toNat := by
    rw [← hhour, show toString ((hourChar startDate).toNat : Int) =
      (hourChar startDate).toNat.repr from rfl, Nat.toList_repr]
  rw [usageName, String.append_left_inj, String.append_right_inj] at heq
  have hsingle := congrArg String.toList heq
  rw [htext, String.toList_singleton] at hsingle
  have hdigit : (hourChar startDate).isDigit = true :=
    Nat.isDigit_of_mem_toDigits (by norm_num) (by norm_num) (hsingle ▸ List.mem_cons_self)
  rw [Char.isDigit, Bool.and_eq_true, decide_eq_true_eq] at hdigit
  have hlow : 48 ≤ (hourChar startDate).toNat := hdigit.1
  omega

/-- The name that is opened: at midnight it ends with the dash. -/
theorem openedName_eq (hname : PlainName processName) (h : 0 ≤ startDate) :
    (openedName (usageName processName startDate)).toList = processName.toList ++ '-' ::
      if hourOf startDate = 0 then [] else hourChar startDate :: ['.', 'j', 's', 'o', 'n'] := by
  obtain ⟨hhour, -⟩ := hourChar_hour h
  have hkept : ∀ c ∈ processName.toList, decide (c ≠ Char.ofNat 0) = true := by
    intro c hc
    refine decide_eq_true ?_
    rintro rfl
    exact absurd (hname _ hc).2 (by decide)
  have hdash : decide ('-' ≠ Char.ofNat 0) = true := rfl
  rw [openedName, String.toList_ofList, usageName_toList,
    List.takeWhile_append_of_pos hkept, List.takeWhile_cons, if_pos hdash]
  congr 2
  split
  · next hzero =>
      have hnul : hourChar startDate = Char.ofNat 0 := by
        rw [← Char.ofNat_toNat (hourChar startDate)]
        congr 1
        omega
      rw [hnul]
      rfl
  · next hzero =>
      have hnul : decide (hourChar startDate ≠ Char.ofNat 0) = true := by
        refine decide_eq_true ?_
        intro hnul
        rw [hnul] at hhour
        exact hzero hhour.symm
      rw [List.takeWhile_cons, if_pos hnul]
      rfl

/-- **Two messages of plain names share a file exactly if they have the same
name and the same hour.** -/
theorem openedName_inj (hname : PlainName processName) (hname' : PlainName processName')
    (h : 0 ≤ startDate) (h' : 0 ≤ startDate') :
    openedName (usageName processName startDate) =
        openedName (usageName processName' startDate') ↔
      processName = processName' ∧ hourOf startDate = hourOf startDate' := by
  have hchar : hourOf startDate = hourOf startDate' ↔ hourChar startDate = hourChar startDate' := by
    rw [← (hourChar_hour h).1, ← (hourChar_hour h').1, Int.ofNat_inj]
    exact Char.toNat_inj
  rw [← String.toList_inj, openedName_eq hname h, openedName_eq hname' h']
  constructor
  · intro heq
    by_cases hzero : hourOf startDate = 0 <;> by_cases hzero' : hourOf startDate' = 0
    · rw [if_pos hzero, if_pos hzero'] at heq
      exact ⟨String.toList_inj.mp (List.append_inj' heq rfl).1, hzero.trans hzero'.symm⟩
    · rw [if_pos hzero, if_neg hzero'] at heq
      have hlast := congrArg List.getLast? heq
      simp at hlast
    · rw [if_neg hzero, if_pos hzero'] at heq
      have hlast := congrArg List.getLast? heq
      simp at hlast
    · rw [if_neg hzero, if_neg hzero'] at heq
      obtain ⟨hnames, htail⟩ := List.append_inj' heq rfl
      exact ⟨String.toList_inj.mp hnames, hchar.mpr (List.cons.inj (List.cons.inj htail).2).1⟩
  · rintro ⟨rfl, hhour⟩
    rw [hhour, hchar.mp hhour]

end Hour

/-- **The name of a file is never the expected one.** -/
theorem usageNamed_never (processName : String) {startDate : Int} (h : 0 ≤ startDate) :
    ¬ UsageNamed processName startDate := by
  intro hnamed
  exact usageName_ne_decimal h hnamed.name

/-- That of a morning is not. -/
theorem usageNamed_morning : ¬ UsageNamed "ipload" 1700000000 :=
  usageNamed_never "ipload" (by decide)

/-- At midnight what is opened has no `.json` at its end. -/
theorem usageNamed_midnight :
    PlainName "ipload" ∧ (openedName (usageName "ipload" 0)).toList = "ipload-".toList ∧
      ¬ UsageNamed "ipload" 0 := by
  have hplain : PlainName "ipload" := by
    intro c hc
    simp only [show "ipload".toList = ['i', 'p', 'l', 'o', 'a', 'd'] from rfl, List.mem_cons,
      List.not_mem_nil, or_false] at hc
    rcases hc with rfl | rfl | rfl | rfl | rfl | rfl <;> exact ⟨by decide, by decide⟩
  refine ⟨hplain, openedName_eq hplain le_rfl, ?_⟩
  intro h
  exact absurd (h.plain _ hourChar_mem) (by rw [hourChar_control le_rfl]; decide)

end Sitter
