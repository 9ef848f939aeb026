/-
# `Sitter.Certificate` — the certificate plugin, and what it says of expiry

Each file `NN-<anything>.conf` of a directory names a domain.  A pass loads the
certificate of each and compares the days that are left with the delays of
`certificate_warning_delays`, a list of `<delay>/<priority>`:

    no day is left              an error of priority 100
    else                        an error with the priority of the smallest
                                delay that is not below the days left
    every delay is smaller      nothing
    it could not be loaded      `f_access_error` decides: see
                                `Sitter.CertificateAccess`

The files are selected by the pattern `[0-9]0-9]-*.conf`, where a `[` is
missing: it wants a digit and then the text `0-9]-`.  What the plugin does for
the files it selects is right, so it is right for all of them exactly when the
others have nothing to report (`certificateExpiry_iff`).
-/
import Sitter.Base.Glob
import Sitter.Base.LastWrite
import Sitter.RunPlugins

namespace Sitter

open Machine LastWrite

/-! ## The data -/

/-- `snapdev::timespec_ex` -/
structure Timespec where
  sec : Int
  nsec : Int
  deriving DecidableEq, Repr

/-- `operator bool` -/
def Timespec.isSet (t : Timespec) : Bool := t.sec ≠ 0 || t.nsec ≠ 0

/-- A file in the directory of the certificates. -/
structure CertificateFile where
  name : String
  config : ConfFile

/-- What a pass finds: the options, the clock, the directories with their files
in the order of their names, and the certificates, `none` for one that cannot
be loaded and else its date. -/
structure CertificatePass where
  server : Server
  now : Int
  directory : String → List CertificateFile
  load : String → Option Timespec
  isTime : IsTime now

/-- `f_access_error`: when a domain was last reported as not accessible. -/
abbrev AccessErrors := String → Option Int

/-! ## The delays -/

/-- One `<delay>/<priority>`, if it is valid. -/
def readDelay (lib : Advgetopt) (warning : String) : Option (Int × Int) :=
  match lib.splitString warning ["/"] with
  | [delayText, priorityText] =>
      match lib.integer delayText with
      | none => none
      | some delay =>
          -- allow up to 10 years
          if delay ≤ 0 ∨ delay > 366 * 10 then none
          else
            match lib.integer priorityText with
            | none => none
            | some priority =>
                if priority < 0 ∨ priority > 100 then none else some (delay, priority)
  | _ => none

def warningDelays (lib : Advgetopt) (s : Server) : List String :=
  lib.splitString (s.getServerParameter "certificate_warning_delays") [","]

def defaultDelays : List (Int × Int) := [(7, 100), (14, 85), (30, 45)]

/-- `parse_delays` -/
def parseDelays (lib : Advgetopt) (s : Server) : Std.TreeMap Int Int :=
  let delays : Std.TreeMap Int Int :=
    (warningDelays lib s).foldl (fun delays warning =>
      match readDelay lib warning with
      | none => delays
      | some d => delays.insert d.1 d.2) ∅
  -- if all were invalid or there were none, the defaults
  if delays.isEmpty then defaultDelays.foldl (fun delays d => delays.insert d.1 d.2) delays
  else delays

/-! ## The pass -/

def certificateError (message : String) (priority : Int) : PluginAction :=
  .appendError passNode "certificate" message priority

section Messages

variable (dateText : Timespec → String) (domain : String) (notAfter : Timespec)

def expiredMessage : String :=
  "Certificate for domain \"" ++ domain ++ "\" has expired on " ++ dateText notAfter ++ "."

def expiresMessage (diff : Int) : String :=
  "Certificate for domain \"" ++ domain ++ "\" will expire on " ++ dateText notAfter ++ " (in "
    ++ toString diff ++ " day" ++ (if diff ≠ 1 then "s" else "") ++ ")."

def noDateMessage : String :=
  "Failed getting the certificate notAfter date for domain \"" ++ domain ++ "\"."

def failedLoadingMessage : String := "Failed loading certificate of domain \"" ++ domain ++ "\"."

/-- A certificate that could be loaded. -/
def checkExpiry (delays : Std.TreeMap Int Int) (today : Int) : List PluginAction :=
  if notAfter.isSet then
    let notAfterDay := notAfter.sec.tdiv 86400
    let diff := notAfterDay - today
    if diff ≤ 0 then [certificateError (expiredMessage dateText domain notAfter) 100]
    else
      match delays.toList.find? fun d => diff ≤ d.1 with
      | none => []
      | some d => [certificateError (expiresMessage dateText domain notAfter diff) d.2]
  else [certificateError (noDateMessage domain) 90]

end Messages

/-- `report_error`: 1 for a first failure, 2 for one that lasts, 0 for one that
was reported already. -/
def reportAccess (last : Option Int) (now : Int) : Int :=
  match last with
  | none => 1
  | some t => if int64 (now - t) > 3600 * 5 then 2 else 0

/-- A certificate that could not be loaded. -/
def checkAccess (errors : AccessErrors) (now : Int) (domain : String) :
    AccessErrors × List PluginAction :=
  let report := reportAccess (errors domain) now
  if report > 0 then
    (Function.update errors domain (some now),
      [certificateError (failedLoadingMessage domain) (if report > 1 then 100 else 75)])
  else (errors, [])

/-- The body of the loop over the files. -/
def checkFile (dateText : Timespec → String) (delays : Std.TreeMap Int Int) (p : CertificatePass)
    (errors : AccessErrors) (f : CertificateFile) : AccessErrors × List PluginAction :=
  match f.config "domain" with
  | none => (errors, [])
  | some domain =>
      let e : PluginAction := .set [.name "certificate", .name "domain"] (.text domain)
      match p.load domain with
      | some notAfter =>
          (errors, e :: checkExpiry dateText domain notAfter delays (p.now.tdiv 86400))
      | none =>
          let r := checkAccess errors p.now domain
          (r.1, e :: r.2)

def checkFiles (dateText : Timespec → String) (delays : Std.TreeMap Int Int)
    (p : CertificatePass) : AccessErrors → List CertificateFile →
      AccessErrors × List PluginAction
  | errors, [] => (errors, [])
  | errors, f :: files =>
      let r := checkFile dateText delays p errors f
      let rest := checkFiles dateText delays p r.1 files
      (rest.1, r.2 ++ rest.2)

def certificatePath (s : Server) : String :=
  let path := s.getServerParameter "certificate_path"
  if path = "" then "/etc/sitter/certificates" else path

/-- The pattern of the files, below the path. -/
def certificatePattern : String := "[0-9]0-9]-*.conf"

namespace CertificatePass

/-- The files of the certificate path. -/
def files (p : CertificatePass) : List CertificateFile := p.directory (certificatePath p.server)

/-- What `glob` gives of them. -/
def selected (p : CertificatePass) : List CertificateFile :=
  p.files.filter fun f => Glob.nameMatches certificatePattern f.name

end CertificatePass

/-- `on_process_watch` -/
def onProcessWatchCertificate (lib : Advgetopt) (dateText : Timespec → String) :
    Step AccessErrors CertificatePass (List PluginAction) := fun errors p =>
  checkFiles dateText (parseDelays lib p.server) p errors p.selected

/-! ## What is expected

Which error is due for a certificate is said with the days that are left and
the list of delays, not with the scan over the map.  The scan goes through the
map in the order of its keys and stops at the first delay that is not below the
days. -/

/-- `NN-<anything>.conf` -/
def isNumberedConf (name : String) : Bool :=
  match name.toList with
  | a :: b :: '-' :: rest => a.isDigit && b.isDigit && ".conf".toList.isSuffixOf rest
  | _ => false

def configuredDelays (lib : Advgetopt) (s : Server) : List (Int × Int) :=
  let delays := (warningDelays lib s).filterMap (readDelay lib)
  if delays = [] then defaultDelays else delays

/-- The difference of the UTC day numbers. -/
def daysLeft (now : Int) (notAfter : Timespec) : Int := notAfter.sec / 86400 - now / 86400

/-- The priority of an error about so many days: the one of the smallest
configured delay that is not below them. -/
def expiryPriority (delays : List (Int × Int)) (left : Int) : Option Int :=
  if left ≤ 0 then some 100
  else ((delays.map Prod.fst).filter fun delay => left ≤ delay).min?.bind (lastWrite delays)

namespace CertificateFile

variable (lib : Advgetopt) (dateText : Timespec → String) (p : CertificatePass)

/-- The file declares a domain whose certificate loads with a date. -/
def Loads (f : CertificateFile) : Prop :=
  ∃ domain notAfter, f.config "domain" = some domain ∧ p.load domain = some notAfter ∧
    notAfter.isSet = true

def expiryError (f : CertificateFile) : Option PluginAction :=
  (f.config "domain").bind fun domain => (p.load domain).bind fun notAfter =>
    let left := daysLeft p.now notAfter
    let message := if left ≤ 0 then expiredMessage dateText domain notAfter
      else expiresMessage dateText domain notAfter left
    (expiryPriority (configuredDelays lib p.server) left).map (certificateError message)

/-- Every configured delay is smaller than the days that are left. -/
def FarFromExpiry (f : CertificateFile) : Prop :=
  ∀ domain notAfter, f.config "domain" = some domain → p.load domain = some notAfter →
    0 < daysLeft p.now notAfter ∧
      ∀ d ∈ configuredDelays lib p.server, d.1 < daysLeft p.now notAfter

end CertificateFile

/-! ## The delays and the scan -/

section Delays

variable {lib : Advgetopt} {s : Server}

theorem parseDelays_eq :
    parseDelays lib s =
      if (((warningDelays lib s).filterMap (readDelay lib)).foldl
          (fun delays d => delays.insert d.1 d.2) (∅ : Std.TreeMap Int Int)).isEmpty then
        defaultDelays.foldl (fun delays d => delays.insert d.1 d.2)
          (((warningDelays lib s).filterMap (readDelay lib)).foldl
            (fun delays d => delays.insert d.1 d.2) ∅)
      else ((warningDelays lib s).filterMap (readDelay lib)).foldl
        (fun delays d => delays.insert d.1 d.2) ∅ := by
  have hfold : ∀ warnings : List String,
      warnings.foldl (fun delays warning =>
        match readDelay lib warning with
        | none => delays
        | some d => delays.insert d.1 d.2) (∅ : Std.TreeMap Int Int) =
      (warnings.filterMap (readDelay lib)).foldl (fun delays d => delays.insert d.1 d.2) ∅ := by
    intro warnings
    rw [List.foldl_filterMap]
    congr 1
    funext delays warning
    cases readDelay lib warning <;> rfl
  simp only [parseDelays, hfold]

/-- **The map has the configured delays**, the last one of those that are
equal. -/
theorem parseDelays_getElem? (d : Int) :
    (parseDelays lib s)[d]? = lastWrite (configuredDelays lib s) d := by
  rw [parseDelays_eq, configuredDelays]
  cases hread : (warningDelays lib s).filterMap (readDelay lib) with
  | nil =>
      simp only [List.foldl_nil, Std.TreeMap.isEmpty_emptyc, if_true, foldl_insert]
      simp
  | cons d' delays =>
      have hmem : (((d' :: delays).foldl (fun m d => m.insert d.1 d.2)
          (∅ : Std.TreeMap Int Int))[d'.1]?).isSome := by
        rw [foldl_insert]
        have hsome := lastWrite_isSome.mpr ⟨d'.2, List.mem_cons_self (a := d') (l := delays)⟩
        simp [hsome]
      have hnot : ((d' :: delays).foldl (fun m d => m.insert d.1 d.2)
          (∅ : Std.TreeMap Int Int)).isEmpty = false :=
        Std.TreeMap.isEmpty_eq_false_iff_exists_mem.mpr
          ⟨_, Std.TreeMap.mem_iff_isSome_getElem?.mpr hmem⟩
      simp only [hnot, Bool.false_eq_true, if_false, foldl_insert, reduceCtorEq]
      simp

/-- **The scan stops at the smallest delay that is not below the days.** -/
theorem scan_eq (left : Int) :
    ((parseDelays lib s).toList.find? fun d => left ≤ d.1).map Prod.snd =
      (((configuredDelays lib s).map Prod.fst).filter fun delay => left ≤ delay).min?.bind
        (lastWrite (configuredDelays lib s)) := by
  have hentry : ∀ d priority, (d, priority) ∈ (parseDelays lib s).toList ↔
      lastWrite (configuredDelays lib s) d = some priority := by
    intro d priority
    rw [Std.TreeMap.mem_toList_iff_getElem?_eq_some, parseDelays_getElem?]
  have hkey : ∀ d, d ∈ (configuredDelays lib s).map Prod.fst ↔
      ∃ priority, (d, priority) ∈ (parseDelays lib s).toList := by
    intro d
    simp only [hentry, ← Option.isSome_iff_exists, lastWrite_isSome, List.mem_map,
      Prod.exists, exists_and_right, exists_eq_right]
  have hsorted : (parseDelays lib s).toList.Pairwise (·.1 < ·.1) := by
    refine Std.TreeMap.ordered_keys_toList.imp ?_
    intro x y h
    exact compare_lt_iff_lt.mp h
  cases hfind : (parseDelays lib s).toList.find? fun d => left ≤ d.1 with
  | none =>
      have hempty : ((configuredDelays lib s).map Prod.fst).filter (fun delay => left ≤ delay) =
          [] := by
        refine List.filter_eq_nil_iff.mpr ?_
        intro delay hdelay
        obtain ⟨priority, hmem⟩ := (hkey delay).mp hdelay
        exact List.find?_eq_none.mp hfind _ hmem
      rw [hempty]
      rfl
  | some x =>
      obtain ⟨hx, hbound, hleast⟩ := find?_least hsorted hfind
      have hmin : (((configuredDelays lib s).map Prod.fst).filter
          fun delay => left ≤ delay).min? = some x.1 := by
        refine List.min?_eq_some_iff.mpr ⟨?_, ?_⟩
        · exact List.mem_filter.mpr ⟨(hkey x.1).mpr ⟨x.2, hx⟩, by simpa using hbound⟩
        · intro delay hdelay
          obtain ⟨hconfigured, hreaches⟩ := List.mem_filter.mp hdelay
          obtain ⟨priority, hmem⟩ := (hkey delay).mp hconfigured
          exact hleast _ hmem (by simpa using hreaches)
      rw [hmin, Option.bind_some, (hentry x.1 x.2).mp hx]
      rfl

end Delays

/-! ## One file -/

section File

variable {lib : Advgetopt} {dateText : Timespec → String} {p : CertificatePass}

/-- The days of the program, which divides towards zero: they are the days
left while there are any. -/
theorem diff_days {now : Int} (hnow : 0 ≤ now) (notAfter : Timespec) :
    (notAfter.sec.tdiv 86400 - now.tdiv 86400 ≤ 0 ↔ daysLeft now notAfter ≤ 0) ∧
      (0 < daysLeft now notAfter →
        notAfter.sec.tdiv 86400 - now.tdiv 86400 = daysLeft now notAfter) := by
  have htoday : now.tdiv 86400 = now / 86400 := Int.tdiv_eq_ediv_of_nonneg hnow
  simp only [daysLeft, htoday]
  by_cases hsec : 0 ≤ notAfter.sec
  · rw [Int.tdiv_eq_ediv_of_nonneg hsec]
    exact ⟨Iff.rfl, fun _ => rfl⟩
  · -- a date before the epoch is in the past
    have htrunc : notAfter.sec.tdiv 86400 ≤ 0 := by
      have hsign : Int.sign 86400 = 1 := rfl
      rw [Int.tdiv_eq_ediv, hsign]
      omega
    omega

/-- **A certificate with a date is reported as is due.** -/
theorem checkExpiry_eq {domain : String} {notAfter : Timespec} (hset : notAfter.isSet = true) :
    checkExpiry dateText domain notAfter (parseDelays lib p.server) (p.now.tdiv 86400) =
      ((expiryPriority (configuredDelays lib p.server) (daysLeft p.now notAfter)).map
        (certificateError (if daysLeft p.now notAfter ≤ 0 then
          expiredMessage dateText domain notAfter
          else expiresMessage dateText domain notAfter (daysLeft p.now notAfter)))).toList := by
  obtain ⟨hpast, hfuture⟩ := diff_days p.isTime.1 notAfter
  simp only [checkExpiry, hset, if_true, hpast, expiryPriority]
  by_cases hleft : daysLeft p.now notAfter ≤ 0
  · simp only [if_pos hleft, Option.map_some, Option.toList_some]
  · simp only [if_neg hleft]
    rw [← scan_eq, hfuture (Int.not_le.mp hleft)]
    cases (parseDelays lib p.server).toList.find? fun d => daysLeft p.now notAfter ≤ d.1 <;> rfl

theorem checkFile_errors {f : CertificateFile} (hf : f.Loads p) (errors : AccessErrors) :
    (checkFile dateText (parseDelays lib p.server) p errors f).2.filter PluginAction.isError =
      (f.expiryError lib dateText p).toList := by
  obtain ⟨domain, notAfter, hdomain, hload, hset⟩ := hf
  simp only [checkFile, hdomain, hload, CertificateFile.expiryError, Option.bind_some,
    checkExpiry_eq hset]
  cases expiryPriority (configuredDelays lib p.server) (daysLeft p.now notAfter) <;> rfl

/-- **Files that load raise what is due, file by file.** -/
theorem checkFiles_errors {files : List CertificateFile} (hfiles : ∀ f ∈ files, f.Loads p)
    (errors : AccessErrors) :
    (checkFiles dateText (parseDelays lib p.server) p errors files).2.filter
      PluginAction.isError = files.filterMap (CertificateFile.expiryError lib dateText p) := by
  induction files generalizing errors with
  | nil => rfl
  | cons f files ih =>
      have hf := hfiles f List.mem_cons_self
      simp only [checkFiles, List.filter_append, checkFile_errors hf errors,
        List.filterMap_cons]
      rw [ih fun g hg => hfiles g (List.mem_cons_of_mem _ hg)]
      cases f.expiryError lib dateText p <;> rfl

end File

/-! ## The files the pattern selects

The pattern in the source is `[0-9]0-9]-*.conf`: the second class has lost its
bracket, and a file is selected only if the text `0-9]-` follows its first
digit. -/

theorem certificatePattern_items :
    Glob.items certificatePattern =
      [.oneOf [('0', '9')], .char '0', .char '-', .char '9', .char ']', .char '-', .many] ++
        ".conf".toList.map .char := by
  decide

/-- What the pattern matches is numbered: the second digit is a 0. -/
theorem numbered_of_selected {name : String}
    (h : Glob.nameMatches certificatePattern name = true) : isNumberedConf name = true := by
  rw [Glob.nameMatches, certificatePattern_items] at h
  simp only [List.cons_append, List.nil_append, Glob.accepts_oneOf, Glob.accepts_char,
    Glob.accepts_many, Glob.accepts_chars] at h
  obtain ⟨tens, _, hname, htens, _, rfl, _, rfl, _, rfl, _, rfl, _, rfl, anything, _, rfl, rfl⟩ := h
  have hdigit : tens.isDigit = true := by
    have hrange : '0' ≤ tens ∧ tens ≤ '9' := by simpa [Glob.inRanges] using htens
    simp only [Char.isDigit, ge_iff_le, Bool.and_eq_true, decide_eq_true_eq]
    exact hrange
  have hsuffix : ".conf".toList.isSuffixOf ('9' :: ']' :: '-' :: (anything ++ ".conf".toList)) =
      true := by
    rw [List.isSuffixOf_iff_suffix]
    exact ⟨'9' :: ']' :: '-' :: anything, rfl⟩
  rw [isNumberedConf, hname]
  simp only [hdigit, hsuffix, Bool.and_true, Bool.true_and]
  rfl

section Part

variable {α β : Type*} {g g' : α → Option β}

theorem filterMap_sublist {l : List α} (hpart : ∀ x ∈ l, g x = none ∨ g x = g' x) :
    (l.filterMap g).Sublist (l.filterMap g') := by
  induction l with
  | nil => exact List.Sublist.refl _
  | cons x l ih =>
      obtain ⟨hx, hl⟩ := List.forall_mem_cons.mp hpart
      rw [List.filterMap_cons, List.filterMap_cons]
      rcases hx with hx | hx
      · rw [hx]
        cases g' x with
        | none => exact ih hl
        | some v => exact (ih hl).cons v
      · rw [hx]
        cases g' x with
        | none => exact ih hl
        | some v => exact (ih hl).cons_cons v

theorem filterMap_eq_iff {l : List α} (hpart : ∀ x ∈ l, g x = none ∨ g x = g' x) :
    l.filterMap g = l.filterMap g' ↔ ∀ x ∈ l, g x = g' x := by
  refine ⟨?_, List.filterMap_congr⟩
  intro heq
  induction l with
  | nil => exact fun x hx => absurd hx List.not_mem_nil
  | cons x l ih =>
      obtain ⟨hx, hl⟩ := List.forall_mem_cons.mp hpart
      have hlength := (filterMap_sublist hl).length_le
      have hsame : g x = g' x := by
        rcases hx with hx | hx
        · cases hx' : g' x with
          | none => exact hx
          | some v =>
              rw [List.filterMap_cons_none hx, List.filterMap_cons_some hx'] at heq
              have hcons := congrArg List.length heq
              rw [List.length_cons] at hcons
              omega
        · exact hx
      refine List.forall_mem_cons.mpr ⟨hsame, ih hl ?_⟩
      rw [List.filterMap_cons, List.filterMap_cons, hsame] at heq
      cases hx' : g' x with
      | none => simpa only [hx'] using heq
      | some v => simpa only [hx', List.cons.injEq, true_and] using heq

end Part

/-! ## Every certificate that is about to expire

The errors of a pass are those that are due for the files it selects.  They are
those of all numbered files exactly if the files that are left out have no
error due. -/

section Expiry

variable {lib : Advgetopt} {dateText : Timespec → String} {p : CertificatePass}

theorem expiryPriority_none_iff {delays : List (Int × Int)} {left : Int} :
    expiryPriority delays left = none ↔ 0 < left ∧ ∀ d ∈ delays, d.1 < left := by
  simp only [expiryPriority]
  by_cases hleft : left ≤ 0
  · rw [if_pos hleft]
    exact iff_of_false (Option.some_ne_none _) fun h => absurd h.1 (Int.not_lt.mpr hleft)
  · rw [if_neg hleft]
    have hreach : ∀ d : Int × Int, d.1 < left ↔ ¬ left ≤ d.1 := fun d => Int.not_le.symm
    simp only [Int.not_le.mp hleft, true_and, hreach]
    cases hmin : ((delays.map Prod.fst).filter fun delay => left ≤ delay).min? with
    | none =>
        have hempty := List.filter_eq_nil_iff.mp (List.min?_eq_none_iff.mp hmin)
        refine iff_of_true rfl ?_
        intro d hd
        simpa using hempty d.1 (List.mem_map_of_mem hd)
    | some delay =>
        obtain ⟨hmem, hbound⟩ := List.mem_filter.mp (List.min?_mem hmin)
        obtain ⟨d, hd, rfl⟩ := List.mem_map.mp hmem
        have hsome := lastWrite_isSome.mpr ⟨d.2, hd⟩
        refine iff_of_false ?_ ?_
        · rw [Option.bind_some]
          exact Option.ne_none_iff_isSome.mpr hsome
        · intro hall
          exact hall d hd (by simpa using hbound)

/-- No error is due for a certificate that loads when the days that are left
exceed every delay. -/
theorem expiryError_none_iff {f : CertificateFile} (hf : f.Loads p) :
    f.expiryError lib dateText p = none ↔ f.FarFromExpiry lib p := by
  obtain ⟨domain, notAfter, hdomain, hload, -⟩ := hf
  simp only [CertificateFile.expiryError, CertificateFile.FarFromExpiry, hdomain, hload,
    Option.bind_some, Option.map_eq_none_iff, Option.some.injEq, expiryPriority_none_iff]
  constructor
  · rintro h _ date rfl hdate
    obtain rfl := Option.some.inj (hload.symm.trans hdate)
    exact h
  · intro h
    exact h domain notAfter rfl (hload ▸ rfl)

/-- **Every certificate that is about to expire is reported exactly when the
files the pattern does not match have nothing to report.** -/
theorem certificateExpiry_iff (lib : Advgetopt) (dateText : Timespec → String)
    (errors : AccessErrors) (p : CertificatePass)
    (hfiles : ∀ f ∈ p.files, isNumberedConf f.name = true → f.Loads p) :
    (onProcessWatchCertificate lib dateText errors p).2.filter PluginAction.isError =
        (p.files.filter fun f => isNumberedConf f.name).filterMap
          (CertificateFile.expiryError lib dateText p) ↔
      ∀ f ∈ p.files, isNumberedConf f.name = true →
        Glob.nameMatches certificatePattern f.name = true ∨ f.FarFromExpiry lib p := by
  have hselected : ∀ f ∈ p.selected, f.Loads p := by
    intro f hf
    obtain ⟨hmem, hmatch⟩ := List.mem_filter.mp hf
    exact hfiles f hmem (numbered_of_selected hmatch)
  rw [onProcessWatchCertificate, checkFiles_errors hselected, CertificatePass.selected,
    List.filterMap_filter, List.filterMap_filter, filterMap_eq_iff]
  · refine forall₂_congr fun f hf => ?_
    cases hmatch : Glob.nameMatches certificatePattern f.name with
    | true => simp [numbered_of_selected hmatch]
    | false =>
        cases hname : isNumberedConf f.name with
        | false => simp
        | true =>
            have hfar : f.expiryError lib dateText p = none ↔ f.FarFromExpiry lib p :=
              expiryError_none_iff (hfiles f hf hname)
            simpa [eq_comm] using hfar
  · intro f _
    cases hmatch : Glob.nameMatches certificatePattern f.name with
    | true => simp [numbered_of_selected hmatch]
    | false => simp

end Expiry

/-- One certificate, which expires on a day, looked at on day 100. -/
def certificatePass (name : String) (day : Int) : CertificatePass where
  server := Server.create Options.unset
  now := 86400 * 100
  directory _ := [⟨name, fun n => if n = "domain" then some "example.com" else none⟩]
  load _ := some ⟨86400 * day, 0⟩
  isTime := ⟨by norm_num, by norm_num⟩

theorem certificatePass_loads (name : String) (day : Int) (hday : day ≠ 0) :
    ∀ f ∈ (certificatePass name day).files, f.Loads (certificatePass name day) := by
  intro f hf
  obtain rfl := List.mem_singleton.mp hf
  refine ⟨"example.com", _, rfl, rfl, ?_⟩
  simp [Timespec.isSet, hday]

/-- A certificate that is good for 400 days. -/
theorem certificateExpiry_400_days :
    (onProcessWatchCertificate .decimal (fun _ => "") (fun _ => none)
        (certificatePass "10-example.conf" 500)).2.filter PluginAction.isError =
      ((certificatePass "10-example.conf" 500).files.filter
        fun f => isNumberedConf f.name).filterMap
          (CertificateFile.expiryError .decimal (fun _ => "")
            (certificatePass "10-example.conf" 500)) := by
  have hloads := certificatePass_loads "10-example.conf" 500 (by decide)
  refine (certificateExpiry_iff .decimal (fun _ => "") (fun _ => none) _
    fun f hf _ => hloads f hf).mpr ?_
  intro f hf _
  obtain rfl := List.mem_singleton.mp hf
  refine Or.inr ?_
  rintro _ _ hdomain hdate
  cases hdate
  decide

/-- One that expires in 5 days is not even looked at. -/
theorem certificateExpiry_5_days :
    (∀ f ∈ (certificatePass "10-example.conf" 105).files, isNumberedConf f.name = true ∧
      f.Loads (certificatePass "10-example.conf" 105)) ∧
    (onProcessWatchCertificate .decimal (fun _ => "") (fun _ => none)
        (certificatePass "10-example.conf" 105)).2.filter PluginAction.isError ≠
      ((certificatePass "10-example.conf" 105).files.filter
        fun f => isNumberedConf f.name).filterMap
          (CertificateFile.expiryError .decimal (fun _ => "")
            (certificatePass "10-example.conf" 105)) := by
  constructor
  · intro f hf
    have hloads := certificatePass_loads "10-example.conf" 105 (by decide) f hf
    obtain rfl := List.mem_singleton.mp hf
    exact ⟨by decide, hloads⟩
  · intro h
    exact absurd (congrArg List.length h) (by decide)

end Sitter
