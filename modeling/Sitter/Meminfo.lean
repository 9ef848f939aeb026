/-
# `Sitter.Meminfo` — what is read of `/proc/meminfo`

A line of this file is a name, a value and perhaps a unit:

    MemTotal:       16315480 kB
    HugePages_Total:       0

The name is looked up in a table, in lower case, and its value goes to one of
the 46 members of the result, times 1000 if the unit is kB.  Lines of other
names, and lines without a value, are skipped.

`getline` reads a line into a buffer, so a line ends at its first NUL, and the
tokens of what is left are looked at.  For a text whose lines are as they should
be, each known name at most once, the result has the value of each line and 0
for what has no line, whatever the order of the lines is
(`getMeminfo_lines`).

A character here is a byte of the file.
-/
import Sitter.Base.Lines
import Sitter.Base.LastWrite
import Sitter.Platform
import Mathlib.Data.List.Nodup

namespace Sitter

open LastWrite Pieces

/-! ## The data -/

/-- The members of `meminfo_t`. -/
inductive MemField where
  | memTotal | memFree | memAvailable | buffers | cached | swapCached | active | inactive
  | activeAnon | inactiveAnon | activeFile | inactiveFile | unevictable | mlocked | swapTotal
  | swapFree | dirty | writeback | anonPages | mapped | shmem | slab | sreclaimable | sunreclaim
  | kernelStack | pageTables | nfsUnstable | bounce | writebackTmp | commitLimit | committedAs
  | vmallocTotal | vmallocUsed | vmallocChunk | hardwareCorrupted | anonHugePages | cmaTotal
  | cmaFree | hugePagesTotal | hugePagesFree | hugePagesRsvd | hugePagesSurp | hugePageSize
  | directMap4k | directMap2m | directMap1g
  deriving DecidableEq, Repr

/-- The name the kernel writes before the value of a member. -/
def MemField.kernelName : MemField → String
  | .memTotal => "MemTotal"
  | .memFree => "MemFree"
  | .memAvailable => "MemAvailable"
  | .buffers => "Buffers"
  | .cached => "Cached"
  | .swapCached => "SwapCached"
  | .active => "Active"
  | .inactive => "Inactive"
  | .activeAnon => "Active(anon)"
  | .inactiveAnon => "Inactive(anon)"
  | .activeFile => "Active(file)"
  | .inactiveFile => "Inactive(file)"
  | .unevictable => "Unevictable"
  | .mlocked => "Mlocked"
  | .swapTotal => "SwapTotal"
  | .swapFree => "SwapFree"
  | .dirty => "Dirty"
  | .writeback => "Writeback"
  | .anonPages => "AnonPages"
  | .mapped => "Mapped"
  | .shmem => "Shmem"
  | .slab => "Slab"
  | .sreclaimable => "SReclaimable"
  | .sunreclaim => "SUnreclaim"
  | .kernelStack => "KernelStack"
  | .pageTables => "PageTables"
  | .nfsUnstable => "NFS_Unstable"
  | .bounce => "Bounce"
  | .writebackTmp => "WritebackTmp"
  | .commitLimit => "CommitLimit"
  | .committedAs => "Committed_AS"
  | .vmallocTotal => "VmallocTotal"
  | .vmallocUsed => "VmallocUsed"
  | .vmallocChunk => "VmallocChunk"
  | .hardwareCorrupted => "HardwareCorrupted"
  | .anonHugePages => "AnonHugePages"
  | .cmaTotal => "CmaTotal"
  | .cmaFree => "CmaFree"
  | .hugePagesTotal => "HugePages_Total"
  | .hugePagesFree => "HugePages_Free"
  | .hugePagesRsvd => "HugePages_Rsvd"
  | .hugePagesSurp => "HugePages_Surp"
  | .hugePageSize => "Hugepagesize"
  | .directMap4k => "DirectMap4k"
  | .directMap2m => "DirectMap2M"
  | .directMap1g => "DirectMap1G"

/-- `meminfo_t`: each member is a `uint64_t`. -/
abbrev Meminfo := MemField → Int

namespace Meminfo

/-- A `meminfo_t` that was just initialized. -/
def initial : Meminfo := fun _ => 0

def isValid (info : Meminfo) : Bool := info .memTotal ≠ 0

end Meminfo

/-- `name_to_offset` -/
def nameToOffset : List (String × MemField) :=
  [("memtotal", .memTotal), ("memfree", .memFree), ("memavailable", .memAvailable),
    ("buffers", .buffers), ("cached", .cached), ("swapcached", .swapCached), ("active", .active),
    ("inactive", .inactive), ("active(anon)", .activeAnon), ("inactive(anon)", .inactiveAnon),
    ("active(file)", .activeFile), ("inactive(file)", .inactiveFile),
    ("unevictable", .unevictable), ("mlocked", .mlocked), ("swaptotal", .swapTotal),
    ("swapfree", .swapFree), ("dirty", .dirty), ("writeback", .writeback),
    ("anonpages", .anonPages), ("mapped", .mapped), ("shmem", .shmem), ("slab", .slab),
    ("sreclaimable", .sreclaimable), ("sunreclaim", .sunreclaim), ("kernelstack", .kernelStack),
    ("pagetables", .pageTables), ("nfs_unstable", .nfsUnstable), ("bounce", .bounce),
    ("writebacktmp", .writebackTmp), ("commitlimit", .commitLimit),
    ("committed_as", .committedAs), ("vmalloctotal", .vmallocTotal),
    ("vmallocused", .vmallocUsed), ("vmallocchunk", .vmallocChunk),
    ("hardwarecorrupted", .hardwareCorrupted), ("anonhugepages", .anonHugePages),
    ("cmatotal", .cmaTotal), ("cmafree", .cmaFree), ("hugepages_total", .hugePagesTotal),
    ("hugepages_free", .hugePagesFree), ("hugepages_rsvd", .hugePagesRsvd),
    ("hugepages_surp", .hugePagesSurp), ("hugepagesize", .hugePageSize),
    ("directmap4k", .directMap4k), ("directmap2m", .directMap2m), ("directmap1g", .directMap1g)]

/-- What can be read of the file, and whether an error comes after it. -/
structure MeminfoFile where
  contents : List Char
  broken : Bool

/-! ## The C and C++ library -/

/-- `std::string(buf)` -/
def cString (buf : List Char) : List Char := buf.takeWhile (· ≠ nul)

def tolower (text : String) : String := String.ofList (text.toList.map Char.toLower)

/-- What `std::stoll` throws. -/
inductive StollError where
  | invalidArgument
  | outOfRange
  deriving DecidableEq, Repr

/-- The digits `std::stoll` reads, after a sign; it ignores what follows
them. -/
def stollDigits (negative : Bool) (text : List Char) : Except StollError Int :=
  let digits := text.takeWhile Char.isDigit
  if digits = [] then .error .invalidArgument
  else
    let n : Int := Nat.ofDigitChars 10 digits 0
    let value := if negative then -n else n
    if -2 ^ 63 ≤ value ∧ value < 2 ^ 63 then .ok value else .error .outOfRange

/-- `std::stoll` -/
def stoll (text : String) : Except StollError Int :=
  match text.toList.dropWhile isspace with
  | '-' :: rest => stollDigits true rest
  | '+' :: rest => stollDigits false rest
  | rest => stollDigits false rest

/-- `snapdev::tokenize_string`: a text, the delimiters, whether empty tokens
are dropped, and what is trimmed from the ends of each. -/
abbrev TokenizeString := String → String → Bool → String → List String

/-! ## The function -/

/-- The body of the loop, after a line was read. -/
def readMeminfoLine (tokenize : TokenizeString) (info : Meminfo) (buf : List Char) :
    Except StollError Meminfo :=
  match tokenize (String.ofList (cString buf)) " \t" true ":" with
  | name :: value :: unit =>
      match nameToOffset.lookup (tolower name) with
      | some o => do
          let n ← stoll value
          let info := Function.update info o (uint64 n)
          if unit.head? = some "kB" then .ok (Function.update info o (uint64 (info o * 1000)))
          else .ok info
      | none => .ok info
  | _ => .ok info

/-- `get_meminfo`; `none` is a file that cannot be opened.  The buffer has 256
characters, and an error other than the end of the file returns a structure
that was just initialized. -/
def getMeminfo (tokenize : TokenizeString) (file : Option MeminfoFile) :
    Except StollError Meminfo :=
  match file with
  | none => .ok Meminfo.initial
  | some f =>
      Lines.readLines '\n' 256 f.broken Meminfo.initial (readMeminfoLine tokenize) Meminfo.initial
        f.contents

/-! ## What is expected

A text is given by its lines, in any order.  Each line is an entry, or its name
is not known, and no name is there twice. -/

def isBlankTab (c : Char) : Bool := c = ' ' || c = '\t'

/-- `tokenize_string` splits at spaces and tabs, strips `:` from the ends of
the tokens, and drops those that are empty. -/
def SplitsTokens (tokenize : TokenizeString) : Prop :=
  ∀ text, tokenize text " \t" true ":" =
    (tokens isBlankTab (· == ':') text.toList).map String.ofList

/-- The tokens of a line. -/
def lineTokens (line : List Char) : List String :=
  (tokens isBlankTab (· == ':') line).map String.ofList

/-- The name of the member, in any letter case. -/
def MemField.IsNamed (f : MemField) (name : String) : Prop := tolower name = tolower f.kernelName

/-- The line has the name of the member, and a value. -/
def LineNames (line : List Char) (f : MemField) : Prop :=
  ∃ name value unit, lineTokens line = name :: value :: unit ∧ f.IsNamed name

/-- A line of a known name, with a decimal value, and the unit kB or none. -/
def MeminfoEntry (line : List Char) (f : MemField) (n : Int) (kB : Bool) : Prop :=
  ∃ name number, lineTokens line = name :: number :: (if kB then ["kB"] else []) ∧
    f.IsNamed name ∧ decimalNumber number = some n ∧ n * 1000 < 2 ^ 63

/-- The lines are short; each is an entry, or its name is not known or without
a value; no name is there twice. -/
structure MeminfoText (text : List Char) : Prop where
  short : ∀ line ∈ Lines.lines '\n' text, line.length ≤ 255
  entries : ∀ line ∈ Lines.lines '\n' text,
    (∃ f n kB, MeminfoEntry line f n kB) ∨ ∀ f, ¬ LineNames line f
  once : (Lines.lines '\n' text).Pairwise fun line line' =>
    ∀ f, LineNames line f → ¬ LineNames line' f

/-- Each member has the value of its line, or 0. -/
structure MeminfoRead (text : List Char) (info : Meminfo) : Prop where
  given : ∀ line ∈ Lines.lines '\n' text, ∀ f n kB, MeminfoEntry line f n kB →
    info f = if kB then n * 1000 else n
  absent : ∀ f, (∀ line ∈ Lines.lines '\n' text, ∀ n kB, ¬ MeminfoEntry line f n kB) → info f = 0

/-! ## The table -/

section Table

/-- The table has each member under its name, in lower case. -/
theorem nameToOffset_lookup (f : MemField) :
    nameToOffset.lookup (tolower f.kernelName) = some f := by
  cases f <;> decide +kernel

theorem nameToOffset_named : ∀ e ∈ nameToOffset, e.1 = tolower e.2.kernelName := by
  decide +kernel

/-- No name of the table has the character that ends a C string. -/
theorem nameToOffset_nul : ∀ e ∈ nameToOffset, nul ∉ e.1.toList := by
  have hall : (nameToOffset.all fun e => !e.1.toList.contains nul) = true := by decide +kernel
  intro e he hmem
  have hnot := List.all_eq_true.mp hall e he
  rw [List.contains_iff_mem.mpr hmem] at hnot
  cases hnot

theorem mem_of_lookup {name : String} {f : MemField} (h : nameToOffset.lookup name = some f) :
    (name, f) ∈ nameToOffset := by
  obtain ⟨before, after, hsplit, -⟩ := List.lookup_eq_some_iff.mp h
  rw [hsplit]
  exact List.mem_append_right _ List.mem_cons_self

/-- **The table knows the names of the members, and no others**; no two members
share one. -/
theorem lookup_iff {name : String} {f : MemField} :
    nameToOffset.lookup (tolower name) = some f ↔ f.IsNamed name := by
  constructor
  · exact fun h => nameToOffset_named _ (mem_of_lookup h)
  · intro h
    rw [MemField.IsNamed] at h
    rw [h]
    exact nameToOffset_lookup f

end Table

/-! ## One line

A line of an entry writes its value to its member, and any other line writes
nothing. -/

/-- What a line writes: a member and its value. -/
def lineWrite (line : List Char) : Except StollError (Option (MemField × Int)) :=
  match lineTokens line with
  | name :: value :: unit =>
      match nameToOffset.lookup (tolower name) with
      | some o => (stoll value).map fun n =>
          some (o, if unit.head? = some "kB" then uint64 (uint64 n * 1000) else uint64 n)
      | none => .ok none
  | _ => .ok none

section Line

variable {tokenize : TokenizeString} {line : List Char} {f : MemField} {n : Int} {kB : Bool}

/-- **A line that is read makes its write.** -/
theorem readMeminfoLine_eq (htokens : SplitsTokens tokenize) (info : Meminfo) (buf : List Char) :
    readMeminfoLine tokenize info buf =
      (lineWrite (cString buf)).map fun w =>
        w.elim info fun w => Function.update info w.1 w.2 := by
  have hline : tokenize (String.ofList (cString buf)) " \t" true ":" =
      lineTokens (cString buf) := by
    rw [htokens, String.toList_ofList, lineTokens]
  rw [readMeminfoLine, hline, lineWrite]
  rcases lineTokens (cString buf) with _ | ⟨name, _ | ⟨value, unit⟩⟩
  · rfl
  · rfl
  · dsimp only
    cases nameToOffset.lookup (tolower name) with
    | none => rfl
    | some o =>
        dsimp only
        cases stoll value with
        | error e => rfl
        | ok n =>
            by_cases hunit : unit.head? = some "kB"
            · simp [hunit, Except.map, bind, Except.bind]
            · simp [hunit, Except.map, bind, Except.bind]

theorem stollDigits_all {negative : Bool} {digits : List Char} (hne : digits ≠ [])
    (hall : digits.all Char.isDigit = true) :
    stollDigits negative digits =
      let value : Int := if negative then -(Nat.ofDigitChars 10 digits 0 : Int)
        else (Nat.ofDigitChars 10 digits 0 : Int)
      if -2 ^ 63 ≤ value ∧ value < 2 ^ 63 then .ok value else .error .outOfRange := by
  have htake : digits.takeWhile Char.isDigit = digits :=
    List.takeWhile_eq_self_iff.mpr (List.all_eq_true.mp hall)
  rw [stollDigits, htake, if_neg hne]

theorem isDigit_cases {c : Char} (h : c.isDigit = true) :
    isspace c = false ∧ c ≠ '-' ∧ c ≠ '+' := by
  refine ⟨?_, ?_, ?_⟩
  · have hlow : 48 ≤ c.toNat := (Char.isDigit_iff_toNat.mp h).1
    refine decide_eq_false ?_
    rintro (rfl | ⟨-, hhigh⟩)
    · cases h
    · omega
  · rintro rfl
    cases h
  · rintro rfl
    cases h

theorem stoll_digit {text : String} (hne : text.toList ≠ [])
    (hall : text.toList.all Char.isDigit = true) :
    stoll text = stollDigits false text.toList := by
  obtain ⟨c, rest, htext⟩ := List.exists_cons_of_ne_nil hne
  rw [htext, List.all_cons, Bool.and_eq_true] at hall
  obtain ⟨hspace, hminus, hplus⟩ := isDigit_cases hall.1
  have hdrop : text.toList.dropWhile isspace = c :: rest := by
    rw [htext, List.dropWhile_cons_of_neg (Bool.eq_false_iff.mp hspace)]
  rw [stoll, hdrop, htext]
  split
  · next h => exact absurd (List.cons.inj h).1 hminus
  · next h => exact absurd (List.cons.inj h).1 hplus
  · rfl

theorem stoll_decimal {number : String} (h : decimalNumber number = some n) (hn : n < 2 ^ 63) :
    stoll number = .ok n := by
  rw [decimalNumber] at h
  split at h
  · next hdigits =>
      obtain rfl := Option.some.inj h
      rw [stoll_digit hdigits.1 hdigits.2, stollDigits_all hdigits.1 hdigits.2]
      dsimp only
      rw [if_neg Bool.false_ne_true, if_pos ⟨by omega, hn⟩]
  · cases h

theorem MeminfoEntry.cString_eq (h : MeminfoEntry line f n kB) : cString line = line := by
  obtain ⟨name, number, htokens, hname, hnumber, -⟩ := h
  rw [← lookup_iff] at hname
  refine List.takeWhile_eq_self_iff.mpr ?_
  intro c hc
  refine decide_eq_true ?_
  rintro rfl
  -- the NUL would be in one of the tokens
  obtain ⟨token, htoken, hmem⟩ := exists_token isBlankTab (· == ':') hc (by decide) (by decide)
  have htext : String.ofList token ∈ lineTokens line := List.mem_map_of_mem htoken
  have hnul : nul ∈ (String.ofList token).toList := by
    rw [String.toList_ofList]
    exact hmem
  rw [htokens] at htext
  rcases List.mem_cons.mp htext with hfirst | hrest
  · refine nameToOffset_nul _ (mem_of_lookup hname) ?_
    rw [tolower, String.toList_ofList, ← hfirst]
    exact List.mem_map.mpr ⟨nul, hnul, by decide⟩
  rcases List.mem_cons.mp hrest with hsecond | hunit
  · rw [hsecond] at hnul
    rw [decimalNumber] at hnumber
    split at hnumber
    · next hdigits => exact absurd (List.all_eq_true.mp hdigits.2 nul hnul) (by decide)
    · cases hnumber
  · cases kB with
    | false => exact absurd hunit List.not_mem_nil
    | true =>
        rw [List.mem_singleton.mp hunit] at hnul
        exact absurd hnul (by decide)

/-- **An entry writes its value.** -/
theorem MeminfoEntry.write (h : MeminfoEntry line f n kB) :
    lineWrite (cString line) = .ok (some (f, if kB then n * 1000 else n)) := by
  have hcut := h.cString_eq
  obtain ⟨name, number, htokens, hname, hnumber, hn⟩ := h
  have hnonneg : 0 ≤ n := by
    rw [decimalNumber] at hnumber
    split at hnumber
    · obtain rfl := Option.some.inj hnumber
      exact Int.natCast_nonneg _
    · cases hnumber
  rw [hcut, lineWrite, htokens]
  simp only [lookup_iff.mpr hname, stoll_decimal hnumber (by omega), Except.map,
    uint64_of_range hnonneg (by omega)]
  cases kB with
  | false => rfl
  | true => simp [uint64_of_range (x := n * 1000) (by omega) (by omega)]

/-- **Any other line writes nothing**, cut at a NUL as it may be. -/
theorem lineWrite_other (h : ∀ f, ¬ LineNames line f) :
    lineWrite (cString line) = .ok none := by
  have hsplit : cString line ++ line.dropWhile (· ≠ nul) = line := List.takeWhile_append_dropWhile
  have hcut := tokens_cut isBlankTab (· == ':') (cString line) (line.dropWhile (· ≠ nul))
  rw [hsplit] at hcut
  rw [lineWrite, lineTokens]
  rcases htokens : tokens isBlankTab (· == ':') (cString line) with _ | ⟨name, _ | ⟨value, unit⟩⟩
  · rfl
  · rfl
  rw [htokens] at hcut
  rcases hcut with hshort | ⟨hlong, hhead⟩
  · exact absurd hshort (by simp)
  -- the whole line has the same name and a value too
  rcases hwhole : tokens isBlankTab (· == ':') line with _ | ⟨name', _ | ⟨value', unit'⟩⟩
  · rw [hwhole] at hlong
    exact absurd hlong (by simp)
  · rw [hwhole] at hlong
    exact absurd hlong (by simp)
  rw [hwhole] at hhead
  obtain rfl := Option.some.inj hhead
  have hnamed : lineTokens line =
      String.ofList name' :: String.ofList value' :: unit'.map String.ofList := by
    rw [lineTokens, hwhole]
    rfl
  simp only [List.map_cons]
  cases hlookup : nameToOffset.lookup (tolower (String.ofList name')) with
  | none => rfl
  | some f => exact absurd ⟨_, _, _, hnamed, lookup_iff.mp hlookup⟩ (h f)

end Line

/-! ## The whole file

The writes of the lines go to different members, so their order does not
matter, and what the members hold is found by looking up the one write to each. -/

/-- The write of a line, if it makes one. -/
def lineGiven (line : List Char) : Option (MemField × Int) :=
  match lineWrite (cString line) with
  | .ok w => w
  | .error _ => none

section File

variable {tokenize : TokenizeString} {text line : List Char} {f : MemField} {n : Int} {kB : Bool}

theorem MeminfoEntry.lineGiven (h : MeminfoEntry line f n kB) :
    lineGiven line = some (f, if kB then n * 1000 else n) := by
  rw [Sitter.lineGiven, h.write]

theorem lineGiven_other (h : ∀ f, ¬ LineNames line f) : lineGiven line = none := by
  rw [lineGiven, lineWrite_other h]

theorem MeminfoEntry.names (h : MeminfoEntry line f n kB) : LineNames line f := by
  obtain ⟨name, number, htokens, hname, -⟩ := h
  exact ⟨name, number, _, htokens, hname⟩

/-- **The file is read up to the first failure**, and if there is one the result
is a structure that was just initialized. -/
theorem getMeminfo_eq (htokens : SplitsTokens tokenize) (broken : Bool) (text : List Char) :
    getMeminfo tokenize (some ⟨text, broken⟩) =
      ((Lines.readable '\n' 256 broken text).foldlM (fun info line =>
          (lineWrite (cString line)).map fun w =>
            w.elim info fun w => Function.update info w.1 w.2) Meminfo.initial).map fun info =>
        if Lines.unreadable '\n' 256 broken text then Meminfo.initial else info := by
  have hstep : readMeminfoLine tokenize = fun info line =>
      (lineWrite (cString line)).map fun w =>
        w.elim info fun w => Function.update info w.1 w.2 := by
    funext info line
    exact readMeminfoLine_eq htokens info line
  rw [getMeminfo, Lines.readLines_eq (by decide), hstep]

/-- What the lines of a text leave in each member. -/
theorem MeminfoText.lookup (h : MeminfoText text) (htokens : SplitsTokens tokenize) :
    getMeminfo tokenize (some ⟨text, false⟩) =
      .ok fun f => (lastWrite ((Lines.lines '\n' text).filterMap lineGiven) f).getD 0 := by
  have hgood : Lines.unreadable '\n' 256 false text = false := by
    rw [Lines.unreadable, Bool.false_or, List.any_eq_false]
    intro line hline hlong
    exact absurd (h.short line hline) (Nat.not_le_of_lt (of_decide_eq_true hlong))
  have hwrite : ∀ line ∈ Lines.lines '\n' text,
      lineWrite (cString line) = .ok (lineGiven line) := by
    intro line hline
    rcases h.entries line hline with ⟨f, n, kB, hentry⟩ | hother
    · rw [hentry.write, hentry.lineGiven]
    · rw [lineWrite_other hother, lineGiven_other hother]
  rw [getMeminfo_eq htokens, Lines.readable_eq_lines hgood, hgood, foldlM_update hwrite]
  rfl

/-- The lines of different names write to different members. -/
theorem MeminfoText.members (h : MeminfoText text) :
    (((Lines.lines '\n' text).filterMap lineGiven).map Prod.fst).Nodup := by
  have hgiven : ∀ line ∈ Lines.lines '\n' text, ∀ w, lineGiven line = some w →
      LineNames line w.1 := by
    intro line hline w hw
    rcases h.entries line hline with ⟨f, n, kB, hentry⟩ | hother
    · rw [hentry.lineGiven] at hw
      obtain rfl := Option.some.inj hw
      exact hentry.names
    · rw [lineGiven_other hother] at hw
      cases hw
  rw [List.Nodup, List.pairwise_map, List.pairwise_filterMap]
  refine h.once.imp_of_mem ?_
  intro line line' hline hline' honce w hw w' hw' hsame
  exact honce w.1 (hgiven line hline w hw) (hsame ▸ hgiven line' hline' w' hw')

/-- **The result has what the lines give.** -/
theorem MeminfoText.read (h : MeminfoText text) :
    MeminfoRead text fun f =>
      (lastWrite ((Lines.lines '\n' text).filterMap lineGiven) f).getD 0 := by
  constructor
  · intro line hline f n kB hentry
    have hwrite := lastWrite_of_nodup h.members
      (List.mem_filterMap.mpr ⟨line, hline, hentry.lineGiven⟩)
    rw [hwrite]
    rfl
  · intro f hnone
    cases hlast : lastWrite ((Lines.lines '\n' text).filterMap lineGiven) f with
    | none => rfl
    | some v =>
        obtain ⟨before, line, after, hlines, hgiven, -⟩ := lastWrite_filterMap.mp hlast
        have hline : line ∈ Lines.lines '\n' text := by
          rw [hlines]
          exact List.mem_append_right _ List.mem_cons_self
        rcases h.entries line hline with ⟨g, n, kB, hentry⟩ | hother
        · rw [hentry.lineGiven] at hgiven
          obtain ⟨rfl, -⟩ := Prod.mk.inj (Option.some.inj hgiven)
          exact absurd hentry (hnone line hline n kB)
        · rw [lineGiven_other hother] at hgiven
          cases hgiven

/-- What is read does not depend on the order of the lines. -/
theorem MeminfoRead.unique {text' : List Char} (hperm : (Lines.lines '\n' text').Perm
    (Lines.lines '\n' text)) {info info' : Meminfo} (h : MeminfoRead text info)
    (h' : MeminfoRead text' info') : info' = info := by
  funext f
  by_cases hsome : ∃ line ∈ Lines.lines '\n' text, ∃ n kB, MeminfoEntry line f n kB
  · obtain ⟨line, hline, n, kB, hentry⟩ := hsome
    rw [h.given line hline f n kB hentry, h'.given line (hperm.mem_iff.mpr hline) f n kB hentry]
  · have hnone : ∀ line ∈ Lines.lines '\n' text, ∀ n kB, ¬ MeminfoEntry line f n kB := by
      intro line hline n kB hentry
      exact hsome ⟨line, hline, n, kB, hentry⟩
    rw [h.absent f hnone, h'.absent f fun line hline => hnone line (hperm.subset hline)]

theorem MeminfoText.perm {text' : List Char} (hperm : (Lines.lines '\n' text').Perm
    (Lines.lines '\n' text)) (h : MeminfoText text) : MeminfoText text' where
  short line hline := h.short line (hperm.subset hline)
  entries line hline := h.entries line (hperm.subset hline)
  once := by
    refine (hperm.pairwise_iff ?_).mpr h.once
    intro line line' honce f hf' hf
    exact honce f hf hf'

end File

/-- **A file whose lines are as they should be is read: each member has the
value of its line or 0, in whatever order the lines are.** -/
theorem getMeminfo_lines (tokenize : TokenizeString) (htokens : SplitsTokens tokenize)
    (text : List Char) (h : MeminfoText text) :
    ∃ info, getMeminfo tokenize (some ⟨text, false⟩) = .ok info ∧ MeminfoRead text info ∧
      ∀ text', (Lines.lines '\n' text').Perm (Lines.lines '\n' text) →
        getMeminfo tokenize (some ⟨text', false⟩) = .ok info := by
  refine ⟨_, h.lookup htokens, h.read, ?_⟩
  intro text' hperm
  have h' := h.perm hperm
  rw [h'.lookup htokens, MeminfoRead.unique hperm h.read h'.read]

theorem lineTokens_padded {name number : List Char} (hname : Solid (· == ':') name)
    (hblanks : ∀ c ∈ name, isBlankTab c = false) (hne : number ≠ [])
    (hdigits : ∀ c ∈ number, c.isDigit = true) (padding : Nat) (kB : Bool) :
    lineTokens (name ++ [':'] ++ ' ' :: (List.replicate padding ' ' ++
        (number ++ if kB then ' ' :: ['k', 'B'] else []))) =
      String.ofList name :: String.ofList number :: if kB then ["kB"] else [] := by
  have hspace : isBlankTab ' ' = true := rfl
  have hfirst : tokens isBlankTab (· == ':') (name ++ [':']) = [name] := by
    have hall : ∀ c ∈ name ++ [':'], isBlankTab c = false :=
      List.forall_mem_append.mpr ⟨hblanks, List.forall_mem_singleton.mpr rfl⟩
    rw [tokens_single hall, trim_concat hname rfl, if_neg hname.nonempty]
  have hsecond : tokens isBlankTab (· == ':') number = [number] := by
    refine tokens_solid (solid_of_forall hne ?_) ?_
    · intro c hc
      refine beq_eq_false_iff_ne.mpr ?_
      rintro rfl
      exact absurd (hdigits ':' hc) (by decide)
    · intro c hc
      have hdigit := hdigits c hc
      rw [isBlankTab, Bool.or_eq_false_iff]
      refine ⟨decide_eq_false ?_, decide_eq_false ?_⟩
      · rintro rfl
        cases hdigit
      · rintro rfl
        cases hdigit
  have hrest : tokens isBlankTab (· == ':') (number ++ if kB then ' ' :: ['k', 'B'] else []) =
      number :: if kB then [['k', 'B']] else [] := by
    cases kB with
    | false =>
        rw [if_neg Bool.false_ne_true, if_neg Bool.false_ne_true, List.append_nil, hsecond]
    | true =>
        rw [if_pos rfl, if_pos rfl, tokens_append_sep _ hspace, hsecond]
        rfl
  rw [lineTokens, tokens_append_sep _ hspace, hfirst, tokens_replicate hspace, hrest]
  cases kB <;> rfl

/-- **What the kernel writes is an entry**: a name with a `:`, blanks, a number,
and the unit or none. -/
theorem meminfoEntry_padded {name number : List Char} {f : MemField} {n : Int}
    (hname : Solid (· == ':') name) (hblanks : ∀ c ∈ name, isBlankTab c = false)
    (hnamed : f.IsNamed (String.ofList name))
    (hnumber : decimalNumber (String.ofList number) = some n) (hn : n * 1000 < 2 ^ 63)
    (padding : Nat) (kB : Bool) :
    MeminfoEntry (name ++ [':'] ++ ' ' :: (List.replicate padding ' ' ++
      (number ++ if kB then ' ' :: ['k', 'B'] else []))) f n kB := by
  have hdigits : number ≠ [] ∧ ∀ c ∈ number, c.isDigit = true := by
    rw [decimalNumber, String.toList_ofList] at hnumber
    split at hnumber
    · next h => exact ⟨h.1, List.all_eq_true.mp h.2⟩
    · cases hnumber
  exact ⟨_, _, lineTokens_padded hname hblanks hdigits.1 hdigits.2 padding kB, hnamed, hnumber, hn⟩

/-! ## A small file -/

section Small

variable {line : List Char} {f : MemField}

/-- The member a line names, if it has a value. -/
def lineField (line : List Char) : Option MemField :=
  match lineTokens line with
  | name :: _ :: _ => nameToOffset.lookup (tolower name)
  | _ => none

theorem lineNames_iff : LineNames line f ↔ lineField line = some f := by
  rw [lineField]
  constructor
  · rintro ⟨name, value, unit, htokens, hnamed⟩
    rw [htokens]
    exact lookup_iff.mpr hnamed
  · intro h
    split at h
    · next name value unit htokens => exact ⟨name, value, unit, htokens, lookup_iff.mp h⟩
    · cases h

theorem once_of_nodup {lines : List (List Char)} (h : (lines.filterMap lineField).Nodup) :
    lines.Pairwise fun line line' => ∀ f, LineNames line f → ¬ LineNames line' f := by
  rw [List.Nodup, List.pairwise_filterMap] at h
  refine h.imp ?_
  intro line line' hne f hf hf'
  exact hne f (lineNames_iff.mp hf) f (lineNames_iff.mp hf') rfl

theorem no_names (h : lineField line = none) : ∀ f, ¬ LineNames line f := by
  intro f hf
  rw [lineNames_iff, h] at hf
  cases hf

/-- A tokenizer that does what is documented. -/
def tokenizeLine : TokenizeString := fun text _ _ _ => lineTokens text.toList

theorem tokenizeLine_splits : SplitsTokens tokenizeLine := fun _ => rfl

def smallMeminfo : List Char := "Shmem:  16 kB\nfoo\nNode 0: 5\nhugepages_TOTAL: 7".toList

theorem smallMeminfo_lines :
    Lines.lines '\n' smallMeminfo = ["Shmem:  16 kB".toList, "foo".toList, "Node 0: 5".toList,
      "hugepages_TOTAL: 7".toList] := by
  decide

theorem smallMeminfo_shmem : MeminfoEntry "Shmem:  16 kB".toList .shmem 16 true :=
  ⟨"Shmem", "16", by decide, rfl, by decide, by decide⟩

theorem smallMeminfo_hugePages : MeminfoEntry "hugepages_TOTAL: 7".toList .hugePagesTotal 7 false :=
  ⟨"hugepages_TOTAL", "7", by decide, lookup_iff.mp (by decide), by decide, by decide⟩

theorem smallMeminfo_text : MeminfoText smallMeminfo := by
  constructor
  · rw [smallMeminfo_lines]
    refine List.forall_mem_cons.mpr ⟨by decide, List.forall_mem_cons.mpr ⟨by decide, ?_⟩⟩
    exact List.forall_mem_cons.mpr ⟨by decide, List.forall_mem_singleton.mpr (by decide)⟩
  · rw [smallMeminfo_lines]
    refine List.forall_mem_cons.mpr ⟨Or.inl ⟨_, _, _, smallMeminfo_shmem⟩, ?_⟩
    refine List.forall_mem_cons.mpr ⟨Or.inr (no_names (by decide)), ?_⟩
    refine List.forall_mem_cons.mpr ⟨Or.inr (no_names (by decide)), ?_⟩
    exact List.forall_mem_singleton.mpr (Or.inl ⟨_, _, _, smallMeminfo_hugePages⟩)
  · rw [smallMeminfo_lines]
    exact once_of_nodup (by decide)

end Small

/-- Two entries, a line without a value, and one of an unknown name. -/
theorem getMeminfo_small :
    ∃ info, getMeminfo tokenizeLine (some ⟨smallMeminfo, false⟩) = .ok info ∧
      (info .shmem = 16000 ∧ info .hugePagesTotal = 7) ∧
      ∀ text', (Lines.lines '\n' text').Perm (Lines.lines '\n' smallMeminfo) →
        getMeminfo tokenizeLine (some ⟨text', false⟩) = .ok info := by
  obtain ⟨info, hinfo, hread, horder⟩ :=
    getMeminfo_lines tokenizeLine tokenizeLine_splits smallMeminfo smallMeminfo_text
  refine ⟨info, hinfo, ⟨?_, ?_⟩, horder⟩
  · refine hread.given _ ?_ _ _ _ smallMeminfo_shmem
    rw [smallMeminfo_lines]
    exact List.mem_cons_self
  · refine hread.given _ ?_ _ _ _ smallMeminfo_hugePages
    rw [smallMeminfo_lines]
    exact List.mem_of_getElem? (i := 3) rfl

end Sitter
