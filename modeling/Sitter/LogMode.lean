/-
# `Sitter.LogMode` — what a mode of a log definition asks of a file

The documentation gives a mode `<who><op><p>` a meaning (`ModeMismatch`): with
`E` the permissions of `p` for everyone named in `who`, a file is wrong if

    +    it lacks a bit of E
    -    it has a bit of E
    =    its bits are not E

The loader makes `(mode, mask)` of the text and `check_log` compares with that.
It multiplies the permissions by the flags where it has to repeat them and keep
those of the flags, it flips the bits `-` forbids instead of asking for none,
and a mode of 0 asks for nothing.  So the error is the documented one exactly
for `+` and `=` with none of `r`, `w` and `x`, and for `=` with a bit left to
ask for (`symbolicMode_iff`).
-/
import Sitter.Log

namespace Sitter

/-! ## The documentation -/

/-- The bits of the letters of a word. -/
def unionBits (bit : Char → BitVec 32) : List Char → BitVec 32
  | [] => 0
  | c :: word => bit c ||| unionBits bit word

/-- `u`, `g`, `o` and `a`. -/
def whoMask : Char → BitVec 32
  | 'u' => 0o700
  | 'g' => 0o070
  | 'o' => 0o007
  | 'a' => 0o777
  | _ => 0

/-- `r`, `w` and `x`, of one group. -/
def permBit : Char → BitVec 32
  | 'r' => 0o004
  | 'w' => 0o002
  | 'x' => 0o001
  | _ => 0

/-- `s` and `t`, as the loader collects them. -/
def upperBit : Char → BitVec 32
  | 's' => 0o6000
  | 't' => 0o1000
  | _ => 0

/-- Whom a mode is about: everyone, if nobody is named. -/
def documentedFlags (who : List Char) : BitVec 32 :=
  if who = [] then 0o777 else unionBits whoMask who

/-- The bits for all three groups. -/
def repeatBits (bits : BitVec 32) : BitVec 32 := bits ||| bits <<< 3 ||| bits <<< 6

/-- The permissions, for those named in the flags. -/
def expectedBits (flags bits : BitVec 32) (setId sticky : Bool) : BitVec 32 :=
  repeatBits bits &&& flags
    ||| (if setId ∧ flags &&& 0o700 ≠ 0 then 0o4000 else 0)
    ||| (if setId ∧ flags &&& 0o070 ≠ 0 then 0o2000 else 0)
    ||| (if sticky then 0o1000 else 0)

/-- The permissions of a text `<who><op><p>`. -/
def documentedBits (who perms : List Char) : BitVec 32 :=
  expectedBits (documentedFlags who) (unionBits permBit perms) ('s' ∈ perms) ('t' ∈ perms)

/-- A file of this mode is wrong. -/
def ModeMismatch (op : Char) (expected mode : BitVec 32) : Prop :=
  (op = '+' ∧ mode &&& expected ≠ expected) ∨ (op = '-' ∧ mode &&& expected ≠ 0) ∨
    (op = '=' ∧ mode &&& 0o7777 ≠ expected)

instance (op : Char) (expected mode : BitVec 32) : Decidable (ModeMismatch op expected mode) :=
  inferInstanceAs (Decidable (_ ∨ _ ∨ _))

/-! ## The letters -/

theorem who_cases {c : Char} (h : c ∈ ['u', 'g', 'o', 'a']) :
    c = 'u' ∨ c = 'g' ∨ c = 'o' ∨ c = 'a' := by
  simpa using h

theorem op_cases {c : Char} (h : c ∈ ['+', '-', '=']) : c = '+' ∨ c = '-' ∨ c = '=' := by
  simpa using h

theorem perm_cases {c : Char} (h : c ∈ ['r', 'w', 'x', 's', 't']) :
    c = 'r' ∨ c = 'w' ∨ c = 'x' ∨ c = 's' ∨ c = 't' := by
  simpa using h

/-! ## Unions of bits

A union of bits from a small table is one of few values, so a statement about
all texts comes down to a table that `decide` goes through. -/

section Unions

variable {bit : Char → BitVec 32} {word : List Char}

/-- A union is one of the values its letters cannot leave. -/
theorem unionBits_mem {letters : List Char} {values : List (BitVec 32)} (hzero : 0 ∈ values)
    (hclosed : ∀ c ∈ letters, ∀ v ∈ values, bit c ||| v ∈ values)
    (hword : ∀ c ∈ word, c ∈ letters) : unionBits bit word ∈ values := by
  induction word with
  | nil => exact hzero
  | cons c word ih =>
      obtain ⟨hc, hword⟩ := List.forall_mem_cons.mp hword
      exact hclosed c hc _ (ih hword)

theorem unionBits_eq_zero : unionBits bit word = 0 ↔ ∀ c ∈ word, bit c = 0 := by
  induction word with
  | nil => simp [unionBits]
  | cons c word ih =>
      rw [unionBits, List.forall_mem_cons, ← ih]
      exact BitVec.or_eq_zero_iff

/-- What the loader has collected of `s` and `t`. -/
def upperOf (setId sticky : Bool) : BitVec 32 :=
  (if setId then 0o6000 else 0) ||| (if sticky then 0o1000 else 0)

theorem unionBits_upperBit (hword : ∀ c ∈ word, c ∈ ['r', 'w', 'x', 's', 't']) :
    unionBits upperBit word = upperOf ('s' ∈ word) ('t' ∈ word) := by
  induction word with
  | nil => rfl
  | cons c word ih =>
      obtain ⟨hc, hword⟩ := List.forall_mem_cons.mp hword
      rw [unionBits, ih hword]
      rcases perm_cases hc with rfl | rfl | rfl | rfl | rfl <;>
        by_cases hs : 's' ∈ word <;> by_cases ht : 't' ∈ word <;>
        simp [hs, ht, upperBit, upperOf]

/-- The unions of one flag or more. -/
def whoValues : List (BitVec 32) := [0o007, 0o070, 0o077, 0o700, 0o707, 0o770, 0o777]

def permValues : List (BitVec 32) := [0, 1, 2, 3, 4, 5, 6, 7]

theorem unionBits_whoMask {who : List Char} (hwho : ∀ c ∈ who, c ∈ ['u', 'g', 'o', 'a'])
    (hne : who ≠ []) : unionBits whoMask who ∈ whoValues := by
  have hclosed : ∀ c ∈ ['u', 'g', 'o', 'a'], ∀ v ∈ 0 :: whoValues,
      whoMask c ||| v ∈ whoValues := by simp [whoMask, whoValues]
  cases who with
  | nil => exact absurd rfl hne
  | cons c who =>
      obtain ⟨hc, hwho⟩ := List.forall_mem_cons.mp hwho
      refine hclosed c hc _ (unionBits_mem List.mem_cons_self ?_ hwho)
      intro c hc v hv
      exact List.mem_cons_of_mem _ (hclosed c hc v hv)

theorem documentedFlags_mem {who : List Char} (hwho : ∀ c ∈ who, c ∈ ['u', 'g', 'o', 'a']) :
    documentedFlags who ∈ whoValues := by
  simp only [documentedFlags]
  split
  · decide
  · next hne => exact unionBits_whoMask hwho hne

theorem unionBits_permBit (hword : ∀ c ∈ word, c ∈ ['r', 'w', 'x', 's', 't']) :
    unionBits permBit word ∈ permValues :=
  unionBits_mem (by decide) (by simp [permBit, permValues]) hword

end Unions

/-! ## The loops -/

section Loops

variable {who perms : List Char} {op : Char}

/-- The first loop stops at the operator with the union of the flags. -/
theorem readWho_word (hwho : ∀ c ∈ who, c ∈ ['u', 'g', 'o', 'a']) (hop : op ∈ ['+', '-', '='])
    (flags : BitVec 32) (rest : List Char) :
    readWho flags (who ++ op :: rest) =
      .ok (if flags ||| unionBits whoMask who = 0 then 0o777 else flags ||| unionBits whoMask who,
        some op, rest) := by
  induction who generalizing flags with
  | nil =>
      rcases op_cases hop with rfl | rfl | rfl <;> simp [readWho, unionBits]
  | cons c who ih =>
      obtain ⟨hc, hwho⟩ := List.forall_mem_cons.mp hwho
      have hstep := ih hwho (flags ||| whoMask c)
      rw [BitVec.or_assoc] at hstep
      rw [unionBits, ← hstep]
      rcases who_cases hc with rfl | rfl | rfl | rfl <;> rfl

/-- The second loop collects the unions of the permissions. -/
theorem readPerms_word (hperms : ∀ c ∈ perms, c ∈ ['r', 'w', 'x', 's', 't'])
    (mode upper : BitVec 32) :
    readPerms mode upper perms =
      .ok (mode ||| unionBits permBit perms, upper ||| unionBits upperBit perms) := by
  induction perms generalizing mode upper with
  | nil => simp [readPerms, unionBits]
  | cons c perms ih =>
      obtain ⟨hc, hperms⟩ := List.forall_mem_cons.mp hperms
      have hstep := ih hperms (mode ||| permBit c) (upper ||| upperBit c)
      rw [BitVec.or_assoc, BitVec.or_assoc] at hstep
      rw [unionBits, unionBits, ← hstep]
      rcases perm_cases hc with rfl | rfl | rfl | rfl | rfl <;> simp [readPerms, permBit, upperBit]

/-- The loops turn a text into its flags, its operator and its permissions. -/
theorem symbolicMode_word (hwho : ∀ c ∈ who, c ∈ ['u', 'g', 'o', 'a'])
    (hop : op ∈ ['+', '-', '=']) (hperms : ∀ c ∈ perms, c ∈ ['r', 'w', 'x', 's', 't']) :
    symbolicMode (who ++ op :: perms) =
      applyOperator (some op) (applyFlags (documentedFlags who) (unionBits permBit perms)
        (upperOf ('s' ∈ perms) ('t' ∈ perms))) := by
  have hflags : (if unionBits whoMask who = 0 then 0o777 else unionBits whoMask who) =
      documentedFlags who := by
    cases who with
    | nil => rfl
    | cons c who =>
        have hne : unionBits whoMask (c :: who) ≠ 0 := by
          intro hnone
          have hmem := unionBits_whoMask hwho (List.cons_ne_nil c who)
          rw [hnone] at hmem
          exact absurd hmem (by decide)
        rw [if_neg hne]
        rfl
  have hzero : ∀ b : BitVec 32, 0 ||| b = b := fun b => BitVec.zero_or
  have hread := readWho_word hwho hop 0 perms
  rw [hzero, hflags] at hread
  have hcollect := readPerms_word hperms 0 0
  rw [hzero, hzero, unionBits_upperBit hperms] at hcollect
  have hbind : ∀ {α β : Type} (a : α) (f : α → Except LogError β),
      (Except.ok a : Except LogError α).bind f = f a := fun _ _ => rfl
  rw [symbolicMode, hread, hbind, hcollect, hbind]

/-- A text that starts with a letter or an operator is not a number. -/
theorem parseMode_word (filename : String) (hwho : ∀ c ∈ who, c ∈ ['u', 'g', 'o', 'a'])
    (hop : op ∈ ['+', '-', '=']) :
    parseMode filename (String.ofList (who ++ op :: perms)) =
      symbolicMode (who ++ op :: perms) := by
  have hstart : ∀ c ∈ ['u', 'g', 'o', 'a'] ++ ['+', '-', '='], isOctal c = false := by simp [isOctal]
  rw [parseMode, String.toList_ofList]
  cases who with
  | nil =>
      simp only [List.nil_append]
      rw [hstart op (List.mem_append_right _ hop)]
      rfl
  | cons c who =>
      simp only [List.cons_append]
      rw [hstart c (List.mem_append_left _ (hwho c List.mem_cons_self))]
      rfl

end Loops

/-! ## The pair and what it asks for

Where the pair of mode and mask asks for what is documented, it does so for
every mode of a file.  The values for which it does not are counted out by
`respected_or_wrong`. -/

/-- What `check_log` makes of a pair the loader has stored. -/
def PairMismatch (pair : BitVec 32 × BitVec 32) (mode : BitVec 32) : Prop :=
  pair.1 ≠ 0 ∧ mode &&& (if pair.2 = 0 then 0o7777 else pair.2) ≠ pair.1

instance (pair : BitVec 32 × BitVec 32) (mode : BitVec 32) : Decidable (PairMismatch pair mode) :=
  inferInstanceAs (Decidable (_ ∧ _))

/-- The pair of an operator. -/
def pairOf (op : Char) (mode : BitVec 32) : BitVec 32 × BitVec 32 :=
  if op = '+' then (mode, mode) else if op = '-' then (mode ^^^ 0o777, mode) else (mode, 0o7777)

theorem applyOperator_eq {op : Char} (hop : op ∈ ['+', '-', '=']) (mode : BitVec 32) :
    applyOperator (some op) mode = .ok (pairOf op mode) := by
  rcases op_cases hop with rfl | rfl | rfl <;> rfl

/-- No `-`, nothing to repeat, and for `=` a bit to ask for. -/
def BitsRespected (op : Char) (flags bits : BitVec 32) (setId sticky : Bool) : Prop :=
  op ≠ '-' ∧ bits = 0 ∧ (op = '=' → sticky = true ∨ (setId = true ∧ flags &&& 0o770 ≠ 0))

instance (op : Char) (flags bits : BitVec 32) (setId sticky : Bool) :
    Decidable (BitsRespected op flags bits setId sticky) :=
  inferInstanceAs (Decidable (_ ∧ _ ∧ _))

section Pair

variable {op : Char} {flags bits : BitVec 32} {setId sticky : Bool}

/-- With nothing to repeat the loader stores the documented bits. -/
theorem applyFlags_zero (flags : BitVec 32) (setId sticky : Bool) :
    applyFlags flags 0 (upperOf setId sticky) = expectedBits flags 0 setId sticky := by
  simp only [applyFlags, expectedBits, repeatBits, upperOf]
  cases setId <;> cases sticky <;> simp [BitVec.or_comm]

theorem expectedBits_ne_zero
    (h : sticky = true ∨ (setId = true ∧ flags &&& 0o770 ≠ 0)) :
    expectedBits flags 0 setId sticky ≠ 0 := by
  have hsplit : flags &&& (0o700 ||| 0o070) = (flags &&& 0o700) ||| (flags &&& 0o070) :=
    BitVec.and_or_distrib_left
  rcases h with rfl | ⟨rfl, hflags⟩
  · simp [expectedBits, repeatBits]
  · rw [show (0o770 : BitVec 32) = 0o700 ||| 0o070 from rfl, hsplit] at hflags
    cases sticky with
    | true => simp [expectedBits, repeatBits]
    | false => simpa [expectedBits, repeatBits] using hflags

theorem pairMismatch_plus (expected mode : BitVec 32) :
    PairMismatch (pairOf '+' expected) mode ↔ ModeMismatch '+' expected mode := by
  simp only [PairMismatch, pairOf, ModeMismatch, if_true]
  rcases eq_or_ne expected 0 with rfl | hne
  · simp
  · rw [if_neg hne]
    simpa using fun _ => hne

theorem pairMismatch_equal {expected : BitVec 32} (hne : expected ≠ 0) (mode : BitVec 32) :
    PairMismatch (pairOf '=' expected) mode ↔ ModeMismatch '=' expected mode := by
  simpa [PairMismatch, pairOf, ModeMismatch] using fun _ => hne

/-- One of these modes tells the stored bits from the documented ones. -/
def tellingModes (stored expected : BitVec 32) : List (BitVec 32) := [0, 1, stored, expected]

/-- The error is not the documented one for one of the telling modes. -/
def isWrong (op : Char) (flags bits : BitVec 32) (setId sticky : Bool) : Bool :=
  let stored := applyFlags flags bits (upperOf setId sticky)
  let expected := expectedBits flags bits setId sticky
  (tellingModes stored expected).any fun mode =>
    decide (PairMismatch (pairOf op stored) mode) != decide (ModeMismatch op expected mode)

theorem respected_or_wrong :
    (['+', '-', '='].all fun op => whoValues.all fun flags => permValues.all fun bits =>
      [true, false].all fun setId => [true, false].all fun sticky =>
        decide (BitsRespected op flags bits setId sticky) ||
          isWrong op flags bits setId sticky) = true := by
  decide +kernel

/-- **The pair asks for what is documented exactly when nothing has to be
repeated or flipped and a bit is left to ask for.** -/
theorem pairMismatch_iff (hop : op ∈ ['+', '-', '=']) (hflags : flags ∈ whoValues)
    (hbits : bits ∈ permValues) :
    (∀ mode, PairMismatch (pairOf op (applyFlags flags bits (upperOf setId sticky))) mode ↔
        ModeMismatch op (expectedBits flags bits setId sticky) mode) ↔
      BitsRespected op flags bits setId sticky := by
  constructor
  · intro h
    have htable := respected_or_wrong
    simp only [List.all_eq_true, Bool.or_eq_true, decide_eq_true_eq] at htable
    refine (htable op hop flags hflags bits hbits setId (by simp) sticky (by simp)).resolve_right ?_
    intro hwrong
    simp only [isWrong, List.any_eq_true, bne_iff_ne] at hwrong
    obtain ⟨mode, -, hne⟩ := hwrong
    exact hne (decide_eq_decide.mpr (h mode))
  · rintro ⟨hminus, rfl, hequal⟩ mode
    rw [applyFlags_zero]
    rcases op_cases hop with rfl | rfl | rfl
    · exact pairMismatch_plus _ mode
    · exact absurd rfl hminus
    · exact pairMismatch_equal (expectedBits_ne_zero (hequal rfl)) mode

end Pair

/-! ## The mode of a file

A definition differs from that of the same file without a mode in its mode
alone, so the error about the mode is a matter of the one parameter. -/

def LogFile.withoutMode (file : LogFile) : LogFile :=
  { file with params := fun name => if name = "mode" then none else file.params name }

/-- The file is accepted, and its definition raises the error about the mode
for exactly the files of a wrong mode. -/
def ModeErrorIs (host : LogHost) (file : LogFile) (result : List LogDefinition)
    (wrong : BitVec 32 → Prop) : Prop :=
  ∃ d, file.loadConfig host result = .ok (result ++ [d]) ∧
    ∀ filename st, RaisesModeError d filename st ↔ wrong st.mode

section File

variable {host : LogHost} {file : LogFile} {result : List LogDefinition}

theorem append_ne_of_length {text rest : String} (h : text.length < rest.length) (start : String) :
    start ++ rest ≠ text := by
  intro heq
  have hlength := congrArg String.length heq
  rw [String.length_append] at hlength
  omega

theorem withoutMode_params {name : String} (h : name ≠ "mode") :
    file.withoutMode.params name = file.params name := if_neg h

/-- The expressions are added to a definition whatever else is changed in it,
and whatever other parameters the file has. -/
theorem readSearches_map {file' : LogFile} {g : LogDefinition → LogDefinition}
    (hname : file'.filename = file.filename)
    (hregex : ∀ sec, file'.params (sec ++ "::regex") = file.params (sec ++ "::regex"))
    (hreport : ∀ sec, file'.params (sec ++ "::report_as") = file.params (sec ++ "::report_as"))
    (hg : ∀ d search, { g d with searches := (g d).searches ++ [search] } =
      g { d with searches := d.searches ++ [search] })
    (sections : List String) (d : LogDefinition) :
    file.readSearches (g d) sections = (file'.readSearches d sections).map g := by
  induction sections generalizing d with
  | nil => rfl
  | cons sec sections ih =>
      rw [LogFile.readSearches, LogFile.readSearches, hregex, hreport, hname]
      cases file.params (sec ++ "::regex") with
      | none => exact ih d
      | some regex =>
          dsimp only
          split
          · rfl
          · rw [hg]
            exact ih { d with searches := _ }

theorem readSearches_setMode (pair : BitVec 32 × BitVec 32) (sections : List String)
    (d : LogDefinition) :
    file.readSearches (d.setMode pair) sections =
      (file.withoutMode.readSearches d sections).map (LogDefinition.setMode pair) := by
  have hname : file.withoutMode.filename = file.filename := rfl
  refine readSearches_map (g := LogDefinition.setMode pair) hname (fun sec => ?_) (fun sec => ?_)
    (fun _ _ => rfl) sections d
  · exact withoutMode_params (append_ne_of_length (by decide) sec)
  · exact withoutMode_params (append_ne_of_length (by decide) sec)

theorem readName_withoutMode : file.withoutMode.readName result = file.readName result := by
  rw [LogFile.readName, LogFile.readName, withoutMode_params (by decide)]

theorem readTexts_withoutMode (name : String) :
    file.withoutMode.readTexts host name = file.readTexts host name := by
  rw [LogFile.readTexts, LogFile.readTexts, withoutMode_params (by decide),
    withoutMode_params (by decide), withoutMode_params (by decide), withoutMode_params (by decide),
    withoutMode_params (by decide)]

theorem readMaxSize_withoutMode (d : LogDefinition) :
    file.withoutMode.readMaxSize host d = file.readMaxSize host d := by
  rw [LogFile.readMaxSize, LogFile.readMaxSize, withoutMode_params (by decide)]
  rfl

theorem loadConfig_mode {text : String} {pair : BitVec 32 × BitVec 32}
    {loaded : List LogDefinition} (hmode : file.params "mode" = some text)
    (hparse : parseMode file.filename (host.trimString text) = .ok pair)
    (hrest : file.withoutMode.loadConfig host result = .ok loaded) :
    ∃ d : LogDefinition, file.loadConfig host result = .ok (result ++ [d.setMode pair]) := by
  obtain ⟨name, hname, hrest⟩ := bind_eq_ok.mp hrest
  obtain ⟨wl, hsize, hrest⟩ := bind_eq_ok.mp hrest
  obtain ⟨wl', hnone, hrest⟩ := bind_eq_ok.mp hrest
  obtain ⟨d, hsearches, -⟩ := bind_eq_ok.mp hrest
  rw [readName_withoutMode] at hname
  rw [readTexts_withoutMode, readMaxSize_withoutMode] at hsize
  obtain rfl : wl = wl' := Except.ok.inj hnone
  have hread : file.readMode host wl = .ok (wl.setMode pair) := by
    simp only [LogFile.readMode, hmode, hparse, Except.map]
  have hsearch : file.readSearches (wl.setMode pair) file.sections = .ok (d.setMode pair) := by
    rw [readSearches_setMode]
    exact congrArg (Except.map (LogDefinition.setMode pair)) hsearches
  exact ⟨d, bind_eq_ok.mpr ⟨name, hname, bind_eq_ok.mpr ⟨wl, hsize,
    bind_eq_ok.mpr ⟨_, hread, bind_eq_ok.mpr ⟨_, hsearch, rfl⟩⟩⟩⟩⟩

/-- The error about the mode is a matter of the pair its text is read as. -/
theorem modeErrorIs_iff {text : String} {pair : BitVec 32 × BitVec 32} {wrong : BitVec 32 → Prop}
    (hmode : file.params "mode" = some text)
    (hparse : parseMode file.filename (host.trimString text) = .ok pair)
    (hrest : ∃ loaded, file.withoutMode.loadConfig host result = .ok loaded) :
    ModeErrorIs host file result wrong ↔ ∀ mode, PairMismatch pair mode ↔ wrong mode := by
  obtain ⟨loaded, hrest⟩ := hrest
  obtain ⟨d, hload⟩ := loadConfig_mode hmode hparse hrest
  constructor
  · rintro ⟨e, he, hraises⟩ mode
    rw [hload, Except.ok.injEq, List.append_cancel_left_eq, List.singleton_inj] at he
    have hfile := hraises "" ⟨0, mode, 0, 0, 0⟩
    rw [raisesModeError_iff, ← he] at hfile
    exact hfile
  · intro h
    refine ⟨_, hload, ?_⟩
    intro filename st
    rw [raisesModeError_iff]
    exact h st.mode

end File

/-! ## Modes written with letters -/

/-- A text for which the error is the documented one. -/
def SymbolicRespected (who : List Char) (op : Char) (perms : List Char) : Prop :=
  op ≠ '-' ∧ (∀ c ∈ perms, c ∉ ['r', 'w', 'x']) ∧
    (op = '=' → 't' ∈ perms ∨ ('s' ∈ perms ∧ documentedFlags who &&& 0o770 ≠ 0))

/-- **A mode written with letters raises the documented error exactly for `+`
and `=` without `r`, `w` and `x`, and for `=` with a bit left to ask for.** -/
theorem symbolicMode_iff (host : LogHost) (file : LogFile) (result : List LogDefinition)
    {text : String} {who perms : List Char} {op : Char}
    (hwho : ∀ c ∈ who, c ∈ ['u', 'g', 'o', 'a']) (hop : op ∈ ['+', '-', '='])
    (hperms : ∀ c ∈ perms, c ∈ ['r', 'w', 'x', 's', 't'])
    (hmode : file.params "mode" = some text)
    (htext : host.trimString text = String.ofList (who ++ op :: perms))
    (hrest : ∃ loaded, file.withoutMode.loadConfig host result = .ok loaded) :
    ModeErrorIs host file result (ModeMismatch op (documentedBits who perms)) ↔
      SymbolicRespected who op perms := by
  have hparse : parseMode file.filename (host.trimString text) = .ok (pairOf op
      (applyFlags (documentedFlags who) (unionBits permBit perms)
        (upperOf ('s' ∈ perms) ('t' ∈ perms)))) := by
    rw [htext, parseMode_word file.filename hwho hop, symbolicMode_word hwho hop hperms,
      applyOperator_eq hop]
  rw [modeErrorIs_iff hmode hparse hrest, documentedBits,
    pairMismatch_iff hop (documentedFlags_mem hwho) (unionBits_permBit hperms), BitsRespected,
    SymbolicRespected, unionBits_eq_zero]
  have hletters : ∀ c ∈ perms, permBit c = 0 ↔ c ∉ ['r', 'w', 'x'] := by
    intro c hc
    rcases perm_cases (hperms c hc) with rfl | rfl | rfl | rfl | rfl <;> decide
  rw [forall₂_congr hletters]
  simp only [decide_eq_true_eq]

/-- A host without users, groups and sizes. -/
def LogHost.plain : LogHost where
  lib := .decimal
  trimString := id
  size _ := none
  uidOf _ := none
  gidOf _ := none

/-- A file with nothing but a name and a mode. -/
def LogFile.ofMode (mode : String) : LogFile where
  filename := "mail.conf"
  params name :=
    if name = "name" then some "mail" else if name = "mode" then some mode else none
  sections := []

/-- The documented error, for files that run as their user and their group. -/
theorem symbolicMode_set_id :
    ModeErrorIs .plain (.ofMode "ug+s") []
      (ModeMismatch '+' (documentedBits ['u', 'g'] ['s'])) :=
  (symbolicMode_iff .plain (.ofMode "ug+s") [] (by simp) (by simp) (by simp) rfl rfl
    ⟨_, rfl⟩).mpr ⟨by decide, by simp, by simp⟩

/-- A file that everyone can read is wrong under `a+r`. -/
theorem symbolicMode_readable :
    ¬ ModeErrorIs .plain (.ofMode "a+r") []
      (ModeMismatch '+' (documentedBits ['a'] ['r'])) := by
  have hparse : parseMode "mail.conf" "a+r" = .ok (0o3774, 0o3774) := by rfl
  rw [modeErrorIs_iff rfl hparse ⟨_, rfl⟩]
  intro h
  exact absurd ((h 0o100644).mp (by decide)) (by decide)

end Sitter
