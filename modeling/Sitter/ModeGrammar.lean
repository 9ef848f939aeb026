/-
# `Sitter.ModeGrammar` — the texts that are a mode

The documentation has a grammar for a mode: nothing, one or two octal numbers
with a slash between them, or `<who><op><p>` (`ModeText octalDigits 1`).  The
loader goes over the text with one index through three loops (`scanMode`).  It
is `parseMode` with the index in place of what is left (`scanMode_eq`), so it
reads inside the text only.

The texts that are read as a mode are those of the same grammar with one more
digit and with numbers that may be missing after the slash.  Of the others
those that name someone and have no operator get to the last `switch`, which
does not expect them.  What is expected of a text is right exactly if it is
none of these (`modeSettled_iff`).
-/
import Sitter.LogMode
import Mathlib.Data.List.TakeWhile
import Mathlib.Tactic.IntervalCases

namespace Sitter

/-! ## The scan -/

/-- What ends a scan early: an index past the end, or an exception. -/
inductive ScanError where
  | past (j : Nat)
  | thrown (e : LogError)
  deriving DecidableEq, Repr

section Scan

variable (filename modeText : String) (text : List Char)

/-- `mode_str[j]` -/
def charAt (j : Nat) : Except ScanError Char :=
  match text[j]? with
  | none => .error (.past j)
  | some c => .ok c

/-- The value of a digit. -/
def digitBits (c : Char) : BitVec 32 := BitVec.ofNat 32 (c.toNat - '0'.toNat)

/-- The digits of the mode, of which `c` is one. -/
def scanOctal (mode : BitVec 32) (c : Char) (j : Nat) :
    Except ScanError (BitVec 32 × Char × Nat) :=
  let mode := mode * 8 + digitBits c
  let j := j + 1
  if _h : text.length ≤ j then .ok (mode, c, j)
  else
    (charAt text j).bind fun c =>
      if isOctal c then scanOctal mode c j else .ok (mode, c, j)
termination_by text.length - j

/-- The digits of the mask. -/
def scanMask (mask : BitVec 32) (j : Nat) : Except ScanError (BitVec 32 × Nat) :=
  if _h : j < text.length then
    (charAt text j).bind fun c =>
      if isOctal c then scanMask (mask * 8 + digitBits c) (j + 1)
      else
        .error (.thrown (.invalidParameter ("invalid numeric mode \"" ++ modeText
          ++ "\" found in \"" ++ filename ++ "\"; it must have a numeric mask.")))
  else .ok (mask, j)
termination_by text.length - j

/-- A mode that starts with the digit `c`. -/
def scanNumeric (c : Char) : Except ScanError (BitVec 32 × BitVec 32) :=
  (scanOctal text 0 c 0).bind fun (mode, c, j) =>
    let mask :=
      if j < text.length ∧ c = '/' then scanMask filename modeText text 0 (j + 1) else .ok (0, j)
    mask.bind fun (mask, j) =>
      if j ≠ text.length then
        .error (.thrown (.invalidParameter ("invalid numeric mode \"" ++ modeText
          ++ "\" found in \"" ++ filename
          ++ "\"; it must be one or two octal numbers separated by a slash.")))
      else .ok (mode, mask)

/-- One character of the first loop: the flags and the operator. -/
def whoStep (flags : BitVec 32) (op : Option Char) (c : Char) :
    Except ScanError (BitVec 32 × Option Char) :=
  match c with
  | 'u' => .ok (flags ||| 0o700, op)
  | 'g' => .ok (flags ||| 0o070, op)
  | 'o' => .ok (flags ||| 0o007, op)
  | 'a' => .ok (flags ||| 0o777, op)
  | '+' | '-' | '=' =>
      match op with
      | some first =>
          .error (.thrown (.invalidParameter ("only one operator can be used in a mode; two ('"
            ++ String.singleton first ++ "' and '" ++ String.singleton c ++ "') found in \""
            ++ filename ++ "\".")))
      | none => .ok (if flags = 0 then 0o777 else flags, some c)
  | _ =>
      .error (.thrown (.invalidParameter ("unknown character '" ++ String.singleton c
        ++ "' for mode and/or operator; expected one or more of u, g, o, a, +, -, or =.")))

/-- The first loop, from the character `c` on. -/
def scanWho (flags : BitVec 32) (op : Option Char) (c : Char) (j : Nat) :
    Except ScanError (BitVec 32 × Option Char × Nat) :=
  (whoStep filename flags op c).bind fun (flags, op) =>
    let j := j + 1
    if _h : text.length ≤ j ∨ op ≠ none then .ok (flags, op, j)
    else (charAt text j).bind fun c => scanWho flags op c j
termination_by text.length - j

/-- One character of the second loop: `mode` and `upper_mode`. -/
def permStep (mode upper : BitVec 32) (c : Char) : Except ScanError (BitVec 32 × BitVec 32) :=
  match c with
  | 'r' => .ok (mode ||| 0o004, upper)
  | 'w' => .ok (mode ||| 0o002, upper)
  | 'x' => .ok (mode ||| 0o001, upper)
  | 's' => .ok (mode, upper ||| 0o6000)
  | 't' => .ok (mode, upper ||| 0o1000)
  | _ =>
      .error (.thrown (.invalidParameter ("unknown character '" ++ String.singleton c
        ++ "' for actual mode; expected one or more of r, w, x, s, or t.")))

/-- The second loop, from `j` on. -/
def scanPerms (mode upper : BitVec 32) (j : Nat) : Except ScanError (BitVec 32 × BitVec 32) :=
  if _h : j < text.length then
    (charAt text j).bind fun c =>
      (permStep mode upper c).bind fun (mode, upper) => scanPerms mode upper (j + 1)
  else .ok (mode, upper)
termination_by text.length - j

/-- A mode that starts with the letter or the operator `c`. -/
def scanSymbolic (c : Char) : Except ScanError (BitVec 32 × BitVec 32) :=
  (scanWho filename text 0 none c 0).bind fun (flags, op, j) =>
    (scanPerms text 0 0 j).bind fun (mode, upper) =>
      (applyOperator op (applyFlags flags mode upper)).mapError .thrown

end Scan

/-- The pair of a mode's text, by its index. -/
def scanMode (filename modeText : String) : Except ScanError (BitVec 32 × BitVec 32) :=
  let text := modeText.toList
  if text.isEmpty then .ok (0, 0)
  else
    (charAt text 0).bind fun c =>
      if isOctal c then scanNumeric filename modeText text c
      else scanSymbolic filename text c

/-! ## The index and what is left

The scan goes by an index into the text, and the loader of `LogDefinition` by
what is left of it.  The two agree at each step, so nothing past the end is
read. -/

section Index

variable {filename modeText : String} {before rest : List Char} {c : Char}

theorem charAt_after (before rest : List Char) (c : Char) :
    charAt (before ++ c :: rest) before.length = .ok c := by
  rw [charAt, List.getElem?_append_right le_rfl, Nat.sub_self, List.getElem?_cons_zero]

theorem length_after (before : List Char) (c : Char) :
    before.length + 1 = (before ++ [c]).length := by
  rw [List.length_append, List.length_singleton]

theorem ok_bind {ε α β : Type} (a : α) (f : α → Except ε β) :
    (Except.ok a : Except ε α).bind f = f a := rfl

/-- One character of the first loop goes on with the flags, is the operator, or
is refused. -/
theorem whoStep_cases (filename : String) (flags : BitVec 32) (c : Char) :
    (∃ flags', c ∈ ['u', 'g', 'o', 'a'] ∧ whoStep filename flags none c = .ok (flags', none) ∧
        ∀ rest, readWho flags (c :: rest) = readWho flags' rest) ∨
      (∃ flags', c ∈ ['+', '-', '='] ∧ whoStep filename flags none c = .ok (flags', some c) ∧
        ∀ rest, readWho flags (c :: rest) = .ok (flags', some c, rest)) ∨
      ∃ what, whoStep filename flags none c = .error (.thrown (.invalidParameter what)) ∧
        ∀ rest, readWho flags (c :: rest) = .error (.invalidParameter what) := by
  by_cases hwho : c ∈ ['u', 'g', 'o', 'a']
  · refine Or.inl ⟨flags ||| whoMask c, hwho, ?_⟩
    rcases who_cases hwho with rfl | rfl | rfl | rfl <;> exact ⟨rfl, fun _ => rfl⟩
  · by_cases hop : c ∈ ['+', '-', '=']
    · refine Or.inr (Or.inl ⟨if flags = 0 then 0o777 else flags, hop, ?_⟩)
      rcases op_cases hop with rfl | rfl | rfl <;> exact ⟨rfl, fun _ => rfl⟩
    · simp only [List.mem_cons, List.not_mem_nil, or_false, not_or] at hwho hop
      obtain ⟨hu, hg, ho, ha⟩ := hwho
      obtain ⟨hplus, hminus, hequal⟩ := hop
      refine Or.inr (Or.inr ⟨"unknown character '" ++ String.singleton c
        ++ "' for mode and/or operator; expected one or more of u, g, o, a, +, -, or =.", ?_, ?_⟩)
      · rw [whoStep]
        all_goals assumption
      · intro rest
        rw [readWho]
        all_goals assumption

theorem permStep_cases (mode upper : BitVec 32) (c : Char) :
    (∃ mode' upper', c ∈ ['r', 'w', 'x', 's', 't'] ∧
        permStep mode upper c = .ok (mode', upper') ∧
        ∀ rest, readPerms mode upper (c :: rest) = readPerms mode' upper' rest) ∨
      ∃ what, permStep mode upper c = .error (.thrown (.invalidParameter what)) ∧
        ∀ rest, readPerms mode upper (c :: rest) = .error (.invalidParameter what) := by
  by_cases hperm : c ∈ ['r', 'w', 'x', 's', 't']
  · left
    rcases perm_cases hperm with rfl | rfl | rfl | rfl | rfl <;>
      exact ⟨_, _, hperm, rfl, fun _ => rfl⟩
  · simp only [List.mem_cons, List.not_mem_nil, or_false, not_or] at hperm
    obtain ⟨hr, hw, hx, hs, ht⟩ := hperm
    refine Or.inr ⟨"unknown character '" ++ String.singleton c
      ++ "' for actual mode; expected one or more of r, w, x, s, or t.", ?_, ?_⟩
    · rw [permStep]
      all_goals assumption
    · intro rest
      rw [readPerms]
      all_goals assumption

/-- The digits end at the first character that is none, which is the current
one then. -/
theorem scanOctal_eq (before rest : List Char) (mode : BitVec 32) (c : Char) :
    ∃ last upto,
      scanOctal (before ++ c :: rest) mode c before.length =
        .ok ((readOctal (mode * 8 + digitBits c) rest).1, last, upto.length) ∧
      before ++ c :: rest = upto ++ (readOctal (mode * 8 + digitBits c) rest).2 ∧
      ∀ x ∈ (readOctal (mode * 8 + digitBits c) rest).2.head?, last = x := by
  induction rest generalizing before mode c with
  | nil =>
      refine ⟨c, before ++ [c], ?_, ?_, ?_⟩
      · rw [scanOctal, dif_pos (le_of_eq (length_after before c).symm), length_after]
        rfl
      · rw [readOctal, List.append_nil]
      · intro x hx
        cases hx
  | cons d rest ih =>
      have hlt : ¬ (before ++ c :: d :: rest).length ≤ before.length + 1 := by
        simp
      have hread := charAt_after (before ++ [c]) rest d
      rw [← List.append_cons, ← length_after] at hread
      rw [scanOctal, dif_neg hlt, hread, ok_bind, readOctal]
      by_cases hd : isOctal d = true
      · have hnext := ih (before ++ [c]) (mode * 8 + digitBits c) d
        rw [← List.append_cons, ← length_after] at hnext
        rw [if_pos hd, if_pos hd]
        exact hnext
      · rw [if_neg hd, if_neg hd]
        refine ⟨d, before ++ [c], by rw [length_after], List.append_cons _ _ _, ?_⟩
        intro x hx
        exact Option.some.inj hx

theorem scanMask_eq (filename modeText : String) (before rest : List Char) (mask : BitVec 32) :
    scanMask filename modeText (before ++ rest) mask before.length =
      if (readOctal mask rest).2 = [] then
        .ok ((readOctal mask rest).1, (before ++ rest).length)
      else
        .error (.thrown (.invalidParameter ("invalid numeric mode \"" ++ modeText
          ++ "\" found in \"" ++ filename ++ "\"; it must have a numeric mask."))) := by
  induction rest generalizing before mask with
  | nil =>
      rw [List.append_nil, scanMask, dif_neg (lt_irrefl _)]
      rfl
  | cons c rest ih =>
      have hlt : before.length < (before ++ c :: rest).length := by simp
      rw [scanMask, dif_pos hlt, charAt_after, ok_bind, readOctal]
      by_cases hc : isOctal c = true
      · have hnext := ih (before ++ [c]) (mask * 8 + digitBits c)
        rw [← List.append_cons, ← length_after] at hnext
        rw [if_pos hc, if_pos hc]
        exact hnext
      · rw [if_neg hc, if_neg hc]
        exact (if_neg (List.cons_ne_nil _ _)).symm

/-- The first loop ends with the text, or with the operator. -/
theorem scanWho_stop {text : List Char} {flags flags' : BitVec 32} {op : Option Char} {j : Nat}
    (hstep : whoStep filename flags none c = .ok (flags', op))
    (hend : text.length ≤ j + 1 ∨ op ≠ none) :
    scanWho filename text flags none c j = .ok (flags', op, j + 1) := by
  rw [scanWho, hstep, ok_bind]
  exact dif_pos hend

theorem scanWho_next {flags flags' : BitVec 32} {d : Char}
    (hstep : whoStep filename flags none c = .ok (flags', none)) :
    scanWho filename (before ++ c :: d :: rest) flags none c before.length =
      scanWho filename (before ++ c :: d :: rest) flags' none d (before ++ [c]).length := by
  have hgo : ¬ ((before ++ c :: d :: rest).length ≤ before.length + 1 ∨
      (none : Option Char) ≠ none) := by simp
  have hchar := charAt_after (before ++ [c]) rest d
  rw [← List.append_cons, ← length_after] at hchar
  rw [scanWho, hstep, ok_bind, ← length_after]
  refine (dif_neg hgo).trans ?_
  rw [hchar, ok_bind]

/-- The first loop ends as `readWho` does, at the index of what is left. -/
theorem scanWho_eq (filename : String) (before rest : List Char) (flags : BitVec 32) (c : Char) :
    (∃ e, readWho flags (c :: rest) = .error e ∧
        scanWho filename (before ++ c :: rest) flags none c before.length =
          .error (.thrown e)) ∨
      ∃ flags' op upto left, readWho flags (c :: rest) = .ok (flags', op, left) ∧
        before ++ c :: rest = upto ++ left ∧
        scanWho filename (before ++ c :: rest) flags none c before.length =
          .ok (flags', op, upto.length) := by
  induction rest generalizing before flags c with
  | nil =>
      have hend : (before ++ [c]).length ≤ before.length + 1 := le_of_eq (length_after _ _).symm
      have hall : before ++ [c] = before ++ [c] ++ [] := (List.append_nil _).symm
      rcases whoStep_cases filename flags c with
        ⟨flags', -, hstep, hread⟩ | ⟨flags', -, hstep, hread⟩ | ⟨what, hstep, hread⟩
      · rw [scanWho_stop hstep (Or.inl hend), hread, length_after]
        exact Or.inr ⟨flags', none, before ++ [c], [], rfl, hall, rfl⟩
      · rw [scanWho_stop hstep (Or.inl hend), hread, length_after]
        exact Or.inr ⟨flags', some c, before ++ [c], [], rfl, hall, rfl⟩
      · rw [scanWho, hstep, hread]
        exact Or.inl ⟨_, rfl, rfl⟩
  | cons d rest ih =>
      rcases whoStep_cases filename flags c with
        ⟨flags', -, hstep, hread⟩ | ⟨flags', -, hstep, hread⟩ | ⟨what, hstep, hread⟩
      · have hnext := ih (before ++ [c]) flags' d
        rw [← List.append_cons] at hnext
        rw [scanWho_next hstep, hread]
        exact hnext
      · rw [scanWho_stop hstep (Or.inr (Option.some_ne_none c)), hread, length_after]
        exact Or.inr ⟨flags', some c, before ++ [c], d :: rest, rfl, List.append_cons _ _ _, rfl⟩
      · rw [scanWho, hstep, hread]
        exact Or.inl ⟨_, rfl, rfl⟩

/-- The second loop is `readPerms` of what is left. -/
theorem scanPerms_eq (before rest : List Char) (mode upper : BitVec 32) :
    scanPerms (before ++ rest) mode upper before.length =
      (readPerms mode upper rest).mapError .thrown := by
  induction rest generalizing before mode upper with
  | nil =>
      rw [List.append_nil, scanPerms, dif_neg (lt_irrefl _)]
      rfl
  | cons c rest ih =>
      have hlt : before.length < (before ++ c :: rest).length := by simp
      rw [scanPerms, dif_pos hlt, charAt_after, ok_bind]
      rcases permStep_cases mode upper c with
        ⟨mode', upper', -, hstep, hread⟩ | ⟨what, hstep, hread⟩
      · have hnext := ih (before ++ [c]) mode' upper'
        rw [← List.append_cons, ← length_after] at hnext
        rw [hstep, ok_bind, hread]
        exact hnext
      · rw [hstep, hread]
        rfl

theorem numericMode_end {text : List Char} (h : (readOctal 0 text).2 = []) :
    numericMode filename modeText text = .ok ((readOctal 0 text).1, 0) := by
  simp only [numericMode, h]

theorem numericMode_slash {text : List Char} (h : (readOctal 0 text).2 = '/' :: rest) :
    numericMode filename modeText text =
      if (readOctal 0 rest).2 = [] then .ok ((readOctal 0 text).1, (readOctal 0 rest).1)
      else
        .error (.invalidParameter ("invalid numeric mode \"" ++ modeText ++ "\" found in \""
          ++ filename ++ "\"; it must have a numeric mask.")) := by
  simp only [numericMode, h]

theorem numericMode_other {text : List Char} (h : (readOctal 0 text).2 = c :: rest)
    (hc : c ≠ '/') :
    numericMode filename modeText text =
      .error (.invalidParameter ("invalid numeric mode \"" ++ modeText ++ "\" found in \""
        ++ filename ++ "\"; it must be one or two octal numbers separated by a slash.")) := by
  rw [numericMode]
  dsimp only
  rw [h]
  split
  · next heq => cases heq
  · next heq => exact absurd (List.cons.inj heq).1 hc
  · rfl

/-- A mode with digits is `numericMode`. -/
theorem scanNumeric_eq (hc : isOctal c = true) :
    scanNumeric filename modeText (c :: rest) c =
      (numericMode filename modeText (c :: rest)).mapError .thrown := by
  have hfirst : readOctal 0 (c :: rest) = readOctal (0 * 8 + digitBits c) rest := if_pos hc
  obtain ⟨last, upto, hscan, hsplit, hlast⟩ := scanOctal_eq [] rest 0 c
  rw [← hfirst, List.nil_append] at hscan hsplit
  rw [← hfirst] at hlast
  rw [scanNumeric, show scanOctal (c :: rest) 0 c 0 = _ from hscan, ok_bind]
  dsimp only
  rcases hleft : (readOctal 0 (c :: rest)).2 with _ | ⟨x, left⟩
  · -- the digits end with the text
    rw [hleft, List.append_nil] at hsplit
    have hstop : ¬ (upto.length < (c :: rest).length ∧ last = '/') := by
      rw [hsplit]
      exact fun h => lt_irrefl _ h.1
    rw [if_neg hstop, ok_bind, numericMode_end hleft]
    exact if_neg (not_not_intro (congrArg List.length hsplit.symm))
  · rw [hleft] at hsplit hlast
    obtain rfl : last = x := hlast x rfl
    have hlt : upto.length < (c :: rest).length := by
      rw [hsplit]
      simp
    by_cases hslash : last = '/'
    · subst hslash
      have hmask := scanMask_eq filename modeText (upto ++ ['/']) left 0
      rw [← List.append_cons, ← length_after, ← hsplit] at hmask
      rw [if_pos ⟨hlt, rfl⟩, hmask, numericMode_slash hleft]
      by_cases hend : (readOctal 0 left).2 = []
      · rw [if_pos hend, if_pos hend, ok_bind]
        exact if_neg (not_not_intro rfl)
      · rw [if_neg hend, if_neg hend]
        rfl
    · rw [if_neg (fun h => hslash h.2), ok_bind, numericMode_other hleft hslash]
      exact if_pos (ne_of_lt hlt)

theorem scanSymbolic_eq (filename : String) (c : Char) (rest : List Char) :
    scanSymbolic filename (c :: rest) c = (symbolicMode (c :: rest)).mapError .thrown := by
  rw [scanSymbolic, symbolicMode]
  rcases scanWho_eq filename [] rest 0 c with
    ⟨e, hread, hscan⟩ | ⟨flags, op, upto, left, hread, hsplit, hscan⟩
  · rw [List.nil_append] at hscan
    rw [show scanWho filename (c :: rest) 0 none c 0 = _ from hscan, hread]
    rfl
  · rw [List.nil_append] at hsplit hscan
    rw [show scanWho filename (c :: rest) 0 none c 0 = _ from hscan, hread, ok_bind, ok_bind]
    have hperms := scanPerms_eq upto left 0 0
    rw [← hsplit] at hperms
    dsimp only
    rw [hperms]
    cases readPerms 0 0 left with
    | error e => rfl
    | ok perms => rfl

/-- **The scan is `parseMode` and reads inside the text.** -/
theorem scanMode_eq (filename modeText : String) :
    scanMode filename modeText = (parseMode filename modeText).mapError .thrown := by
  rw [scanMode, parseMode]
  cases htext : modeText.toList with
  | nil => rfl
  | cons c rest =>
      have hchar : charAt (c :: rest) 0 = .ok c := rfl
      simp only [List.isEmpty_cons, Bool.false_eq_true, if_false, hchar, ok_bind]
      by_cases hc : isOctal c = true
      · rw [if_pos hc, if_pos hc]
        exact scanNumeric_eq hc
      · rw [if_neg hc, if_neg hc]
        exact scanSymbolic_eq filename c rest

end Index

/-! ## The grammar

What the loader accepts is the documented grammar and what it misreads: digits
with an `8` among them, a slash with nothing after it, and letters without an
operator. -/

/-- The texts of a mode: which characters are digits, and how many digits a
mask has at least. -/
inductive ModeText (digit : Char → Prop) (least : Nat) : List Char → Prop
  | empty : ModeText digit least []
  | number {mode : List Char} (hne : mode ≠ []) (hmode : ∀ c ∈ mode, digit c) :
      ModeText digit least mode
  | masked {mode mask : List Char} (hne : mode ≠ []) (hmode : ∀ c ∈ mode, digit c)
      (hleast : least ≤ mask.length) (hmask : ∀ c ∈ mask, digit c) :
      ModeText digit least (mode ++ '/' :: mask)
  | letters {who perms : List Char} {op : Char} (hwho : ∀ c ∈ who, c ∈ ['u', 'g', 'o', 'a'])
      (hop : op ∈ ['+', '-', '=']) (hperms : ∀ c ∈ perms, c ∈ ['r', 'w', 'x', 's', 't']) :
      ModeText digit least (who ++ op :: perms)

/-- The documented grammar. -/
def ModeGrammar : List Char → Prop :=
  ModeText (· ∈ ['0', '1', '2', '3', '4', '5', '6', '7']) 1

/-- The texts the loader does not take as the documentation does: those with an
`8`, those with nothing after the slash, those that name someone and end. -/
inductive Misread : List Char → Prop
  | number {mode : List Char} (hmode : ∀ c ∈ mode, isOctal c = true) (height : '8' ∈ mode) :
      Misread mode
  | masked {mode mask : List Char} (hne : mode ≠ []) (hmode : ∀ c ∈ mode, isOctal c = true)
      (hmask : ∀ c ∈ mask, isOctal c = true) (hwrong : '8' ∈ mode ∨ '8' ∈ mask ∨ mask = []) :
      Misread (mode ++ '/' :: mask)
  | noOperator {who : List Char} (hne : who ≠ []) (hwho : ∀ c ∈ who, c ∈ ['u', 'g', 'o', 'a']) :
      Misread who

section Grammar

variable {text : List Char}

theorem Misread.starts (h : Misread text) :
    (∀ c ∈ text.head?, isOctal c = true) ∨ ∀ c ∈ text, c ∈ ['u', 'g', 'o', 'a'] := by
  cases h with
  | number hmode height => exact Or.inl (fun c hc => hmode c (List.mem_of_mem_head? hc))
  | @masked mode mask hne hmode hmask hwrong =>
      left
      intro c hc
      rw [List.head?_append_of_ne_nil _ hne] at hc
      exact hmode c (List.mem_of_mem_head? hc)
  | noOperator hne hwho => exact Or.inr hwho

/-- The digits of the loader are the octal ones and `8`. -/
theorem isOctal_iff {c : Char} :
    isOctal c = true ↔ c ∈ ['0', '1', '2', '3', '4', '5', '6', '7'] ∨ c = '8' := by
  constructor
  · intro h
    simp only [isOctal, Bool.and_eq_true, decide_eq_true_eq] at h
    obtain ⟨hlow, hhigh⟩ := h
    have hlow' : 48 ≤ c.toNat := hlow
    have hhigh' : c.toNat ≤ 56 := hhigh
    rw [← Char.ofNat_toNat c]
    interval_cases c.toNat <;> simp
  · rintro (h | rfl)
    · simp only [List.mem_cons, List.not_mem_nil, or_false] at h
      rcases h with rfl | rfl | rfl | rfl | rfl | rfl | rfl | rfl <;> rfl
    · rfl

/-- Digits without an `8` are octal. -/
theorem octal_of_not_eight (h : ∀ c ∈ text, isOctal c = true) (height : '8' ∉ text) :
    ∀ c ∈ text, c ∈ ['0', '1', '2', '3', '4', '5', '6', '7'] := by
  intro c hc
  refine (isOctal_iff.mp (h c hc)).resolve_right ?_
  rintro rfl
  exact height hc

theorem ModeText.mono {digit digit' : Char → Prop} {least least' : Nat}
    (hdigit : ∀ c, digit c → digit' c) (hleast : least' ≤ least)
    (h : ModeText digit least text) : ModeText digit' least' text := by
  cases h with
  | empty => exact .empty
  | number hne hmode => exact .number hne (fun c hc => hdigit c (hmode c hc))
  | masked hne hmode hlen hmask =>
      exact .masked hne (fun c hc => hdigit c (hmode c hc)) (hleast.trans hlen)
        (fun c hc => hdigit c (hmask c hc))
  | letters hwho hop hperms => exact .letters hwho hop hperms

/-- The characters of a mode besides digits. -/
def modeLetters : List Char :=
  ['/', 'u', 'g', 'o', 'a', '+', '-', '=', 'r', 'w', 'x', 's', 't']

theorem ModeText.letter {digit : Char → Prop} {least : Nat} (h : ModeText digit least text) :
    ∀ c ∈ text, digit c ∨ c ∈ modeLetters := by
  intro c hc
  cases h with
  | empty => cases hc
  | number hne hmode => exact Or.inl (hmode c hc)
  | masked hne hmode hleast hmask =>
      rcases List.mem_append.mp hc with hc | hc
      · exact Or.inl (hmode c hc)
      · rcases List.mem_cons.mp hc with rfl | hc
        · exact Or.inr (by simp [modeLetters])
        · exact Or.inl (hmask c hc)
  | letters hwho hop hperms =>
      right
      rcases List.mem_append.mp hc with hc | hc
      · rcases who_cases (hwho c hc) with rfl | rfl | rfl | rfl <;> simp [modeLetters]
      · rcases List.mem_cons.mp hc with rfl | hc
        · rcases op_cases hop with rfl | rfl | rfl <;> simp [modeLetters]
        · rcases perm_cases (hperms c hc) with rfl | rfl | rfl | rfl | rfl <;> simp [modeLetters]

/-- A documented text has no `8` in it. -/
theorem ModeGrammar.no_eight (h : ModeGrammar text) : '8' ∉ text := by
  intro height
  have hletter := h.letter '8' height
  simp [modeLetters] at hletter

/-- A documented text does not end with the slash. -/
theorem ModeGrammar.no_slash (h : ModeGrammar text) : text.getLast? ≠ some '/' := by
  intro hlast
  cases h with
  | empty => cases hlast
  | number hne hmode => simpa using hmode '/' (List.mem_of_getLast? hlast)
  | @masked mode mask hne hmode hleast hmask =>
      cases mask with
      | nil => exact absurd hleast (Nat.not_succ_le_zero 0)
      | cons c mask =>
          rw [List.append_cons, List.getLast?_append_cons] at hlast
          simpa using hmask '/' (List.mem_of_getLast? hlast)
  | letters hwho hop hperms =>
      rw [List.getLast?_append_cons] at hlast
      rcases List.mem_cons.mp (List.mem_of_getLast? hlast) with rfl | hmem
      · simp at hop
      · simpa using hperms '/' hmem

/-- A text of the loader's grammar is documented, or it is misread. -/
theorem ModeText.documented_or_misread (h : ModeText (fun c => isOctal c = true) 0 text) :
    ModeGrammar text ∨ Misread text := by
  cases h with
  | empty => exact Or.inl .empty
  | number hne hmode =>
      by_cases height : '8' ∈ text
      · exact Or.inr (.number hmode height)
      · exact Or.inl (.number hne (octal_of_not_eight hmode height))
  | @masked mode mask hne hmode hleast hmask =>
      by_cases hwrong : '8' ∈ mode ∨ '8' ∈ mask ∨ mask = []
      · exact Or.inr (.masked hne hmode hmask hwrong)
      · simp only [not_or] at hwrong
        obtain ⟨hmode8, hmask8, hsome⟩ := hwrong
        exact Or.inl (.masked hne (octal_of_not_eight hmode hmode8)
          (List.length_pos_of_ne_nil hsome) (octal_of_not_eight hmask hmask8))
  | letters hwho hop hperms => exact Or.inl (.letters hwho hop hperms)

end Grammar

/-! ## What is read as a mode -/

section Reading

variable {text : List Char}

theorem readOctal_left (n : BitVec 32) (text : List Char) :
    (readOctal n text).2 = text.dropWhile isOctal := by
  induction text generalizing n with
  | nil => rfl
  | cons c rest ih =>
      rw [readOctal, List.dropWhile_cons]
      split
      · exact ih _
      · rfl

theorem readOctal_all (n : BitVec 32) (h : ∀ c ∈ text, isOctal c = true) :
    (readOctal n text).2 = [] := by
  rw [readOctal_left, List.dropWhile_eq_nil_iff]
  exact h

theorem readWho_letters (hwho : ∀ c ∈ text, c ∈ ['u', 'g', 'o', 'a']) (flags : BitVec 32) :
    ∃ flags', readWho flags text = .ok (flags', none, []) := by
  induction text generalizing flags with
  | nil => exact ⟨flags, rfl⟩
  | cons c rest ih =>
      obtain ⟨hc, hrest⟩ := List.forall_mem_cons.mp hwho
      rcases who_cases hc with rfl | rfl | rfl | rfl <;> exact ih hrest _

theorem readWho_cases (flags : BitVec 32) (text : List Char) :
    (∃ flags', readWho flags text = .ok (flags', none, []) ∧
        ∀ c ∈ text, c ∈ ['u', 'g', 'o', 'a']) ∨
      (∃ flags' who op perms, readWho flags text = .ok (flags', some op, perms) ∧
        text = who ++ op :: perms ∧ (∀ c ∈ who, c ∈ ['u', 'g', 'o', 'a']) ∧
        op ∈ ['+', '-', '=']) ∨
      ∃ what, readWho flags text = .error (.invalidParameter what) := by
  induction text generalizing flags with
  | nil => exact Or.inl ⟨flags, rfl, by simp⟩
  | cons c rest ih =>
      rcases whoStep_cases "" flags c with
        ⟨flags', hc, -, hread⟩ | ⟨flags', hop, -, hread⟩ | ⟨what, -, hread⟩
      · rw [hread]
        rcases ih flags' with
          ⟨flags₁, hend, hall⟩ | ⟨flags₁, who, op, perms, hend, rfl, hwho, hop⟩ | hbad
        · exact Or.inl ⟨flags₁, hend, List.forall_mem_cons.mpr ⟨hc, hall⟩⟩
        · exact Or.inr (Or.inl ⟨flags₁, c :: who, op, perms, hend, rfl,
            List.forall_mem_cons.mpr ⟨hc, hwho⟩, hop⟩)
        · exact Or.inr (Or.inr hbad)
      · exact Or.inr (Or.inl ⟨flags', [], c, rest, hread rest, rfl, by simp, hop⟩)
      · exact Or.inr (Or.inr ⟨what, hread rest⟩)

theorem readPerms_cases (mode upper : BitVec 32) (text : List Char) :
    (∃ pair, readPerms mode upper text = .ok pair ∧
        ∀ c ∈ text, c ∈ ['r', 'w', 'x', 's', 't']) ∨
      ∃ what, readPerms mode upper text = .error (.invalidParameter what) := by
  induction text generalizing mode upper with
  | nil => exact Or.inl ⟨(mode, upper), rfl, by simp⟩
  | cons c rest ih =>
      rcases permStep_cases mode upper c with ⟨mode', upper', hc, -, hread⟩ | ⟨what, -, hread⟩
      · rw [hread]
        rcases ih mode' upper' with ⟨pair, hend, hall⟩ | hbad
        · exact Or.inl ⟨pair, hend, List.forall_mem_cons.mpr ⟨hc, hall⟩⟩
        · exact Or.inr hbad
      · exact Or.inr ⟨what, hread rest⟩

/-- The text is a mode, it names someone and ends, or it is refused. -/
def ReadAs (text : List Char) (result : Except LogError (BitVec 32 × BitVec 32)) : Prop :=
  (∃ pair, result = .ok pair ∧ ModeText (fun c => isOctal c = true) 0 text) ∨
    (∃ what, result = .error (.logicError what) ∧ Misread text) ∨
    ∃ what, result = .error (.invalidParameter what)

theorem numericMode_readAs (filename modeText : String) {c : Char} {rest : List Char}
    (hc : isOctal c = true) :
    ReadAs (c :: rest) (numericMode filename modeText (c :: rest)) := by
  have hleft := readOctal_left 0 (c :: rest)
  have hsplit := List.takeWhile_append_dropWhile (p := isOctal) (l := c :: rest)
  have hdigits : ∀ x ∈ (c :: rest).takeWhile isOctal, isOctal x = true :=
    fun x hx => List.mem_takeWhile_imp hx
  have hne : (c :: rest).takeWhile isOctal ≠ [] := by
    rw [List.takeWhile_cons_of_pos hc]
    exact List.cons_ne_nil _ _
  rw [← hleft] at hsplit
  rcases hcase : (readOctal 0 (c :: rest)).2 with _ | ⟨x, mask⟩
  · rw [numericMode_end hcase]
    rw [hcase, List.append_nil] at hsplit
    rw [hsplit] at hdigits
    exact Or.inl ⟨_, rfl, .number (List.cons_ne_nil _ _) hdigits⟩
  · by_cases hslash : x = '/'
    · subst hslash
      rw [numericMode_slash hcase]
      by_cases hmask : (readOctal 0 mask).2 = []
      · rw [if_pos hmask]
        rw [readOctal_left, List.dropWhile_eq_nil_iff] at hmask
        refine Or.inl ⟨_, rfl, ?_⟩
        rw [← hsplit, hcase]
        exact .masked hne hdigits (Nat.zero_le _) hmask
      · rw [if_neg hmask]
        exact Or.inr (Or.inr ⟨_, rfl⟩)
    · rw [numericMode_other hcase hslash]
      exact Or.inr (Or.inr ⟨_, rfl⟩)

theorem symbolicMode_readAs (hne : text ≠ []) : ReadAs text (symbolicMode text) := by
  rw [symbolicMode]
  rcases readWho_cases 0 text with
    ⟨flags, hread, hall⟩ | ⟨flags, who, op, perms, hread, rfl, hwho, hop⟩ | ⟨what, hread⟩
  · rw [hread]
    exact Or.inr (Or.inl ⟨_, rfl, .noOperator hne hall⟩)
  · rw [hread, ok_bind]
    dsimp only
    rcases readPerms_cases 0 0 perms with ⟨pair, hend, hperms⟩ | ⟨what, hend⟩
    · rw [hend, ok_bind, applyOperator_eq hop]
      exact Or.inl ⟨_, rfl, .letters hwho hop hperms⟩
    · rw [hend]
      exact Or.inr (Or.inr ⟨what, rfl⟩)
  · rw [hread]
    exact Or.inr (Or.inr ⟨what, rfl⟩)

/-- **What becomes of a text.** -/
theorem parseMode_readAs (filename : String) (text : List Char) :
    ReadAs text (parseMode filename (String.ofList text)) := by
  rw [parseMode, String.toList_ofList]
  cases text with
  | nil => exact Or.inl ⟨_, rfl, .empty⟩
  | cons c rest =>
      dsimp only
      by_cases hc : isOctal c = true
      · rw [if_pos hc]
        exact numericMode_readAs filename _ hc
      · rw [if_neg hc]
        exact symbolicMode_readAs (List.cons_ne_nil c rest)

theorem parseMode_numeric (filename : String) {c : Char} {rest : List Char}
    (hc : isOctal c = true) (htext : text = c :: rest) :
    parseMode filename (String.ofList text) =
      numericMode filename (String.ofList text) text := by
  rw [parseMode, String.toList_ofList, htext]
  exact if_pos hc

/-- The texts of the loader's grammar are read. -/
theorem parseMode_text (filename : String) (h : ModeText (fun c => isOctal c = true) 0 text) :
    ∃ pair, parseMode filename (String.ofList text) = .ok pair := by
  cases h with
  | empty => exact ⟨_, rfl⟩
  | number hne hmode =>
      rw [parseMode_numeric filename (hmode _ (List.head_mem hne)) (List.cons_head_tail hne).symm]
      exact ⟨_, numericMode_end (readOctal_all 0 hmode)⟩
  | @masked mode mask hne hmode hleast hmask =>
      have hleft : (readOctal 0 (mode ++ '/' :: mask)).2 = '/' :: mask := by
        rw [readOctal_left, List.dropWhile_append_of_pos hmode]
        rfl
      have hsplit : mode ++ '/' :: mask = mode.head hne :: (mode.tail ++ '/' :: mask) := by
        rw [← List.cons_append, List.cons_head_tail]
      rw [parseMode_numeric filename (hmode _ (List.head_mem hne)) hsplit, numericMode_slash hleft,
        if_pos (readOctal_all 0 hmask)]
      exact ⟨_, rfl⟩
  | @letters who perms op hwho hop hperms =>
      rw [parseMode_word filename hwho hop, symbolicMode_word hwho hop hperms, applyOperator_eq hop]
      exact ⟨_, rfl⟩

/-- Letters without an operator get to the last `switch`. -/
theorem parseMode_letters (filename : String) (hne : text ≠ [])
    (hwho : ∀ c ∈ text, c ∈ ['u', 'g', 'o', 'a']) :
    ∃ what, parseMode filename (String.ofList text) = .error (.logicError what) := by
  obtain ⟨flags, hread⟩ := readWho_letters hwho 0
  have hfirst : isOctal (text.head hne) = false := by
    rcases who_cases (hwho _ (List.head_mem hne)) with h | h | h | h <;> rw [h] <;> rfl
  rw [parseMode, String.toList_ofList, ← List.cons_head_tail hne]
  dsimp only
  rw [if_neg (Bool.eq_false_iff.mp hfirst), List.cons_head_tail hne, symbolicMode, hread]
  exact ⟨_, rfl⟩

end Reading

/-! ## The mode of a file -/

/-- What is expected of a file with this text as its mode. -/
structure ModeSettled (host : LogHost) (file : LogFile) (result : List LogDefinition)
    (text : List Char) : Prop where
  accepted : (∃ loaded, file.loadConfig host result = .ok loaded) ↔ ModeGrammar text
  refused : ¬ ModeGrammar text →
    ∃ what, file.loadConfig host result = .error (.invalidParameter what)
  expected : ∀ what, file.loadConfig host result ≠ .error (.logicError what)
  inside : ∀ j, scanMode file.filename (String.ofList text) ≠ .error (.past j)

section File

variable {host : LogHost} {file : LogFile} {result : List LogDefinition}

theorem loadConfig_modeError {text : String} {e : LogError} {loaded : List LogDefinition}
    (hmode : file.params "mode" = some text)
    (hparse : parseMode file.filename (host.trimString text) = .error e)
    (hrest : file.withoutMode.loadConfig host result = .ok loaded) :
    file.loadConfig host result = .error e := by
  obtain ⟨name, hname, hrest⟩ := bind_eq_ok.mp hrest
  obtain ⟨wl, hsize, -⟩ := bind_eq_ok.mp hrest
  rw [readName_withoutMode] at hname
  rw [readTexts_withoutMode, readMaxSize_withoutMode] at hsize
  have hread : file.readMode host wl = .error e := by
    simp only [LogFile.readMode, hmode, hparse, Except.map]
  rw [LogFile.loadConfig, hname, ok_bind, hsize, ok_bind, hread]
  rfl

theorem loadConfig_parse {modeText : String} {text : List Char}
    (hmode : file.params "mode" = some modeText)
    (htext : host.trimString modeText = String.ofList text)
    (hrest : ∃ loaded, file.withoutMode.loadConfig host result = .ok loaded) :
    (∀ pair, parseMode file.filename (String.ofList text) = .ok pair →
        ∃ loaded, file.loadConfig host result = .ok loaded) ∧
      ∀ e, parseMode file.filename (String.ofList text) = .error e →
        file.loadConfig host result = .error e := by
  obtain ⟨loaded, hrest⟩ := hrest
  rw [← htext]
  constructor
  · intro pair hparse
    obtain ⟨d, hload⟩ := loadConfig_mode hmode hparse hrest
    exact ⟨_, hload⟩
  · intro e hparse
    exact loadConfig_modeError hmode hparse hrest

/-- A text that is misread is accepted although it is not documented, or gets
to the last `switch`. -/
theorem ModeSettled.not_misread {text : List Char}
    (hok : ∀ pair, parseMode file.filename (String.ofList text) = .ok pair →
      ∃ loaded, file.loadConfig host result = .ok loaded)
    (herror : ∀ e, parseMode file.filename (String.ofList text) = .error e →
      file.loadConfig host result = .error e)
    (h : ModeSettled host file result text) : ¬ Misread text := by
  intro hmisread
  have hread : ModeText (fun c => isOctal c = true) 0 text → ModeGrammar text := by
    intro hloader
    obtain ⟨pair, hparse⟩ := parseMode_text file.filename hloader
    exact h.accepted.mp (hok pair hparse)
  cases hmisread with
  | number hdigits height =>
      exact (hread (.number (List.ne_nil_of_mem height) hdigits)).no_eight height
  | @masked mode mask hne hdigits hmask hwrong =>
      have hdocumented := hread (.masked hne hdigits (Nat.zero_le _) hmask)
      rcases hwrong with height | height | rfl
      · exact hdocumented.no_eight (List.mem_append_left _ height)
      · exact hdocumented.no_eight (List.mem_append_right _ (List.mem_cons_of_mem _ height))
      · exact hdocumented.no_slash List.getLast?_concat
  | noOperator hne hwho =>
      obtain ⟨what, hparse⟩ := parseMode_letters file.filename hne hwho
      exact h.expected what (herror _ hparse)

/-- The scan does not read past the end. -/
theorem scanMode_inside (filename modeText : String) (j : Nat) :
    scanMode filename modeText ≠ .error (.past j) := by
  intro hpast
  rw [scanMode_eq] at hpast
  cases hparse : parseMode filename modeText <;> rw [hparse] at hpast <;> cases hpast

/-- **What is expected of a mode is right exactly for the texts that are not
misread.** -/
theorem modeSettled_iff (host : LogHost) (file : LogFile) (result : List LogDefinition)
    {modeText : String} {text : List Char} (hmode : file.params "mode" = some modeText)
    (htext : host.trimString modeText = String.ofList text)
    (hrest : ∃ loaded, file.withoutMode.loadConfig host result = .ok loaded) :
    ModeSettled host file result text ↔ ¬ Misread text := by
  obtain ⟨hok, herror⟩ := loadConfig_parse hmode htext hrest
  refine ⟨ModeSettled.not_misread hok herror, ?_⟩
  intro hmisread
  have hinside := scanMode_inside file.filename (String.ofList text)
  have hloads : ModeGrammar text → ∃ loaded, file.loadConfig host result = .ok loaded := by
    intro hgrammar
    obtain ⟨pair, hparse⟩ := parseMode_text file.filename
      (hgrammar.mono (fun c hc => isOctal_iff.mpr (Or.inl hc)) (Nat.zero_le 1))
    exact hok pair hparse
  rcases parseMode_readAs file.filename text with
    ⟨pair, hparse, hloader⟩ | ⟨what, hparse, hwrong⟩ | ⟨what, hparse⟩
  · have hgrammar : ModeGrammar text := hloader.documented_or_misread.resolve_right hmisread
    obtain ⟨loaded, hload⟩ := hok pair hparse
    refine ⟨iff_of_true ⟨loaded, hload⟩ hgrammar, fun hnot => absurd hgrammar hnot, ?_, hinside⟩
    intro what herr
    rw [hload] at herr
    cases herr
  · exact absurd hwrong hmisread
  · have hload := herror _ hparse
    have hnot : ¬ ∃ loaded, file.loadConfig host result = .ok loaded := by
      rintro ⟨loaded, hloaded⟩
      rw [hload] at hloaded
      cases hloaded
    refine ⟨iff_of_false hnot (fun h => hnot (hloads h)), fun _ => ⟨what, hload⟩, ?_, hinside⟩
    intro what' herr
    rw [hload] at herr
    cases herr

/-- The mode of programs that run as their owner. -/
theorem modeSettled_set_id : ModeSettled .plain (.ofMode "ug+s") [] ['u', 'g', '+', 's'] := by
  refine (modeSettled_iff .plain (.ofMode "ug+s") [] rfl rfl ⟨_, rfl⟩).mpr ?_
  intro h
  obtain hdigits | hdigits := h.starts
  · exact absurd (hdigits 'u' rfl) (by decide)
  · exact absurd (hdigits '+' (by simp)) (by simp)

/-- `0648` is read as a mode. -/
theorem modeSettled_eight : ¬ ModeSettled .plain (.ofMode "0648") [] ['0', '6', '4', '8'] := by
  intro h
  exact (h.accepted.mp ⟨_, rfl⟩).no_eight (by simp)

end File

end Sitter
