/-
# `Sitter.NumericMode` — modes written with octal digits

`M/K` asks for the bits `M` under the mask `K`, and without a mask for exactly
the bits `M`.  The loader reads the two numbers as they are (`numericMode_word`)
and stores them as a pair, and 0 then stands for two things more:

    a mode of 0     nothing is asked for
    a mask of 0     there is no mask

So a file that others must not be able to write, `0/0002`, is never wrong.  The
error is the one that is asked for exactly if both numbers are 0 or neither is
(`numericMode_iff`).
-/
import Sitter.LogMode

namespace Sitter

/-! ## What the digits ask for -/

structure OctalNumber (word : List Char) : Prop where
  nonempty : word ≠ []
  short : word.length ≤ 4
  digits : ∀ c ∈ word, c ∈ ['0', '1', '2', '3', '4', '5', '6', '7']

def octalBits (word : List Char) : BitVec 32 := BitVec.ofNat 32 (Nat.ofDigitChars 8 word 0)

/-- The mask that is written, or all permissions. -/
def maskBits : Option (List Char) → BitVec 32
  | none => 0o7777
  | some word => octalBits word

/-- A mode, and the mask if there is one. -/
def numericText (mode : List Char) : Option (List Char) → List Char
  | none => mode
  | some mask => mode ++ '/' :: mask

/-- The bits of the file under the mask are not those of the mode. -/
def NumericMismatch (mode : List Char) (mask : Option (List Char)) (m : BitVec 32) : Prop :=
  m &&& maskBits mask ≠ octalBits mode

/-! ## What the loader reads -/

section Digits

variable {word mode : List Char}

theorem digit_isOctal {c : Char} (h : c ∈ ['0', '1', '2', '3', '4', '5', '6', '7']) :
    isOctal c = true ∧ c.toNat - '0'.toNat < 8 := by
  simp only [List.mem_cons, List.not_mem_nil, or_false] at h
  rcases h with rfl | rfl | rfl | rfl | rfl | rfl | rfl | rfl <;> decide

theorem readOctal_word (hword : ∀ c ∈ word, c ∈ ['0', '1', '2', '3', '4', '5', '6', '7'])
    (n : Nat) (rest : List Char) :
    readOctal (BitVec.ofNat 32 n) (word ++ rest) =
      readOctal (BitVec.ofNat 32 (Nat.ofDigitChars 8 word n)) rest := by
  induction word generalizing n with
  | nil => rw [List.nil_append, Nat.ofDigitChars_nil]
  | cons c word ih =>
      obtain ⟨hc, hword⟩ := List.forall_mem_cons.mp hword
      have hstep : BitVec.ofNat 32 n * 8 + BitVec.ofNat 32 (c.toNat - '0'.toNat) =
          BitVec.ofNat 32 (8 * n + (c.toNat - '0'.toNat)) := by
        rw [BitVec.ofNat_add, BitVec.ofNat_mul, BitVec.mul_comm]
        rfl
      rw [List.cons_append, readOctal, if_pos (digit_isOctal hc).1, hstep, ih hword,
        Nat.ofDigitChars_cons]

theorem ofDigitChars_lt (hword : ∀ c ∈ word, c ∈ ['0', '1', '2', '3', '4', '5', '6', '7'])
    (n : Nat) : Nat.ofDigitChars 8 word n < 8 ^ word.length * (n + 1) := by
  induction word generalizing n with
  | nil =>
      rw [Nat.ofDigitChars_nil, List.length_nil, pow_zero, one_mul]
      exact Nat.lt_succ_self n
  | cons c word ih =>
      obtain ⟨hc, hword⟩ := List.forall_mem_cons.mp hword
      have hdigit := (digit_isOctal hc).2
      rw [Nat.ofDigitChars_cons, List.length_cons, pow_succ, mul_assoc]
      calc Nat.ofDigitChars 8 word (8 * n + (c.toNat - '0'.toNat))
          < 8 ^ word.length * (8 * n + (c.toNat - '0'.toNat) + 1) := ih hword _
        _ ≤ 8 ^ word.length * (8 * (n + 1)) := Nat.mul_le_mul_left _ (by omega)

theorem octalBits_and (h : OctalNumber word) : octalBits word &&& 0o7777 = octalBits word := by
  have hlt := ofDigitChars_lt h.digits 0
  have hpow : 8 ^ word.length ≤ 8 ^ 4 := Nat.pow_le_pow_right (by decide) h.short
  apply BitVec.eq_of_toNat_eq
  rw [BitVec.toNat_and, octalBits, BitVec.toNat_ofNat]
  show _ &&& (2 ^ 12 - 1) = _
  rw [Nat.and_two_pow_sub_one_eq_mod]
  omega

/-- **The loader reads the two numbers**, and 0 where there is no mask. -/
theorem numericMode_word (filename modeText : String) (hmode : OctalNumber mode)
    {mask : Option (List Char)} (hmask : ∀ word ∈ mask, OctalNumber word) :
    numericMode filename modeText (numericText mode mask) =
      .ok (octalBits mode, mask.elim 0 octalBits) := by
  have hread : ∀ rest, readOctal 0 (mode ++ rest) = readOctal (octalBits mode) rest :=
    fun rest => readOctal_word hmode.digits 0 rest
  cases mask with
  | none =>
      have hend := hread []
      rw [List.append_nil] at hend
      simp only [numericMode, numericText, hend]
      rfl
  | some word =>
      have hend := readOctal_word (hmask word rfl).digits 0 []
      rw [List.append_nil] at hend
      have hslash : readOctal 0 (mode ++ '/' :: word) = (octalBits mode, '/' :: word) := by
        rw [hread]
        rfl
      simp only [numericMode, numericText, hslash]
      rw [show readOctal 0 word = (octalBits word, []) from hend]
      rfl

theorem parseMode_digits (filename : String) (hmode : OctalNumber mode)
    {mask : Option (List Char)} :
    parseMode filename (String.ofList (numericText mode mask)) =
      numericMode filename (String.ofList (numericText mode mask)) (numericText mode mask) := by
  cases mode with
  | nil => exact absurd rfl hmode.nonempty
  | cons c rest =>
      have hstart : ∃ more, numericText (c :: rest) mask = c :: more := by
        cases mask with
        | none => exact ⟨rest, rfl⟩
        | some word => exact ⟨rest ++ '/' :: word, rfl⟩
      obtain ⟨more, hmore⟩ := hstart
      have hoctal := (digit_isOctal (hmode.digits c List.mem_cons_self)).1
      simp only [parseMode, String.toList_ofList, hmore, hoctal, if_true]

end Digits

/-! ## What the pair asks for

The pair asks for what is written, unless one of its two numbers is 0 and the
other is not. -/

/-- The pair compares as asked exactly if both numbers are 0 or neither is.
`stored` is the mask of the pair, where 0 is for all permissions. -/
theorem pairMismatch_numeric {mode mask stored : BitVec 32} (hmode : mode &&& 0o7777 = mode)
    (hstored : (if stored = 0 then 0o7777 else stored) = if mask = 0 then 0o7777 else mask) :
    (∀ m, PairMismatch (mode, stored) m ↔ m &&& mask ≠ mode) ↔ (mode = 0 ↔ mask = 0) := by
  simp only [PairMismatch, hstored]
  by_cases hzero : mode = 0
  · subst hzero
    by_cases hmask : mask = 0
    · subst hmask
      simp
    · -- the file with all the bits of the mask
      refine iff_of_false ?_ (fun h => hmask (h.mp rfl))
      intro h
      refine absurd ((h mask).mpr ?_).1 (fun hne => hne rfl)
      rw [BitVec.and_self]
      exact hmask
  · by_cases hmask : mask = 0
    · subst hmask
      -- the file with just the bits of the mode
      refine iff_of_false ?_ (fun h => hzero (h.mpr rfl))
      intro h
      refine ((h mode).mpr ?_).2 ?_
      · show mode &&& 0#32 ≠ mode
        rw [BitVec.and_zero]
        exact Ne.symm hzero
      · rw [if_pos rfl]
        exact hmode
    · refine iff_of_true ?_ (iff_of_false hzero hmask)
      intro m
      rw [if_neg hmask, and_iff_right hzero]

theorem stored_mask (mask : Option (List Char)) :
    (if mask.elim 0 octalBits = 0 then 0o7777 else mask.elim 0 octalBits) =
      if maskBits mask = 0 then 0o7777 else maskBits mask := by
  cases mask with
  | none => rfl
  | some word => rfl

/-- **A mode written with digits raises the error that is asked for exactly if
the mode and the mask are both 0 or neither is.** -/
theorem numericMode_iff (host : LogHost) (file : LogFile) (result : List LogDefinition)
    {text : String} {mode : List Char} {mask : Option (List Char)} (hmodeWord : OctalNumber mode)
    (hmaskWord : ∀ word ∈ mask, OctalNumber word) (hmode : file.params "mode" = some text)
    (htext : host.trimString text = String.ofList (numericText mode mask))
    (hrest : ∃ loaded, file.withoutMode.loadConfig host result = .ok loaded) :
    ModeErrorIs host file result (NumericMismatch mode mask) ↔
      (octalBits mode = 0 ↔ maskBits mask = 0) := by
  have hparse : parseMode file.filename (host.trimString text) =
      .ok (octalBits mode, mask.elim 0 octalBits) := by
    rw [htext, parseMode_digits file.filename hmodeWord]
    exact numericMode_word _ _ hmodeWord hmaskWord
  rw [modeErrorIs_iff hmode hparse hrest]
  exact pairMismatch_numeric (octalBits_and hmodeWord) (stored_mask mask)

/-- The mode of a log that only its user and its group may write. -/
theorem numericMode_group :
    ModeErrorIs .plain (.ofMode "664/666") []
      (NumericMismatch ['6', '6', '4'] (some ['6', '6', '6'])) := by
  have hmode : OctalNumber ['6', '6', '4'] := ⟨by simp, by simp, by simp⟩
  have hmask : OctalNumber ['6', '6', '6'] := ⟨by simp, by simp, by simp⟩
  refine (numericMode_iff .plain (.ofMode "664/666") [] hmode ?_ rfl rfl ⟨_, rfl⟩).mpr ?_
  · intro word hword
    rwa [← Option.some.inj hword]
  · decide

/-- A file that everyone can write is not wrong under `0/0002`. -/
theorem numericMode_others :
    ¬ ModeErrorIs .plain (.ofMode "0/0002") []
      (NumericMismatch ['0'] (some ['0', '0', '0', '2'])) := by
  have hparse : parseMode "mail.conf" "0/0002" = .ok (0, 2) := rfl
  rw [modeErrorIs_iff rfl hparse ⟨_, rfl⟩]
  intro h
  have hwrong : NumericMismatch ['0'] (some ['0', '0', '0', '2']) 0o100666 := by
    show _ ≠ _
    decide
  exact ((h 0o100666).mpr hwrong).1 rfl

end Sitter
