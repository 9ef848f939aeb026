/-
# `Sitter.MeminfoErrors` — what is made of a `/proc/meminfo` with errors

A structure that `get_meminfo` returns is valid if the file was read without any
error.  Errors come from two sides:

    a line of more than 255 characters,     a structure that was just
    an error of the file                    initialized is returned
    a value of a known name that is no      `std::stoll` decides
    decimal number in 64 bits

`std::stoll` throws where a value does not start with a number or the number is
out of range, and nothing catches it.  It takes a value that starts with a
number and goes on with something else, and the structure is filled with it.

So the errors are reported as they should be exactly if (`meminfoErrors_iff`)
no value before the first failure makes it throw, and, where the file is read
to its end, no value is wrong or what is left is zero in every member.
-/
import Sitter.Meminfo

namespace Sitter

open LastWrite

/-! ## What is expected -/

/-- Digits, and the value with a sign, in the range of 64 bits. -/
def signedDigits (negative : Bool) (digits : List Char) : Option Int :=
  if digits ≠ [] ∧ digits.all Char.isDigit then
    let n : Int := Nat.ofDigitChars 10 digits 0
    let value := if negative then -n else n
    if -2 ^ 63 ≤ value ∧ value < 2 ^ 63 then some value else none
  else none

/-- A decimal number in 64 bits, with a sign or without. -/
def decimal64 (text : String) : Option Int :=
  match text.toList with
  | '-' :: digits => signedDigits true digits
  | '+' :: digits => signedDigits false digits
  | digits => signedDigits false digits

/-- The line is one of a known name, with a value that is no such number. -/
def WrongValue (line : List Char) : Prop :=
  ∃ name value unit, lineTokens line = name :: value :: unit ∧
    (∃ f : MemField, f.IsNamed name) ∧ decimal64 value = none

namespace MeminfoFile

variable (file : MeminfoFile)

def lines : List (List Char) := Lines.lines '\n' file.contents

def unreadable : Bool := Lines.unreadable '\n' 256 file.broken file.contents

def readable : List (List Char) := Lines.readable '\n' 256 file.broken file.contents

end MeminfoFile

/-- The function returns, and what it returns of a file with errors is a
structure that was just initialized. -/
def MeminfoReported (tokenize : TokenizeString) (file : MeminfoFile) : Prop :=
  ∃ info, getMeminfo tokenize (some file) = .ok info ∧
    ((∃ line ∈ file.lines, WrongValue line) ∨ file.unreadable = true →
      info = Meminfo.initial ∧ info.isValid = false)

/-! ## The condition

`std::stoll` throws on a text without digits and on a number that does not fit,
and nothing catches what it throws.  What it accepts beyond decimal numbers is
read without an error. -/

/-- The line is one of a known name, as far as its first NUL, with a value that
`std::stoll` throws on. -/
def ThrowingValue (line : List Char) : Prop :=
  ∃ name value unit e, lineTokens (cString line) = name :: value :: unit ∧
    (∃ f : MemField, f.IsNamed name) ∧ stoll value = .error e

/-- The condition on a file: no value before the first failure throws, and there
is a failure, no wrong value, or only zeros are left. -/
structure MeminfoFine (file : MeminfoFile) : Prop where
  calm : ∀ line ∈ file.readable, ¬ ThrowingValue line
  harmless : file.unreadable = true ∨ (∀ line ∈ file.lines, ¬ WrongValue line) ∨
    ∀ f, (lastWrite (file.lines.filterMap lineGiven) f).getD 0 = 0

/-! ## The two agree -/

section Errors

variable {tokenize : TokenizeString} {file : MeminfoFile} {line : List Char}

/-- A line throws where its value does. -/
theorem throwing_iff : ThrowingValue line ↔ ∃ e, lineWrite (cString line) = .error e := by
  constructor
  · rintro ⟨name, value, unit, e, htokens, ⟨f, hnamed⟩, hthrows⟩
    refine ⟨e, ?_⟩
    rw [lineWrite, htokens]
    simp only [lookup_iff.mpr hnamed, hthrows, Except.map]
  · rintro ⟨e, he⟩
    rw [lineWrite] at he
    rcases htokens : lineTokens (cString line) with _ | ⟨name, _ | ⟨value, unit⟩⟩
    · rw [htokens] at he
      cases he
    · rw [htokens] at he
      cases he
    · simp only [htokens] at he
      cases ho : nameToOffset.lookup (tolower name) with
      | none =>
          rw [ho] at he
          cases he
      | some o =>
          cases hthrows : stoll value with
          | ok n =>
              rw [ho, hthrows] at he
              cases he
          | error e' => exact ⟨name, value, unit, e', htokens, ⟨o, lookup_iff.mp ho⟩, hthrows⟩

theorem lineWrite_calm (h : ¬ ThrowingValue line) :
    lineWrite (cString line) = .ok (lineGiven line) := by
  cases hwrite : lineWrite (cString line) with
  | error e => exact absurd (throwing_iff.mpr ⟨e, hwrite⟩) h
  | ok w => rw [lineGiven, hwrite]

theorem getMeminfo_calm (htokens : SplitsTokens tokenize)
    (h : ∀ line ∈ file.readable, ¬ ThrowingValue line) :
    getMeminfo tokenize (some file) = .ok (if file.unreadable then Meminfo.initial
      else fun f => (lastWrite (file.lines.filterMap lineGiven) f).getD 0) := by
  have hwrite : ∀ line ∈ file.readable, lineWrite (cString line) = .ok (lineGiven line) :=
    fun line hline => lineWrite_calm (h line hline)
  have hfold := foldlM_update hwrite Meminfo.initial
  rw [MeminfoFile.readable] at hfold
  rw [getMeminfo_eq htokens, hfold]
  refine congrArg Except.ok ?_
  cases hfailure : file.unreadable with
  | true => exact if_pos hfailure
  | false =>
      have hlines : file.readable = file.lines := Lines.readable_eq_lines hfailure
      rw [← hlines]
      exact if_neg (Bool.eq_false_iff.mp hfailure)

theorem calm_of_ok (htokens : SplitsTokens tokenize) {info : Meminfo}
    (h : getMeminfo tokenize (some file) = .ok info) :
    ∀ line ∈ file.readable, ¬ ThrowingValue line := by
  rw [getMeminfo_eq htokens] at h
  intro line hline hthrows
  obtain ⟨e, he⟩ := throwing_iff.mp hthrows
  cases hfold : (Lines.readable '\n' 256 file.broken file.contents).foldlM (fun info line =>
      (lineWrite (cString line)).map fun w =>
        w.elim info fun w => Function.update info w.1 w.2) Meminfo.initial with
  | error e' =>
      rw [hfold] at h
      cases h
  | ok info' =>
      obtain ⟨w, hw⟩ := foldlM_update_ok hfold line hline
      rw [hw] at he
      cases he

end Errors

/-- **A file is reported as it should be exactly on the condition.** -/
theorem meminfoErrors_iff (tokenize : TokenizeString) (htokens : SplitsTokens tokenize)
    (file : MeminfoFile) : MeminfoReported tokenize file ↔ MeminfoFine file := by
  constructor
  · rintro ⟨info, hread, hreported⟩
    have hcalm := calm_of_ok htokens hread
    refine ⟨hcalm, ?_⟩
    rw [getMeminfo_calm htokens hcalm] at hread
    cases hfailure : file.unreadable with
    | true => exact Or.inl rfl
    | false =>
        refine Or.inr (or_iff_not_imp_left.mpr ?_)
        intro hwrong f
        have hsome : ∃ line ∈ file.lines, WrongValue line := by
          by_contra hnone
          exact hwrong fun line hline h => hnone ⟨line, hline, h⟩
        obtain ⟨hinitial, -⟩ := hreported (Or.inl hsome)
        rw [hfailure] at hread
        have hinfo := Except.ok.inj hread
        rw [hinitial] at hinfo
        exact congrFun hinfo f
  · intro h
    refine ⟨_, getMeminfo_calm htokens h.calm, ?_⟩
    intro herror
    have hinitial : (if file.unreadable then Meminfo.initial
        else fun f => (lastWrite (file.lines.filterMap lineGiven) f).getD 0) = Meminfo.initial := by
      rcases h.harmless with hfailure | hright | hzero
      · exact if_pos hfailure
      · rcases herror with ⟨line, hline, hwrong⟩ | hfailure
        · exact absurd hwrong (hright line hline)
        · exact if_pos hfailure
      · rw [ite_eq_left_iff]
        intro _
        funext f
        exact hzero f
    rw [hinitial]
    exact ⟨rfl, rfl⟩

theorem calm_of_write {line : List Char} {w : Option (MemField × Int)}
    (h : lineWrite (cString line) = .ok w) : ¬ ThrowingValue line := by
  rw [throwing_iff, h]
  rintro ⟨e, he⟩
  cases he

/-- A file of one good line, with an error after it. -/
theorem meminfoErrors_broken :
    MeminfoReported tokenizeLine ⟨"MemTotal: 16 kB\nMemFree: 1".toList, true⟩ := by
  refine (meminfoErrors_iff tokenizeLine tokenizeLine_splits _).mpr ⟨?_, Or.inl rfl⟩
  have hreadable : MeminfoFile.readable ⟨"MemTotal: 16 kB\nMemFree: 1".toList, true⟩ =
      ["MemTotal: 16 kB".toList] := by
    decide
  have hwrite : lineWrite (cString "MemTotal: 16 kB".toList) = .ok (some (.memTotal, 16000)) := by
    decide
  rw [hreadable]
  exact List.forall_mem_singleton.mpr (calm_of_write hwrite)

/-- A value that is no number, which throws, and one with a letter after the
number, which is taken. -/
theorem meminfoErrors_letters :
    ¬ MeminfoReported tokenizeLine ⟨"MemTotal: x".toList, false⟩ ∧
      ¬ MeminfoReported tokenizeLine ⟨"MemTotal: 12a".toList, false⟩ := by
  constructor
  · rintro ⟨info, hread, -⟩
    have hthrows : ThrowingValue "MemTotal: x".toList :=
      ⟨"MemTotal", "x", [], .invalidArgument, by decide, ⟨.memTotal, rfl⟩, by decide⟩
    refine calm_of_ok tokenizeLine_splits hread _ ?_ hthrows
    decide
  · rintro ⟨info, hread, hreported⟩
    have hlines : MeminfoFile.readable ⟨"MemTotal: 12a".toList, false⟩ =
        ["MemTotal: 12a".toList] := by decide
    have hwrite : lineWrite (cString "MemTotal: 12a".toList) = .ok (some (.memTotal, 12)) := by
      decide
    have hwrong : WrongValue "MemTotal: 12a".toList :=
      ⟨"MemTotal", "12a", [], by decide, ⟨.memTotal, rfl⟩, by decide⟩
    have hcalm : ∀ line ∈ MeminfoFile.readable ⟨"MemTotal: 12a".toList, false⟩,
        ¬ ThrowingValue line := by
      rw [hlines]
      exact List.forall_mem_singleton.mpr (calm_of_write hwrite)
    rw [getMeminfo_calm tokenizeLine_splits hcalm] at hread
    obtain ⟨hinitial, -⟩ := hreported (Or.inl ⟨_, List.mem_cons_self, hwrong⟩)
    rw [hinitial] at hread
    have htotal := congrFun (Except.ok.inj hread) .memTotal
    exact absurd htotal (by decide)

end Sitter
