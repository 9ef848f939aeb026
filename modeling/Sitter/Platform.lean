/-
# `Sitter.Platform` — what sitter takes from outside its own source

Three things the program rests on and does not define itself:

* the machine's integers: `int` and `std::int64_t` are `Int`, wrapped to 32 or
  64 bits where a computation can leave that range (`int32`, `int64`), and the
  conversion of a `double` that has been rounded up (`secondsOf`);
* advgetopt: the two validators and `split_string`.  They are the fields of
  `Advgetopt`, so every result holds for whatever these functions do, and a
  result that needs their documented behaviour says so in a hypothesis
  (`Advgetopt.ReadsBack`, and of the texts at hand `Advgetopt.SplitsTrimmed`);
* the standard library's regular expressions, which may be given a text that is
  no pattern (`Regex`);
* snapdev's `file_contents`: one file is its text, when it exists; whether a
  read or a write goes through is decided outside (`readAll`, `writeAll`).

`Advgetopt.decimal` is one concrete advgetopt, for numbers written in decimal.
-/
import Sitter.Base.Pieces
import Mathlib.Tactic.NormNum
import Mathlib.Tactic.Linarith

namespace Sitter

open Pieces

/-! ## Integers -/

/-- The value an `int` holds after `x` was stored in it. -/
def int32 (x : Int) : Int := x.bmod (2 ^ 32)

/-- The value a `std::int64_t` holds after `x` was stored in it. -/
def int64 (x : Int) : Int := x.bmod (2 ^ 64)

theorem int32_of_range {x : Int} (hlo : -2 ^ 31 ≤ x) (hhi : x < 2 ^ 31) : int32 x = x := by
  simp only [int32]
  exact Int.bmod_eq_of_le_mul_two (by norm_num; omega) (by norm_num; omega)

theorem int64_of_range {x : Int} (hlo : -2 ^ 63 ≤ x) (hhi : x < 2 ^ 63) : int64 x = x := by
  simp only [int64]
  exact Int.bmod_eq_of_le_mul_two (by norm_num; omega) (by norm_num; omega)

theorem int32_lt (x : Int) : int32 x < 2 ^ 31 := by
  have h : x.bmod (2 ^ 32) < _ := Int.bmod_lt (by norm_num)
  simp only [int32]
  norm_num at h ⊢
  omega

theorem int32_succ (x : Int) : int32 (int32 x + 1) = int32 (x + 1) := Int.bmod_add_bmod

/-- `static_cast<std::int64_t>(ceil(duration))`.  A `double` that does not fit
converts to the smallest integer, as the processor does. -/
def secondsOf (duration : Rat) : Int :=
  if -2 ^ 63 ≤ duration.ceil ∧ duration.ceil < 2 ^ 63 then duration.ceil else -2 ^ 63

theorem secondsOf_lt (duration : Rat) : secondsOf duration < 2 ^ 63 := by
  simp only [secondsOf]
  split
  · next h => exact h.2
  · norm_num

/-- The value a `std::uint64_t` holds after `x` was stored in it. -/
def uint64 (x : Int) : Int := x % 2 ^ 64

theorem uint64_of_range {x : Int} (hlo : 0 ≤ x) (hhi : x < 2 ^ 64) : uint64 x = x :=
  Int.emod_eq_of_lt hlo hhi

/-! ## Characters -/

/-- `isspace`, in the "C" locale. -/
def isspace (c : Char) : Bool := c = ' ' ∨ (9 ≤ c.toNat ∧ c.toNat ≤ 13)

/-- What ends a C string. -/
def nul : Char := .ofNat 0

/-! ## advgetopt -/

/-- The functions of advgetopt that sitter calls.  A `convert_string` that
returns `false` leaves its output parameter alone: that is `none`. -/
structure Advgetopt where
  /-- `validator_integer::convert_string` -/
  integer : String → Option Int
  /-- `validator_duration::convert_string`, in seconds -/
  duration : String → Option Rat
  /-- `split_string` -/
  splitString : String → List String → List String
  /-- `is_true` -/
  isTrue : String → Bool

/-- A number written by `std::to_string` is read back by the validator. -/
def Advgetopt.ReadsBack (lib : Advgetopt) : Prop :=
  ∀ t : Int, 0 ≤ t → t < 2 ^ 63 → lib.integer (toString t) = some t

/-- `split_string` returns the trimmed pieces of the text that are not empty.  It
does for a text without quotes, and what is quoted it keeps whole; so this is
asked of the texts at hand only. -/
def Advgetopt.SplitsTrimmed (lib : Advgetopt) (blank : Char → Bool) (text : String) : Prop :=
  ∀ (separator : String) (c : Char), separator.toList = [c] →
    lib.splitString text [separator] = (pieces blank c text.toList).map String.ofList

def decimalNumber (text : String) : Option Int :=
  if text.toList ≠ [] ∧ text.toList.all Char.isDigit then
    some (Nat.ofDigitChars 10 text.toList 0)
  else none

theorem decimalNumber_toString (n : Nat) : decimalNumber (toString (n : Int)) = some (n : Int) := by
  have hlist : (toString (n : Int)).toList = Nat.toDigits 10 n := by
    rw [show toString (n : Int) = n.repr from rfl, Nat.toList_repr]
  have hdigits : (Nat.toDigits 10 n).all Char.isDigit = true :=
    List.all_eq_true.mpr (fun c hc => Nat.isDigit_of_mem_toDigits (by norm_num) (by norm_num) hc)
  simp only [decimalNumber, hlist, hdigits, ne_eq, Nat.toDigits_ne_nil, not_false_eq_true,
    and_self, if_true, Nat.ofDigitChars_ten_toDigits]

/-- The blanks around a piece go. -/
def trimBlanks (text : List Char) : List Char :=
  ((text.dropWhile (· == ' ')).reverse.dropWhile (· == ' ')).reverse

/-- One concrete advgetopt: decimal numbers, durations in seconds, lists of
trimmed pieces that are not empty. -/
def Advgetopt.decimal : Advgetopt where
  integer := decimalNumber
  duration text := (decimalNumber text).map fun n => (n : Rat)
  splitString text separators :=
    let isSeparator c := separators.any fun s => s.toList == [c]
    ((text.toList.splitOnP isSeparator).map trimBlanks).filterMap fun piece =>
      if piece = [] then none else some (String.ofList piece)
  isTrue text := ["true", "on", "yes", "1"].contains text

theorem Advgetopt.decimal_readsBack : Advgetopt.decimal.ReadsBack := by
  intro t ht _
  obtain ⟨n, rfl⟩ := Int.eq_ofNat_of_zero_le ht
  exact decimalNumber_toString n

theorem decimal_splitsTrimmed (text : String) :
    Advgetopt.decimal.SplitsTrimmed (· == ' ') text := by
  intro separator c hc
  have hsep : (fun d => [separator].any fun s => s.toList == [d]) = (· == c) := by
    funext d
    rw [List.any_cons, List.any_nil, Bool.or_false, hc, Bool.eq_iff_iff, beq_iff_eq, beq_iff_eq,
      List.cons_eq_cons, eq_comm]
    exact and_iff_left rfl
  show (((text.toList.splitOnP _).map trimBlanks).filterMap _) = _
  rw [hsep]
  generalize hparts : (text.toList.splitOnP (· == c)).map trimBlanks = parts
  have hpieces : pieces (· == ' ') c text.toList = parts.filter (· ≠ []) := by
    rw [← hparts]
    rfl
  rw [hpieces]
  clear hparts hpieces
  induction parts with
  | nil => rfl
  | cons part parts ih => by_cases h : part = [] <;> simp [h, ih]

/-! ## Regular expressions -/

/-- `std::regex`, with `regex_match`: what a pattern matches, and nothing where
the constructor throws since it is no pattern. -/
abbrev Regex := String → Option (String → Bool)

/-- The exception of a pattern that is none. -/
def regexError : String := "regex_error"

/-- Every text is a pattern, which matches itself. -/
def Regex.plain : Regex := fun pattern => some fun text => text = pattern

/-- The pattern is one, and the text matches it. -/
def Regex.Matches (regex : Regex) (pattern text : String) : Prop :=
  ∃ isMatch, regex pattern = some isMatch ∧ isMatch text = true

/-! ## Configuration files -/

/-- `conf_file`: the parameters of a configuration file. -/
abbrev ConfFile := String → Option String

/-! ## snapdev -/

/-- The functions of snapdev that sitter calls on texts. -/
structure Snapdev where
  /-- `trim_string` -/
  trimString : String → String

/-- `join_strings` -/
def joinStrings (texts : List String) (separator : String) : String :=
  separator.intercalate texts

theorem getElem?_append_text {text : String} (rest : String) {i : Nat} {c : Char}
    (h : text.toList[i]? = some c) : (text ++ rest).toList[i]? = some c := by
  obtain ⟨hlt, -⟩ := List.getElem?_eq_some_iff.mp h
  rw [String.toList_append, List.getElem?_append_left hlt, h]

/-! ## Files -/

/-- `file_contents::read_all` followed by `contents`: the text, when the file
is there and can be read. -/
def readAll (readable : Bool) (file : Option String) : Option String :=
  if readable then file else none

/-- `contents(text)` followed by `write_all`: the file after it. -/
def writeAll (writable : Bool) (file : Option String) (text : String) : Option String :=
  if writable then some text else file

@[simp] theorem readAll_true (file : Option String) : readAll true file = file := rfl

theorem readAll_none (readable : Bool) : readAll readable none = none := by
  cases readable <;> rfl

@[simp] theorem writeAll_true (file : Option String) (text : String) :
    writeAll true file text = some text := rfl

@[simp] theorem writeAll_false (file : Option String) (text : String) :
    writeAll false file text = file := rfl

end Sitter
