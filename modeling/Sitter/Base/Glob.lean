/-
# `Base.Glob` — names that match a shell pattern

A pattern is read once into a list of items, and a name is matched item by
item.  What a pattern can hold:

    *          any text, also none
    ?          any character
    [a-cx]     one of the characters listed, in ranges or by themselves
    c          the character

A bracket that is not closed stands for itself, as in the shell; so does a
closing bracket with no opening one before it.  Negated brackets, character
classes and escapes are not read.
-/
import Mathlib.Data.List.Infix

namespace Glob

inductive Item where
  | char (c : Char)
  | one
  | many
  | oneOf (ranges : List (Char × Char))
  deriving DecidableEq, Repr

/-! ## Reading a pattern -/

/-- The ranges of a bracket expression, and what follows its `]`. -/
def readRanges : List Char → Option (List (Char × Char) × List Char)
  | [] => none
  | ']' :: rest => some ([], rest)
  | a :: '-' :: b :: rest =>
      if b = ']' then some ([(a, a), ('-', '-')], rest)
      else (readRanges rest).map fun r => ((a, b) :: r.1, r.2)
  | a :: rest => (readRanges rest).map fun r => ((a, a) :: r.1, r.2)

/-- The items of a text of at most so many characters. -/
def readItems : Nat → List Char → List Item
  | 0, _ => []
  | _, [] => []
  | n + 1, '*' :: rest => .many :: readItems n rest
  | n + 1, '?' :: rest => .one :: readItems n rest
  | n + 1, '[' :: rest =>
      match readRanges rest with
      | some r => .oneOf r.1 :: readItems n r.2
      | none => .char '[' :: readItems n rest
  | n + 1, c :: rest => .char c :: readItems n rest

/-- The items of a pattern. -/
def items (pattern : String) : List Item := readItems pattern.toList.length pattern.toList

/-! ## Matching a name

The recursion is over the pattern and the name.  A star either matches nothing
or takes one more character. -/

/-- One of the ranges has the character. -/
def inRanges (ranges : List (Char × Char)) (c : Char) : Bool :=
  ranges.any fun r => r.1 ≤ c && c ≤ r.2

def accepts : List Item → List Char → Bool
  | [], cs => cs.isEmpty
  | .many :: is, cs => cs.tails.any (accepts is)
  | .char d :: is, c :: cs => c = d && accepts is cs
  | .one :: is, _ :: cs => accepts is cs
  | .oneOf ranges :: is, c :: cs => inRanges ranges c && accepts is cs
  | _ :: _, [] => false

/-- The name matches the pattern. -/
def nameMatches (pattern name : String) : Bool := accepts (items pattern) name.toList

variable {is : List Item} {cs : List Char}

theorem accepts_char {d : Char} :
    accepts (.char d :: is) cs = true ↔ ∃ rest, cs = d :: rest ∧ accepts is rest = true := by
  cases cs with
  | nil => simp [accepts]
  | cons c cs =>
      simp only [accepts, Bool.and_eq_true, decide_eq_true_eq, List.cons.injEq]
      constructor
      · rintro ⟨rfl, h⟩
        exact ⟨cs, ⟨rfl, rfl⟩, h⟩
      · rintro ⟨rest, ⟨rfl, rfl⟩, h⟩
        exact ⟨rfl, h⟩

theorem accepts_oneOf {ranges : List (Char × Char)} :
    accepts (.oneOf ranges :: is) cs = true ↔
      ∃ c rest, cs = c :: rest ∧ inRanges ranges c = true ∧ accepts is rest = true := by
  cases cs with
  | nil => simp [accepts]
  | cons c cs =>
      simp only [accepts, Bool.and_eq_true, List.cons.injEq]
      constructor
      · rintro ⟨hc, h⟩
        exact ⟨c, cs, ⟨rfl, rfl⟩, hc, h⟩
      · rintro ⟨_, rest, ⟨rfl, rfl⟩, hc, h⟩
        exact ⟨hc, h⟩

/-- A star takes what is left over by a match of the rest. -/
theorem accepts_many :
    accepts (.many :: is) cs = true ↔
      ∃ skipped rest, cs = skipped ++ rest ∧ accepts is rest = true := by
  simp only [accepts, List.any_eq_true, List.mem_tails]
  constructor
  · rintro ⟨rest, ⟨skipped, rfl⟩, h⟩
    exact ⟨skipped, rest, rfl, h⟩
  · rintro ⟨skipped, rest, rfl, h⟩
    exact ⟨rest, ⟨skipped, rfl⟩, h⟩

/-- Characters match themselves only. -/
theorem accepts_chars {text : List Char} :
    accepts (text.map .char) cs = true ↔ cs = text := by
  induction text generalizing cs with
  | nil => simp [accepts]
  | cons d text ih =>
      rw [List.map_cons, accepts_char]
      constructor
      · rintro ⟨rest, rfl, h⟩
        rw [ih.mp h]
      · rintro rfl
        exact ⟨text, rfl, ih.mpr rfl⟩

end Glob
