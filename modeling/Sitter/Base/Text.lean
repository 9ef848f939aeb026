/-
# `Base.Text` — positions in a text

A text is a list of characters, and a position a number.  Looking for something
from a position on gives a position or none; taking a part from a position on
fails when the position is past the end.

    find text c pos         the first `c` from `pos` on
    substr text pos         what follows `pos`
    substrN text pos n      the next `n` characters
    findText pattern text   the first place of a whole pattern
    afterLast text c        what follows the last `c`
    skipWhile p nul text s  past all that satisfy `p`, from `s` on

`find_cases` says what a search splits the text into; what comes before and
after the place that was found is there to be taken (`substrN_before`,
`drop_after`, `lt_of_split`).  A pattern has one first place
(`findText_cases`, `firstPlace_unique`).

The last one follows a pointer into a text that ends with a `nul`: reading the
`nul` is fine, and reading past it is an error.  Where `p` does not hold of the
`nul` there is none (`skipWhile_eq`).
-/
import Mathlib.Data.List.Basic
import Mathlib.Data.List.TakeWhile

namespace Text

variable {α : Type*} {text : List α} {c : α} {pos : Nat}

/-! ## Taking a part -/

/-- What follows a position that is not past the end. -/
def substr (text : List α) (pos : Nat) : Option (List α) :=
  if pos ≤ text.length then some (text.drop pos) else none

/-- At most `n` characters from such a position on. -/
def substrN (text : List α) (pos n : Nat) : Option (List α) :=
  if pos ≤ text.length then some ((text.drop pos).take n) else none

theorem lt_of_split {before after : List α} (h : text.drop pos = before ++ c :: after) :
    pos + before.length < text.length := by
  have hlength := congrArg List.length h
  rw [List.length_drop, List.length_append, List.length_cons] at hlength
  omega

theorem substrN_before {before after : List α} (h : text.drop pos = before ++ c :: after) :
    substrN text pos (pos + before.length - pos) = some before := by
  have hlt := lt_of_split h
  rw [substrN, if_pos (by omega), h, Nat.add_sub_cancel_left, List.take_left]

theorem drop_after {before after : List α} (h : text.drop pos = before ++ c :: after) :
    text.drop (pos + before.length + 1) = after := by
  rw [Nat.add_assoc, ← List.drop_drop, h, ← List.drop_drop, List.drop_left]
  rfl

theorem substr_after {before after : List α} (h : text.drop pos = before ++ c :: after) :
    substr text (pos + before.length + 1) = some after := by
  have hlt := lt_of_split h
  rw [substr, if_pos (by omega), drop_after h]

/-! ## Looking for a character -/

section Find

variable [DecidableEq α]

/-- The first position of `c` from `pos` on. -/
def find (text : List α) (c : α) (pos : Nat) : Option Nat :=
  ((text.drop pos).findIdx? (· = c)).map (pos + ·)

/-- **A search finds nothing, or splits what it looks through at the first
`c`.** -/
theorem find_cases (text : List α) (c : α) (pos : Nat) :
    (find text c pos = none ∧ c ∉ text.drop pos) ∨
      ∃ before after, text.drop pos = before ++ c :: after ∧ c ∉ before ∧
        find text c pos = some (pos + before.length) := by
  cases h : (text.drop pos).findIdx? (· = c) with
  | none =>
      refine Or.inl ⟨by rw [find, h]; rfl, ?_⟩
      intro hc
      have hnone := List.findIdx?_eq_none_iff.mp h c hc
      simp at hnone
  | some i =>
      obtain ⟨hi, hfound, hbefore⟩ := List.findIdx?_eq_some_iff_getElem.mp h
      refine Or.inr ⟨(text.drop pos).take i, (text.drop pos).drop (i + 1), ?_, ?_, ?_⟩
      · have hc : (text.drop pos)[i] = c := by simpa using hfound
        rw [← hc, ← List.drop_eq_getElem_cons hi, List.take_append_drop]
      · intro hc
        obtain ⟨j, hj, hget⟩ := List.mem_take_iff_getElem.mp hc
        have hnot := hbefore j (by omega)
        rw [hget] at hnot
        simp at hnot
      · rw [find, h, List.length_take, Nat.min_eq_left (Nat.le_of_lt hi)]
        rfl

theorem find_bounds {i : Nat} (h : find text c pos = some i) : pos ≤ i ∧ i < text.length := by
  rcases find_cases text c pos with ⟨hnone, -⟩ | ⟨before, after, hsplit, -, hfound⟩
  · rw [hnone] at h
    nomatch h
  · rw [hfound] at h
    obtain rfl := Option.some.inj h
    exact ⟨Nat.le_add_right _ _, lt_of_split hsplit⟩

/-- What follows the last `c`, and the whole text where there is none. -/
def afterLast (text : List α) (c : α) : List α := (text.reverse.takeWhile (· ≠ c)).reverse

/-- **It is the part without a `c` that the text ends with, after one or from
the start.** -/
theorem afterLast_eq_iff {part : List α} :
    afterLast text c = part ↔ c ∉ part ∧ (text = part ∨ ∃ dir, text = dir ++ c :: part) := by
  constructor
  · rintro rfl
    refine ⟨?_, ?_⟩
    · intro hc
      have hne := List.all_eq_true.mp List.all_takeWhile c (List.mem_reverse.mp hc)
      simp at hne
    · have hsplit := List.takeWhile_append_dropWhile (p := (· ≠ c)) (l := text.reverse)
      cases hrest : text.reverse.dropWhile (· ≠ c) with
      | nil =>
          rw [hrest, List.append_nil] at hsplit
          rw [afterLast, hsplit, List.reverse_reverse]
          exact Or.inl rfl
      | cons d dir =>
          have hd := List.head?_dropWhile_not (· ≠ c) text.reverse
          rw [hrest] at hd hsplit
          have hdc : d = c := by simpa using hd
          refine Or.inr ⟨dir.reverse, ?_⟩
          have hback := congrArg List.reverse hsplit
          rw [List.reverse_reverse, List.reverse_append, List.reverse_cons, List.append_assoc,
            hdc] at hback
          exact hback.symm
  · rintro ⟨hc, hsplit⟩
    have hall : ∀ d ∈ part.reverse, decide (d ≠ c) = true := by
      intro d hd
      rw [decide_eq_true_eq]
      rintro rfl
      exact hc (List.mem_reverse.mp hd)
    rcases hsplit with rfl | ⟨dir, rfl⟩
    · rw [afterLast, List.takeWhile_eq_self_iff.mpr hall, List.reverse_reverse]
    · rw [afterLast, List.reverse_append, List.reverse_cons, List.append_assoc,
        List.takeWhile_append_of_pos hall, List.singleton_append,
        List.takeWhile_cons_of_neg (by simp), List.append_nil, List.reverse_reverse]

/-! ## Looking for a pattern

The first place of a pattern is a property of the text, of which there is at
most one.  `findText` finds it, or there is none. -/

/-- The first position where the pattern is. -/
def findText (pattern : List α) : List α → Option Nat
  | [] => if pattern.isPrefixOf [] then some 0 else none
  | c :: cs =>
      if pattern.isPrefixOf (c :: cs) then some 0 else (findText pattern cs).map (· + 1)

end Find

/-- The text is split at the first place of the pattern. -/
structure FirstPlace (pattern text before after : List α) : Prop where
  split : text = before ++ (pattern ++ after)
  first : ∀ i < before.length, ¬ pattern <+: text.drop i

theorem firstPlace_start {pattern after : List α} (h : text = pattern ++ after) :
    FirstPlace pattern text [] after where
  split := h
  first i hi := absurd hi (Nat.not_lt_zero i)

theorem firstPlace_unique {pattern before after before' after' : List α}
    (h : FirstPlace pattern text before after) (h' : FirstPlace pattern text before' after') :
    before = before' ∧ after = after' := by
  have hplace : ∀ {b a b' a' : List α}, FirstPlace pattern text b a →
      FirstPlace pattern text b' a' → b.length ≤ b'.length := by
    intro b a b' a' hb hb'
    rw [← not_lt]
    intro hlt
    refine hb.first b'.length hlt ?_
    rw [hb'.split, List.drop_left]
    exact List.prefix_append _ _
  have hlength : before.length = before'.length := le_antisymm (hplace h h') (hplace h' h)
  obtain ⟨hbefore, hrest⟩ := List.append_inj (h.split.symm.trans h'.split) hlength
  exact ⟨hbefore, List.append_cancel_left hrest⟩

theorem findText_here [DecidableEq α] {pattern : List α} (h : pattern <+: text) :
    ∃ before after, FirstPlace pattern text before after ∧
      findText pattern text = some before.length := by
  obtain ⟨after, hafter⟩ := h
  refine ⟨[], after, firstPlace_start hafter.symm, ?_⟩
  cases text <;> exact if_pos (List.isPrefixOf_iff_prefix.mpr ⟨after, hafter⟩)

/-- **A search for a pattern finds nothing and it is nowhere, or it finds its
first place.** -/
theorem findText_cases [DecidableEq α] (pattern text : List α) :
    (findText pattern text = none ∧ ¬ pattern <:+: text) ∨
      ∃ before after, FirstPlace pattern text before after ∧
        findText pattern text = some before.length := by
  induction text with
  | nil =>
      by_cases hhere : pattern <+: []
      · exact Or.inr (findText_here hhere)
      · refine Or.inl ⟨if_neg (mt List.isPrefixOf_iff_prefix.mp hhere), ?_⟩
        intro hinfix
        exact hhere (List.infix_nil.mp hinfix ▸ List.nil_prefix)
  | cons c cs ih =>
      by_cases hhere : pattern <+: c :: cs
      · exact Or.inr (findText_here hhere)
      · have hstep : findText pattern (c :: cs) = (findText pattern cs).map (· + 1) :=
          if_neg (mt List.isPrefixOf_iff_prefix.mp hhere)
        rcases ih with ⟨hnone, hnowhere⟩ | ⟨before, after, hplace, hsome⟩
        · refine Or.inl ⟨by rw [hstep, hnone]; rfl, ?_⟩
          intro hinfix
          rcases List.infix_cons_iff.mp hinfix with hp | hp
          · exact hhere hp
          · exact hnowhere hp
        · refine Or.inr ⟨c :: before, after, ⟨?_, ?_⟩, by rw [hstep, hsome]; rfl⟩
          · rw [hplace.split]
            rfl
          · intro i hi
            cases i with
            | zero => exact hhere
            | succ i => exact hplace.first i (Nat.lt_of_succ_lt_succ hi)

/-! ## Following a pointer

The C functions look at one character at a time through an index.  `readAt` is
what such a pointer sees, the NUL at the end included. -/

/-- What a pointer reads at an index: the text is followed by one `nul`. -/
def readAt (nul : α) (text : List α) (s : Nat) : Except Nat α :=
  if s ≤ text.length then .ok (text[s]?.getD nul) else .error s

/-- The pointer goes on while it reads `p`. -/
def skipWhile (p : α → Bool) (nul : α) (text : List α) (s : Nat) : Except Nat Nat :=
  if s ≤ text.length then
    if p (text[s]?.getD nul) then skipWhile p nul text (s + 1) else .ok s
  else .error s
termination_by text.length + 1 - s

theorem readAt_after (nul : α) (before rest : List α) :
    readAt nul (before ++ rest) before.length = .ok (rest.headD nul) := by
  rw [readAt, List.length_append, if_pos (Nat.le_add_right _ _),
    List.getElem?_append_right le_rfl, Nat.sub_self, ← List.head?_eq_getElem?,
    List.headD_eq_head?_getD]

/-- **It stops at the first that is not `p`**, the `nul` at the latest. -/
theorem skipWhile_eq {p : α → Bool} {nul : α} (hnul : p nul = false) (before rest : List α) :
    skipWhile p nul (before ++ rest) before.length =
      .ok (before ++ rest.takeWhile p).length := by
  induction rest generalizing before with
  | nil =>
      have hread : (before ++ [])[before.length]? = none := by
        rw [List.append_nil, List.getElem?_eq_none le_rfl]
      rw [skipWhile, List.length_append, if_pos (Nat.le_add_right _ _), hread, Option.getD_none,
        if_neg (Bool.eq_false_iff.mp hnul), List.takeWhile_nil, List.append_nil]
  | cons c rest ih =>
      have hread : (before ++ c :: rest)[before.length]? = some c := by
        rw [List.getElem?_append_right le_rfl, Nat.sub_self, List.getElem?_cons_zero]
      rw [skipWhile, List.length_append, if_pos (Nat.le_add_right _ _), hread, Option.getD_some]
      cases hc : p c with
      | true =>
          have hnext := ih (before ++ [c])
          rw [← List.append_cons, List.length_append, List.length_singleton] at hnext
          rw [if_pos rfl, hnext, List.takeWhile_cons_of_pos hc, ← List.append_cons]
      | false =>
          have hneg : ¬ p c = true := Bool.eq_false_iff.mp hc
          rw [if_neg Bool.false_ne_true, List.takeWhile_cons_of_neg hneg, List.append_nil]

end Text
