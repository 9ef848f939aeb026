/-
# `Base.Lines` — reading a text line by line

    lines sep text                   what is between the separators; the last
                                     line may end with one or not
    getline sep size broken text     one line and what follows it
    readLines ... step s text        the loop: a step for each line

A line is read into a buffer of a fixed size, which has to hold what ends it
too: a line that is not shorter is a failure.  So is the end of a text that is
broken there, where more was to come and could not be read.

A loop that stops at the first failure is a fold over the lines before it
(`readLines_eq`).
-/
import Mathlib.Data.List.Basic
import Mathlib.Data.List.TakeWhile

namespace Lines

variable {α σ ε : Type*} [DecidableEq α]

/-! ## The lines of a text -/

/-- The lines of a text. -/
def lines (sep : α) (text : List α) : List (List α) :=
  if (text.splitOn sep).getLast? = some [] then (text.splitOn sep).dropLast
  else text.splitOn sep

section Lines

variable {sep : α} {line rest : List α}

/-- **A text is one line without an end, or a line with one before a text.** -/
theorem lines_induction (sep : α) {P : List α → Prop} (last : ∀ line, sep ∉ line → P line)
    (ended : ∀ line rest, sep ∉ line → P rest → P (line ++ sep :: rest)) (text : List α) :
    P text := by
  by_cases h : sep ∈ text
  · obtain ⟨line, rest, hsplit, hline⟩ := List.eq_append_cons_of_mem h
    rw [hsplit]
    exact ended line rest hline (lines_induction sep last ended rest)
  · exact last text h
termination_by text.length
decreasing_by
  rw [hsplit, List.length_append, List.length_cons]
  omega

theorem lines_last (h : sep ∉ line) : lines sep line = if line = [] then [] else [line] := by
  rw [lines, List.splitOn_eq_singleton h]
  cases line <;> rfl

theorem lines_ended (h : sep ∉ line) (rest : List α) :
    lines sep (line ++ sep :: rest) = line :: lines sep rest := by
  obtain ⟨first, others, hrest⟩ := List.exists_cons_of_ne_nil (List.splitOn_ne_nil sep rest)
  rw [lines, lines, List.splitOn_append_cons_self_of_not_mem h, hrest, List.getLast?_cons_cons,
    List.dropLast_cons_cons]
  split <;> rfl

/-- The lines that have an end. -/
def endedLines (sep : α) (text : List α) : List (List α) := (text.splitOn sep).dropLast

theorem endedLines_last (h : sep ∉ line) : endedLines sep line = [] := by
  rw [endedLines, List.splitOn_eq_singleton h]
  rfl

theorem endedLines_ended (h : sep ∉ line) (rest : List α) :
    endedLines sep (line ++ sep :: rest) = line :: endedLines sep rest := by
  obtain ⟨first, others, hrest⟩ := List.exists_cons_of_ne_nil (List.splitOn_ne_nil sep rest)
  rw [endedLines, endedLines, List.splitOn_append_cons_self_of_not_mem h, hrest,
    List.dropLast_cons_cons]

end Lines

/-! ## The loop

`getline` with a buffer of fixed size fails at a line that does not fit, and
where a text breaks off.  So the loop goes over the lines before the first
failure. -/

/-- What reading a line gives: the line and what follows it, the end of the
text, or a failure. -/
inductive Got (α : Type*) where
  | line (line rest : List α)
  | ended
  | failed

/-- One line, for a buffer of some size. -/
def getline (sep : α) (size : Nat) (broken : Bool) (text : List α) : Got α :=
  if size ≤ (text.takeWhile (· ≠ sep)).length then .failed
  else
    match text.dropWhile (· ≠ sep) with
    | _ :: rest => .line (text.takeWhile (· ≠ sep)) rest
    | [] => if broken then .failed else if text = [] then .ended else .line text []

section Getline

variable {sep : α} {size : Nat} {broken : Bool} {line rest : List α}

theorem takeWhile_line (h : sep ∉ line) : line.takeWhile (· ≠ sep) = line := by
  refine List.takeWhile_eq_self_iff.mpr ?_
  intro c hc
  exact decide_eq_true (ne_of_mem_of_not_mem hc h)

theorem getline_last (h : sep ∉ line) :
    getline sep size broken line =
      if size ≤ line.length then .failed
      else if broken then .failed else if line = [] then .ended else .line line [] := by
  have hdrop : line.dropWhile (· ≠ sep) = [] := by
    refine List.dropWhile_eq_nil_iff.mpr ?_
    intro c hc
    exact decide_eq_true (ne_of_mem_of_not_mem hc h)
  rw [getline, takeWhile_line h, hdrop]

theorem getline_ended (h : sep ∉ line) (rest : List α) :
    getline sep size broken (line ++ sep :: rest) =
      if size ≤ line.length then .failed else .line line rest := by
  have hall : ∀ c ∈ line, decide (c ≠ sep) = true := by
    intro c hc
    exact decide_eq_true (ne_of_mem_of_not_mem hc h)
  have htake : (line ++ sep :: rest).takeWhile (· ≠ sep) = line := by
    rw [List.takeWhile_append_of_pos hall, List.takeWhile_cons_of_neg (by simp), List.append_nil]
  have hdrop : (line ++ sep :: rest).dropWhile (· ≠ sep) = sep :: rest := by
    rw [List.dropWhile_append_of_pos hall, List.dropWhile_cons_of_neg (by simp)]
  rw [getline, htake, hdrop]

theorem getline_lt {text : List α} (h : getline sep size broken text = .line line rest) :
    rest.length < text.length := by
  induction text using lines_induction sep with
  | last last hlast =>
      rw [getline_last hlast] at h
      split_ifs at h with hlong hbroken hempty
      cases h
      exact List.length_pos_of_ne_nil hempty
  | ended first others hfirst _ =>
      rw [getline_ended hfirst] at h
      split_ifs at h with hlong
      cases h
      rw [List.length_append, List.length_cons]
      omega

end Getline

/-- The loop; a failure gives a state of its own. -/
def readLines (sep : α) (size : Nat) (broken : Bool) (failure : σ)
    (step : σ → List α → Except ε σ) (s : σ) (text : List α) : Except ε σ :=
  match _h : getline sep size broken text with
  | .ended => .ok s
  | .failed => .ok failure
  | .line line rest =>
      match step s line with
      | .error e => .error e
      | .ok s' => readLines sep size broken failure step s' rest
termination_by text.length
decreasing_by exact getline_lt _h

/-- The lines before the first failure. -/
def readable (sep : α) (size : Nat) (broken : Bool) (text : List α) : List (List α) :=
  (if broken then endedLines sep text else lines sep text).takeWhile (·.length < size)

def unreadable (sep : α) (size : Nat) (broken : Bool) (text : List α) : Bool :=
  broken || (lines sep text).any (size ≤ ·.length)

/-- Without a failure every line is read. -/
theorem readable_eq_lines {sep : α} {size : Nat} {broken : Bool} {text : List α}
    (h : unreadable sep size broken text = false) :
    readable sep size broken text = lines sep text := by
  rw [unreadable, Bool.or_eq_false_iff, List.any_eq_false] at h
  rw [readable, h.1, if_neg Bool.false_ne_true]
  refine List.takeWhile_eq_self_iff.mpr ?_
  intro line hline
  exact decide_eq_true (Nat.lt_of_not_le fun hlong => h.2 line hline (decide_eq_true hlong))

section Loop

variable {sep : α} {size : Nat} {broken : Bool} {failure : σ} {step : σ → List α → Except ε σ}

/-- One round of the loop. -/
theorem readLines_step (s : σ) (text : List α) :
    readLines sep size broken failure step s text =
      match getline sep size broken text with
      | .ended => .ok s
      | .failed => .ok failure
      | .line line rest => step s line >>= fun s' =>
          readLines sep size broken failure step s' rest := by
  rw [readLines]
  split
  · next h => rw [h]
  · next h => rw [h]
  · next line rest h =>
      rw [h]
      dsimp only
      cases step s line <;> rfl

theorem readLines_nil (hsize : 0 < size) (s : σ) :
    readLines sep size false failure step s [] = .ok s := by
  have hend : getline sep size false [] = .ended := by
    rw [getline_last List.not_mem_nil, List.length_nil, if_neg (Nat.not_le_of_lt hsize)]
    rfl
  rw [readLines_step, hend]

/-- **The loop is a fold over the lines before the first failure.** -/
theorem readLines_eq (hsize : 0 < size) (s : σ) (text : List α) :
    readLines sep size broken failure step s text =
      ((readable sep size broken text).foldlM step s).map fun s' =>
        if unreadable sep size broken text then failure else s' := by
  induction text using lines_induction sep generalizing s with
  | last line hline =>
      rw [readLines_step, getline_last hline, readable, unreadable, lines_last hline,
        endedLines_last hline]
      rcases le_or_gt size line.length with hlong | hshort
      · have hne : line ≠ [] := List.ne_nil_of_length_pos (lt_of_lt_of_le hsize hlong)
        cases broken <;> simp [hlong, hne, Except.map, pure, Except.pure]
      cases broken with
      | true =>
          rw [if_neg (Nat.not_le_of_lt hshort)]
          rfl
      | false =>
          rw [if_neg (Nat.not_le_of_lt hshort)]
          by_cases hempty : line = []
          · rw [hempty]
            rfl
          · simp only [Bool.false_eq_true, if_false, hempty, List.takeWhile_cons, hshort,
              decide_true, if_true, List.takeWhile_nil, List.foldlM_cons, List.foldlM_nil,
              readLines_nil hsize, List.any_cons, Nat.not_le_of_lt hshort, decide_false,
              List.any_nil, Bool.or_false]
            cases step s line <;> rfl
  | ended line rest hline ih =>
      rcases le_or_gt size line.length with hlong | hshort
      · rw [readLines_step, getline_ended hline, readable, unreadable, lines_ended hline,
          endedLines_ended hline, if_pos hlong]
        cases broken <;> simp [hlong, Except.map, pure, Except.pure]
      · have hreadable : readable sep size broken (line ++ sep :: rest) =
            line :: readable sep size broken rest := by
          rw [readable, readable, lines_ended hline, endedLines_ended hline]
          cases broken <;> exact List.takeWhile_cons_of_pos (decide_eq_true hshort)
        have hunreadable : unreadable sep size broken (line ++ sep :: rest) =
            unreadable sep size broken rest := by
          rw [unreadable, unreadable, lines_ended hline, List.any_cons,
            decide_eq_false (Nat.not_le_of_lt hshort), Bool.false_or]
        rw [readLines_step, getline_ended hline, if_neg (Nat.not_le_of_lt hshort), hreadable,
          hunreadable, List.foldlM_cons]
        dsimp only
        cases step s line with
        | error e => rfl
        | ok s' => exact ih s'

end Loop

end Lines
