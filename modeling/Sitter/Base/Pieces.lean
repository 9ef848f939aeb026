/-
# `Base.Pieces` — texts that are split at a separator

    trim blank text         the text without the blanks at its ends
    pieces blank sep text   what is between the separators, trimmed, where
                            something is left

A text that starts and ends with something that is not blank is left alone by
trimming (`trim_solid`), so texts of this kind that are put together with
separators are the pieces again: those that each end with one (`pieces_ended`)
and those with one or more between them (`pieces_spaced`).

    tokens isSep blank text   the same for several separators

Every character that is neither a separator nor blank is in a token
(`exists_token`), and a text that is cut somewhere starts with the token of the
whole one, if it still has two (`tokens_cut`).

Whether such a text starts with a word is a matter of its first piece
(`prefix_word_iff`, `prefix_sep_iff`).
-/
import Mathlib.Data.List.Basic
import Mathlib.Data.List.TakeWhile

namespace Pieces

variable {α : Type*}

/-! ## Trimming -/

/-- The text without the blanks at its ends. -/
def trim (blank : α → Bool) (text : List α) : List α :=
  ((text.dropWhile blank).reverse.dropWhile blank).reverse

/-- There is something at both ends. -/
structure Solid (blank : α → Bool) (text : List α) : Prop where
  nonempty : text ≠ []
  starts : ∀ c ∈ text.head?, blank c = false
  ends : ∀ c ∈ text.getLast?, blank c = false

variable {blank : α → Bool} {text rest : List α}

theorem dropWhile_solid (h : ∀ c ∈ text.head?, blank c = false) :
    text.dropWhile blank = text := by
  cases text with
  | nil => rfl
  | cons c text =>
      rw [List.dropWhile_cons, if_neg]
      rw [h c rfl]
      exact Bool.false_ne_true

theorem trim_solid (h : Solid blank text) : trim blank text = text := by
  rw [trim, dropWhile_solid h.starts, dropWhile_solid, List.reverse_reverse]
  rw [List.head?_reverse]
  exact h.ends

theorem trim_concat (h : Solid blank text) {c : α} (hc : blank c = true) :
    trim blank (text ++ [c]) = text := by
  have hstart : (text ++ [c]).dropWhile blank = text ++ [c] := by
    refine dropWhile_solid ?_
    rw [List.head?_append_of_ne_nil _ h.nonempty]
    exact h.starts
  have hends : text.reverse.dropWhile blank = text.reverse := by
    refine dropWhile_solid ?_
    rw [List.head?_reverse]
    exact h.ends
  rw [trim, hstart, List.reverse_append, List.reverse_singleton, List.singleton_append,
    List.dropWhile_cons_of_pos hc, hends, List.reverse_reverse]

theorem solid_of_forall (hne : text ≠ []) (h : ∀ c ∈ text, blank c = false) :
    Solid blank text where
  nonempty := hne
  starts c hc := h c (List.mem_of_mem_head? hc)
  ends c hc := h c (List.mem_of_getLast? hc)

theorem solid_trim (h : trim blank text ≠ []) : Solid blank (trim blank text) where
  nonempty := h
  starts c hc := by
    have hne : ((text.dropWhile blank).reverse.dropWhile blank) ≠ [] := by
      intro hnil
      rw [trim, hnil] at h
      exact h rfl
    have hsuffix := List.dropWhile_suffix blank (l := (text.dropWhile blank).reverse)
    rw [trim, List.head?_reverse, List.getLast?_eq_some_getLast hne, hsuffix.getLast hne,
      Option.mem_some_iff, List.getLast_reverse] at hc
    have hhead := List.head?_dropWhile_not blank text
    rw [List.head?_eq_some_head (List.reverse_ne_nil_iff.mp (hsuffix.ne_nil hne)), hc] at hhead
    exact hhead
  ends c hc := by
    have hhead := List.head?_dropWhile_not blank (text.dropWhile blank).reverse
    rw [trim, List.getLast?_reverse, Option.mem_def] at hc
    rw [hc] at hhead
    exact hhead

theorem trim_sublist (blank : α → Bool) (text : List α) : (trim blank text).Sublist text := by
  have hdrop := List.dropWhile_suffix blank (l := (text.dropWhile blank).reverse)
  rw [trim, ← List.reverse_reverse text]
  refine (List.reverse_sublist.mpr ?_)
  rw [List.reverse_reverse]
  exact hdrop.sublist.trans (List.reverse_sublist.mpr (List.dropWhile_suffix blank).sublist)

/-! ## Splitting

A text is cut at each separator, the parts are trimmed, and empty ones are
dropped.  What is joined from solid words is split into them again. -/

section Split

variable [DecidableEq α] {sep : α}

/-- The trimmed pieces that are not empty. -/
def pieces (blank : α → Bool) (sep : α) (text : List α) : List (List α) :=
  ((text.splitOn sep).map (trim blank)).filter (· ≠ [])

@[simp] theorem pieces_nil : pieces blank sep [] = [] := by
  rw [pieces, List.splitOn_nil]
  rfl

theorem pieces_sep (rest : List α) : pieces blank sep (sep :: rest) = pieces blank sep rest := by
  have hsplit : (sep :: rest).splitOn sep = [] :: rest.splitOn sep :=
    List.splitOn_append_cons_self_of_not_mem List.not_mem_nil rest
  rw [pieces, hsplit, List.map_cons]
  rfl

theorem pieces_replicate (n : Nat) (rest : List α) :
    pieces blank sep (List.replicate n sep ++ rest) = pieces blank sep rest := by
  induction n with
  | zero => rfl
  | succ n ih => rw [List.replicate_succ, List.cons_append, pieces_sep, ih]

theorem pieces_cons (h : Solid blank text) (hsep : sep ∉ text) (rest : List α) :
    pieces blank sep (text ++ sep :: rest) = text :: pieces blank sep rest := by
  rw [pieces, List.splitOn_append_cons_self_of_not_mem hsep, List.map_cons, trim_solid h,
    List.filter_cons, if_pos (decide_eq_true h.nonempty)]
  rfl

theorem pieces_single (h : Solid blank text) (hsep : sep ∉ text) :
    pieces blank sep text = [text] := by
  rw [pieces, List.splitOn_eq_singleton hsep, List.map_singleton, trim_solid h,
    List.filter_cons, if_pos (decide_eq_true h.nonempty)]
  rfl

theorem not_mem_of_splitOn {part : List α} (h : part ∈ text.splitOn sep) : sep ∉ part := by
  induction text generalizing part with
  | nil =>
      rw [List.splitOn_nil, List.mem_singleton] at h
      rw [h]
      exact List.not_mem_nil
  | cons c text ih =>
      rw [List.splitOn_cons_eq_if_modifyHead] at h
      split at h
      · rcases List.mem_cons.mp h with rfl | h
        · exact List.not_mem_nil
        · exact ih h
      · next hc =>
          cases hparts : text.splitOn sep with
          | nil => exact absurd hparts (List.splitOn_ne_nil sep text)
          | cons first parts =>
              rw [hparts] at ih h
              rcases List.mem_cons.mp h with rfl | h
              · rw [List.mem_cons, not_or]
                exact ⟨fun heq => hc (beq_iff_eq.mpr heq.symm), ih List.mem_cons_self⟩
              · exact ih (List.mem_cons_of_mem _ h)

/-- **A piece is solid, and the separator is not in it.** -/
theorem mem_pieces {piece : List α} (h : piece ∈ pieces blank sep text) :
    Solid blank piece ∧ sep ∉ piece := by
  obtain ⟨hmem, hne⟩ := List.mem_filter.mp h
  obtain ⟨part, hpart, rfl⟩ := List.mem_map.mp hmem
  refine ⟨solid_trim (of_decide_eq_true hne), ?_⟩
  intro hsep
  exact not_mem_of_splitOn hpart ((trim_sublist blank part).mem hsep)

/-- **Texts that each end with the separator are the pieces.** -/
theorem pieces_ended {texts : List (List α)} (h : ∀ text ∈ texts, Solid blank text ∧ sep ∉ text) :
    pieces blank sep (texts.flatMap (· ++ [sep])) = texts := by
  induction texts with
  | nil => rw [List.flatMap_nil, pieces_nil]
  | cons text texts ih =>
      obtain ⟨htext, htexts⟩ := List.forall_mem_cons.mp h
      rw [List.flatMap_cons, ← List.append_cons, pieces_cons htext.1 htext.2, ih htexts]

/-- Words with one or more separators before each of them. -/
def spaced (sep : α) (words : List (Nat × List α)) : List α :=
  words.flatMap fun w => List.replicate (w.1 + 1) sep ++ w.2

/-- **Words with separators between them are the pieces.** -/
theorem pieces_spaced {word : List α} {words : List (Nat × List α)}
    (hword : Solid blank word ∧ sep ∉ word) (hwords : ∀ w ∈ words, Solid blank w.2 ∧ sep ∉ w.2) :
    pieces blank sep (word ++ spaced sep words) = word :: words.map Prod.snd := by
  induction words generalizing word with
  | nil => rw [spaced, List.flatMap_nil, List.append_nil, pieces_single hword.1 hword.2]; rfl
  | cons w words ih =>
      obtain ⟨hw, hrest⟩ := List.forall_mem_cons.mp hwords
      have hsplit : spaced sep (w :: words) =
          sep :: (List.replicate w.1 sep ++ (w.2 ++ spaced sep words)) := by
        rw [spaced, List.flatMap_cons, List.replicate_succ, List.append_assoc, List.cons_append]
        rfl
      rw [hsplit, pieces_cons hword.1 hword.2, pieces_replicate, ih hw hrest, List.map_cons]

end Split

theorem solid_spaced {sep : α} {word : List α} {words : List (Nat × List α)}
    (hword : Solid blank word) (hwords : ∀ w ∈ words, Solid blank w.2) :
    Solid blank (word ++ spaced sep words) where
  nonempty := List.append_ne_nil_of_left_ne_nil hword.nonempty _
  starts c hc := by
    rw [List.head?_append_of_ne_nil _ hword.nonempty] at hc
    exact hword.starts c hc
  ends c hc := by
    induction words generalizing word with
    | nil =>
        rw [spaced, List.flatMap_nil, List.append_nil] at hc
        exact hword.ends c hc
    | cons w words ih =>
        obtain ⟨hw, hrest⟩ := List.forall_mem_cons.mp hwords
        refine ih hw hrest ?_
        have hsplit : word ++ spaced sep (w :: words) =
            (word ++ List.replicate (w.1 + 1) sep) ++ (w.2 ++ spaced sep words) := by
          rw [spaced, List.flatMap_cons, List.append_assoc, List.append_assoc]
          rfl
        rw [hsplit, List.getLast?_append_of_ne_nil _
          (List.append_ne_nil_of_left_ne_nil hw.nonempty _)] at hc
        exact hc

/-! ## Several separators

The separator is itself a text here, as between the columns of a file. -/

section Tokens

variable {isSep : α → Bool}

/-- The trimmed parts between separators that are not empty. -/
def tokens (isSep blank : α → Bool) (text : List α) : List (List α) :=
  ((text.splitOnP isSep).map (trim blank)).filter (· ≠ [])

@[simp] theorem tokens_nil : tokens isSep blank [] = [] := by
  rw [tokens, List.splitOnP_nil]
  rfl

/-- **A separator takes a text apart.** -/
theorem tokens_append_sep (blank : α → Bool) {c : α} (hc : isSep c = true) (text rest : List α) :
    tokens isSep blank (text ++ c :: rest) =
      tokens isSep blank text ++ tokens isSep blank rest := by
  rw [tokens, List.splitOnP_append_cons text rest hc, List.map_append, List.filter_append]
  rfl

theorem tokens_single (h : ∀ c ∈ text, isSep c = false) :
    tokens isSep blank text = if trim blank text = [] then [] else [trim blank text] := by
  rw [tokens, List.splitOnP_eq_singleton h, List.map_singleton]
  by_cases htrim : trim blank text = []
  · rw [if_pos htrim, htrim]
    rfl
  · rw [if_neg htrim, List.filter_cons, if_pos (decide_eq_true htrim)]
    rfl

theorem tokens_solid (h : Solid blank text) (hsep : ∀ c ∈ text, isSep c = false) :
    tokens isSep blank text = [text] := by
  rw [tokens_single hsep, trim_solid h, if_neg h.nonempty]

theorem tokens_replicate {c : α} (hc : isSep c = true) (n : Nat) (rest : List α) :
    tokens isSep blank (List.replicate n c ++ rest) = tokens isSep blank rest := by
  induction n with
  | zero => rfl
  | succ n ih =>
      have hsplit := tokens_append_sep blank hc [] (List.replicate n c ++ rest)
      rw [List.nil_append, tokens_nil, List.nil_append] at hsplit
      rw [List.replicate_succ, List.cons_append, hsplit, ih]

theorem mem_trim {c : α} (hc : c ∈ text) (hblank : blank c = false) : c ∈ trim blank text := by
  have hdrop : ∀ {text : List α}, c ∈ text → c ∈ text.dropWhile blank := by
    intro text hc
    rw [← List.takeWhile_append_dropWhile (p := blank) (l := text), List.mem_append] at hc
    refine hc.resolve_left ?_
    intro htake
    have hall := List.all_eq_true.mp List.all_takeWhile c htake
    rw [hblank] at hall
    cases hall
  rw [trim, List.mem_reverse]
  exact hdrop (List.mem_reverse.mpr (hdrop hc))

theorem last_sep (isSep : α → Bool) (text : List α) :
    (∀ c ∈ text, isSep c = false) ∨
      ∃ before c after, text = before ++ c :: after ∧ isSep c = true ∧
        ∀ d ∈ after, isSep d = false := by
  induction text with
  | nil => exact Or.inl (List.forall_mem_nil _)
  | cons c text ih =>
      rcases ih with hnone | ⟨before, d, after, rfl, hd, hafter⟩
      · cases hc : isSep c with
        | false => exact Or.inl (List.forall_mem_cons.mpr ⟨hc, hnone⟩)
        | true => exact Or.inr ⟨[], c, text, rfl, hc, hnone⟩
      · exact Or.inr ⟨c :: before, d, after, rfl, hd, hafter⟩

/-- **What is neither a separator nor blank is in a token.** -/
theorem exists_token (isSep blank : α → Bool) {text : List α} {c : α} (hc : c ∈ text)
    (hsep : isSep c = false) (hblank : blank c = false) :
    ∃ token ∈ tokens isSep blank text, c ∈ token := by
  rcases last_sep isSep text with hnone | ⟨before, d, after, hsplit, hd, hafter⟩
  · have hmem := mem_trim hc hblank
    rw [tokens_single hnone, if_neg (List.ne_nil_of_mem hmem)]
    exact ⟨_, List.mem_cons_self, hmem⟩
  · rw [hsplit] at hc ⊢
    rw [tokens_append_sep blank hd]
    rcases List.mem_append.mp hc with hbefore | hrest
    · obtain ⟨token, htoken, hmem⟩ := exists_token isSep blank hbefore hsep hblank
      exact ⟨token, List.mem_append_left _ htoken, hmem⟩
    · have hne : c ≠ d := by
        rintro rfl
        rw [hd] at hsep
        cases hsep
      have hmem := mem_trim ((List.mem_cons.mp hrest).resolve_left hne) hblank
      rw [tokens_single hafter, if_neg (List.ne_nil_of_mem hmem)]
      exact ⟨_, List.mem_append_right _ List.mem_cons_self, hmem⟩
termination_by text.length
decreasing_by
  rw [hsplit, List.length_append, List.length_cons]
  omega

/-- A part without a separator has one token at most, and one only if something
in it is not blank. -/
theorem tokens_single_cases (blank : α → Bool) (h : ∀ c ∈ text, isSep c = false) :
    tokens isSep blank text = [] ∨
      (tokens isSep blank text).length = 1 ∧ ∃ c ∈ text, blank c = false := by
  rw [tokens_single h]
  split
  · exact Or.inl rfl
  · next htrim =>
      refine Or.inr ⟨rfl, ?_⟩
      by_contra hblank
      have hall : ∀ c ∈ text, blank c = true := by
        intro c hc
        by_contra hnot
        exact hblank ⟨c, hc, Bool.eq_false_iff.mpr hnot⟩
      rw [trim, List.dropWhile_eq_nil_iff.mpr hall] at htrim
      exact htrim rfl

/-- **A text that is cut has less than two tokens, or it starts with the one
that the whole text starts with.** -/
theorem tokens_cut (isSep blank : α → Bool) (text rest : List α) :
    (tokens isSep blank text).length ≤ 1 ∨
      2 ≤ (tokens isSep blank (text ++ rest)).length ∧
        (tokens isSep blank (text ++ rest)).head? = (tokens isSep blank text).head? := by
  rcases last_sep isSep text with hnone | ⟨before, d, after, rfl, hd, hafter⟩
  · rcases tokens_single_cases blank hnone with h | ⟨h, -⟩
    · rw [h]
      exact Or.inl (Nat.zero_le 1)
    · exact Or.inl (Nat.le_of_eq h)
  rw [List.append_assoc, List.cons_append, tokens_append_sep blank hd, tokens_append_sep blank hd]
  cases hbefore : tokens isSep blank before with
  | nil =>
      rcases tokens_single_cases blank hafter with h | ⟨h, -⟩
      · rw [h]
        exact Or.inl (Nat.zero_le 1)
      · exact Or.inl (Nat.le_of_eq h)
  | cons token others =>
      rcases tokens_single_cases blank hafter with h | ⟨h, c, hc, hblank⟩
      · -- the cut is in blanks, or nothing is left before it
        rw [h, List.append_nil]
        cases others with
        | nil => exact Or.inl (Nat.le_refl 1)
        | cons other others =>
            refine Or.inr ⟨?_, rfl⟩
            simp only [List.length_append, List.length_cons]
            omega
      · obtain ⟨last, hlast, -⟩ := exists_token isSep blank (List.mem_append_left rest hc)
          (hafter c hc) hblank
        have hpos := List.length_pos_of_mem hlast
        refine Or.inr ⟨?_, rfl⟩
        rw [List.length_append, List.length_cons]
        omega

end Tokens

/-! ## The start of a text -/

section Start

variable {sep : α} {key word tail : List α}

theorem not_prefix_tail {k : α} (hk : ¬ sep = k) (htail : ∀ c ∈ tail.head?, c = sep) :
    ¬ k :: key <+: [] ++ tail := by
  intro hpre
  cases tail with
  | nil => simp at hpre
  | cons c tail =>
      rw [List.nil_append, List.cons_prefix_cons] at hpre
      exact hk (htail c rfl ▸ hpre.1.symm)

/-- Where a word starts the text, it starts its first piece. -/
theorem prefix_word_iff (hkey : sep ∉ key) (htail : ∀ c ∈ tail.head?, c = sep) :
    key <+: word ++ tail ↔ key <+: word := by
  induction key generalizing word with
  | nil => simp
  | cons k key ih =>
      obtain ⟨hk, hkey⟩ := not_or.mp (mt List.mem_cons.mpr hkey)
      cases word with
      | nil => exact iff_of_false (not_prefix_tail hk htail) (by simp)
      | cons w word => rw [List.cons_append, List.cons_prefix_cons, List.cons_prefix_cons, ih hkey]

/-- Where a word and a separator start it, the word is its first piece. -/
theorem prefix_sep_iff (hkey : sep ∉ key) (hword : sep ∉ word)
    (htail : ∀ c ∈ tail.head?, c = sep) :
    key ++ [sep] <+: word ++ tail ↔ word = key ∧ tail ≠ [] := by
  induction key generalizing word with
  | nil =>
      cases word with
      | nil =>
          cases tail with
          | nil => simp
          | cons c tail =>
              rw [htail c rfl]
              simp
      | cons w word =>
          refine iff_of_false ?_ (by simp)
          intro hpre
          rw [List.nil_append, List.cons_append, List.cons_prefix_cons] at hpre
          exact hword (hpre.1 ▸ List.mem_cons_self)
  | cons k key ih =>
      obtain ⟨hk, hkey⟩ := not_or.mp (mt List.mem_cons.mpr hkey)
      cases word with
      | nil => exact iff_of_false (not_prefix_tail hk htail) (by simp)
      | cons w word =>
          obtain ⟨-, hword⟩ := not_or.mp (mt List.mem_cons.mpr hword)
          rw [List.cons_append, List.cons_append, List.cons_prefix_cons, ih hkey hword,
            List.cons.injEq, and_assoc, eq_comm (a := k)]

end Start

end Pieces
