/-
# `Sitter.StatLines` — the lines of `/proc/stat`

A line of the kernel is a word and fields with blanks before them.  Each figure
of the file has its word and its column:

    cpu  n n n n n n n n n     the nine times
    intr n ...                 ctxt n, btime n
    processes n                procs_running n, procs_blocked n

`load_stat` recognizes the words character by character.  For the last three it
tests the first character, finds a `p`, and then asks for a second `p`: what it
reads is the lines `pprocesses...`, `pprocs_running` and `pprocs_blocked`
(`Figure.readFrom`).  All other figures are read from their own line, and no
line changes the figure of another one (`load_figures`).  So the getters return
what is written exactly if the three numbers happen to be what the misspelled
lines or the members say (`statFigures_iff`).
-/
import Mathlib.Data.List.Nodup
import Sitter.Base.Pieces
import Sitter.SysStats

namespace Sitter

open LastWrite Pieces

/-! ## Lines -/

/-- A line: its word, and its fields, with how many blanks but one come before
each. -/
structure KernelLine where
  word : String
  fields : List (Nat × String)
  deriving DecidableEq, Repr

namespace KernelLine

variable (line : KernelLine)

def chars : List Char :=
  line.word.toList ++ spaced ' ' (line.fields.map fun f => (f.1, f.2.toList))

def text : String := String.ofList line.chars

def field (column : Nat) : Option String := line.fields[column]?.map Prod.snd

end KernelLine

def kernelText (lines : List KernelLine) : String :=
  String.ofList ((lines.map KernelLine.chars).flatMap (· ++ ['\n']))

/-- Characters with nothing between them. -/
def IsWord (blank : Char → Bool) (word : String) : Prop :=
  word.toList ≠ [] ∧ ∀ c ∈ word.toList, c ≠ ' ' ∧ c ≠ '\n' ∧ blank c = false

instance (blank : Char → Bool) (word : String) : Decidable (IsWord blank word) :=
  have : Decidable (∀ c ∈ word.toList, c ≠ ' ' ∧ c ≠ '\n' ∧ blank c = false) :=
    List.decidableBAll _ word.toList
  inferInstanceAs (Decidable (_ ∧ _))

/-! ## Figures -/

namespace Figure

/-- The word of the line a figure is written on. -/
def keyword : Figure → Option String
  | .cpu _ => some "cpu"
  | .intr => some "intr"
  | .ctxt => some "ctxt"
  | .bootTime => some "btime"
  | .processes => some "processes"
  | .procsRunning => some "procs_running"
  | .procsBlocked => some "procs_blocked"
  | _ => none

def column : Figure → Nat
  | .cpu idx => idx
  | _ => 0

/-- The words of the lines that `load_stat` reads a figure from. -/
def readFrom (f : Figure) (word : String) : Bool :=
  match f with
  | .processes => "pprocesses".toList.isPrefixOf word.toList
  | .procsRunning => word = "pprocs_running"
  | .procsBlocked => word = "pprocs_blocked"
  | f => f.keyword = some word

def getter : Figure → StatsGetter
  | .cpu idx => .cpuStat idx.val
  | f => .figure f

end Figure

/-- The lines are as the kernel writes them: numbers in the columns of the
figures, and one line for each of their words. -/
structure KernelFormat (blank : Char → Bool) (lines : List KernelLine) : Prop where
  words : ∀ line ∈ lines, IsWord blank line.word ∧ ∀ f ∈ line.fields, IsWord blank f.2
  numbers : ∀ line ∈ lines, ∀ f : Figure, f.keyword = some line.word →
    ∃ n : Int, 0 ≤ n ∧ n < 2 ^ 63 ∧ line.field f.column = some (toString n)
  single : ∀ line ∈ lines, ∀ line' ∈ lines, ∀ f : Figure, f.keyword = some line.word →
    f.keyword = some line'.word → line' = line

/-- The number of a figure, on its own line. -/
def OnItsLine (lines : List KernelLine) (f : Figure) (n : Int) : Prop :=
  0 ≤ n ∧ n < 2 ^ 63 ∧
    ∃ line ∈ lines, f.keyword = some line.word ∧ line.field f.column = some (toString n)

/-- What the loader reads of a figure, in order. -/
def readings (lib : Advgetopt) (lines : List KernelLine) (f : Figure) : List Int :=
  (lines.filter fun line => f.readFrom line.word).filterMap fun line =>
    (line.field f.column).bind lib.integer

/-- What is expected: the file is loaded, and each getter returns the number of
its figure. -/
def StatFiguresRead (lib : Advgetopt) (double : String → Option Rat) (files : ProcFiles)
    (lines : List KernelLine) (s : SysStats) : Prop :=
  ∃ s', s.load lib double files .stat = some s' ∧
    ∀ f n, OnItsLine lines f n → (s'.get lib double files f.getter).2 = .ok (some (.int n))

/-- The three numbers are those of the misspelled lines, or of the members. -/
def MisspelledAgree (lib : Advgetopt) (lines : List KernelLine) (s : SysStats) : Prop :=
  ∀ f ∈ [Figure.processes, .procsRunning, .procsBlocked], ∀ n, OnItsLine lines f n →
    (readings lib lines f).getLast? = some n ∨
      (readings lib lines f = [] ∧ s.figures f = some (.int n))

/-! ## Splitting -/

section Splitting

variable {lib : Advgetopt} {blank : Char → Bool} {line : KernelLine} {lines : List KernelLine}

theorem IsWord.solid {sep : Char} {word : String} (h : IsWord blank word)
    (hsep : sep = ' ' ∨ sep = '\n') : Solid blank word.toList ∧ sep ∉ word.toList := by
  refine ⟨solid_of_forall h.1 (fun c hc => (h.2 c hc).2.2), ?_⟩
  intro hmem
  rcases hsep with rfl | rfl
  · exact (h.2 _ hmem).1 rfl
  · exact (h.2 _ hmem).2.1 rfl

theorem splitString_line (hsplit : lib.SplitsTrimmed blank line.text)
    (hword : IsWord blank line.word) (hfields : ∀ f ∈ line.fields, IsWord blank f.2) :
    lib.splitString line.text [" "] = line.word :: line.fields.map Prod.snd := by
  have hwords : ∀ w ∈ line.fields.map (fun f => (f.1, f.2.toList)),
      Solid blank w.2 ∧ ' ' ∉ w.2 := by
    intro w hw
    obtain ⟨f, hf, rfl⟩ := List.mem_map.mp hw
    exact (hfields f hf).solid (Or.inl rfl)
  rw [hsplit " " ' ' rfl, KernelLine.text, String.toList_ofList, KernelLine.chars,
    pieces_spaced (hword.solid (Or.inl rfl)) hwords, List.map_cons, String.ofList_toList,
    List.map_map, List.map_map]
  congr 1
  exact List.map_congr_left (fun f _ => String.ofList_toList)

theorem chars_solid (hword : IsWord blank line.word)
    (hfields : ∀ f ∈ line.fields, IsWord blank f.2) :
    Solid blank line.chars := by
  have hstart := hword.solid (Or.inl rfl)
  refine ⟨List.append_ne_nil_of_left_ne_nil hstart.1.nonempty _, ?_, ?_⟩
  · intro c hc
    rw [KernelLine.chars, List.head?_append_of_ne_nil _ hstart.1.nonempty] at hc
    exact hstart.1.starts c hc
  · intro c hc
    rcases List.eq_nil_or_concat line.fields with hnone | ⟨before, f, hlast⟩
    · rw [KernelLine.chars, hnone, List.map_nil] at hc
      exact hstart.1.ends c (by simpa [spaced] using hc)
    · have hf := (hfields f (by rw [hlast]; simp)).solid (Or.inl (rfl : ' ' = ' '))
      have hend : line.chars = (line.word.toList ++ spaced ' '
          (before.map fun f => (f.1, f.2.toList)) ++ List.replicate (f.1 + 1) ' ') ++
            f.2.toList := by
        simp [KernelLine.chars, hlast, spaced]
      rw [hend, List.getLast?_append_of_ne_nil _ hf.1.nonempty] at hc
      exact hf.1.ends c hc

theorem chars_newline (hword : IsWord blank line.word)
    (hfields : ∀ f ∈ line.fields, IsWord blank f.2) :
    '\n' ∉ line.chars := by
  intro hmem
  rcases List.mem_append.mp hmem with hmem | hmem
  · exact (hword.2 _ hmem).2.1 rfl
  · obtain ⟨w, hw, hmem⟩ := List.mem_flatMap.mp hmem
    obtain ⟨f, hf, rfl⟩ := List.mem_map.mp hw
    rcases List.mem_append.mp hmem with hmem | hmem
    · cases List.eq_of_mem_replicate hmem
    · exact ((hfields f hf).2 _ hmem).2.1 rfl

theorem splitString_lines (hsplit : lib.SplitsTrimmed blank (kernelText lines))
    (hwords : ∀ line ∈ lines, IsWord blank line.word ∧ ∀ f ∈ line.fields, IsWord blank f.2) :
    lib.splitString (kernelText lines) ["\n"] = lines.map KernelLine.text := by
  have hlines : ∀ chars ∈ lines.map KernelLine.chars, Solid blank chars ∧ '\n' ∉ chars := by
    intro chars hchars
    obtain ⟨line, hline, rfl⟩ := List.mem_map.mp hchars
    obtain ⟨hword, hfields⟩ := hwords line hline
    exact ⟨chars_solid hword hfields, chars_newline hword hfields⟩
  rw [hsplit "\n" '\n' rfl, kernelText, String.toList_ofList,
    pieces_ended hlines, List.map_map]
  rfl

end Splitting

/-! ## What is read of a line

The branches of the loader test how a line starts.  A keyword decides its
branch, and a line of no keyword may still start like the misspelled ones. -/

section Reading

variable {lib : Advgetopt} {blank : Char → Bool} {line : KernelLine} {lines : List KernelLine}
  {f g : Figure}

theorem spaced_head (words : List (Nat × List Char)) :
    ∀ c ∈ (spaced ' ' words).head?, c = ' ' := by
  intro c hc
  cases words with
  | nil => cases hc
  | cons w words => exact (Option.some.inj hc).symm

theorem text_length (hfields : ∀ f ∈ line.fields, IsWord blank f.2) (hsome : line.fields ≠ []) :
    line.word.toList.length + 1 < line.text.toList.length := by
  obtain ⟨f, fields, hcons⟩ := List.exists_cons_of_ne_nil hsome
  have hf := (hfields f (by rw [hcons]; exact List.mem_cons_self)).1
  have hpos := List.length_pos_of_ne_nil hf
  rw [KernelLine.text, String.toList_ofList, KernelLine.chars, hcons, List.map_cons, spaced,
    List.flatMap_cons]
  simp only [List.length_append, List.length_replicate]
  omega

/-- A keyword and a blank start the lines of this word that have a field. -/
theorem lineStarts_keyword (hword : IsWord blank line.word)
    (hfields : ∀ f ∈ line.fields, IsWord blank f.2)
    (keyword start : String) (n : Nat)
    (hstart : start.toList = keyword.toList ++ [' ']) (hkeyword : ' ' ∉ keyword.toList)
    (hn : n ≤ keyword.toList.length + 1) :
    lineStarts line.text start n = decide (line.word = keyword ∧ line.fields ≠ []) := by
  have hspaced : spaced ' ' (line.fields.map fun f => (f.1, f.2.toList)) ≠ [] ↔
      line.fields ≠ [] := by
    cases line.fields with
    | nil => simp [spaced]
    | cons f fields => simp [spaced]
  have hstarts : start.toList <+: line.text.toList ↔ line.word = keyword ∧ line.fields ≠ [] := by
    rw [hstart, KernelLine.text, String.toList_ofList, KernelLine.chars,
      prefix_sep_iff hkeyword (hword.solid (Or.inl rfl)).2 (spaced_head _), hspaced,
      String.toList_inj]
  rw [lineStarts, Bool.eq_iff_iff, Bool.and_eq_true, List.isPrefixOf_iff_prefix, hstarts,
    decide_eq_true_eq, decide_eq_true_eq, and_iff_left_iff_imp]
  rintro ⟨rfl, hsome⟩
  have hlength := text_length hfields hsome
  omega

/-- The four words that are tested with the blank after them first. -/
theorem lineStarts_keywords (hword : IsWord blank line.word)
    (hfields : ∀ f ∈ line.fields, IsWord blank f.2) :
    lineStarts line.text "btime " 6 = decide (line.word = "btime" ∧ line.fields ≠ []) ∧
      lineStarts line.text "cpu " 4 = decide (line.word = "cpu" ∧ line.fields ≠ []) ∧
      lineStarts line.text "ctxt " 5 = decide (line.word = "ctxt" ∧ line.fields ≠ []) ∧
      lineStarts line.text "intr " 5 = decide (line.word = "intr" ∧ line.fields ≠ []) := by
  have hstart := lineStarts_keyword hword hfields
  refine ⟨hstart "btime" _ 6 rfl ?_ ?_, hstart "cpu" _ 4 rfl ?_ ?_, hstart "ctxt" _ 5 rfl ?_ ?_,
    hstart "intr" _ 5 rfl ?_ ?_⟩
  all_goals decide

theorem lineStarts_word (line : KernelLine) (start : String) (n : Nat)
    (hstart : ' ' ∉ start.toList) :
    lineStarts line.text start n =
      (start.toList.isPrefixOf line.word.toList && decide (line.text.toList.length > n)) := by
  rw [lineStarts]
  refine congrArg₂ and ?_ rfl
  rw [Bool.eq_iff_iff, List.isPrefixOf_iff_prefix, List.isPrefixOf_iff_prefix, KernelLine.text,
    String.toList_ofList, KernelLine.chars, prefix_word_iff hstart (spaced_head _)]

theorem lastWrite_writeInteger (f g : Figure) (text : Option String) :
    lastWrite (writeInteger lib g text) f =
      if f = g then (text.bind lib.integer).map .int else none := by
  rw [writeInteger]
  cases text.bind lib.integer with
  | none => simp
  | some n => exact lastWrite_concat [] (g, Reading.int n) f

/-- The times of the CPU are each written in its own column. -/
theorem lastWrite_cpu (columns : List (Fin 9)) (value : Fin 9 → Option String) (idx : Fin 9) :
    (idx ∈ columns →
      lastWrite (columns.flatMap fun i => writeInteger lib (.cpu i) (value i)) (.cpu idx) =
        ((value idx).bind lib.integer).map .int) ∧
    (idx ∉ columns →
      lastWrite (columns.flatMap fun i => writeInteger lib (.cpu i) (value i)) (.cpu idx) =
        none) := by
  induction columns with
  | nil => exact ⟨fun h => absurd h List.not_mem_nil, fun _ => rfl⟩
  | cons i columns ih =>
      rw [List.flatMap_cons, lastWrite_append, lastWrite_writeInteger]
      by_cases hrest : idx ∈ columns
      · rw [ih.1 hrest]
        refine ⟨fun _ => ?_, fun h => absurd (List.mem_cons_of_mem i hrest) h⟩
        by_cases hsame : idx = i
        · subst hsame
          simp
        · simp [hsame]
      · rw [ih.2 hrest, Option.none_or]
        constructor
        · intro hmem
          obtain rfl := (List.mem_cons.mp hmem).resolve_right hrest
          exact if_pos rfl
        · intro hmem
          refine if_neg fun hsame => hmem ?_
          rw [Figure.cpu.inj hsame]
          exact List.mem_cons_self

theorem lastWrite_not_cpu (columns : List (Fin 9)) (value : Fin 9 → Option String)
    (hf : f.keyword ≠ some "cpu") :
    lastWrite (columns.flatMap fun i => writeInteger lib (.cpu i) (value i)) f = none := by
  induction columns with
  | nil => rfl
  | cons i columns ih =>
      have hother : f ≠ .cpu i := by
        rintro rfl
        exact hf rfl
      rw [List.flatMap_cons, lastWrite_append, ih, lastWrite_writeInteger, if_neg hother]
      rfl

theorem readFrom_keyword {word : String} (hword : word ∈ ["btime", "cpu", "ctxt", "intr"]) :
    f.readFrom word = decide (f.keyword = some word) := by
  simp only [List.mem_cons, List.not_mem_nil, or_false] at hword
  rcases hword with rfl | rfl | rfl | rfl <;> cases f <;> rfl

theorem values_field (i : Nat) :
    (line.word :: line.fields.map Prod.snd)[i + 1]? = line.field i := by
  rw [List.getElem?_cons_succ, List.getElem?_map, KernelLine.field]

/-- The time of the boot is written whether it can be read or not. -/
theorem readStatLine_btime (hsplit : lib.SplitsTrimmed blank line.text)
    (hword : IsWord blank line.word) (hfields : ∀ f ∈ line.fields, IsWord blank f.2)
    (h : line.word = "btime") {text : String}
    (hsome : line.fields ≠ []) (hfield : line.field 0 = some text) :
    readStatLine lib line.text = some [(.bootTime, .int ((lib.integer text).getD 0))] := by
  obtain ⟨hbtime, -⟩ := lineStarts_keywords hword hfields
  rw [readStatLine, splitString_line hsplit hword hfields]
  simp only [hbtime, values_field, hfield]
  exact if_pos (decide_eq_true ⟨h, hsome⟩)

theorem readStatLine_cpu (hsplit : lib.SplitsTrimmed blank line.text)
    (hword : IsWord blank line.word) (hfields : ∀ f ∈ line.fields, IsWord blank f.2)
    (h : line.word = "cpu") (hcolumns : 9 ≤ line.fields.length) :
    readStatLine lib line.text = some ((List.finRange 9).flatMap fun idx =>
      writeInteger lib (.cpu idx) (line.field idx.val)) := by
  obtain ⟨hbtime, hcpu, -, -⟩ := lineStarts_keywords hword hfields
  have hsome : line.fields ≠ [] := List.ne_nil_of_length_pos (by omega)
  have hlength : ¬ (line.word :: line.fields.map Prod.snd).length < 10 := by
    rw [List.length_cons, List.length_map]
    omega
  rw [readStatLine, splitString_line hsplit hword hfields]
  simp only [hbtime, hcpu, values_field, hlength]
  simp [h, hsome]

/-- Of a line of interrupts or switches only the total number is read. -/
theorem readStatLine_counter (hsplit : lib.SplitsTrimmed blank line.text)
    (hword : IsWord blank line.word) (hfields : ∀ f ∈ line.fields, IsWord blank f.2)
    (h : line.word = "ctxt" ∨ line.word = "intr") (hsome : line.fields ≠ []) :
    readStatLine lib line.text = some (writeInteger lib
      (if line.word = "ctxt" then .ctxt else .intr) (line.field 0)) := by
  obtain ⟨hbtime, hcpu, hctxt, hintr⟩ := lineStarts_keywords hword hfields
  rw [readStatLine, splitString_line hsplit hword hfields]
  simp only [hbtime, hcpu, hctxt, hintr, values_field]
  rcases h with h | h <;> simp [h, hsome]

theorem cpu_columns (h : line.word = "cpu")
    (hnumbers : ∀ f : Figure, f.keyword = some line.word →
      ∃ text, line.field f.column = some text) :
    9 ≤ line.fields.length := by
  obtain ⟨text, hfield⟩ := hnumbers (.cpu 8) (congrArg some h.symm)
  have hlast : line.field 8 = some text := hfield
  rw [KernelLine.field, Option.map_eq_some_iff] at hlast
  obtain ⟨x, hx, -⟩ := hlast
  exact (List.getElem?_eq_some_iff.mp hx).1

/-- A line of a keyword writes the figures of its word. -/
theorem readStatLine_keyword (hsplit : lib.SplitsTrimmed blank line.text)
    (hword : IsWord blank line.word) (hfields : ∀ f ∈ line.fields, IsWord blank f.2)
    (hkeyword : line.word ∈ ["btime", "cpu", "ctxt", "intr"])
    (hnumbers : ∀ f : Figure, f.keyword = some line.word →
      ∃ text n, line.field f.column = some text ∧ lib.integer text = some n) :
    ∃ ws, readStatLine lib line.text = some ws ∧ ∀ f, f.keyword.isSome = true →
      lastWrite ws f =
        if f.keyword = some line.word then
          ((line.field f.column).bind lib.integer).map Reading.int
        else none := by
  have hsome : ∀ f : Figure, f.keyword = some line.word → line.fields ≠ [] := by
    intro f hf hnone
    obtain ⟨text, n, hfield, -⟩ := hnumbers f hf
    rw [KernelLine.field, hnone] at hfield
    cases hfield
  simp only [List.mem_cons, List.not_mem_nil, or_false] at hkeyword
  rcases hkeyword with h | h | hcounter
  · obtain ⟨text, n, hfield, hn⟩ := hnumbers .bootTime (congrArg some h.symm)
    have hfirst : line.field 0 = some text := hfield
    refine ⟨_, readStatLine_btime hsplit hword hfields h
      (hsome .bootTime (congrArg some h.symm)) hfirst, ?_⟩
    intro f _
    refine (lastWrite_concat [] (Figure.bootTime, Reading.int _) f).trans ?_
    rw [h]
    cases f <;> simp [Figure.keyword, Figure.column, hfirst, hn]
  · refine ⟨_, readStatLine_cpu hsplit hword hfields h (cpu_columns h fun f hf => ?_), ?_⟩
    · obtain ⟨text, n, hfield, -⟩ := hnumbers f hf
      exact ⟨text, hfield⟩
    intro f _
    rw [h]
    split
    · next hcpu =>
        cases f with
        | cpu idx => exact (lastWrite_cpu _ _ idx).1 (List.mem_finRange idx)
        | _ => simp [Figure.keyword] at hcpu
    · next hcpu => exact lastWrite_not_cpu _ _ hcpu
  · have hfigure : ∃ f : Figure, f.keyword = some line.word := by
      rcases hcounter with h | h
      · exact ⟨.ctxt, congrArg some h.symm⟩
      · exact ⟨.intr, congrArg some h.symm⟩
    obtain ⟨g, hg⟩ := hfigure
    refine ⟨_, readStatLine_counter hsplit hword hfields hcounter (hsome g hg), ?_⟩
    intro f _
    rw [lastWrite_writeInteger]
    rcases hcounter with h | h <;> rw [h] <;> cases f <;> simp [Figure.keyword, Figure.column]

theorem field_nil (hnone : line.fields = []) (i : Nat) : line.field i = none := by
  rw [KernelLine.field, hnone]
  rfl

theorem readFrom_other {word : String} (hword : word ∉ ["btime", "cpu", "ctxt", "intr"]) :
    f.readFrom word = true ↔
      (f = .processes ∧ "pprocesses".toList <+: word.toList) ∨
        (f = .procsRunning ∧ word = "pprocs_running") ∨
        (f = .procsBlocked ∧ word = "pprocs_blocked") := by
  have hkeyword : ∀ k ∈ ["btime", "cpu", "ctxt", "intr"], some k ≠ some word := by
    intro k hk hsame
    exact hword (Option.some.inj hsame ▸ hk)
  cases f
  case processes => exact List.isPrefixOf_iff_prefix.trans (by simp)
  case procsRunning => simp [Figure.readFrom]
  case procsBlocked => simp [Figure.readFrom]
  case cpu idx => simpa [Figure.readFrom, Figure.keyword] using hkeyword "cpu" (by simp)
  case intr => simpa [Figure.readFrom, Figure.keyword] using hkeyword "intr" (by simp)
  case ctxt => simpa [Figure.readFrom, Figure.keyword] using hkeyword "ctxt" (by simp)
  case bootTime => simpa [Figure.readFrom, Figure.keyword] using hkeyword "btime" (by simp)
  all_goals simp [Figure.readFrom, Figure.keyword]

theorem lastWrite_single (hcolumn : g.column = 0)
    (hread : ∀ f : Figure, f.readFrom line.word = true ↔ f = g) (f : Figure) :
    lastWrite (writeInteger lib g (line.field 0)) f =
      if f.readFrom line.word then ((line.field f.column).bind lib.integer).map Reading.int
      else none := by
  rw [lastWrite_writeInteger, if_congr (hread f) rfl rfl]
  split
  · next h => rw [h, hcolumn]
  · rfl

theorem readStatLine_p (hsplit : lib.SplitsTrimmed blank line.text)
    (hword : IsWord blank line.word) (hfields : ∀ f ∈ line.fields, IsWord blank f.2)
    (hkeyword : line.word ∉ ["btime", "cpu", "ctxt", "intr"]) :
    readStatLine lib line.text =
      if lineStarts line.text "pproc" 11 then
        if lineStarts line.text "pprocesses" 11 then
          some (writeInteger lib .processes (line.field 0))
        else if lineStarts line.text "pprocs_running " 15 then
          some (writeInteger lib .procsRunning (line.field 0))
        else if lineStarts line.text "pprocs_blocked " 15 then
          some (writeInteger lib .procsBlocked (line.field 0))
        else some []
      else some [] := by
  obtain ⟨hbtime, hcpu, hctxt, hintr⟩ := lineStarts_keywords hword hfields
  simp only [List.mem_cons, List.not_mem_nil, or_false, not_or] at hkeyword
  obtain ⟨h₁, h₂, h₃, h₄⟩ := hkeyword
  rw [readStatLine, splitString_line hsplit hword hfields]
  simp only [hbtime, hcpu, hctxt, hintr, values_field, h₁, h₂, h₃, h₄, false_and, decide_false,
    Bool.false_eq_true, if_false]

theorem lineStarts_long (hfields : ∀ f ∈ line.fields, IsWord blank f.2) (hsome : line.fields ≠ [])
    (hlong : 10 ≤ line.word.toList.length) (start : String) (hstart : ' ' ∉ start.toList) :
    lineStarts line.text start 11 = true ↔ start.toList <+: line.word.toList := by
  have htext := text_length hfields hsome
  rw [lineStarts_word line start 11 hstart, Bool.and_eq_true, List.isPrefixOf_iff_prefix]
  exact and_iff_left (decide_eq_true (by omega))

/-- A line that starts with the misspelled word. -/
theorem readStatLine_processes (hsplit : lib.SplitsTrimmed blank line.text)
    (hword : IsWord blank line.word) (hfields : ∀ f ∈ line.fields, IsWord blank f.2)
    (hkeyword : line.word ∉ ["btime", "cpu", "ctxt", "intr"]) (hsome : line.fields ≠ [])
    (hpre : "pprocesses".toList <+: line.word.toList) :
    readStatLine lib line.text = some (writeInteger lib .processes (line.field 0)) := by
  have hstart := lineStarts_long hfields hsome hpre.length_le
  have hproc : "pproc".toList <+: line.word.toList := List.IsPrefix.trans (by decide) hpre
  rw [readStatLine_p hsplit hword hfields hkeyword,
    if_pos ((hstart "pproc" (by decide)).mpr hproc),
    if_pos ((hstart "pprocesses" (by decide)).mpr hpre)]

theorem readStatLine_procs (hsplit : lib.SplitsTrimmed blank line.text)
    (hword : IsWord blank line.word) (hfields : ∀ f ∈ line.fields, IsWord blank f.2)
    (hkeyword : line.word ∉ ["btime", "cpu", "ctxt", "intr"]) (hsome : line.fields ≠ [])
    (hprocs : line.word = "pprocs_running" ∨ line.word = "pprocs_blocked") :
    readStatLine lib line.text = some (writeInteger lib
      (if line.word = "pprocs_running" then .procsRunning else .procsBlocked) (line.field 0)) := by
  have hlong : 10 ≤ line.word.toList.length := by
    rcases hprocs with h | h <;> rw [h] <;> decide
  have hproc : "pproc".toList <+: line.word.toList := by
    rcases hprocs with h | h <;> rw [h] <;> decide
  have hnot : ¬ "pprocesses".toList <+: line.word.toList := by
    rcases hprocs with h | h <;> rw [h] <;> decide
  have hstart := lineStarts_long hfields hsome hlong
  have hkey := lineStarts_keyword hword hfields
  rw [readStatLine_p hsplit hword hfields hkeyword,
    if_pos ((hstart "pproc" (by decide)).mpr hproc),
    if_neg (mt (hstart "pprocesses" (by decide)).mp hnot),
    hkey "pprocs_running" "pprocs_running " 15 rfl (by decide) (by decide),
    hkey "pprocs_blocked" "pprocs_blocked " 15 rfl (by decide) (by decide)]
  by_cases hrun : line.word = "pprocs_running"
  · rw [if_pos (decide_eq_true ⟨hrun, hsome⟩), if_pos hrun]
  · have hblock := hprocs.resolve_left hrun
    rw [if_neg (by simp [hrun]), if_pos (decide_eq_true ⟨hblock, hsome⟩), if_neg hrun]

theorem readStatLine_none (hsplit : lib.SplitsTrimmed blank line.text)
    (hword : IsWord blank line.word) (hfields : ∀ f ∈ line.fields, IsWord blank f.2)
    (hkeyword : line.word ∉ ["btime", "cpu", "ctxt", "intr"])
    (hnone : line.fields = [] ∨ (¬ "pprocesses".toList <+: line.word.toList ∧
      line.word ≠ "pprocs_running" ∧ line.word ≠ "pprocs_blocked")) :
    readStatLine lib line.text = some [] := by
  have hkey := lineStarts_keyword hword hfields
  rw [readStatLine_p hsplit hword hfields hkeyword,
    hkey "pprocs_running" "pprocs_running " 15 rfl (by decide) (by decide),
    hkey "pprocs_blocked" "pprocs_blocked " 15 rfl (by decide) (by decide),
    lineStarts_word line "pprocesses" 11 (by decide)]
  rcases hnone with hnone | ⟨hpre, hrun, hblock⟩
  · rw [field_nil hnone]
    simp [hnone, writeInteger]
  · rw [Bool.eq_false_iff.mpr (mt List.isPrefixOf_iff_prefix.mp hpre)]
    simp [hrun, hblock]

/-- A line of no keyword writes the figures of the misspelled words. -/
theorem readStatLine_other (hsplit : lib.SplitsTrimmed blank line.text)
    (hword : IsWord blank line.word) (hfields : ∀ f ∈ line.fields, IsWord blank f.2)
    (hkeyword : line.word ∉ ["btime", "cpu", "ctxt", "intr"]) :
    ∃ ws, readStatLine lib line.text = some ws ∧ ∀ f,
      lastWrite ws f =
        if f.readFrom line.word then ((line.field f.column).bind lib.integer).map Reading.int
        else none := by
  have hread := fun f : Figure => readFrom_other (f := f) hkeyword
  by_cases hsome : line.fields = []
  · refine ⟨[], readStatLine_none hsplit hword hfields hkeyword (Or.inl hsome), ?_⟩
    intro f
    rw [field_nil hsome, lastWrite_nil, Option.bind_none, Option.map_none, ite_self]
  by_cases hpre : "pprocesses".toList <+: line.word.toList
  · have hnot : line.word ≠ "pprocs_running" ∧ line.word ≠ "pprocs_blocked" := by
      constructor <;> intro hw <;> rw [hw] at hpre <;> exact absurd hpre (by decide)
    refine ⟨_, readStatLine_processes hsplit hword hfields hkeyword hsome hpre, ?_⟩
    refine lastWrite_single rfl fun f => ?_
    rw [hread f]
    tauto
  by_cases hprocs : line.word = "pprocs_running" ∨ line.word = "pprocs_blocked"
  · refine ⟨_, readStatLine_procs hsplit hword hfields hkeyword hsome hprocs, ?_⟩
    refine lastWrite_single (by split <;> rfl) fun f => ?_
    rw [hread f]
    split
    · next hrun =>
        have hblock : line.word ≠ "pprocs_blocked" := by
          rw [hrun]
          decide
        tauto
    · next hrun => tauto
  · refine ⟨[], readStatLine_none hsplit hword hfields hkeyword
      (Or.inr ⟨hpre, not_or.mp hprocs⟩), ?_⟩
    intro f
    have hfalse : ¬ f.readFrom line.word = true := by
      rw [hread f]
      tauto
    rw [if_neg hfalse, lastWrite_nil]

/-- **What a line writes**: it can be read, and each figure gets what is in its
column, if the line is one that it is read from. -/
theorem readStatLine_spec (hsplit : lib.SplitsTrimmed blank line.text)
    (hword : IsWord blank line.word) (hfields : ∀ f ∈ line.fields, IsWord blank f.2)
    (hnumbers : ∀ f : Figure, f.keyword = some line.word →
      ∃ text n, line.field f.column = some text ∧ lib.integer text = some n) :
    ∃ ws, readStatLine lib line.text = some ws ∧ ∀ f, f.keyword.isSome = true →
      lastWrite ws f =
        if f.readFrom line.word then ((line.field f.column).bind lib.integer).map Reading.int
        else none := by
  by_cases hkeyword : line.word ∈ ["btime", "cpu", "ctxt", "intr"]
  · obtain ⟨ws, hws, hlast⟩ := readStatLine_keyword hsplit hword hfields hkeyword hnumbers
    refine ⟨ws, hws, ?_⟩
    intro f hf
    rw [hlast f hf, readFrom_keyword hkeyword]
    simp only [decide_eq_true_eq]
  · obtain ⟨ws, hws, hlast⟩ := readStatLine_other hsplit hword hfields hkeyword
    exact ⟨ws, hws, fun f _ => hlast f⟩

theorem readings_cons (line : KernelLine) (lines : List KernelLine) (f : Figure) :
    readings lib (line :: lines) f =
      (if f.readFrom line.word then ((line.field f.column).bind lib.integer).toList else []) ++
        readings lib lines f := by
  rw [readings, List.filter_cons]
  split
  · rw [List.filterMap_cons]
    cases (line.field f.column).bind lib.integer <;> rfl
  · rfl

/-- The lines one after the other: a figure gets the last of its readings. -/
theorem readStatLines_spec (hint : lib.ReadsBack)
    (hsplit : ∀ line ∈ lines, lib.SplitsTrimmed blank line.text)
    (hwords : ∀ line ∈ lines, IsWord blank line.word ∧ ∀ f ∈ line.fields, IsWord blank f.2)
    (hnumbers : ∀ line ∈ lines, ∀ f : Figure, f.keyword = some line.word →
      ∃ n : Int, 0 ≤ n ∧ n < 2 ^ 63 ∧ line.field f.column = some (toString n)) :
    ∃ ws, readStatLines lib (lines.map KernelLine.text) = some ws ∧
      ∀ f, f.keyword.isSome = true →
        lastWrite ws f = (readings lib lines f).getLast?.map Reading.int := by
  induction lines with
  | nil => exact ⟨[], rfl, fun _ _ => rfl⟩
  | cons line lines ih =>
      obtain ⟨⟨hword, hfields⟩, hrest⟩ := List.forall_mem_cons.mp hwords
      obtain ⟨hline, hlines⟩ := List.forall_mem_cons.mp hnumbers
      obtain ⟨hparts, hsplits⟩ := List.forall_mem_cons.mp hsplit
      obtain ⟨rest, hread, hlast⟩ := ih hsplits hrest hlines
      have hreadable : ∀ f : Figure, f.keyword = some line.word →
          ∃ text n, line.field f.column = some text ∧ lib.integer text = some n := by
        intro f hf
        obtain ⟨n, hlow, hhigh, hfield⟩ := hline f hf
        exact ⟨_, n, hfield, hint n hlow hhigh⟩
      obtain ⟨ws, hws, hfirst⟩ := readStatLine_spec hparts hword hfields hreadable
      refine ⟨ws ++ rest, by rw [List.map_cons, readStatLines, hws, hread], ?_⟩
      intro f hf
      rw [lastWrite_append, hlast f hf, hfirst f hf, readings_cons, List.getLast?_append,
        Option.map_or]
      refine congrArg₂ Option.or rfl ?_
      split
      · cases (line.field f.column).bind lib.integer <;> rfl
      · rfl

end Reading

/-! ## The figures

A figure is the last of its readings, and those of its own line are right.  So
it is wrong only where another line is read in its place. -/

section Figures

variable {lib : Advgetopt} {double : String → Option Rat} {blank : Char → Bool}
  {files : ProcFiles} {lines : List KernelLine} {s : SysStats} {f : Figure} {n : Int}

variable (double) in
/-- **What `load_stat` leaves in the figures**: the last reading, or what was
there. -/
theorem load_figures (hlines : lib.SplitsTrimmed blank (kernelText lines))
    (hsplit : ∀ line ∈ lines, lib.SplitsTrimmed blank line.text) (hint : lib.ReadsBack)
    (hformat : KernelFormat blank lines) (hstat : files.stat = some (kernelText lines))
    (hs : s.defined .stat = false) :
    ∃ s', s.load lib double files .stat = some s' ∧ s'.defined .stat = true ∧
      ∀ f, f.keyword.isSome = true →
        s'.figures f = ((readings lib lines f).getLast?.map Reading.int).or (s.figures f) := by
  obtain ⟨ws, hws, hlast⟩ := readStatLines_spec hint hsplit hformat.words hformat.numbers
  have hgroup : readGroup lib double files .stat = some ws := by
    rw [readGroup, hstat]
    dsimp only
    rw [readStat, splitString_lines hlines hformat.words, hws]
  refine ⟨_, by rw [SysStats.load, if_neg (by rw [hs]; exact Bool.false_ne_true), hgroup]; rfl,
    ?_, ?_⟩
  · exact Function.update_self (f := s.defined) StatsGroup.stat true
  intro f hf
  show (lastWrite ws f).or (s.figures f) = _
  rw [hlast f hf]

theorem get_loaded (hs : s.defined .stat = true) (hf : f.keyword.isSome = true) :
    (s.get lib double files f.getter).2 = .ok (s.figures f) := by
  have hload : s.load lib double files .stat = some s := by rw [SysStats.load, if_pos hs]
  have hmember : ∀ g : Figure, g.group = .stat →
      (s.getFigure lib double files g).2 = s.figures g := by
    intro g hg
    have hreturned : g.returned = id := by
      cases g <;> first | rfl | cases hg
    rw [SysStats.getFigure, hg, hload]
    dsimp only
    rw [hreturned, Option.map_id, id]
  cases f with
  | cpu idx =>
      have hrange : ¬ ((idx.val : Int) < 0 ∨ (idx.val : Int) ≥ 9) := by omega
      rw [Figure.getter, SysStats.get, dif_neg hrange]
      exact congrArg Except.ok (hmember (.cpu idx) rfl)
  | intr => exact congrArg Except.ok (hmember .intr rfl)
  | ctxt => exact congrArg Except.ok (hmember .ctxt rfl)
  | bootTime => exact congrArg Except.ok (hmember .bootTime rfl)
  | processes => exact congrArg Except.ok (hmember .processes rfl)
  | procsRunning => exact congrArg Except.ok (hmember .procsRunning rfl)
  | procsBlocked => exact congrArg Except.ok (hmember .procsBlocked rfl)
  | _ => cases hf

theorem readFrom_own (hf : f ∉ [Figure.processes, .procsRunning, .procsBlocked]) (word : String) :
    f.readFrom word = decide (f.keyword = some word) := by
  cases f <;> first | rfl | simp at hf

/-- A figure of another line's word has one reading: its number. -/
theorem readings_own (hint : lib.ReadsBack) (hformat : KernelFormat blank lines)
    (hf : f ∉ [Figure.processes, .procsRunning, .procsBlocked]) (hn : OnItsLine lines f n) :
    (readings lib lines f).getLast? = some n := by
  obtain ⟨hlow, hhigh, line, hline, hword, hfield⟩ := hn
  have hreading : (line.field f.column).bind lib.integer = some n := by
    rw [hfield, Option.bind_some, hint n hlow hhigh]
  have hmem : ∀ m, m ∈ readings lib lines f ↔ m = n := by
    intro m
    simp only [readings, List.mem_filterMap, List.mem_filter, readFrom_own hf, decide_eq_true_eq]
    constructor
    · rintro ⟨line', ⟨hline', hword'⟩, hm⟩
      rw [hformat.single line hline line' hline' f hword hword', hreading] at hm
      exact (Option.some.inj hm).symm
    · rintro rfl
      exact ⟨line, ⟨hline, hword⟩, hreading⟩
  have hne : readings lib lines f ≠ [] := List.ne_nil_of_mem ((hmem n).mpr rfl)
  rw [List.getLast?_eq_some_getLast hne, (hmem _).mp (List.getLast_mem hne)]

end Figures

/-- **The getters return what is written on the lines of the figures exactly
when the numbers of processes are what the misspelled lines or the members
say.** -/
theorem statFigures_iff (lib : Advgetopt) (double : String → Option Rat) (blank : Char → Bool)
    (files : ProcFiles) (lines : List KernelLine) (s : SysStats)
    (hlines : lib.SplitsTrimmed blank (kernelText lines))
    (hsplit : ∀ line ∈ lines, lib.SplitsTrimmed blank line.text) (hint : lib.ReadsBack)
    (hformat : KernelFormat blank lines) (hstat : files.stat = some (kernelText lines))
    (hs : s.defined .stat = false) :
    StatFiguresRead lib double files lines s ↔ MisspelledAgree lib lines s := by
  obtain ⟨s', hload, hdefined, hfigures⟩ :=
    load_figures double hlines hsplit hint hformat hstat hs
  have hget : ∀ f n, OnItsLine lines f n →
      ((s'.get lib double files f.getter).2 = .ok (some (.int n)) ↔
        (readings lib lines f).getLast? = some n ∨
          (readings lib lines f = [] ∧ s.figures f = some (.int n))) := by
    intro f n hn
    obtain ⟨-, -, line, -, hword, -⟩ := hn
    have hf : f.keyword.isSome = true := by rw [hword]; rfl
    rw [get_loaded hdefined hf, hfigures f hf, Except.ok.injEq, ← List.getLast?_eq_none_iff]
    cases (readings lib lines f).getLast? <;> simp
  constructor
  · rintro ⟨s'', hload', hall⟩ f _ n hn
    rw [hload] at hload'
    obtain rfl := Option.some.inj hload'
    exact (hget f n hn).mp (hall f n hn)
  · intro hagree
    refine ⟨s', hload, ?_⟩
    intro f n hn
    refine (hget f n hn).mpr ?_
    by_cases hf : f ∈ [Figure.processes, .procsRunning, .procsBlocked]
    · exact hagree f hf n hn
    · exact Or.inl (readings_own hint hformat hf hn)

/-- The kernel writes no misspelled line: on a fresh object all three numbers
have to be 0. -/
theorem misspelledAgree_fresh (lib : Advgetopt) {lines : List KernelLine}
    (hkernel : ∀ line ∈ lines, ¬ "pproc".toList <+: line.word.toList) :
    MisspelledAgree lib lines SysStats.create ↔
      ∀ f ∈ [Figure.processes, .procsRunning, .procsBlocked], ∀ n, OnItsLine lines f n → n = 0 := by
  have hread : ∀ f ∈ [Figure.processes, .procsRunning, .procsBlocked], ∀ line ∈ lines,
      f.readFrom line.word = false := by
    intro f hf line hline
    have hword := hkernel line hline
    simp only [List.mem_cons, List.not_mem_nil, or_false] at hf
    rcases hf with rfl | rfl | rfl
    · refine Bool.eq_false_iff.mpr fun hpre => hword ?_
      exact List.IsPrefix.trans (by decide) (List.isPrefixOf_iff_prefix.mp hpre)
    · refine decide_eq_false fun hsame => hword ?_
      rw [hsame]
      decide
    · refine decide_eq_false fun hsame => hword ?_
      rw [hsame]
      decide
  have hinitial : ∀ f ∈ [Figure.processes, .procsRunning, .procsBlocked],
      SysStats.create.figures f = some (.int 0) := by decide
  refine forall_congr' fun f => forall_congr' fun hf => forall_congr' fun n => ?_
  have hnone : readings lib lines f = [] := by
    rw [readings, List.filter_eq_nil_iff.mpr, List.filterMap_nil]
    intro line hline
    rw [hread f hf line hline]
    exact Bool.false_ne_true
  rw [hnone, hinitial f hf]
  simp [eq_comm]

/-! ## Two files -/

section Example

theorem kernelFormat_of_nodup {blank : Char → Bool} {lines : List KernelLine}
    (hwords : ∀ line ∈ lines, IsWord blank line.word ∧ ∀ f ∈ line.fields, IsWord blank f.2)
    (hnumbers : ∀ line ∈ lines, ∀ f : Figure, f.keyword = some line.word →
      ∃ n : Int, 0 ≤ n ∧ n < 2 ^ 63 ∧ line.field f.column = some (toString n))
    (hnodup : (lines.map KernelLine.word).Nodup) : KernelFormat blank lines where
  words := hwords
  numbers := hnumbers
  single _ hline _ hline' _ hf hf' :=
    List.inj_on_of_nodup_map hnodup hline' hline (Option.some.inj (hf'.symm.trans hf))

/-- Interrupts, and no process that waits. -/
def quietLines : List KernelLine :=
  [⟨"intr", [(0, "5"), (0, "3")]⟩, ⟨"procs_blocked", [(0, "0")]⟩]

theorem quietLines_format : KernelFormat (· == ' ') quietLines := by
  have hwords : ∀ line ∈ quietLines, IsWord (· == ' ') line.word ∧
      ∀ f ∈ line.fields, IsWord (· == ' ') f.2 := by
    refine List.forall_mem_cons.mpr ⟨⟨by decide, ?_⟩, List.forall_mem_singleton.mpr
      ⟨by decide, List.forall_mem_singleton.mpr (by decide)⟩⟩
    exact List.forall_mem_cons.mpr ⟨by decide, List.forall_mem_singleton.mpr (by decide)⟩
  refine kernelFormat_of_nodup hwords ?_ (by decide)
  intro line hline f hf
  simp only [quietLines, List.mem_cons, List.not_mem_nil, or_false] at hline
  rcases hline with rfl | rfl
  · refine ⟨5, by decide, by decide, ?_⟩
    cases f <;> first | rfl | simp [Figure.keyword] at hf
  · refine ⟨0, by decide, by decide, ?_⟩
    cases f <;> first | rfl | simp [Figure.keyword] at hf

/-- The number on a line is read back as the figure. -/
theorem onItsLine_integer {lines : List KernelLine} {f : Figure} {n : Int}
    (hn : OnItsLine lines f n) : ∃ line ∈ lines, f.keyword = some line.word ∧
      (line.field f.column).bind decimalNumber = some n := by
  obtain ⟨hlow, hhigh, line, hline, hword, hfield⟩ := hn
  refine ⟨line, hline, hword, ?_⟩
  rw [hfield]
  exact Advgetopt.decimal_readsBack n hlow hhigh

theorem statFigures_quiet :
    StatFiguresRead .decimal (fun _ => none) ⟨none, none, some (kernelText quietLines), none⟩
      quietLines SysStats.create := by
  refine (statFigures_iff .decimal (fun _ => none) (· == ' ') _ quietLines SysStats.create
    (decimal_splitsTrimmed _) (fun line _ => decimal_splitsTrimmed line.text)
    Advgetopt.decimal_readsBack quietLines_format rfl rfl).mpr ?_
  intro f hf n hn
  obtain ⟨line, hline, hword, hnumber⟩ := onItsLine_integer hn
  simp only [quietLines, List.mem_cons, List.not_mem_nil, or_false] at hline hf
  rcases hf with rfl | rfl | rfl
  · rcases hline with rfl | rfl <;> simp [Figure.keyword] at hword
  · rcases hline with rfl | rfl <;> simp [Figure.keyword] at hword
  · rcases hline with rfl | rfl
    · simp [Figure.keyword] at hword
    · exact Or.inr ⟨rfl, congrArg (Option.map Reading.int) hnumber⟩

/-- One process was created, and the getter says none. -/
theorem statFigures_processes :
    KernelFormat (· == ' ') [⟨"processes", [(0, "1")]⟩] ∧
      ¬ StatFiguresRead .decimal (fun _ => none)
        ⟨none, none, some (kernelText [⟨"processes", [(0, "1")]⟩]), none⟩
        [⟨"processes", [(0, "1")]⟩] SysStats.create := by
  have hformat : KernelFormat (· == ' ') [⟨"processes", [(0, "1")]⟩] := by
    refine kernelFormat_of_nodup (List.forall_mem_singleton.mpr ⟨by decide, ?_⟩) ?_ (by decide)
    · exact List.forall_mem_singleton.mpr (by decide)
    intro line hline f hf
    obtain rfl := List.mem_singleton.mp hline
    refine ⟨1, by decide, by decide, ?_⟩
    cases f <;> first | rfl | simp [Figure.keyword] at hf
  refine ⟨hformat, ?_⟩
  rintro ⟨s, hload, hall⟩
  obtain ⟨s', hload', hdefined, hfigures⟩ := load_figures (fun _ => none)
    (decimal_splitsTrimmed _) (fun line _ => decimal_splitsTrimmed line.text)
    Advgetopt.decimal_readsBack hformat
    (rfl : ProcFiles.stat ⟨none, none, some (kernelText _), none⟩ = _)
    (rfl : SysStats.create.defined .stat = false)
  obtain rfl := Option.some.inj (hload.symm.trans hload')
  have hone := hall .processes 1 ⟨by decide, by decide, _, List.mem_cons_self, rfl, rfl⟩
  rw [get_loaded hdefined rfl, hfigures .processes rfl] at hone
  exact absurd hone (by decide)

end Example

end Sitter
