/-
# `Sitter.PackageCodec` — the file of the installation statuses

`save_cache` writes a line for each package, `is_package_installed` reads the
lines back:

    name=t      the package is installed
    name=f      it is not

The reader goes over the text with positions, `find` and `substr`; the last
line may or may not end with a newline.  It never takes a part from past the
end of the text, and it comes to what a fold over the lines does
(`readCache_eq`), which is the form the other modules use.  So what was written
is read back, and of any other text each name gets the value of its last line
(`packageCache_codec`).
-/
import Sitter.Base.LastWrite
import Sitter.Base.Text
import Sitter.PackageCache

namespace Sitter

open LastWrite Text

/-! ## The reader -/

/-- What the loop does with a line. -/
def readCacheLine (line : List Char) (m : Std.TreeMap String Bool) :
    Option (Std.TreeMap String Bool) :=
  match find line '=' 0 with
  | none => some m
  | some equal =>
      (substrN line 0 equal).bind fun name =>
        if name = [] then some m
        else
          (substr line (equal + 1)).map fun value =>
            m.insert (String.ofList name) (decide (value = ['t']))

/-- The loop over the text, from `s` on.  `none`: `substr` threw. -/
def readCache (content : List Char) (s : Nat) (m : Std.TreeMap String Bool) :
    Option (Std.TreeMap String Bool) :=
  match h : find content '\n' s with
  | none => (substr content s).bind fun line => readCacheLine line m
  | some pos =>
      (substrN content s (pos - s)).bind fun line =>
        -- skip the '\n'
        (readCacheLine line m).bind fun m => readCache content (pos + 1) m
termination_by content.length - s
decreasing_by
  have hbounds := find_bounds h
  omega

section Reader

variable {content line : List Char} {m : Std.TreeMap String Bool}

theorem readStatus_plain (h : '=' ∉ line) : readStatus line = none := by
  have hdrop : line.dropWhile (· ≠ '=') = [] := by
    refine List.dropWhile_eq_nil_iff.mpr ?_
    intro c hc
    exact decide_eq_true fun heq => h (heq ▸ hc)
  simp only [readStatus, hdrop]

/-- A line with one has the name before the first one. -/
theorem readStatus_split {name value : List Char} (h : '=' ∉ name) :
    readStatus (name ++ '=' :: value) =
      if name = [] then none else some (String.ofList name, decide (value = ['t'])) := by
  have hname : ∀ c ∈ name, decide (c ≠ '=') = true := by
    intro c hc
    exact decide_eq_true fun heq => h (heq ▸ hc)
  have hdrop : (name ++ '=' :: value).dropWhile (· ≠ '=') = '=' :: value := by
    rw [List.dropWhile_append_of_pos hname]
    rfl
  have htake : (name ++ '=' :: value).takeWhile (· ≠ '=') = name := by
    rw [List.takeWhile_append_of_pos hname, List.takeWhile_cons_of_neg (by decide),
      List.append_nil]
  simp only [readStatus, hdrop, htake]

theorem readCacheLine_eq (line : List Char) (m : Std.TreeMap String Bool) :
    readCacheLine line m =
      some (([line].filterMap readStatus).foldl (fun m p => m.insert p.1 p.2) m) := by
  rw [List.filterMap_cons]
  rcases find_cases line '=' 0 with ⟨hnone, hplain⟩ | ⟨name, value, hsplit, hplain, hfound⟩
  · rw [List.drop_zero] at hplain
    simp only [readCacheLine, hnone, readStatus_plain hplain]
    rfl
  · have hbefore := substrN_before hsplit
    have hafter := substr_after hsplit
    rw [Nat.sub_zero] at hbefore
    rw [List.drop_zero] at hsplit
    simp only [readCacheLine, hfound, hbefore, hafter, Option.bind_some, Option.map_some]
    rw [hsplit, readStatus_split hplain]
    split <;> rfl

/-- **The loop is a fold over the lines**, from every position on. -/
theorem readCache_eq (content : List Char) (s : Nat) (m : Std.TreeMap String Bool)
    (hs : s ≤ content.length) :
    readCache content s m =
      some ((((content.drop s).splitOnP (· == '\n')).filterMap readStatus).foldl
        (fun m p => m.insert p.1 p.2) m) := by
  fun_induction readCache content s m with
  | case1 s m hnone =>
      rcases find_cases content '\n' s with ⟨-, hplain⟩ | ⟨before, after, -, -, hfound⟩
      · have hline : (content.drop s).splitOnP (· == '\n') = [content.drop s] := by
          refine List.splitOnP_eq_singleton ?_
          intro c hc
          exact beq_eq_false_iff_ne.mpr fun heq => hplain (heq ▸ hc)
        rw [substr, if_pos hs, Option.bind_some, readCacheLine_eq, hline]
      · rw [hnone] at hfound
        cases hfound
  | case2 s m pos hfound ih =>
      rcases find_cases content '\n' s with ⟨hnone, -⟩ | ⟨before, after, hsplit, hplain, hat⟩
      · rw [hnone] at hfound
        cases hfound
      · rw [hat] at hfound
        obtain rfl := Option.some.inj hfound
        have hlt := lt_of_split hsplit
        have hline : (content.drop s).splitOnP (· == '\n') =
            [before] ++ after.splitOnP (· == '\n') := by
          rw [hsplit]
          refine List.splitOnP_append_cons_of_forall_mem ?_ _ (by decide) _
          intro c hc
          exact beq_eq_false_iff_ne.mpr fun heq => hplain (heq ▸ hc)
        have hrest := ih (([before].filterMap readStatus).foldl
          (fun m p => m.insert p.1 p.2) m) (by omega)
        rw [substrN_before hsplit, Option.bind_some, readCacheLine_eq, Option.bind_some, hrest,
          drop_after hsplit, hline, List.filterMap_append, List.foldl_append]

end Reader

/-! ## What is written is read back

A name that is not empty and has neither `=` nor the end of a line has a line
of its own. -/

/-- The text `save_cache` writes. -/
def cacheText (m : Std.TreeMap String Bool) : String := String.join (m.toList.map statusLine)

/-- `PackageStatuses.save` writes that text, and `PackageStatuses.load` reads as
the loop does. -/
theorem save_cacheText (writable : Bool) (s : PackageStatuses) (file : Option String) :
    s.save writable file =
      if s.modified then writeAll writable file (cacheText s.installed) else file := rfl

theorem load_readCache {s : PackageStatuses} (h : s.loaded = false) (content : String) :
    readCache content.toList 0 s.installed = some (s.load (some content)).installed := by
  rw [readCache_eq _ _ _ (Nat.zero_le _), List.drop_zero, PackageStatuses.load,
    if_neg (by rw [h]; exact Bool.false_ne_true)]
  rfl

/-- A name that has a line of its own. -/
structure PackageName (name : String) : Prop where
  named : name ≠ ""
  plain : '=' ∉ name.toList
  oneLine : '\n' ∉ name.toList

/-- The line of a package without its end. -/
def statusChars (p : String × Bool) : List Char :=
  p.1.toList ++ '=' :: [if p.2 then 't' else 'f']

theorem statusLine_toList (p : String × Bool) :
    (statusLine p).toList = statusChars p ++ ['\n'] := by
  obtain ⟨name, result⟩ := p
  cases result <;> simp [statusLine, statusChars]

theorem toList_ne_nil {name : String} (h : name ≠ "") : name.toList ≠ [] := by
  intro hnil
  exact h (String.toList_inj.mp hnil)

/-- A line is read as what it was written for. -/
theorem readStatus_statusChars {p : String × Bool} (hp : PackageName p.1) :
    readStatus (statusChars p) = some p := by
  obtain ⟨name, result⟩ := p
  rw [statusChars, readStatus_split hp.plain, if_neg (toList_ne_nil hp.named),
    String.ofList_toList]
  cases result <;> rfl

/-- The text has the lines it was written from, and an empty one at its end. -/
theorem lines_join {entries : List (String × Bool)} (h : ∀ p ∈ entries, PackageName p.1) :
    (String.join (entries.map statusLine)).toList.splitOnP (· == '\n') =
      entries.map statusChars ++ [[]] := by
  induction entries with
  | nil => rfl
  | cons p entries ih =>
      obtain ⟨hp, hentries⟩ := List.forall_mem_cons.mp h
      have hline : ∀ c ∈ statusChars p, (c == '\n') = false := by
        intro c hc
        refine beq_eq_false_iff_ne.mpr ?_
        rintro rfl
        simp only [statusChars, List.mem_append, hp.oneLine, false_or] at hc
        cases hresult : p.2 <;> simp [hresult] at hc
      rw [List.map_cons, String.join_cons, String.toList_append, statusLine_toList,
        List.append_assoc, List.singleton_append,
        List.splitOnP_append_cons_of_forall_mem hline _ (by decide), ih hentries]
      rfl

theorem readStatuses_join {entries : List (String × Bool)} (h : ∀ p ∈ entries, PackageName p.1) :
    readStatuses (String.join (entries.map statusLine)) = entries := by
  rw [readStatuses, lines_join h, List.filterMap_append, List.filterMap_map]
  have hread : entries.filterMap (readStatus ∘ statusChars) = entries := by
    induction entries with
    | nil => rfl
    | cons p entries ih =>
        obtain ⟨hp, hentries⟩ := List.forall_mem_cons.mp h
        have hline : (readStatus ∘ statusChars) p = some p := readStatus_statusChars hp
        rw [List.filterMap_cons_some hline, ih hentries]
  rw [hread]
  exact List.append_nil entries

theorem lastWrite_toList (m : Std.TreeMap String Bool) (name : String) :
    lastWrite m.toList name = m[name]? := by
  have hnodup : (m.toList.map Prod.fst).Nodup := by
    rw [Std.TreeMap.map_fst_toList_eq_keys]
    exact Std.TreeMap.nodup_keys
  cases h : m[name]? with
  | some result =>
      have hmem : (name, result) ∈ m.toList := Std.TreeMap.mem_toList_iff_getElem?_eq_some.mpr h
      exact lastWrite_of_nodup hnodup hmem
  | none =>
      refine Option.not_isSome_iff_eq_none.mp ?_
      rw [lastWrite_isSome]
      rintro ⟨result, hmem⟩
      rw [Std.TreeMap.mem_toList_iff_getElem?_eq_some.mp hmem] at h
      cases h

/-! ## What is read from any text

The last line that gives a name a value decides, whatever else is in the text. -/

/-- The line gives the name a value. -/
structure IsStatus (line : List Char) (name : String) (value : List Char) : Prop where
  named : name ≠ ""
  plain : '=' ∉ name.toList
  text : line = name.toList ++ '=' :: value

/-- The last line that gives the name a value says `result`, which is true for
a `t` and nothing else. -/
def LastStatus (lines : List (List Char)) (name : String) (result : Bool) : Prop :=
  ∃ before line value after, lines = before ++ line :: after ∧ IsStatus line name value ∧
    (result = true ↔ value = ['t']) ∧ ∀ l ∈ after, ∀ v, ¬ IsStatus l name v

theorem readStatus_eq_some {line : List Char} {name : String} {result : Bool} :
    readStatus line = some (name, result) ↔
      ∃ value, IsStatus line name value ∧ (result = true ↔ value = ['t']) := by
  constructor
  · intro h
    by_cases hmem : '=' ∈ line
    · obtain ⟨chars, value, rfl, hplain⟩ := List.eq_append_cons_of_mem hmem
      rw [readStatus_split hplain] at h
      split at h
      · cases h
      · next hne =>
          obtain ⟨rfl, rfl⟩ := Prod.mk.inj (Option.some.inj h)
          refine ⟨value, ⟨?_, ?_, ?_⟩, decide_eq_true_iff⟩
          · intro hempty
            have hlist := congrArg String.toList hempty
            rw [String.toList_ofList] at hlist
            exact hne hlist
          · rwa [String.toList_ofList]
          · rw [String.toList_ofList]
    · rw [readStatus_plain hmem] at h
      cases h
  · rintro ⟨value, ⟨hnamed, hplain, rfl⟩, hvalue⟩
    have hresult : decide (value = ['t']) = result :=
      Bool.eq_iff_iff.mpr (decide_eq_true_iff.trans hvalue.symm)
    rw [readStatus_split hplain, if_neg (toList_ne_nil hnamed), String.ofList_toList, hresult]

/-- A line that gives the name no value is read as no entry for it. -/
theorem not_isStatus_iff {lines : List (List Char)} {name : String} :
    (∀ w ∈ lines.filterMap readStatus, w.1 ≠ name) ↔
      ∀ line ∈ lines, ∀ value, ¬ IsStatus line name value := by
  constructor
  · intro h line hline value hstatus
    have hread : readStatus line = some (name, decide (value = ['t'])) :=
      readStatus_eq_some.mpr ⟨value, hstatus, decide_eq_true_iff⟩
    exact h _ (List.mem_filterMap.mpr ⟨line, hline, hread⟩) rfl
  · rintro h ⟨_, result⟩ hw rfl
    obtain ⟨line, hline, hread⟩ := List.mem_filterMap.mp hw
    obtain ⟨value, hstatus, -⟩ := readStatus_eq_some.mp hread
    exact h line hline value hstatus

theorem lastWrite_lines (lines : List (List Char)) (name : String) (result : Bool) :
    lastWrite (lines.filterMap readStatus) name = some result ↔ LastStatus lines name result := by
  rw [lastWrite_eq_some]
  constructor
  · rintro ⟨before, after, hsplit, hafter⟩
    obtain ⟨l₁, l₂, rfl, -, hrest⟩ := List.filterMap_eq_append_iff.mp hsplit
    obtain ⟨l₃, line, l₄, rfl, -, hread, rfl⟩ := List.filterMap_eq_cons_iff.mp hrest
    obtain ⟨value, hstatus, hvalue⟩ := readStatus_eq_some.mp hread
    refine ⟨l₁ ++ l₃, line, value, l₄, ?_, hstatus, hvalue, not_isStatus_iff.mp hafter⟩
    rw [List.append_assoc]
  · rintro ⟨before, line, value, after, rfl, hstatus, hvalue, hafter⟩
    have hread : readStatus line = some (name, result) :=
      readStatus_eq_some.mpr ⟨value, hstatus, hvalue⟩
    refine ⟨before.filterMap readStatus, after.filterMap readStatus, ?_,
      not_isStatus_iff.mpr hafter⟩
    rw [List.filterMap_append, List.filterMap_cons_some hread]

theorem readCache_empty (content : String) :
    ∃ loaded, readCache content.toList 0 ∅ = some loaded ∧
      ∀ name : String, loaded[name]? = lastWrite (readStatuses content) name := by
  refine ⟨_, readCache_eq _ _ _ (Nat.zero_le _), ?_⟩
  intro name
  rw [List.drop_zero, foldl_insert, Std.TreeMap.getElem?_emptyc, Option.or_none]
  rfl

/-- **The file is a faithful copy of the map**, and any text is read as its
last lines say. -/
theorem packageCache_codec :
    (∀ m : Std.TreeMap String Bool, (∀ name ∈ m, PackageName name) →
      ∃ loaded, readCache (cacheText m).toList 0 ∅ = some loaded ∧
        ∀ name : String, loaded[name]? = m[name]?) ∧
    ∀ content : String, ∃ loaded, readCache content.toList 0 ∅ = some loaded ∧
      ∀ (name : String) (result : Bool), loaded[name]? = some result ↔
        LastStatus (content.toList.splitOnP (· == '\n')) name result := by
  refine ⟨?_, ?_⟩
  · intro m hm
    obtain ⟨loaded, hloaded, hvalues⟩ := readCache_empty (cacheText m)
    have hnames : ∀ p ∈ m.toList, PackageName p.1 := by
      intro p hp
      refine hm p.1 ?_
      rw [Std.TreeMap.mem_iff_isSome_getElem?,
        Std.TreeMap.mem_toList_iff_getElem?_eq_some.mp hp]
      rfl
    refine ⟨loaded, hloaded, ?_⟩
    intro name
    rw [hvalues, cacheText, readStatuses_join hnames, lastWrite_toList]
  · intro content
    obtain ⟨loaded, hloaded, hvalues⟩ := readCache_empty content
    refine ⟨loaded, hloaded, ?_⟩
    intro name result
    rw [hvalues]
    exact lastWrite_lines _ name result

/-- One package that is installed and one that is not. -/
def twoPackages : Std.TreeMap String Bool := (∅ : Std.TreeMap String Bool).insert "ntp" true
  |>.insert "apache2" false

/-- They are read back. -/
theorem packageCache_two_packages :
    ∃ loaded, readCache (cacheText twoPackages).toList 0 ∅ = some loaded ∧
      loaded["ntp"]? = some true ∧ loaded["apache2"]? = some false ∧ loaded["nginx"]? = none := by
  have hnames : ∀ name ∈ twoPackages, PackageName name := by
    intro name hname
    simp only [twoPackages, Std.TreeMap.mem_insert, Std.compare_eq_iff_eq,
      Std.TreeMap.not_mem_emptyc, or_false] at hname
    rcases hname with rfl | rfl
    · exact ⟨by decide, by simp, by simp⟩
    · exact ⟨by decide, by simp, by simp⟩
  obtain ⟨loaded, hloaded, hvalues⟩ := packageCache_codec.1 twoPackages hnames
  refine ⟨loaded, hloaded, ?_, ?_, ?_⟩
  · rw [hvalues]
    decide
  · rw [hvalues]
    decide
  · rw [hvalues]
    decide

end Sitter
