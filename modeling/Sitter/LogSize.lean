/-
# `Sitter.LogSize` — the error about the size of a log

A log is too large if its definition has a `max_size` and the file is larger;
the priority is 73 for more than twice as large and 58 otherwise.  The limit
goes from 128 bits to 64 on its way, and 0 is what a definition has that has
none:

    no `max_size`       0 is compared with as if it were one
    2^64 and above      what is left of it modulo 2^64 is compared with

`check_log` is right for every size a file can have where neither shows
(`sizePriorities_iff`).  Doubling the limit loses nothing then, for a file is
smaller than 2^63 and a limit that it exceeds is, too.
-/
import Sitter.LogParameters
import Sitter.LogRecords

namespace Sitter

namespace LogFile

/-- `max_size`, as the validator returns it. -/
def limit (host : LogHost) (file : LogFile) : Option Int :=
  (file.params "max_size").bind host.size

end LogFile

/-- The priorities of the errors about the size that `check_log` raises. -/
def LogDefinition.sizePriorities (d : LogDefinition) (filename : String) (st : LogStat) :
    List Int :=
  (raisedPriorities (d.checkLog ⟨filename, some st⟩)).filter fun p => p = 58 ∨ p = 73

/-- The priorities that are asked for, for a limit and a size. -/
def claimedPriorities (limit : Option Int) (size : Int) : List Int :=
  match limit with
  | none => []
  | some M => if size > M then [if size > 2 * M then 73 else 58] else []

/-- Nothing is lost of the limit that the size would not exceed anyway. -/
def LimitKept (limit : Option Int) (size : Int) : Prop :=
  match limit with
  | none => size = 0
  | some M => M < 2 ^ 64 ∨ size ≤ M % 2 ^ 64

/-! ## What `check_log` compares with -/

section Loaded

variable {host : LogHost} {file : LogFile} {result : List LogDefinition} {d e : LogDefinition}

theorem readMode_maxSize (h : file.readMode host d = .ok e) : e.maxSize = d.maxSize := by
  rw [LogFile.readMode] at h
  split at h
  · rw [← Except.ok.inj h]
  · next text htext =>
      cases hparse : parseMode file.filename (host.trimString text) <;> rw [hparse] at h
      · cases h
      · obtain rfl := Except.ok.inj h
        rfl

theorem readSearches_maxSize {sections : List String} (h : file.readSearches d sections = .ok e) :
    e.maxSize = d.maxSize := by
  induction sections generalizing d with
  | nil => rw [← Except.ok.inj h]
  | cons sec sections ih =>
      rw [LogFile.readSearches] at h
      split at h
      · exact ih h
      · dsimp only at h
        split at h
        · cases h
        · exact (ih h).trans rfl

theorem readTexts_maxSize (name : String) : (file.readTexts host name).maxSize = 0 := by
  have hnone : file.withoutPlace.params "path" = none := by simp [LogFile.withoutPlace]
  rw [readTexts_place]
  show (file.withoutPlace.readTexts host name).maxSize = 0
  simp only [LogFile.readTexts, hnone]
  cases file.withoutPlace.params "secure" <;> cases file.withoutPlace.params "user_name" <;>
    cases file.withoutPlace.params "group_name" <;> rfl

/-- **The limit of a definition is 0, or the one of its file modulo 2^64.** -/
theorem load_maxSize (h : file.loadConfig host result = .ok (result ++ [d])) :
    d.maxSize = (file.limit host).elim 0 fun M => (M % 2 ^ 64).toNat := by
  obtain ⟨name, -, h⟩ := define_of_load h
  obtain ⟨wl, hsize, h⟩ := bind_eq_ok.mp h
  obtain ⟨wl', hmode, hsearches⟩ := bind_eq_ok.mp h
  rw [readSearches_maxSize hsearches, readMode_maxSize hmode, LogFile.limit]
  rw [LogFile.readMaxSize] at hsize
  cases hparam : file.params "max_size" with
  | none =>
      rw [hparam] at hsize
      rw [← Except.ok.inj hsize]
      exact readTexts_maxSize name
  | some text =>
      rw [hparam] at hsize
      rw [Option.bind_some]
      dsimp only at hsize
      cases hread : host.size text with
      | none =>
          rw [hread] at hsize
          cases hsize
      | some M =>
          rw [hread] at hsize
          rw [← Except.ok.inj hsize]
          rfl

end Loaded

/-! ## What it raises

The two comparisons with the size raise priorities that nothing else of
`check_log` does. -/

section Raised

variable {d : LogDefinition} {filename : String} {st : LogStat}

theorem raisedPriorities_checkLog :
    raisedPriorities (d.checkLog ⟨filename, some st⟩) =
      (d.errorsOf filename st).map Prod.snd :=
  (LogVisit.record ⟨d, filename, st⟩).raisedPriorities_writeTo logNode "log"

theorem sizePriorities_eq :
    d.sizePriorities filename st = (d.sizeErrors filename st).map Prod.snd := by
  have hkeep : ∀ p ∈ (d.sizeErrors filename st).map Prod.snd, decide (p = 58 ∨ p = 73) = true := by
    intro p hp
    obtain ⟨e, he, rfl⟩ := List.mem_map.mp hp
    exact decide_eq_true (sizeErrors_priority he).symm
  have hdrop : ∀ (errors : List (String × Int)) (q : Int), q ≠ 58 → q ≠ 73 →
      (∀ e ∈ errors, e.2 = q) →
      (errors.map Prod.snd).filter (fun p => decide (p = 58 ∨ p = 73)) = [] := by
    intro errors q h58 h73 hall
    rw [List.filter_eq_nil_iff]
    intro p hp
    obtain ⟨e, he, rfl⟩ := List.mem_map.mp hp
    rw [hall e he, decide_eq_true_eq]
    exact not_or.mpr ⟨h58, h73⟩
  rw [LogDefinition.sizePriorities, raisedPriorities_checkLog, LogDefinition.errorsOf,
    List.map_append, List.map_append, List.map_append, List.filter_append, List.filter_append,
    List.filter_append, List.filter_eq_self.mpr hkeep,
    hdrop _ 63 (by norm_num) (by norm_num) (fun _ => ownerErrors_priority),
    hdrop _ 59 (by norm_num) (by norm_num) (fun _ => groupErrors_priority),
    hdrop _ 64 (by norm_num) (by norm_num) (fun _ => modeErrors_priority),
    List.append_nil, List.append_nil, List.append_nil]

theorem sizeErrors_priorities :
    (d.sizeErrors filename st).map Prod.snd =
      if st.unsignedSize > d.maxSize then
        [if st.unsignedSize > d.maxSize * 2 % 2 ^ 64 then 73 else 58]
      else [] := by
  rw [LogDefinition.sizeErrors]
  split <;> rfl

/-- A limit of 64 bits is compared with as it is. -/
theorem sizePriorities_kept {M : Int} (hM : 0 ≤ M) (hkept : M < 2 ^ 64)
    (hd : d.maxSize = (M % 2 ^ 64).toNat) (hsize : 0 ≤ st.size) (hfile : st.size < 2 ^ 63) :
    d.sizePriorities filename st = claimedPriorities (some M) st.size := by
  have hlimit : d.maxSize = M.toNat := by rw [hd, Int.emod_eq_of_lt hM hkept]
  have hunsigned : st.unsignedSize = st.size.toNat := by
    rw [LogStat.unsignedSize, Int.emod_eq_of_lt hsize (by omega)]
  rw [sizePriorities_eq, sizeErrors_priorities, hlimit, hunsigned, claimedPriorities]
  by_cases hlarge : st.size > M
  · have hcode : st.size.toNat > M.toNat := by omega
    -- the file is smaller than 2^63, so twice the limit is a `size_t`
    have hdouble : M.toNat * 2 % 2 ^ 64 = M.toNat * 2 := Nat.mod_eq_of_lt (by omega)
    have htwice : st.size.toNat > M.toNat * 2 ↔ st.size > 2 * M := by omega
    rw [if_pos hcode, if_pos hlarge, hdouble, if_congr htwice rfl rfl]
  · have hcode : ¬ st.size.toNat > M.toNat := by omega
    rw [if_neg hcode, if_neg hlarge]

/-- Nothing is raised about the size exactly if the file does not exceed what
is compared with. -/
theorem sizePriorities_nil {n : Nat} (hd : d.maxSize = n) (hsize : 0 ≤ st.size)
    (hfile : st.size < 2 ^ 63) : d.sizePriorities filename st = [] ↔ st.size ≤ n := by
  have hunsigned : st.unsignedSize = st.size.toNat := by
    rw [LogStat.unsignedSize, Int.emod_eq_of_lt hsize (by omega)]
  rw [sizePriorities_eq, sizeErrors_priorities, hd, hunsigned, ite_eq_right_iff]
  constructor
  · intro h
    by_contra hlarge
    exact absurd (h (by omega)) (List.cons_ne_nil _ _)
  · intro h hlarge
    omega

end Raised

/-! ## The size of a log -/

/-- **The errors about the size are those asked for exactly where nothing is
lost of the limit.** -/
theorem sizePriorities_iff (host : LogHost) (file : LogFile) (result : List LogDefinition)
    {d : LogDefinition} (filename : String) {st : LogStat}
    (hload : file.loadConfig host result = .ok (result ++ [d]))
    (hlimit : ∀ M, file.limit host = some M → 0 ≤ M)
    (hsize : 0 ≤ st.size) (hfile : st.size < 2 ^ 63) :
    d.sizePriorities filename st = claimedPriorities (file.limit host) st.size ↔
      LimitKept (file.limit host) st.size := by
  have hd := load_maxSize hload
  cases hgiven : file.limit host with
  | none =>
      rw [hgiven] at hd
      rw [claimedPriorities, LimitKept, sizePriorities_nil hd hsize hfile]
      show st.size ≤ 0 ↔ st.size = 0
      omega
  | some M =>
      rw [hgiven] at hd
      have hM := hlimit M hgiven
      by_cases hkept : M < 2 ^ 64
      · exact iff_of_true (sizePriorities_kept hM hkept hd hsize hfile) (Or.inl hkept)
      · have hsmall : ¬ st.size > M := by omega
        have hmod : ((M % 2 ^ 64).toNat : Int) = M % 2 ^ 64 :=
          Int.toNat_of_nonneg (Int.emod_nonneg M (by norm_num))
        rw [claimedPriorities, LimitKept, if_neg hsmall, or_iff_right hkept,
          sizePriorities_nil hd hsize hfile, ← hmod]
        rfl

/-- A host whose sizes are decimal. -/
def LogHost.withSizes : LogHost := { LogHost.plain with size := decimalNumber }

def LogFile.ofSize (size : Option String) : LogFile where
  filename := "mail.conf"
  params name :=
    if name = "name" then some "mail" else if name = "max_size" then size else none
  sections := []

/-- A log of 5000 bytes where 1000 are allowed. -/
theorem sizePriorities_large :
    ∃ d, (LogFile.ofSize (some "1000")).loadConfig .withSizes [] = .ok ([] ++ [d]) ∧
      d.sizePriorities "mail.log" ⟨5000, 0o100640, 0, 4, 0⟩ =
        claimedPriorities ((LogFile.ofSize (some "1000")).limit .withSizes) 5000 := by
  refine ⟨_, rfl, (sizePriorities_iff .withSizes (.ofSize (some "1000")) [] "mail.log" rfl ?_ ?_
    ?_).mpr (Or.inl ?_)⟩
  · intro M hM
    rw [← Option.some.inj hM]
    decide
  all_goals decide

/-- A log of one byte without a limit. -/
theorem sizePriorities_unlimited :
    ∃ d, (LogFile.ofSize none).loadConfig .withSizes [] = .ok ([] ++ [d]) ∧
      d.sizePriorities "mail.log" ⟨1, 0o100640, 0, 4, 0⟩ ≠
        claimedPriorities ((LogFile.ofSize none).limit .withSizes) 1 := by
  refine ⟨_, rfl, ?_⟩
  intro h
  have hnone : (1 : Int) ≤ (0 : Nat) := (sizePriorities_nil rfl (by decide) (by decide)).mp h
  omega

end Sitter
