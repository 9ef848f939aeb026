/-
# `Base.LastWrite` — what a list of writes leaves behind

A write is a key and a value.  Of the writes to one key the last one counts;
a key nothing was written to keeps what it had.

    lastWrite ws k    the value of the last write to `k`, if there is one

`foldl_insert` says that a tree map which is filled by the writes, one after
the other, answers as `lastWrite` does, and `find?_least` that the first entry
of its list from a bound on is the one with the least key.
-/
import Mathlib.Order.Defs.LinearOrder
import Mathlib.Data.List.Induction
import Mathlib.Tactic.Linarith

namespace LastWrite

variable {K V : Type*}

section Writes

variable [DecidableEq K]

/-- The value of the last write to a key. -/
def lastWrite (ws : List (K × V)) (k : K) : Option V := ws.reverse.lookup k

@[simp] theorem lastWrite_nil (k : K) : lastWrite ([] : List (K × V)) k = none := rfl

theorem lastWrite_concat (ws : List (K × V)) (w : K × V) (k : K) :
    lastWrite (ws ++ [w]) k = if k = w.1 then some w.2 else lastWrite ws k := by
  obtain ⟨key, value⟩ := w
  rw [lastWrite, List.reverse_append, List.reverse_singleton, List.singleton_append,
    List.lookup_cons]
  by_cases h : k = key
  · simp [h]
  · rw [beq_eq_false_iff_ne.mpr h, if_neg h]
    rfl

/-- Later writes come before earlier ones. -/
theorem lastWrite_append (ws ws' : List (K × V)) (k : K) :
    lastWrite (ws ++ ws') k = (lastWrite ws' k).or (lastWrite ws k) := by
  rw [lastWrite, List.reverse_append, List.lookup_append]
  rfl

theorem lastWrite_isSome {ws : List (K × V)} {k : K} :
    (lastWrite ws k).isSome ↔ ∃ v, (k, v) ∈ ws := by
  induction ws using List.reverseRecOn with
  | nil => simp
  | append_singleton ws w ih =>
      rw [lastWrite_concat]
      split
      · next h =>
          refine iff_of_true rfl ⟨w.2, ?_⟩
          rw [h]
          exact List.mem_concat_self
      · next h =>
          rw [ih]
          constructor
          · rintro ⟨v, hv⟩
            exact ⟨v, List.mem_append_left _ hv⟩
          · rintro ⟨v, hv⟩
            rcases List.mem_append.mp hv with hv | hv
            · exact ⟨v, hv⟩
            · exact absurd (congrArg Prod.fst (List.mem_singleton.mp hv)) h

/-- Where the last write to a key is. -/
theorem lastWrite_eq_some {ws : List (K × V)} {k : K} {v : V} :
    lastWrite ws k = some v ↔
      ∃ before after, ws = before ++ (k, v) :: after ∧ ∀ w ∈ after, w.1 ≠ k := by
  rw [lastWrite, List.lookup_eq_some_iff]
  constructor
  · rintro ⟨after, before, hsplit, hafter⟩
    refine ⟨before.reverse, after.reverse, ?_, ?_⟩
    · rw [← List.reverse_reverse ws, hsplit]
      simp
    · intro w hw
      exact Ne.symm (bne_iff_ne.mp (hafter w (List.mem_reverse.mp hw)))
  · rintro ⟨before, after, rfl, hafter⟩
    refine ⟨after.reverse, before.reverse, by simp, ?_⟩
    intro w hw
    exact bne_iff_ne.mpr (Ne.symm (hafter w (List.mem_reverse.mp hw)))

/-- Where the last write to a key comes from, when some entries of a list write
and the others do nothing. -/
theorem lastWrite_filterMap {α : Type*} {write : α → Option (K × V)} {entries : List α} {k : K}
    {v : V} :
    lastWrite (entries.filterMap write) k = some v ↔
      ∃ before entry after, entries = before ++ entry :: after ∧ write entry = some (k, v) ∧
        ∀ later ∈ after, ∀ v', write later ≠ some (k, v') := by
  rw [lastWrite_eq_some]
  constructor
  · rintro ⟨writes, later, hsplit, hlater⟩
    obtain ⟨front, back, rfl, -, hback⟩ := List.filterMap_eq_append_iff.mp hsplit
    obtain ⟨idle, entry, after, rfl, -, hentry, hafter⟩ := List.filterMap_eq_cons_iff.mp hback
    refine ⟨front ++ idle, entry, after, by simp, hentry, ?_⟩
    intro x hx v' hwrite
    exact hlater (k, v') (hafter ▸ List.mem_filterMap.mpr ⟨x, hx, hwrite⟩) rfl
  · rintro ⟨before, entry, after, rfl, hentry, hafter⟩
    refine ⟨before.filterMap write, after.filterMap write, ?_, ?_⟩
    · rw [List.filterMap_append, List.filterMap_cons_some hentry]
    · intro w hw hkey
      obtain ⟨x, hx, hwrite⟩ := List.mem_filterMap.mp hw
      exact hafter x hx w.2 (hkey ▸ hwrite)

theorem lastWrite_map {L : Type*} [DecidableEq L] {f : K → L} (hf : Function.Injective f)
    (ws : List (K × V)) (k : K) :
    lastWrite (ws.map fun w => (f w.1, w.2)) (f k) = lastWrite ws k := by
  induction ws using List.reverseRecOn with
  | nil => rfl
  | append_singleton ws w ih =>
      rw [List.map_append, List.map_singleton, lastWrite_concat, lastWrite_concat, ih]
      simp only [hf.eq_iff]

/-- Where each key is written to once, its write is the last. -/
theorem lastWrite_of_nodup {ws : List (K × V)} (hnodup : (ws.map Prod.fst).Nodup) {w : K × V}
    (hw : w ∈ ws) : lastWrite ws w.1 = some w.2 := by
  induction ws using List.reverseRecOn with
  | nil => exact absurd hw List.not_mem_nil
  | append_singleton ws u ih =>
      rw [List.map_append, List.nodup_append] at hnodup
      obtain ⟨hws, -, hdisjoint⟩ := hnodup
      rw [lastWrite_concat]
      rcases List.mem_append.mp hw with hold | hlast
      · rw [if_neg (hdisjoint w.1 (List.mem_map_of_mem hold) u.1 List.mem_cons_self)]
        exact ih hws hold
      · obtain rfl := List.mem_singleton.mp hlast
        exact if_pos rfl

end Writes

/-- **A map that is filled by writes answers with the last of them.** -/
theorem foldl_insert [Ord K] [DecidableEq K] [Std.TransOrd K] [Std.LawfulEqOrd K]
    (m : Std.TreeMap K V) (ws : List (K × V)) (k : K) :
    (ws.foldl (fun m w => m.insert w.1 w.2) m)[k]? = (lastWrite ws k).or m[k]? := by
  induction ws using List.reverseRecOn with
  | nil => rfl
  | append_singleton ws w ih =>
      rw [List.foldl_append, List.foldl_cons, List.foldl_nil, Std.TreeMap.getElem?_insert,
        lastWrite_concat, ih]
      simp only [Std.LawfulEqOrd.compare_eq_iff_eq, eq_comm (a := w.1)]
      split <;> rfl

/-- **A function that is changed by writes, one for some entries of a list, has
the last of them**; the writes may be read with errors, if none occurs. -/
theorem foldlM_update [DecidableEq K] {α ε : Type*} {read : α → Except ε (Option (K × V))}
    {write : α → Option (K × V)} {entries : List α}
    (h : ∀ entry ∈ entries, read entry = .ok (write entry)) (m : K → V) :
    entries.foldlM (fun m entry => (read entry).map fun w =>
        w.elim m fun w => Function.update m w.1 w.2) m =
      .ok fun k => (lastWrite (entries.filterMap write) k).getD (m k) := by
  induction entries using List.reverseRecOn with
  | nil => rfl
  | append_singleton entries entry ih =>
      obtain ⟨hentries, hentry⟩ := List.forall_mem_append.mp h
      rw [List.foldlM_append, ih hentries, List.filterMap_append]
      simp only [List.foldlM_cons, List.foldlM_nil, hentry entry List.mem_cons_self, Except.map]
      refine congrArg Except.ok ?_
      funext k
      cases hwrite : write entry with
      | none => simp [hwrite]
      | some w =>
          simp only [Option.elim_some, List.filterMap_cons_some hwrite, List.filterMap_nil,
            lastWrite_concat, Function.update_apply]
          split <;> rfl

theorem foldlM_update_ok [DecidableEq K] {α ε : Type*} {read : α → Except ε (Option (K × V))}
    {entries : List α} {m m' : K → V}
    (h : entries.foldlM (fun m entry => (read entry).map fun w =>
        w.elim m fun w => Function.update m w.1 w.2) m = .ok m') :
    ∀ entry ∈ entries, ∃ w, read entry = .ok w := by
  induction entries generalizing m with
  | nil => exact List.forall_mem_nil _
  | cons entry entries ih =>
      rw [List.foldlM_cons] at h
      cases hread : read entry with
      | error e =>
          rw [hread] at h
          cases h
      | ok w =>
          rw [hread] at h
          exact List.forall_mem_cons.mpr ⟨⟨w, hread⟩, ih h⟩

/-- **In a list sorted by its keys the first entry from a bound on has the
least key that reaches the bound.** -/
theorem find?_least [LinearOrder K] {l : List (K × V)} (hsorted : l.Pairwise (·.1 < ·.1))
    {bound : K} {x : K × V} (h : l.find? (fun y => bound ≤ y.1) = some x) :
    x ∈ l ∧ bound ≤ x.1 ∧ ∀ y ∈ l, bound ≤ y.1 → x.1 ≤ y.1 := by
  obtain ⟨hx, before, after, rfl, hbefore⟩ := List.find?_eq_some_iff_append.mp h
  refine ⟨by simp, by simpa using hx, ?_⟩
  intro y hy hbound
  have hafter := (List.pairwise_append.mp hsorted).2.1
  rcases List.mem_append.mp hy with hy | hy
  · exact absurd hbound (by simpa using hbefore y hy)
  · rcases List.mem_cons.mp hy with rfl | hy
    · exact le_refl _
    · exact le_of_lt ((List.pairwise_cons.mp hafter).1 y hy)

end LastWrite
