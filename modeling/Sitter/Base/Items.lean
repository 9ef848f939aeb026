/-
# `Base.Items` — the items of an array, in order

`items d p` is what the array at `p` has, from its first item on.

    push p v                      one more item, at the end
    set at a path that is         the same items
    no item of the array

So of a sequence of changes the pushes onto the array make its items, in the
order in which they come.  An item whose value is an object has that object in
the cells below it; `items` has only what is at the item itself.
-/
import Sitter.Base.Document

namespace Document

variable {V : Type*}

/-- The values of the items of the array at `p`. -/
def items (d : Document V) (p : Path) : List (Option V) :=
  (List.range (d.nextItem p)).map fun k => d.get? (p ++ [.item k])

theorem itemOf_eq_some {p q : Path} {n : Nat} : itemOf p q = some n ↔ q = p ++ [.item n] := by
  constructor
  · intro h
    simp only [itemOf] at h
    split at h
    · split at h
      · next heq =>
          cases h
          exact heq
      · cases h
    · cases h
  · rintro rfl
    exact itemOf_append p n

theorem itemOf_eq_none {p q : Path} (h : ∀ n, q ≠ p ++ [.item n]) : itemOf p q = none := by
  rw [Option.eq_none_iff_forall_ne_some]
  intro n hn
  exact h n (itemOf_eq_some.mp hn)

theorem items_eq_nil {d : Document V} {p : Path} (h : ∀ n, p ++ [.item n] ∉ d.paths) :
    d.items p = [] := by
  have hnone : d.paths.filterMap (itemOf p) = [] := by
    rw [List.filterMap_eq_nil_iff]
    intro q hq
    refine itemOf_eq_none ?_
    rintro n rfl
    exact h n hq
  rw [items, nextItem, hnone]
  rfl

/-! ## What changes the items -/

theorem nextItem_set {d : Document V} {p q : Path} (h : ∀ n, q ≠ p ++ [.item n]) (v : V) :
    (d.set q v).nextItem p = d.nextItem p := by
  have hpaths : (d.set q v).paths.filterMap (itemOf p) = d.paths.filterMap (itemOf p) := by
    rw [paths_set]
    split
    · rfl
    · rw [List.filterMap_append, List.filterMap_cons_none (itemOf_eq_none h), List.filterMap_nil,
        List.append_nil]
  rw [nextItem, nextItem, hpaths]

theorem items_set {d : Document V} {p q : Path} (h : ∀ n, q ≠ p ++ [.item n]) (v : V) :
    (d.set q v).items p = d.items p := by
  rw [items, items, nextItem_set h]
  refine List.map_congr_left ?_
  intro k _
  exact get?_set_ne d (h k).symm v

theorem items_push_ne {d : Document V} {p q : Path} (h : p ≠ q) (v : V) :
    (d.push q v).items p = d.items p := by
  refine items_set (fun n heq => h ?_) v
  exact (List.append_inj_left' heq rfl).symm

theorem items_setMembers {d : Document V} {p q : Path} (fields : List (String × V)) :
    (d.setMembers q fields).items p = d.items p := by
  induction fields generalizing d with
  | nil => rfl
  | cons f fields ih =>
      rw [setMembers_cons, ih, items_set]
      intro n heq
      simpa using List.append_inj_right' heq rfl

theorem foldr_max_of_le {ms : List Nat} {b : Nat} (h : ms.foldr max 0 ≤ b) :
    ms.foldr max b = b := by
  induction ms with
  | nil => rfl
  | cons m ms ih =>
      rw [List.foldr_cons, Nat.max_le] at h
      rw [List.foldr_cons, ih h.2]
      exact Nat.max_eq_right h.1

theorem nextItem_push (d : Document V) (p : Path) (v : V) :
    (d.push p v).nextItem p = d.nextItem p + 1 := by
  have hitem : itemOf p (d.itemPath p) = some (d.nextItem p) := itemOf_append p _
  rw [nextItem, paths_push, List.filterMap_append, List.filterMap_cons_some hitem,
    List.filterMap_nil, List.map_append, List.map_singleton, List.foldr_append, List.foldr_cons,
    List.foldr_nil, Nat.max_zero]
  exact foldr_max_of_le (Nat.le_succ _)

/-- **`push` appends an item.** -/
theorem items_push (d : Document V) (p : Path) (v : V) :
    (d.push p v).items p = d.items p ++ [some v] := by
  rw [items, nextItem_push, List.range_succ, List.map_append, List.map_singleton]
  congr 1
  · refine List.map_congr_left ?_
    intro k hk
    refine get?_set_ne d ?_ v
    intro heq
    have hpos := List.append_inj_right' heq rfl
    simp only [List.cons.injEq, Key.item.injEq, and_true] at hpos
    exact absurd (List.mem_range.mp hk) (hpos ▸ Nat.lt_irrefl _)
  · exact congrArg (fun o => [o]) (get?_set_self d _ v)

end Document
