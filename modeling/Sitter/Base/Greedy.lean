/-
# `Base.Greedy` — giving one thing to each taker, first come first served

The takers come one after the other.  Each is given the first of the remaining
things that matches it, if there is one, and that thing is gone.

    assign m ps ds = (each taker with what it was given, what remains)

Nothing is lost and nothing is given twice (`assign_perm`); only what matches is
given (`assign_matches`); a taker that was given nothing matches nothing that
remains (`assign_maximal`).  So a thing remains exactly when all takers that
match it were given something else (`mem_rest_iff`), which depends on the order
of both lists, unless no taker matches two things (`mem_rest_iff_unmatched`).
-/
import Mathlib.Data.List.Nodup

namespace Greedy

variable {P D : Type*} (m : D → P → Bool)

/-- The takers with what each was given, and what remains. -/
def assign : List P → List D → List (P × Option D) × List D
  | [], ds => ([], ds)
  | p :: ps, ds =>
      match ds.find? (m · p) with
      | none => ((p, none) :: (assign ps ds).1, (assign ps ds).2)
      | some d =>
          let r := assign ps (ds.eraseP (m · p))
          ((p, some d) :: r.1, r.2)

variable {m}

theorem assign_none {p : P} {ps : List P} {ds : List D} (h : ds.find? (m · p) = none) :
    assign m (p :: ps) ds = ((p, none) :: (assign m ps ds).1, (assign m ps ds).2) := by
  simp only [assign, h]

theorem assign_some {p : P} {ps : List P} {ds : List D} {d : D}
    (h : ds.find? (m · p) = some d) :
    assign m (p :: ps) ds =
      ((p, some d) :: (assign m ps (ds.eraseP (m · p))).1,
        (assign m ps (ds.eraseP (m · p))).2) := by
  simp only [assign, h]

theorem perm_eraseP {f : D → Bool} {ds : List D} {d : D} (h : ds.find? f = some d) :
    (d :: ds.eraseP f).Perm ds := by
  induction ds with
  | nil => nomatch h
  | cons c cs ih =>
      cases hc : f c with
      | true =>
          rw [List.find?_cons_of_pos hc, Option.some.injEq] at h
          rw [List.eraseP_cons_of_pos hc, h]
      | false =>
          have hneg : ¬ f c = true := by simp [hc]
          rw [List.find?_cons_of_neg hneg] at h
          rw [List.eraseP_cons_of_neg hneg]
          exact (List.Perm.swap c d _).trans ((ih h).cons c)

theorem assign_map_fst (ps : List P) (ds : List D) : (assign m ps ds).1.map Prod.fst = ps := by
  induction ps generalizing ds with
  | nil => rfl
  | cons p ps ih =>
      cases h : ds.find? (m · p) with
      | none => rw [assign_none h, List.map_cons, ih]
      | some d => rw [assign_some h, List.map_cons, ih]

/-- **What was given and what remains is what there was.** -/
theorem assign_perm (ps : List P) (ds : List D) :
    ((assign m ps ds).1.filterMap Prod.snd ++ (assign m ps ds).2).Perm ds := by
  induction ps generalizing ds with
  | nil => exact List.Perm.refl ds
  | cons p ps ih =>
      cases h : ds.find? (m · p) with
      | none =>
          rw [assign_none h]
          exact ih ds
      | some d =>
          rw [assign_some h]
          exact ((ih (ds.eraseP (m · p))).cons d).trans (perm_eraseP h)

theorem mem_of_mem_rest {ps : List P} {ds : List D} {d : D} (hd : d ∈ (assign m ps ds).2) :
    d ∈ ds :=
  (assign_perm ps ds).mem_iff.mp (List.mem_append_right _ hd)

theorem assign_matches {ps : List P} {ds : List D} :
    ∀ x ∈ (assign m ps ds).1, ∀ d, x.2 = some d → m d x.1 = true := by
  induction ps generalizing ds with
  | nil =>
      intro x hx
      exact absurd hx List.not_mem_nil
  | cons p ps ih =>
      cases h : ds.find? (m · p) with
      | none =>
          rw [assign_none h]
          exact List.forall_mem_cons.mpr ⟨nofun, ih⟩
      | some d =>
          rw [assign_some h]
          refine List.forall_mem_cons.mpr ⟨?_, ih⟩
          intro e he
          obtain rfl : d = e := Option.some.inj he
          have hmatch := List.find?_some h
          exact hmatch

/-- **Nothing that remains matches a taker who was given nothing.** -/
theorem assign_maximal {ps : List P} {ds : List D} :
    ∀ d ∈ (assign m ps ds).2, ∀ x ∈ (assign m ps ds).1, m d x.1 = true → x.2 ≠ none := by
  induction ps generalizing ds with
  | nil =>
      intro d hd x hx
      exact absurd hx List.not_mem_nil
  | cons p ps ih =>
      intro d hd
      cases h : ds.find? (m · p) with
      | none =>
          rw [assign_none h] at hd ⊢
          refine List.forall_mem_cons.mpr ⟨?_, ih d hd⟩
          intro hm
          exact absurd hm (List.find?_eq_none.mp h d (mem_of_mem_rest hd))
      | some e =>
          rw [assign_some h] at hd ⊢
          exact List.forall_mem_cons.mpr ⟨fun _ => nofun, ih d hd⟩

section Distinct

variable {ps : List P} {ds : List D} (hds : ds.Nodup) {d : D} (hd : d ∈ ds)

include hds hd

/-- **A thing remains exactly when everyone it matches was given another.** -/
theorem mem_rest_iff :
    d ∈ (assign m ps ds).2 ↔
      ∀ x ∈ (assign m ps ds).1, m d x.1 = true → ∃ e, x.2 = some e ∧ e ≠ d := by
  have hperm := assign_perm (m := m) ps ds
  have hnodup := hperm.nodup_iff.mpr hds
  constructor
  · intro hrest x hx hmatch
    obtain ⟨e, he⟩ := Option.ne_none_iff_exists'.mp (assign_maximal d hrest x hx hmatch)
    refine ⟨e, he, ?_⟩
    intro hed
    subst hed
    have hgiven : e ∈ (assign m ps ds).1.filterMap Prod.snd := List.mem_filterMap.mpr ⟨x, hx, he⟩
    exact (List.nodup_append.mp hnodup).2.2 e hgiven e hrest rfl
  · intro hother
    rcases List.mem_append.mp (hperm.mem_iff.mpr hd) with hgiven | hrest
    · obtain ⟨x, hx, hxd⟩ := List.mem_filterMap.mp hgiven
      obtain ⟨e, he, hne⟩ := hother x hx (assign_matches x hx d hxd)
      exact absurd (Option.some.inj (he.symm.trans hxd)) hne
    · exact hrest

/-- **If no taker matches two things, a thing remains exactly when no taker
matches it.** -/
theorem mem_rest_iff_unmatched
    (hone : ∀ p ∈ ps, ∀ d₁ ∈ ds, ∀ d₂ ∈ ds, m d₁ p = true → m d₂ p = true → d₁ = d₂) :
    d ∈ (assign m ps ds).2 ↔ ∀ p ∈ ps, m d p = false := by
  rw [mem_rest_iff hds hd]
  constructor
  · intro hother p hp
    rw [Bool.eq_false_iff]
    intro hmatch
    have htaker : p ∈ (assign m ps ds).1.map Prod.fst := (assign_map_fst ps ds).symm ▸ hp
    obtain ⟨x, hx, rfl⟩ := List.mem_map.mp htaker
    obtain ⟨e, he, hne⟩ := hother x hx hmatch
    have hgiven : e ∈ (assign m ps ds).1.filterMap Prod.snd := List.mem_filterMap.mpr ⟨x, hx, he⟩
    have heds : e ∈ ds := (assign_perm ps ds).mem_iff.mp (List.mem_append_left _ hgiven)
    exact hne (hone x.1 hp e heds d hd (assign_matches x hx e he) hmatch)
  · intro hnone x hx hmatch
    have hp : x.1 ∈ ps := by
      rw [← assign_map_fst (m := m) ps ds]
      exact List.mem_map_of_mem hx
    rw [hnone x.1 hp] at hmatch
    nomatch hmatch

end Distinct

end Greedy
