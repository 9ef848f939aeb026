/-
# `Base.Subtree` — the part of a document below a path

`below d base` has the cells of `d` whose paths go through `base`.  What is done
to the document at a path is done to this part, or leaves it as it is:

    at or below the base     the same, to the part
    anywhere else            the part stays

The item that `push` appends is the same for the document and for the part,
because an array that is in the part is there with all its items
(`nextItem_below`).  So a sequence of changes leaves below the base what the
changes at or below it leave there by themselves.
-/
import Sitter.Base.Document
import Mathlib.Data.List.Infix

namespace Document

variable {V : Type*}

/-- The cells at or below a path. -/
def below (d : Document V) (base : Path) : Document V :=
  ⟨d.cells.filter fun c => base.isPrefixOf c.1⟩

theorem paths_below (d : Document V) (base : Path) :
    (d.below base).paths = d.paths.filter fun q => base.isPrefixOf q := by
  rw [paths, paths, List.filter_map]
  rfl

theorem get?_below {d : Document V} {base q : Path} (h : base <+: q) :
    (d.below base).get? q = d.get? q := by
  rw [get?, get?, below, List.find?_filter]
  refine congrArg (Option.map Prod.snd) (congrArg (fun f => List.find? f d.cells) ?_)
  funext c
  by_cases hc : c.1 = q
  · subst hc
    simp [List.isPrefixOf_iff_prefix.mpr h]
  · simp [hc]

/-! ## What is done below the base

An operation on a path below the base is the same operation on the part, at the
rest of the path. -/

theorem filter_setCells {base p : Path} (h : base <+: p) (v : V) (cs : List (Path × V)) :
    (setCells p v cs).filter (fun c => base.isPrefixOf c.1) =
      setCells p v (cs.filter fun c => base.isPrefixOf c.1) := by
  have hp : base.isPrefixOf p = true := List.isPrefixOf_iff_prefix.mpr h
  induction cs with
  | nil => simp [setCells, hp]
  | cons c cs ih =>
      by_cases hc : c.1 = p
      · subst hc
        simp [setCells, hp]
      · cases hbase : base.isPrefixOf c.1 with
        | true => simp [setCells, hc, hbase, ih]
        | false => simp [setCells, hc, hbase, ih]

theorem below_set {d : Document V} {base p : Path} (h : base <+: p) (v : V) :
    (d.set p v).below base = (d.below base).set p v :=
  congrArg Document.mk (filter_setCells h v d.cells)

theorem nextItem_below {d : Document V} {base p : Path} (h : base <+: p) :
    (d.below base).nextItem p = d.nextItem p := by
  have hitems : ∀ qs : List Path, (qs.filter fun q => base.isPrefixOf q).filterMap (itemOf p) =
      qs.filterMap (itemOf p) := by
    intro qs
    rw [List.filterMap_filter]
    refine List.filterMap_congr ?_
    intro q _
    split
    · rfl
    · next hbase =>
        refine (Option.eq_none_iff_forall_ne_some.mpr ?_).symm
        intro n hn
        rw [itemOf] at hn
        split at hn
        · next k hlast =>
            split at hn
            · next hq =>
                refine hbase (List.isPrefixOf_iff_prefix.mpr ?_)
                rw [hq]
                exact h.trans (List.prefix_append p _)
            · cases hn
        · cases hn
  rw [nextItem, nextItem, paths_below, hitems]

theorem itemPath_below {d : Document V} {base p : Path} (h : base <+: p) :
    (d.below base).itemPath p = d.itemPath p := by
  rw [itemPath, itemPath, nextItem_below h]

theorem below_push {d : Document V} {base p : Path} (h : base <+: p) (v : V) :
    (d.push p v).below base = (d.below base).push p v := by
  rw [push, push, itemPath_below h]
  exact below_set (h.trans (List.prefix_append p _)) v

theorem below_setMembers {d : Document V} {base p : Path} (h : base <+: p)
    (fields : List (String × V)) :
    (d.setMembers p fields).below base = (d.below base).setMembers p fields := by
  induction fields generalizing d with
  | nil => rfl
  | cons f fields ih =>
      rw [setMembers_cons, setMembers_cons, ih, below_set (h.trans (List.prefix_append p _))]

/-! ## What is done elsewhere -/

theorem below_set_of_not {d : Document V} {base p : Path} (h : ¬ base <+: p) (v : V) :
    (d.set p v).below base = d.below base := by
  have hp : base.isPrefixOf p = false := Bool.eq_false_iff.mpr (mt List.isPrefixOf_iff_prefix.mp h)
  refine congrArg Document.mk ?_
  show (setCells p v d.cells).filter _ = _
  induction d.cells with
  | nil => simp [setCells, hp]
  | cons c cs ih =>
      by_cases hc : c.1 = p
      · subst hc
        simp [setCells, hp]
      · cases hbase : base.isPrefixOf c.1 with
        | true => simp [setCells, hc, hbase, ih]
        | false => simp [setCells, hc, hbase, ih]

theorem below_push_of_not {d : Document V} {base p : Path} (h : ∀ n, ¬ base <+: p ++ [.item n])
    (v : V) : (d.push p v).below base = d.below base :=
  below_set_of_not (h _) v

theorem below_setMembers_of_not {d : Document V} {base p : Path}
    (h : ∀ n, ¬ base <+: p ++ [.name n]) (fields : List (String × V)) :
    (d.setMembers p fields).below base = d.below base := by
  induction fields generalizing d with
  | nil => rfl
  | cons f fields ih => rw [setMembers_cons, ih, below_set_of_not (h f.1)]

end Document
