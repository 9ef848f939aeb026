/-
# `Sitter.Members` — each member of a pass's document by itself

The plugins of a pass share one document.  An action of theirs touches one
member of its root:

    set, push at a path         the first name of the path
    append_error on a node      the first name of its path; on the root itself,
                                the member `error`

and what the actions of a pass leave below a member is what those that touch
this member leave there alone (`processWatch_below`).  So the order in which two
plugins run can only show where both touch the same member
(`get?_applyAll_congr`).

What is done to the document does not depend on the server, and an action that
throws does nothing to it: the document of a pass is `applyAll` of the actions
before the first that throws (`processWatch_doc`).
-/
import Sitter.Base.Subtree
import Sitter.RunPlugins

namespace Sitter

open Document

/-! ## What an action does to the document -/

namespace PluginAction

/-- What an action does to a document, if it does not throw. -/
def applyTo (doc : Document Value) : PluginAction → Document Value
  | .set path value => doc.set (root ++ path) value
  | .push path value => doc.push (root ++ path) value
  | .appendError node plugin message priority =>
      let errors := root ++ node.path ++ [.name "error"]
      (doc.push errors .null).setMembers (doc.itemPath errors) (errorFields plugin message priority)
  | .throw _ => doc

/-- The member of the root that an action touches. -/
def member : PluginAction → Option String
  | .set (.name n :: _) _ => some n
  | .push (.name n :: _) _ => some n
  | .appendError ⟨.name n :: _, _⟩ _ _ _ => some n
  | .appendError _ _ _ _ => some "error"
  | _ => none

end PluginAction

def applyAll (doc : Document Value) (actions : List PluginAction) : Document Value :=
  actions.foldl PluginAction.applyTo doc

/-- The actions before the first that throws. -/
def ranActions (actions : List PluginAction) : List PluginAction :=
  actions.takeWhile fun a => decide a.Accepted

/-- The actions that touch a member. -/
def touching (n : String) (actions : List PluginAction) : List PluginAction :=
  actions.filter fun a => a.member = some n

/-- `json["sitter"][n]` -/
def memberPath (n : String) : Path := root ++ [.name n]

section Apply

variable {st : PassState} {a : PluginAction} {actions : List PluginAction}

theorem pluginAction_doc (h : a.Accepted) (st : PassState) :
    (pluginAction st a).1.doc = a.applyTo st.doc := by
  cases a with
  | set path value => rfl
  | push path value => rfl
  | appendError node plugin message priority =>
      have hin : ¬ (priority < 0 ∨ priority > 100) := by
        obtain ⟨hlo, hhi⟩ : 0 ≤ priority ∧ priority ≤ 100 := h
        omega
      simp only [pluginAction, Server.appendError, if_neg hin, PluginAction.applyTo]
  | throw what => exact h.elim

/-- An action that throws leaves the document as it is. -/
theorem pluginAction_throws (h : ¬ a.Accepted) : (pluginAction st a).1.doc = st.doc := by
  cases a with
  | set path value => exact absurd trivial h
  | push path value => exact absurd trivial h
  | appendError node plugin message priority =>
      have hout : priority < 0 ∨ priority > 100 := by
        have hnot : ¬ (0 ≤ priority ∧ priority ≤ 100) := h
        omega
      simp only [pluginAction, Server.appendError, if_pos hout]
  | throw what => rfl

/-- **The document of a pass**, whether it gets to its end or not. -/
theorem processWatch_doc (st : PassState) (actions : List PluginAction) :
    (processWatch st actions).1.doc = applyAll st.doc (ranActions actions) := by
  induction actions generalizing st with
  | nil => rfl
  | cons a as ih =>
      rw [processWatch, ranActions, List.takeWhile_cons]
      by_cases ha : a.Accepted
      · have hpair : pluginAction st a = ((pluginAction st a).1, none) :=
          Prod.ext rfl (pluginAction_accepted.mpr ha)
        rw [hpair, if_pos (decide_eq_true ha)]
        show (processWatch (pluginAction st a).1 as).1.doc = applyAll (a.applyTo st.doc) _
        rw [ih, pluginAction_doc ha]
        rfl
      · obtain ⟨what, hwhat⟩ := Option.ne_none_iff_exists'.mp (mt pluginAction_accepted.mp ha)
        have hpair : pluginAction st a = ((pluginAction st a).1, some what) := Prod.ext rfl hwhat
        rw [hpair, decide_eq_false ha]
        exact pluginAction_throws ha

theorem ranActions_completes (h : Completes actions) : ranActions actions = actions :=
  List.takeWhile_eq_self_iff.mpr fun a ha => decide_eq_true (h a ha)

theorem completes_ranActions (actions : List PluginAction) : Completes (ranActions actions) :=
  fun _ ha =>
    of_decide_eq_true (List.mem_takeWhile_imp (p := fun a => decide (PluginAction.Accepted a)) ha)

theorem ranActions_append {before after : List PluginAction} (h : Completes before) :
    ranActions (before ++ after) = before ++ ranActions after :=
  List.takeWhile_append_of_pos fun a ha => decide_eq_true (h a ha)

end Apply

/-! ## One member

The part of a document below a member of the root is changed only by the
actions that touch the member.  So a pass does to each part what the actions on
it do alone. -/

section Member

variable {n : String} {doc : Document Value}

theorem prefix_memberPath_iff {p : Path} :
    memberPath n <+: root ++ p ↔ p.head? = some (.name n) := by
  rw [memberPath, List.prefix_append_right_inj]
  cases p with
  | nil => simp
  | cons k rest => simp [List.cons_prefix_cons, eq_comm]

theorem applyTo_below {a : PluginAction} (h : a.member = some n) :
    (a.applyTo doc).below (memberPath n) = a.applyTo (doc.below (memberPath n)) := by
  cases a with
  | set path value =>
      refine below_set (prefix_memberPath_iff.mpr ?_) value
      rcases path with _ | ⟨_ | _, _⟩ <;> simp_all [PluginAction.member]
  | push path value =>
      refine below_push (prefix_memberPath_iff.mpr ?_) value
      rcases path with _ | ⟨_ | _, _⟩ <;> simp_all [PluginAction.member]
  | appendError node plugin message priority =>
      have hpath : memberPath n <+: root ++ node.path ++ [.name "error"] := by
        rw [List.append_assoc, prefix_memberPath_iff]
        obtain ⟨_ | ⟨_ | _, _⟩, hbeside⟩ := node
        · simpa [PluginAction.member] using h
        · simpa [PluginAction.member] using h
        · cases hbeside
      have hitem : memberPath n <+: doc.itemPath (root ++ node.path ++ [.name "error"]) :=
        hpath.trans (List.prefix_append _ _)
      simp only [PluginAction.applyTo]
      rw [below_setMembers hitem, below_push hpath, itemPath_below hpath]
  | throw what => rfl

theorem applyTo_below_of_ne {a : PluginAction} (h : a.member ≠ some n) :
    (a.applyTo doc).below (memberPath n) = doc.below (memberPath n) := by
  cases a with
  | set path value =>
      refine below_set_of_not (mt prefix_memberPath_iff.mp ?_) value
      rcases path with _ | ⟨_ | _, _⟩ <;> simp_all [PluginAction.member]
  | push path value =>
      refine below_push_of_not (fun k => ?_) value
      rw [List.append_assoc, prefix_memberPath_iff]
      rcases path with _ | ⟨_ | _, _⟩ <;> simp_all [PluginAction.member]
  | appendError node plugin message priority =>
      have hpath : ∀ rest : Path,
          ¬ memberPath n <+: root ++ node.path ++ [.name "error"] ++ rest := by
        intro rest
        rw [List.append_assoc, List.append_assoc, prefix_memberPath_iff]
        obtain ⟨_ | ⟨_ | _, _⟩, hbeside⟩ := node
        · simpa [PluginAction.member] using h
        · simpa [PluginAction.member] using h
        · cases hbeside
      simp only [PluginAction.applyTo]
      rw [below_setMembers_of_not (fun k => ?_), below_push_of_not fun k => hpath [.item k]]
      rw [itemPath, List.append_assoc]
      exact hpath _
  | throw what => rfl

theorem touching_cons_self {a : PluginAction} {as : List PluginAction} (h : a.member = some n) :
    touching n (a :: as) = a :: touching n as :=
  List.filter_cons_of_pos (decide_eq_true h)

theorem touching_cons_ne {a : PluginAction} {as : List PluginAction} (h : a.member ≠ some n) :
    touching n (a :: as) = touching n as :=
  List.filter_cons_of_neg (by simpa using h)

/-- **What actions leave below a member is what those that touch it leave
there.** -/
theorem applyAll_below (n : String) (doc : Document Value) (actions : List PluginAction) :
    (applyAll doc actions).below (memberPath n) =
      applyAll (doc.below (memberPath n)) (touching n actions) := by
  induction actions generalizing doc with
  | nil => rfl
  | cons a as ih =>
      have hstep : applyAll doc (a :: as) = applyAll (a.applyTo doc) as := rfl
      rw [hstep, ih]
      by_cases ha : a.member = some n
      · rw [touching_cons_self ha, applyTo_below ha]
        rfl
      · rw [touching_cons_ne ha, applyTo_below_of_ne ha]

/-- **So it is in a pass.** -/
theorem processWatch_below (n : String) (st : PassState) (actions : List PluginAction) :
    (processWatch st actions).1.doc.below (memberPath n) =
      applyAll (st.doc.below (memberPath n)) (touching n (ranActions actions)) := by
  rw [processWatch_doc, applyAll_below]

/-! ## All members -/

theorem get?_applyTo {a : PluginAction} {q : Path} (ha : a.member ≠ none)
    (hq : ∀ n, ¬ memberPath n <+: q) : (a.applyTo doc).get? q = doc.get? q := by
  have hne : ∀ {p : Path} {n : String}, p.head? = some (Key.name n) →
      ∀ rest, q ≠ root ++ p ++ rest := by
    rintro p n hp rest rfl
    refine hq n ?_
    exact (prefix_memberPath_iff.mpr hp).trans (List.prefix_append _ _)
  cases a with
  | set path value =>
      rcases path with _ | ⟨n | k, rest⟩
      · exact absurd rfl ha
      · exact get?_set_ne doc (by simpa using hne (p := Key.name n :: rest) rfl []) value
      · exact absurd rfl ha
  | push path value =>
      rcases path with _ | ⟨n | k, rest⟩
      · exact absurd rfl ha
      · exact get?_set_ne doc (hne (p := Key.name n :: rest) rfl _) value
      · exact absurd rfl ha
  | appendError node plugin message priority =>
      obtain ⟨n, hn⟩ : ∃ n, (node.path ++ [Key.name "error"]).head? = some (.name n) := by
        obtain ⟨_ | ⟨n | k, rest⟩, hbeside⟩ := node
        · exact ⟨"error", rfl⟩
        · exact ⟨n, rfl⟩
        · cases hbeside
      simp only [PluginAction.applyTo]
      rw [get?_setMembers_ne, push, get?_set_ne]
      · simpa [itemPath, List.append_assoc] using hne hn [.item _]
      · intro m
        simpa [itemPath, List.append_assoc] using hne hn [.item _, .name m]
  | throw what => rfl

theorem get?_applyAll {actions : List PluginAction} {q : Path}
    (ha : ∀ a ∈ actions, a.member ≠ none) (hq : ∀ n, ¬ memberPath n <+: q) :
    (applyAll doc actions).get? q = doc.get? q := by
  induction actions generalizing doc with
  | nil => rfl
  | cons a as ih =>
      obtain ⟨hfirst, hrest⟩ := List.forall_mem_cons.mp ha
      exact (ih hrest).trans (get?_applyTo hfirst hq)

/-- **Two lists of actions that do the same to each member make the same
document**, as far as it can be read. -/
theorem get?_applyAll_congr {actions actions' : List PluginAction}
    (ha : ∀ a ∈ actions, a.member ≠ none) (ha' : ∀ a ∈ actions', a.member ≠ none)
    {q : Path} (h : ∀ n, memberPath n <+: q → touching n actions = touching n actions') :
    (applyAll doc actions).get? q = (applyAll doc actions').get? q := by
  by_cases hq : ∃ n, memberPath n <+: q
  · obtain ⟨n, hn⟩ := hq
    rw [← get?_below hn, applyAll_below, h n hn, ← applyAll_below, get?_below hn]
  · rw [get?_applyAll ha (not_exists.mp hq), get?_applyAll ha' (not_exists.mp hq)]

end Member

end Sitter
