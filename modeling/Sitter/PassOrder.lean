/-
# `Sitter.PassOrder` — plugins that share a document, in any order

The plugins of a pass are called one after the other, and nothing says in which
order.  Each of them goes through its actions until one throws, which ends the
pass (`Team.run`).

A team is some plugins of which no two touch the same member of the root, the
member `error` apart.  A pass of a team gets to its end exactly if each plugin
does (`Team.run_completes`), and then (`Team.below`, `Team.order_irrelevant`)

    a member of a plugin      is what the plugin leaves there on its own
    the error entries         are those of all plugins
    the server                has counted them

whatever the order is; only the entries come in the order of the plugins.
Whoever the actions are from, the counters are those of the entries
(`processWatch_accounted`).
-/
import Sitter.Arrays

namespace Sitter

open Document LastWrite

/-! ## What a pass does to the server and the entries

A server counts its errors and keeps their greatest priority.  Neither depends
on the order of the errors, so it is enough that the entries of two passes are
permutations. -/

section Errors

variable {actions : List PluginAction} {st : PassState}

/-- The counters do not depend on the order of the errors. -/
theorem countError_comm (s : Server) (p q : Int) :
    (s.countError p).countError q = (s.countError q).countError p := by
  have htop : ∀ a b : Int, ((s.countError a).countError b).maxErrorPriority =
      max (max s.maxErrorPriority a) b := by
    intro a b
    rw [countError_max, countError_max]
  have hpq := htop p q
  rw [max_right_comm, ← htop q p] at hpq
  simp only [Server.countError] at hpq ⊢
  rw [hpq]

theorem pluginAction_server {a : PluginAction} :
    (pluginAction st a).1.server = a.raises.elim st.server st.server.countError := by
  cases a with
  | set path value => rfl
  | push path value => rfl
  | appendError node plugin message priority => exact appendError_server ..
  | throw what => rfl

/-- **The server after a pass that completes** has counted its errors. -/
theorem processWatch_server (hok : Completes actions) (st : PassState) :
    (processWatch st actions).1.server =
      (raisedPriorities actions).foldl Server.countError st.server := by
  induction actions generalizing st with
  | nil => rfl
  | cons a as ih =>
      obtain ⟨ha, has⟩ := List.forall_mem_cons.mp hok
      have hpair : pluginAction st a = ((pluginAction st a).1, none) :=
        Prod.ext rfl (pluginAction_accepted.mpr ha)
      rw [processWatch, hpair]
      refine (ih has _).trans ?_
      rw [pluginAction_server]
      cases a <;> rfl

theorem errorCount_foldl {s : Server} {n : Int} (h : s.errorCount = int32 n) (ps : List Int) :
    (ps.foldl Server.countError s).errorCount = int32 (n + ps.length) := by
  induction ps generalizing s n with
  | nil => simpa using h
  | cons p ps ih =>
      have hnext : (s.countError p).errorCount = int32 (n + 1) := by
        rw [← int32_succ, ← h]
        rfl
      rw [List.foldl_cons, ih hnext, List.length_cons]
      congr 1
      push_cast
      omega

theorem maxErrorPriority_foldl (s : Server) (ps : List Int) :
    (ps.foldl Server.countError s).maxErrorPriority = ps.foldl max s.maxErrorPriority := by
  induction ps generalizing s with
  | nil => rfl
  | cons p ps ih => rw [List.foldl_cons, ih, countError_max, List.foldl_cons]

theorem priorities_entriesOf (actions : List PluginAction) :
    (entriesOf actions).map ErrorEntry.priorityValue = raisedPriorities actions := by
  rw [entriesOf, raisedPriorities, List.map_filterMap]
  congr 1
  funext a
  cases a <;> rfl

theorem maxPriority_eq (es : List ErrorEntry) :
    maxPriority es = (es.map ErrorEntry.priorityValue).foldl max 0 :=
  (List.foldl_map ..).symm

theorem length_entriesOf (actions : List PluginAction) :
    (entriesOf actions).length = countErrors actions := by
  rw [entriesOf, List.length_filterMap_eq_countP, countErrors]
  congr 1
  funext a
  cases a <;> rfl

/-- **The server has counted the entries of the document**, and knows their
greatest priority. -/
theorem processWatch_accounted (hcalm : ∀ a ∈ actions, a.Calm) (hok : Completes actions)
    (s : Server) {doc : Document Value} (hdoc : errorEntries doc = []) :
    let after := (processWatch ⟨s.clearErrors, doc⟩ actions).1
    errorEntries after.doc = entriesOf actions ∧
      after.server.errorCount = int32 (errorEntries after.doc).length ∧
      after.server.maxErrorPriority = maxPriority (errorEntries after.doc) := by
  intro after
  have hentries : errorEntries after.doc = entriesOf actions := by
    have hadded := (processWatch_added ⟨s.clearErrors, doc⟩ hcalm hok).entries
    rw [hdoc, List.nil_append] at hadded
    exact hadded
  have hserver : after.server = (raisedPriorities actions).foldl Server.countError s.clearErrors :=
    processWatch_server hok _
  refine ⟨hentries, ?_, ?_⟩
  · have hstart : s.clearErrors.errorCount = int32 0 := rfl
    rw [hserver, hentries, errorCount_foldl hstart, Int.zero_add, ← priorities_entriesOf,
      List.length_map]
  · rw [hserver, hentries, maxErrorPriority_foldl, maxPriority_eq, priorities_entriesOf]
    rfl

end Errors

/-! ## Teams

A team is a set of plugins that keep to their own members of the root.  The
part of the document below a member is then the work of its owner, in whatever
order they run. -/

/-- Plugins with what each of them does in a pass.  Each member of the root but
`error` belongs to one of them at most, and every action touches one of its
plugin's, unless it throws an exception of its own. -/
structure Team (ι : Type) where
  watch : ι → List PluginAction
  owner : String → Option ι
  owned : ∀ i, ∀ a ∈ watch i, (∃ what, a = .throw what) ∨
    ∃ n, a.member = some n ∧ (n = "error" ∨ owner n = some i)
  calm : ∀ i, ∀ a ∈ watch i, a.Calm

namespace Team

variable {ι : Type} (t : Team ι)

/-- The plugins' `process_watch`, one after the other, until one throws. -/
def run (st : PassState) (order : List ι) : PassState × Option String :=
  processWatch st (order.flatMap t.watch)

def Completes (i : ι) : Prop := Sitter.Completes (t.watch i)

section Run

variable {t} {i : ι} {order order' : List ι} {st : PassState}

theorem completes_flatMap :
    Sitter.Completes (order.flatMap t.watch) ↔ ∀ i ∈ order, t.Completes i :=
  List.forall_mem_flatMap

/-- **A pass gets to its end exactly if every plugin does.** -/
theorem run_completes : (t.run st order).2 = none ↔ ∀ i ∈ order, t.Completes i :=
  processWatch_completes.trans completes_flatMap

theorem calm_flatMap : ∀ a ∈ order.flatMap t.watch, a.Calm :=
  List.forall_mem_flatMap.mpr fun i _ => t.calm i

theorem member_flatMap (h : ∀ i ∈ order, t.Completes i) :
    ∀ a ∈ order.flatMap t.watch, a.member ≠ none := by
  intro a ha
  obtain ⟨i, hi, hmem⟩ := List.mem_flatMap.mp ha
  rcases t.owned i a hmem with ⟨what, rfl⟩ | ⟨n, hn, -⟩
  · exact (h i hi _ hmem).elim
  · rw [hn]
    exact Option.some_ne_none n

theorem touching_other {n : String} (hn : n ≠ "error") (h : t.owner n ≠ some i) :
    touching n (t.watch i) = [] := by
  rw [touching, List.filter_eq_nil_iff]
  intro a ha hmember
  rcases t.owned i a ha with ⟨what, rfl⟩ | ⟨m, hm, hown⟩
  · exact absurd (of_decide_eq_true hmember) (Option.some_ne_none n).symm
  · obtain rfl : m = n := Option.some.inj (hm.symm.trans (of_decide_eq_true hmember))
    rcases hown with rfl | hown
    · exact hn rfl
    · exact h hown

theorem touching_flatMap [DecidableEq ι] {n : String} (hn : n ≠ "error") (hnodup : order.Nodup) :
    touching n (order.flatMap t.watch) =
      ((t.owner n).filter (· ∈ order)).elim [] fun i => touching n (t.watch i) := by
  induction order with
  | nil => cases t.owner n <;> rfl
  | cons i order ih =>
      obtain ⟨hi, hrest⟩ := List.nodup_cons.mp hnodup
      rw [List.flatMap_cons, touching, List.filter_append]
      show touching n (t.watch i) ++ touching n (order.flatMap t.watch) = _
      rw [ih hrest]
      by_cases howner : t.owner n = some i
      · simp [howner, hi, Option.filter]
      · rw [touching_other hn howner, List.nil_append]
        cases hn' : t.owner n with
        | none => rfl
        | some j =>
            have hne : j ≠ i := fun h => howner (h ▸ hn')
            simp [Option.filter, hne]

/-! ## The plugins by themselves -/

/-- **A plugin's members are what it leaves there on its own.** -/
theorem below [DecidableEq ι] (h : ∀ i ∈ order, t.Completes i) (hnodup : order.Nodup)
    (hi : i ∈ order) {n : String} (hn : n ≠ "error") (howner : t.owner n = some i) :
    (t.run st order).1.doc.below (memberPath n) = (t.run st [i]).1.doc.below (memberPath n) := by
  have hone : ∀ j ∈ [i], t.Completes j := List.forall_mem_singleton.mpr (h i hi)
  rw [run, run, processWatch_below, processWatch_below,
    ranActions_completes (completes_flatMap.mpr h),
    ranActions_completes (completes_flatMap.mpr hone),
    touching_flatMap hn hnodup, touching_flatMap hn (List.nodup_singleton i), howner]
  simp [Option.filter, hi]

/-! ## Another order -/

/-- What two passes of the same plugins have in common. -/
structure SamePass (before after after' : PassState) : Prop where
  server : after.server = after'.server
  entries : ∃ new new', errorEntries after.doc = errorEntries before.doc ++ new ∧
    errorEntries after'.doc = errorEntries before.doc ++ new' ∧ new.Perm new'
  members : ∀ q : Path, ¬ memberPath "error" <+: q → after.doc.get? q = after'.doc.get? q

/-- **The order of the plugins makes no difference**, but for the order of the
entries. -/
theorem order_irrelevant [DecidableEq ι] (h : ∀ i ∈ order, t.Completes i) (hnodup : order.Nodup)
    (hperm : order.Perm order') : SamePass st (t.run st order).1 (t.run st order').1 := by
  have h' : ∀ i ∈ order', t.Completes i := fun i hi => h i (hperm.mem_iff.mpr hi)
  have hnodup' : order'.Nodup := hperm.nodup_iff.mp hnodup
  have hactions : (order.flatMap t.watch).Perm (order'.flatMap t.watch) :=
    hperm.flatMap_right t.watch
  have hok := completes_flatMap.mpr h
  have hok' := completes_flatMap.mpr h'
  simp only [run]
  refine ⟨?_, ?_, ?_⟩
  · rw [processWatch_server hok, processWatch_server hok']
    exact (hactions.filterMap _).foldl_eq' (fun x _ y _ s => countError_comm s x y) st.server
  · exact ⟨_, _, (processWatch_added st calm_flatMap hok).entries,
      (processWatch_added st calm_flatMap hok').entries, hactions.filterMap _⟩
  · intro q hq
    rw [processWatch_doc, processWatch_doc, ranActions_completes hok, ranActions_completes hok']
    refine get?_applyAll_congr (member_flatMap h) (member_flatMap h') fun n hn => ?_
    have hne : n ≠ "error" := by
      rintro rfl
      exact hq hn
    rw [touching_flatMap hne hnodup, touching_flatMap hne hnodup']
    simp only [hperm.mem_iff]

end Run

end Team

end Sitter
