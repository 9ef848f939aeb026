/-
# `Sitter.RunPlugins` — one pass of the plugins, and when it reports

A pass builds a document: the date it starts, whatever the plugins put below
the root, the date it ends.

    clear_errors, start_date, the plugins, end_date
    nothing but the two dates               return
    data_path is set                        the document goes to a data file
    error_count > 0, and end_date - start_date reaches the settle time
                                            report_error

The settle time is the duration since the start of the process before emails
are sent.  The pass compares it with its own duration instead, so a run
respects it exactly at the passes that end before it or that take that long
themselves (`settleTime_iff`).
-/
import Sitter.ReportError
import Mathlib.Data.List.Perm.Subperm

namespace Sitter

open Machine Document

/-! ## What the plugins do

A plugin is the list of what it does to the document and to the server, in
order.  An exception ends the list, and with it the pass. -/

/-- The path is the root's, or goes through a member of the root that is not
one of the dates. -/
def besideDates : Path → Bool
  | [] => true
  | .name n :: _ => n ≠ "start_date" && n ≠ "end_date"
  | .item _ :: _ => false

/-- A node a plugin appends errors to, as a path from the root. -/
structure PluginNode where
  path : Path
  beside : besideDates path = true

/-- The node of the whole pass. -/
def passNode : PluginNode := ⟨[], rfl⟩

/-- What a plugin does with the root and the server it is given, or that it ends
in an exception of its own. -/
inductive PluginAction where
  | set (path : Path) (value : Value)
  | push (path : Path) (value : Value)
  | appendError (node : PluginNode) (pluginName message : String) (priority : Int)
  | throw (what : String)

/-- What a plugin does that has to load something first, which may throw. -/
def watchLoaded : Except String (List PluginAction) → List PluginAction
  | .ok actions => actions
  | .error what => [.throw what]

/-- `json["sitter"]` -/
def root : Path := [.name "sitter"]

structure PassState where
  server : Server
  doc : Document Value

/-- One action; the output is what it threw. -/
def pluginAction : Step PassState PluginAction (Option String) := fun st a =>
  match a with
  | .set path value => ({ st with doc := st.doc.set (root ++ path) value }, none)
  | .push path value => ({ st with doc := st.doc.push (root ++ path) value }, none)
  | .appendError node plugin message priority =>
      let r := st.server.appendError st.doc (root ++ node.path) plugin message priority
      (⟨r.server, r.doc⟩, r.raised)
  | .throw what => (st, some what)

/-- `process_watch`: the plugins' actions one after the other, until one
throws. -/
def processWatch : PassState → List PluginAction → PassState × Option String
  | st, [] => (st, none)
  | st, a :: as =>
      match pluginAction st a with
      | (st', none) => processWatch st' as
      | (st', some what) => (st', some what)

/-! ## The pass -/

/-- One pass of a daemon started at `S`: the clock before and after the
plugins and in `report_error`, what the plugins do, and whether the file of the
last email works. -/
structure Pass (S : Int) where
  startDate : Int
  endDate : Int
  now : Int
  actions : List PluginAction
  readable : Bool
  writable : Bool
  epoch : 0 ≤ startDate
  began : S ≤ startDate
  ended : startDate ≤ endDate
  fits : endDate < 2 ^ 63

/-- What a pass leaves behind. -/
structure PassResult where
  server : Server
  file : Option String
  doc : Document Value
  raised : Option String := none
  dataFile : Option (String × String) := none
  reported : Bool := false
  email : Option Email := none

/-- Where the process runs: how a document is turned into text, and the texts
of the email that are not in the document. -/
structure Host where
  render : Document Value → String
  hostname : String
  version : String

/-- The data file of a pass, if the user asked for one. -/
def Server.saveData (lib : Advgetopt) (s : Server) (startDate : Int) (json : String) :
    Option (String × String) × Server :=
  let dataPath := s.getServerParameter "data_path"
  if dataPath = "" then (none, s)
  else
    let period := s.getStatisticsPeriod lib
    let date := (startDate.tdiv 60 * 60).tmod period.1
    (some (dataPath ++ "/" ++ toString date ++ ".json", json), period.2)

/-- `run_plugins` -/
def runPlugins (lib : Advgetopt) (host : Host) (s : Server) (file : Option String) {S : Int}
    (p : Pass S) : PassResult :=
  let dated := Document.empty.set (root ++ [.name "start_date"]) (.int p.startDate)
  let watched := processWatch ⟨s.clearErrors, dated⟩ p.actions
  let s := watched.1.server
  match watched.2 with
  | some what => { server := s, file, doc := watched.1.doc, raised := some what }
  | none =>
      let doc := watched.1.doc.set (root ++ [.name "end_date"]) (.int p.endDate)
      if (doc.memberNames root).length ≤ 2 then { server := s, file, doc }
      else
        let json := host.render doc
        -- if user specified a data path, save data to a file
        let saved := s.saveData lib p.startDate json
        let dataFile := saved.1
        let s := saved.2
        if s.getErrorCount > 0 then
          let settle := s.getErrorReportSettleTime lib
          let diff := int64 (p.endDate - p.startDate)
          if diff ≥ settle.1 then
            let report : Report := { host with
              server := settle.2, now := p.now, startDate := p.startDate,
              readable := p.readable, writable := p.writable, json }
            match reportError lib file report with
            | none => { server := settle.2, file, doc, dataFile, reported := true }
            | some r =>
                { server := r.server, file := r.file, doc, dataFile, reported := true,
                  email := r.email }
          else { server := settle.2, file, doc, dataFile }
        else { server := s, file, doc, dataFile }

/-! ## What a pass collects

An action is accepted if its priority is in range and it is no exception.  A
pass completes if all of its actions are accepted, and then what each of them
preserves holds at its end. -/

def PluginAction.isError : PluginAction → Bool
  | .appendError _ _ _ _ => true
  | _ => false

/-- The action does not throw: the priority of an error is one that
`append_error` takes. -/
def PluginAction.Accepted : PluginAction → Prop
  | .set _ _ | .push _ _ => True
  | .appendError _ _ _ priority => 0 ≤ priority ∧ priority ≤ 100
  | .throw _ => False

/-- The errors the plugins of a pass collect. -/
def countErrors (actions : List PluginAction) : Nat := actions.countP PluginAction.isError

instance decAccepted (a : PluginAction) : Decidable a.Accepted :=
  match a with
  | .set _ _ => inferInstanceAs (Decidable True)
  | .push _ _ => inferInstanceAs (Decidable True)
  | .appendError _ _ _ _ => inferInstanceAs (Decidable (_ ∧ _))
  | .throw _ => inferInstanceAs (Decidable False)

/-- The priority an action raises an error with. -/
def PluginAction.raises : PluginAction → Option Int
  | .appendError _ _ _ priority => some priority
  | _ => none

/-- The priorities of the errors, in the order they are raised in. -/
def raisedPriorities (actions : List PluginAction) : List Int :=
  actions.filterMap PluginAction.raises

/-- The plugins get to their end. -/
def Completes (actions : List PluginAction) : Prop := ∀ a ∈ actions, a.Accepted

theorem pluginAction_accepted {st : PassState} {a : PluginAction} :
    (pluginAction st a).2 = none ↔ a.Accepted := by
  cases a with
  | set path value => exact iff_of_true rfl trivial
  | push path value => exact iff_of_true rfl trivial
  | appendError node plugin message priority => exact appendError_raised
  | throw what => exact iff_of_false (Option.some_ne_none what) id

/-- **The rule for the plugins of a pass that get to their end.**  What is kept
by every action they can take is kept by all of them together. -/
theorem processWatch_invariant {I : PassState → Nat → Prop}
    (hstep : ∀ st n a, a.Accepted → I st n →
      I (pluginAction st a).1 (n + if a.isError then 1 else 0)) :
    ∀ {actions : List PluginAction} {st : PassState} {n : Nat}, Completes actions → I st n →
      (processWatch st actions).2 = none ∧
        I (processWatch st actions).1 (n + countErrors actions)
  | [], _, _, _, hI => ⟨rfl, hI⟩
  | a :: as, st, n, hok, hI => by
      have ha : a.Accepted := hok a List.mem_cons_self
      have has : Completes as := by
        intro b hb
        exact hok b (List.mem_cons_of_mem _ hb)
      have hnext := processWatch_invariant hstep has (hstep st n a ha hI)
      have hcount : n + countErrors (a :: as) =
          n + (if a.isError then 1 else 0) + countErrors as := by
        rw [countErrors, List.countP_cons, countErrors]
        omega
      have hpair : pluginAction st a = ((pluginAction st a).1, none) :=
        Prod.ext rfl (pluginAction_accepted.mpr ha)
      rw [processWatch, hpair, hcount]
      exact hnext

/-- A plugin that throws ends the pass. -/
theorem processWatch_raises {actions : List PluginAction} {st : PassState}
    (h : ¬ Completes actions) : (processWatch st actions).2 ≠ none := by
  induction actions generalizing st with
  | nil =>
      refine absurd ?_ h
      intro a ha
      exact absurd ha List.not_mem_nil
  | cons a as ih =>
      rw [processWatch]
      cases hpair : pluginAction st a with
      | mk st' raised =>
          cases raised with
          | some what => exact Option.some_ne_none _
          | none =>
              have ha : a.Accepted := pluginAction_accepted.mp (congrArg Prod.snd hpair)
              exact ih fun has => h (List.forall_mem_cons.mpr ⟨ha, has⟩)

/-- **The plugins get to their end exactly if none of their actions throws.** -/
theorem processWatch_completes {actions : List PluginAction} {st : PassState} :
    (processWatch st actions).2 = none ↔ Completes actions := by
  constructor
  · intro h
    by_contra hnot
    exact processWatch_raises hnot h
  · intro h
    exact (processWatch_invariant (I := fun _ _ => True) (fun _ _ _ _ _ => trivial) (n := 0) h
      trivial).1

/-! ## A pass with an error has more than the two dates -/

/-- The actions only add to the paths of the document. -/
theorem pluginAction_paths {st : PassState} {a : PluginAction} {q : Path}
    (h : q ∈ st.doc.paths) : q ∈ (pluginAction st a).1.doc.paths := by
  cases a with
  | set path value => exact mem_paths_set.mpr (Or.inl h)
  | push path value => exact mem_paths_set.mpr (Or.inl h)
  | appendError node plugin message priority =>
      simp only [pluginAction, Server.appendError]
      split
      · exact h
      · exact mem_paths_setMembers.mpr (Or.inl (mem_paths_set.mpr (Or.inl h)))
  | throw what => exact h

/-- A member of the root that is none of the dates. -/
def HasMember (doc : Document Value) : Prop :=
  ∃ n, n ≠ "start_date" ∧ n ≠ "end_date" ∧ n ∈ doc.memberNames root

theorem hasMember_of_paths {doc doc' : Document Value} (hpaths : ∀ q ∈ doc.paths, q ∈ doc'.paths)
    (h : HasMember doc) : HasMember doc' := by
  obtain ⟨n, hstart, hend, hn⟩ := h
  obtain ⟨q, hq⟩ := mem_memberNames.mp hn
  exact ⟨n, hstart, hend, mem_memberNames.mpr ⟨q, hpaths _ hq⟩⟩

theorem pluginNode_member (node : PluginNode) :
    ∃ n rest, n ≠ "start_date" ∧ n ≠ "end_date" ∧
      node.path ++ [.name "error"] = .name n :: rest := by
  obtain ⟨path, hbeside⟩ := node
  cases path with
  | nil => exact ⟨"error", [], by decide, by decide, rfl⟩
  | cons k rest =>
      cases k with
      | item position => nomatch hbeside
      | name n =>
          simp only [besideDates, ne_eq, decide_not, Bool.and_eq_true, Bool.not_eq_true',
            decide_eq_false_iff_not] at hbeside
          exact ⟨n, rest ++ [.name "error"], hbeside.1, hbeside.2, rfl⟩

theorem appendError_hasMember {st : PassState} {node : PluginNode} {plugin message : String}
    {priority : Int} (h : 0 ≤ priority ∧ priority ≤ 100) :
    HasMember (pluginAction st (.appendError node plugin message priority)).1.doc := by
  obtain ⟨n, rest, hstart, hend, hpath⟩ := pluginNode_member node
  have hin : ¬ (priority < 0 ∨ priority > 100) := by omega
  refine ⟨n, hstart, hend, mem_memberNames.mpr
    ⟨rest ++ [.item (st.doc.nextItem (root ++ node.path ++ [.name "error"]))], ?_⟩⟩
  simp only [pluginAction, Server.appendError, if_neg hin]
  rw [mem_paths_setMembers, paths_push, List.mem_append, List.mem_singleton]
  refine Or.inl (Or.inr ?_)
  rw [itemPath, List.append_assoc root, hpath]
  simp

theorem two_lt_members {doc : Document Value} (hstart : "start_date" ∈ doc.memberNames root)
    (hend : "end_date" ∈ doc.memberNames root) (h : HasMember doc) :
    2 < (doc.memberNames root).length := by
  obtain ⟨n, hns, hne, hn⟩ := h
  have hnodup : [n, "start_date", "end_date"].Nodup := by simp [hns, hne]
  have hsub : [n, "start_date", "end_date"] ⊆ doc.memberNames root := by
    simp [hn, hstart, hend]
  exact (List.subperm_of_subset hnodup hsub).length_le

/-! ## What a pass knows at its end

The counter is that of the errors, and the document of a pass with an error has
more members than the two dates.  Those are the tests a pass makes before it
reports. -/

/-- The server and the document, `n` errors into a pass of `s`. -/
structure Collected (s : Server) (st : PassState) (n : Nat) : Prop where
  opts : st.server.opts = s.opts
  settle : st.server.errorReportSettleTime = s.errorReportSettleTime
  count : st.server.errorCount = int32 n
  dated : root ++ [.name "start_date"] ∈ st.doc.paths
  member : 0 < n → HasMember st.doc

theorem collected_start (s : Server) (date : Int) :
    Collected s ⟨s.clearErrors, Document.empty.set (root ++ [.name "start_date"]) (.int date)⟩ 0 where
  opts := rfl
  settle := rfl
  count := rfl
  dated := mem_paths_set.mpr (Or.inr rfl)
  member h := absurd h (Nat.lt_irrefl 0)

theorem collected_step {s : Server} (st : PassState) (n : Nat) (a : PluginAction)
    (ha : a.Accepted) (h : Collected s st n) :
    Collected s (pluginAction st a).1 (n + if a.isError then 1 else 0) := by
  have hpaths : ∀ q ∈ st.doc.paths, q ∈ (pluginAction st a).1.doc.paths :=
    fun q hq => pluginAction_paths hq
  cases a with
  | set path value =>
      exact ⟨h.opts, h.settle, h.count, hpaths _ h.dated,
        fun hn => hasMember_of_paths hpaths (h.member hn)⟩
  | push path value =>
      exact ⟨h.opts, h.settle, h.count, hpaths _ h.dated,
        fun hn => hasMember_of_paths hpaths (h.member hn)⟩
  | appendError node plugin message priority =>
      have hserver : (pluginAction st (.appendError node plugin message priority)).1.server =
          st.server.countError priority := appendError_server ..
      refine ⟨?_, ?_, ?_, hpaths _ h.dated, fun _ => appendError_hasMember ha⟩
      · rw [hserver]
        exact h.opts
      · rw [hserver]
        exact h.settle
      · rw [hserver]
        simp only [Server.countError, h.count, int32_succ, PluginAction.isError, if_true,
          Nat.cast_add, Nat.cast_one]
  | throw what => exact ha.elim

theorem settleTime_congr (lib : Advgetopt) {s s' : Server} (hopts : s'.opts = s.opts)
    (hcache : s'.errorReportSettleTime = s.errorReportSettleTime) :
    (s'.getErrorReportSettleTime lib).1 = (s.getErrorReportSettleTime lib).1 := by
  simp only [Server.getErrorReportSettleTime]
  rw [hopts, hcache]
  split
  · split <;> rfl
  · rfl

/-- The data file costs the server nothing but a cached period. -/
theorem saveData_server (lib : Advgetopt) (s : Server) (startDate : Int) (json : String) :
    (s.saveData lib startDate json).2.opts = s.opts ∧
      (s.saveData lib startDate json).2.errorReportSettleTime = s.errorReportSettleTime ∧
      (s.saveData lib startDate json).2.errorCount = s.errorCount := by
  simp only [Server.saveData, Server.getStatisticsPeriod]
  split
  · exact ⟨rfl, rfl, rfl⟩
  · split <;> exact ⟨rfl, rfl, rfl⟩

section Pass

variable {lib : Advgetopt} {host : Host} {s : Server} {file : Option String} {S : Int}
  {p : Pass S}

/-- A pass ends early exactly when a plugin throws. -/
theorem runPlugins_raised :
    (runPlugins lib host s file p).raised = none ↔ Completes p.actions := by
  have hraised : (runPlugins lib host s file p).raised =
      (processWatch ⟨s.clearErrors,
        Document.empty.set (root ++ [.name "start_date"]) (.int p.startDate)⟩ p.actions).2 := by
    rw [runPlugins]
    dsimp only
    split
    · next h => exact h.symm
    · next h =>
        rw [h]
        split
        · rfl
        · split
          · split
            · split <;> rfl
            · rfl
          · rfl
  rw [hraised]
  exact processWatch_completes

/-- **When a pass with an error calls `report_error`**: when it has itself
taken as long as the settle time. -/
theorem runPlugins_reported (hok : Completes p.actions) (herror : 0 < countErrors p.actions) :
    (runPlugins lib host s file p).reported = true ↔
      0 < int32 (countErrors p.actions) ∧
        (s.getErrorReportSettleTime lib).1 ≤ p.endDate - p.startDate := by
  obtain ⟨hnone, hend⟩ :=
    processWatch_invariant collected_step hok (collected_start s p.startDate)
  rw [Nat.zero_add] at hend
  rw [runPlugins]
  dsimp only
  generalize processWatch _ p.actions = watched at hnone hend ⊢
  obtain ⟨⟨server, doc⟩, raised⟩ := watched
  obtain rfl : raised = none := hnone
  have hmembers : 2 < ((doc.set (root ++ [.name "end_date"]) (.int p.endDate)).memberNames
      root).length := by
    have hkept : ∀ q ∈ doc.paths, q ∈ (doc.set (root ++ [.name "end_date"])
        (.int p.endDate)).paths := fun q hq => mem_paths_set.mpr (Or.inl hq)
    refine two_lt_members (mem_memberNames.mpr ⟨[], hkept _ hend.dated⟩)
      (mem_memberNames.mpr ⟨[], mem_paths_set.mpr (Or.inr rfl)⟩)
      (hasMember_of_paths hkept (hend.member herror))
  obtain ⟨hopts, hsettle, hcount⟩ := saveData_server lib server p.startDate
    (host.render (doc.set (root ++ [.name "end_date"]) (.int p.endDate)))
  have hcollected : server.errorCount = int32 (countErrors p.actions) := hend.count
  have htime := settleTime_congr lib (hopts.trans hend.opts) (hsettle.trans hend.settle)
  have hdiff : int64 (p.endDate - p.startDate) = p.endDate - p.startDate := by
    have hepoch := p.epoch
    have hended := p.ended
    have hfits := p.fits
    exact int64_of_range (by omega) (by omega)
  simp only [Nat.not_le.mpr hmembers, if_false, Server.getErrorCount, hcount, hcollected, htime,
    hdiff, gt_iff_lt, ge_iff_le]
  split
  · next hpositive =>
      split
      · next hlong =>
          split <;> exact iff_of_true rfl ⟨hpositive, hlong⟩
      · next hshort => exact iff_of_false (fun h => Bool.noConfusion h) fun h => hshort h.2
  · next hwrapped => exact iff_of_false (fun h => Bool.noConfusion h) fun h => hwrapped h.1

end Pass

/-! ## The daemon -/

/-- The server, the file of the last email, and the worker's thread: an
exception ends it. -/
structure Daemon where
  server : Server
  file : Option String
  running : Bool

inductive DaemonCall (S : Int) where
  | pass (p : Pass S)
  | clearCache (name : String)
  | change (opts : Options)

/-- One step of a daemon started at `S`. -/
def daemon (lib : Advgetopt) (host : Host) (S : Int) :
    Step Daemon (DaemonCall S) (Option PassResult) := fun d call =>
  match call with
  | .pass p =>
      if d.running then
        let r := runPlugins lib host d.server d.file p
        (⟨r.server, r.file, r.raised.isNone⟩, some r)
      else (d, none)
  | .clearCache name => ({ d with server := d.server.clearCache name }, none)
  | .change opts => ({ d with server := { d.server with opts := opts } }, none)

def Daemon.start (opts : Options) (file : Option String) : Daemon :=
  ⟨Server.create opts, file, true⟩

/-- The settle time the getter returns during a step. -/
def Daemon.settleTime (lib : Advgetopt) (d : Daemon) : Int :=
  (d.server.getErrorReportSettleTime lib).1

/-- A pass that has collected an error by its end reports if and only if the
daemon has been running for the settle time. -/
def SettleRespected (lib : Advgetopt) {S : Int}
    (e : Event Daemon (DaemonCall S) (Option PassResult)) : Prop :=
  ∀ p r, e.input = .pass p → e.output = some r → r.raised = none → 0 < countErrors p.actions →
    (r.reported = true ↔ e.before.settleTime lib ≤ p.endDate - S)

/-- A pass with errors ends before the settle time, or else takes that long
itself (with a number of errors that is positive as an `int`). -/
def SettledByPass (lib : Advgetopt) {S : Int}
    (e : Event Daemon (DaemonCall S) (Option PassResult)) : Prop :=
  ∀ p, e.input = .pass p → e.before.running = true → Completes p.actions →
    0 < countErrors p.actions →
      p.endDate - S < e.before.settleTime lib ∨
        (e.before.settleTime lib ≤ p.endDate - p.startDate ∧ 0 < int32 (countErrors p.actions))

theorem settleRespected_iff (lib : Advgetopt) (host : Host) {S : Int} (d : Daemon)
    (call : DaemonCall S) :
    SettleRespected lib (event (daemon lib host S) d call) ↔
      SettledByPass lib (event (daemon lib host S) d call) := by
  simp only [SettleRespected, SettledByPass, event_input, event_output, event_before]
  constructor
  · intro h p hp hrun hok herror
    subst hp
    have hout : (daemon lib host S d (.pass p)).2 =
        some (runPlugins lib host d.server d.file p) := by
      simp only [daemon, hrun, if_true]
    have hiff := h p _ rfl hout (runPlugins_raised.mpr hok) herror
    rw [runPlugins_reported hok herror] at hiff
    by_cases hlate : d.settleTime lib ≤ p.endDate - S
    · exact Or.inr ⟨(hiff.mpr hlate).2, (hiff.mpr hlate).1⟩
    · exact Or.inl (Int.not_le.mp hlate)
  · intro h p r hp hr hraised herror
    subst hp
    have hrun : d.running = true := by
      by_contra hnot
      simp only [daemon, if_neg hnot] at hr
      nomatch hr
    simp only [daemon, if_pos hrun, Option.some.injEq] at hr
    subst hr
    have hok := runPlugins_raised.mp hraised
    have hcond := h p rfl hrun hok herror
    have hbegan := p.began
    rw [runPlugins_reported hok herror]
    simp only [Daemon.settleTime] at hcond ⊢
    rcases hcond with hsoon | ⟨hlong, hpositive⟩
    · constructor
      · intro hreported
        omega
      · intro hlate
        omega
    · constructor
      · intro hreported
        omega
      · intro hlate
        exact ⟨hpositive, hlong⟩

/-- **A run respects the settle time in exactly the runs whose passes with
errors end before it, or take that long themselves.** -/
theorem settleTime_iff (lib : Advgetopt) (host : Host) (S : Int) (opts : Options)
    (file : Option String) (calls : List (DaemonCall S)) :
    (∀ e ∈ trace (daemon lib host S) (Daemon.start opts file) calls, SettleRespected lib e) ↔
      ∀ e ∈ trace (daemon lib host S) (Daemon.start opts file) calls, SettledByPass lib e :=
  trace_forall_iff (I := fun _ => True) (fun d call _ => settleRespected_iff lib host d call)
    (fun _ _ _ _ => trivial) trivial calls

/-- A pass of ten seconds, with one error, when the daemon has run for a
quarter of an hour. -/
def shortPass : Pass 1700000000 where
  startDate := 1700000900
  endDate := 1700000910
  now := 1700000910
  actions := [.appendError ⟨[.name "cpu"], rfl⟩ "cpu" "High CPU usage." 95]
  readable := true
  writable := true
  epoch := by decide
  began := by decide
  ended := by decide
  fits := by decide

/-- It does not report. -/
theorem settleTime_short_pass :
    let opts := (Options.mail "a@x.net" "b@x.net").replace "error_report_settle_time" "300"
    ¬ ∀ e ∈ trace (daemon .decimal ⟨fun _ => "{}", "host", "1.0"⟩ 1700000000)
        (Daemon.start opts none) [.pass shortPass], SettleRespected .decimal e := by
  intro opts hall
  have hreport := hall _ List.mem_cons_self shortPass _ rfl rfl (by decide) (by decide)
  exact absurd (hreport.mpr (by decide)) (by decide)

end Sitter
