/-
# `Sitter.Server` — the server's state and its error accounting

`Server` holds the members of `sitter::server` that the code below reads or
writes: the options, the cached settings (`-1` where nothing is cached), the
two error counters.

`append_error` does two things at once.  It counts: `f_error_count` and
`f_max_error_priority` decide later whether an email is sent.  And it records:
a new item in the `error` array of the JSON node it is given, which is what the
email shows.  The two are meant to say the same, and `Accounted` states it for
a run of `clear_errors` and `append_error` calls on any nodes of a document.

The counters move first and the priority is checked after that, so a call that
raises has already been counted.
-/
import Sitter.Base.Machine
import Sitter.Base.Document
import Sitter.Platform

namespace Sitter

open Machine Document

/-- A value in the JSON document of a pass. -/
inductive Value where
  | null
  | int (n : Int)
  | text (s : String)
  deriving DecidableEq, Repr

/-- `f_opts`: which options were given, and the text of each. -/
structure Options where
  isDefined : String → Bool
  getString : String → String

def Options.unset : Options := ⟨fun _ => false, fun _ => ""⟩

/-- The options with one text replaced. -/
def Options.replace (opts : Options) (name text : String) : Options where
  isDefined := opts.isDefined
  getString n := if n = name then text else opts.getString n

/-- The members of `sitter::server`. -/
structure Server where
  opts : Options
  statisticsFrequency : Int := -1
  statisticsPeriod : Int := -1
  statisticsTtl : Int := -1
  errorReportSettleTime : Int := -1
  errorReportLowPriority : Int := -1
  errorReportLowSpan : Int := -1
  errorReportMediumPriority : Int := -1
  errorReportMediumSpan : Int := -1
  errorReportCriticalPriority : Int := -1
  errorReportCriticalSpan : Int := -1
  errorCount : Int := 0
  maxErrorPriority : Int := 0

namespace Server

def create (opts : Options) : Server := { opts }

/-- `get_server_parameter` -/
def getServerParameter (s : Server) (name : String) : String :=
  if s.opts.isDefined name then s.opts.getString name else ""

/-- `clear_errors` -/
def clearErrors (s : Server) : Server := { s with errorCount := 0, maxErrorPriority := 0 }

/-- `get_error_count` -/
def getErrorCount (s : Server) : Int := s.errorCount

/-- `get_max_error_priority` -/
def getMaxErrorPriority (s : Server) : Int := s.maxErrorPriority

/-- The counters as the first lines of `append_error` leave them. -/
def countError (s : Server) (priority : Int) : Server :=
  { s with
    maxErrorPriority := if priority > s.maxErrorPriority then priority else s.maxErrorPriority
    errorCount := int32 (s.errorCount + 1) }

end Server

/-- What a call of `append_error` leaves behind; `raised` is the text of the
`invalid_parameter` it threw. -/
structure AppendResult where
  server : Server
  doc : Document Value
  raised : Option String

/-- The members of one item of an `error` array. -/
def errorFields (pluginName message : String) (priority : Int) : List (String × Value) :=
  [("plugin_name", .text pluginName), ("message", .text message), ("priority", .int priority)]

/-- `append_error`.  The log message it writes is left out. -/
def Server.appendError (s : Server) (doc : Document Value) (jsonRef : Path)
    (pluginName message : String) (priority : Int) : AppendResult :=
  let counted := s.countError priority
  if priority < 0 ∨ priority > 100 then
    ⟨counted, doc, some ("priority must be between 0 and 100 inclusive, "
      ++ toString priority ++ " is not valid.")⟩
  else
    -- create a new item in the array (at the end)
    let errors := jsonRef ++ [.name "error"]
    let err := doc.itemPath errors
    ⟨counted, (doc.push errors .null).setMembers err (errorFields pluginName message priority),
      none⟩

theorem appendError_server (s : Server) (doc : Document Value) (node : Path)
    (plugin message : String) (priority : Int) :
    (s.appendError doc node plugin message priority).server = s.countError priority := by
  simp only [Server.appendError]
  split <;> rfl

theorem appendError_raised {s : Server} {doc : Document Value} {node : Path}
    {plugin message : String} {priority : Int} :
    (s.appendError doc node plugin message priority).raised = none ↔
      0 ≤ priority ∧ priority ≤ 100 := by
  simp only [Server.appendError]
  split
  · next h => simp only [reduceCtorEq, false_iff]; omega
  · next h => simp only [true_iff]; omega

/-! ## The error entries of a document -/

/-- One item of an `error` array, as the document has it. -/
structure ErrorEntry where
  node : Path
  pluginName : Option Value
  message : Option Value
  priority : Option Value
  deriving DecidableEq

/-- The entry `append_error` writes. -/
def ErrorEntry.of (node : Path) (pluginName message : String) (priority : Int) : ErrorEntry :=
  ⟨node, some (.text pluginName), some (.text message), some (.int priority)⟩

/-- The priority of an entry as a number. -/
def ErrorEntry.priorityValue (e : ErrorEntry) : Int :=
  match e.priority with
  | some (.int n) => n
  | _ => 0

/-- The path is that of an item of an `error` array. -/
def isErrorItem (p : Path) : Bool :=
  match p.reverse with
  | .item _ :: .name "error" :: _ => true
  | _ => false

/-- The entry at the path of an error item. -/
def entryAt (doc : Document Value) (p : Path) : ErrorEntry :=
  ⟨p.dropLast.dropLast, doc.get? (p ++ [.name "plugin_name"]), doc.get? (p ++ [.name "message"]),
    doc.get? (p ++ [.name "priority"])⟩

/-- All error entries of a document, on whatever node, oldest first. -/
def errorEntries (doc : Document Value) : List ErrorEntry :=
  (doc.paths.filter isErrorItem).map (entryAt doc)

theorem isErrorItem_item (node : Path) (n : Nat) :
    isErrorItem (node ++ [.name "error"] ++ [.item n]) = true := by
  simp [isErrorItem]

theorem isErrorItem_member (p : Path) (n : String) : isErrorItem (p ++ [.name n]) = false := by
  simp [isErrorItem]

/-- An entry is read from the members of its own item only. -/
theorem entryAt_setMembers_ne {doc : Document Value} {p q : Path} (hne : q ≠ p)
    (fields : List (String × Value)) : entryAt (doc.setMembers p fields) q = entryAt doc q := by
  have hget : ∀ n : String,
      (doc.setMembers p fields).get? (q ++ [.name n]) = doc.get? (q ++ [.name n]) := by
    intro n
    apply get?_setMembers_ne
    intro k h
    exact hne (List.append_inj_left' h rfl)
  simp only [entryAt, hget]

theorem entryAt_push (doc : Document Value) (p q : Path) (v : Value) :
    entryAt (doc.push p v) q = entryAt doc q := by
  have hget : ∀ n : String,
      (doc.push p v).get? (q ++ [.name n]) = doc.get? (q ++ [.name n]) := by
    intro n
    refine get?_set_ne doc ?_ v
    intro h
    simpa using List.append_inj_right' h rfl
  simp only [entryAt, hget]

theorem entryAt_errorFields (doc : Document Value) (node : Path) (n : Nat)
    (plugin message : String) (priority : Int) :
    entryAt (doc.setMembers (node ++ [.name "error"] ++ [.item n])
        (errorFields plugin message priority)) (node ++ [.name "error"] ++ [.item n]) =
      ErrorEntry.of node plugin message priority := by
  have hne : ∀ {p : Path} {a b : String}, a ≠ b → p ++ [.name a] ≠ p ++ [Key.name b] := by
    intro p a b hab h
    exact hab (by simpa using h)
  have hdrop : (node ++ [Key.name "error"] ++ [Key.item n]).dropLast.dropLast = node := by simp
  simp only [entryAt, errorFields, setMembers_cons, setMembers_nil, ErrorEntry.of, hdrop]
  rw [get?_set_ne _ (hne (by decide)), get?_set_ne _ (hne (by decide)), get?_set_self,
    get?_set_ne _ (hne (by decide)), get?_set_self, get?_set_self]

/-- **`append_error` records one entry**, at the end, and touches no other. -/
theorem errorEntries_appendError {s : Server} {doc : Document Value} {node : Path}
    {plugin message : String} {priority : Int} (hlo : 0 ≤ priority) (hhi : priority ≤ 100) :
    errorEntries (s.appendError doc node plugin message priority).doc =
      errorEntries doc ++ [ErrorEntry.of node plugin message priority] := by
  have hok : ¬ (priority < 0 ∨ priority > 100) := by omega
  simp only [Server.appendError, if_neg hok, errorEntries]
  rw [filter_paths_setMembers (isErrorItem_member _), paths_push, List.filter_append,
    List.map_append]
  congr 1
  · apply List.map_congr_left
    intro q hq
    have hmem : q ∈ doc.paths := (List.mem_filter.mp hq).1
    have hne : q ≠ doc.itemPath (node ++ [.name "error"]) := by
      rintro rfl
      exact doc.push_fresh _ hmem
    rw [entryAt_setMembers_ne hne, entryAt_push]
  · have hitem : isErrorItem (doc.itemPath (node ++ [.name "error"])) = true :=
      isErrorItem_item node _
    simp only [List.filter_cons, hitem, if_true, List.filter_nil, List.map_cons, List.map_nil]
    rw [itemPath, entryAt_errorFields]

/-! ## Runs of `clear_errors` and `append_error`

The state of a run keeps, beside the server and the document, the document as
it was at the last `clear_errors`: what was appended since is the difference. -/

/-- One call of a plugin or of the worker. -/
inductive ErrorCall where
  | clearErrors
  | appendError (jsonRef : Path) (pluginName message : String) (priority : Int)

structure ErrorLog where
  server : Server
  doc : Document Value
  cleared : Document Value

/-- The state a server with fresh counters starts from. -/
def ErrorLog.start (s : Server) (doc : Document Value) : ErrorLog := ⟨s.clearErrors, doc, doc⟩

/-- One call; the output is what it threw. -/
def errorLog : Step ErrorLog ErrorCall (Option String) := fun log call =>
  match call with
  | .clearErrors => ({ log with server := log.server.clearErrors, cleared := log.doc }, none)
  | .appendError node plugin message priority =>
      let r := log.server.appendError log.doc node plugin message priority
      ({ log with server := r.server, doc := r.doc }, r.raised)

/-- The greatest of 0 and the priorities of some entries. -/
def maxPriority (es : List ErrorEntry) : Int :=
  es.foldl (fun top e => max top e.priorityValue) 0

/-- The counters say what the document has been given since the last clear. -/
def Accounted (log : ErrorLog) : Prop :=
  ∃ new, errorEntries log.doc = errorEntries log.cleared ++ new ∧
    log.server.getErrorCount = new.length ∧ log.server.getMaxErrorPriority = maxPriority new

/-- What is asked of one call: the accounts are right after it, the greatest
priority is in range, and a call that raises has changed nothing. -/
def ErrorCallOk (e : Event ErrorLog ErrorCall (Option String)) : Prop :=
  Accounted e.after ∧
    (0 ≤ e.after.server.getMaxErrorPriority ∧ e.after.server.getMaxErrorPriority ≤ 100) ∧
    (e.output ≠ none → e.after = e.before)

/-- How many entries the document was given since the last clear. -/
def ErrorLog.appended (log : ErrorLog) : Nat :=
  (errorEntries log.doc).length - (errorEntries log.cleared).length

/-- The priority is one `append_error` accepts, and the `int` that counts the
errors has room for one more. -/
def ErrorCallInRange (e : Event ErrorLog ErrorCall (Option String)) : Prop :=
  match e.input with
  | .clearErrors => True
  | .appendError _ _ _ priority =>
      (0 ≤ priority ∧ priority ≤ 100) ∧ e.before.appended + 1 < 2 ^ 31

/-- The accounts before a call: `new` is what was appended since the last
clear. -/
structure ErrorLog.Holds (log : ErrorLog) (new : List ErrorEntry) : Prop where
  entries : errorEntries log.doc = errorEntries log.cleared ++ new
  count : log.server.errorCount = new.length
  top : log.server.maxErrorPriority = maxPriority new
  room : new.length < 2 ^ 31
  low : 0 ≤ maxPriority new
  high : maxPriority new ≤ 100

theorem ErrorLog.Holds.accounted {log : ErrorLog} {new : List ErrorEntry} (h : log.Holds new) :
    Accounted log :=
  ⟨new, h.entries, h.count, h.top⟩

theorem ErrorLog.Holds.appended_eq {log : ErrorLog} {new : List ErrorEntry} (h : log.Holds new) :
    log.appended = new.length := by
  rw [ErrorLog.appended, h.entries, List.length_append]
  omega

theorem ErrorLog.Holds.range {log : ErrorLog} {new : List ErrorEntry} (h : log.Holds new) :
    0 ≤ log.server.getMaxErrorPriority ∧ log.server.getMaxErrorPriority ≤ 100 := by
  rw [Server.getMaxErrorPriority, h.top]
  exact ⟨h.low, h.high⟩

theorem errorLog_start_holds (s : Server) (doc : Document Value) :
    (ErrorLog.start s doc).Holds [] where
  entries := (List.append_nil _).symm
  count := rfl
  top := rfl
  room := by norm_num
  low := le_refl 0
  high := by decide

theorem errorLog_clear_holds (log : ErrorLog) : (errorLog log .clearErrors).1.Holds [] where
  entries := (List.append_nil _).symm
  count := rfl
  top := rfl
  room := by norm_num
  low := le_refl 0
  high := by decide

theorem maxPriority_append (new : List ErrorEntry) (e : ErrorEntry) :
    maxPriority (new ++ [e]) = max (maxPriority new) e.priorityValue := by
  simp [maxPriority, List.foldl_append]

theorem countError_max (s : Server) (priority : Int) :
    (s.countError priority).maxErrorPriority = max s.maxErrorPriority priority := by
  simp only [Server.countError]
  split <;> omega

section Append

variable {log : ErrorLog} {new : List ErrorEntry} {node : Path} {plugin message : String}
  {priority : Int}

/-- An accepted call carries the accounts on. -/
theorem errorLog_append_holds (h : log.Holds new) (hlo : 0 ≤ priority) (hhi : priority ≤ 100)
    (hroom : new.length + 1 < 2 ^ 31) :
    (errorLog log (.appendError node plugin message priority)).1.Holds
      (new ++ [ErrorEntry.of node plugin message priority]) where
  entries := by
    simp only [errorLog]
    rw [errorEntries_appendError hlo hhi, h.entries, List.append_assoc]
  count := by
    simp only [errorLog, appendError_server, Server.countError, h.count, List.length_append,
      List.length_singleton]
    rw [int32_of_range (by omega) (by omega)]
    omega
  top := by
    simp only [errorLog, appendError_server, countError_max, h.top, maxPriority_append]
    rfl
  room := by simpa using hroom
  low := by
    rw [maxPriority_append]
    exact le_max_of_le_left h.low
  high := by
    rw [maxPriority_append]
    exact max_le h.high hhi

/-- A call that raises was counted. -/
theorem errorLog_raise_counts (h : log.Holds new) :
    (errorLog log (.appendError node plugin message priority)).1.server.errorCount ≠
      log.server.errorCount := by
  have hroom := h.room
  simp only [errorLog, appendError_server, Server.countError, h.count]
  by_cases hmax : new.length + 1 < 2 ^ 31
  · rw [int32_of_range (by omega) (by omega)]
    omega
  · have hlast : (new.length : Int) + 1 = 2 ^ 31 := by omega
    rw [hlast, show int32 (2 ^ 31) = -2 ^ 31 by decide]
    omega

/-- **One call meets what is asked of it exactly when it is in range.** -/
theorem errorCallOk_append_iff (h : log.Holds new) :
    ErrorCallOk (event errorLog log (.appendError node plugin message priority)) ↔
      (0 ≤ priority ∧ priority ≤ 100) ∧ new.length + 1 < 2 ^ 31 := by
  constructor
  · rintro ⟨⟨new', hentries, hcount, -⟩, -, hraise⟩
    have hrange : 0 ≤ priority ∧ priority ≤ 100 := by
      by_contra hout
      have hraised : (event errorLog log (.appendError node plugin message priority)).output ≠
          none := by
        intro hn
        exact hout (appendError_raised.mp hn)
      have hsame := hraise hraised
      exact errorLog_raise_counts h (congrArg (fun l : ErrorLog => l.server.errorCount) hsame)
    refine ⟨hrange, ?_⟩
    have hnew : new' = new ++ [ErrorEntry.of node plugin message priority] := by
      refine List.append_cancel_left (hentries.symm.trans ?_)
      simp only [event, errorLog]
      rw [errorEntries_appendError hrange.1 hrange.2, h.entries, List.append_assoc]
    subst hnew
    have hlt : int32 (log.server.errorCount + 1) < 2 ^ 31 := int32_lt _
    simp only [event, errorLog, Server.getErrorCount, appendError_server, Server.countError,
      List.length_append, List.length_singleton] at hcount
    omega
  · rintro ⟨⟨hlo, hhi⟩, hroom⟩
    have hafter : (errorLog log (.appendError node plugin message priority)).1.Holds
        (new ++ [ErrorEntry.of node plugin message priority]) :=
      errorLog_append_holds h hlo hhi hroom
    refine ⟨hafter.accounted, ?_, ?_⟩
    · exact hafter.range
    · intro hraised
      exact absurd (appendError_raised.mpr ⟨hlo, hhi⟩) hraised

end Append

theorem errorCallOk_iff_inRange {log : ErrorLog} {new : List ErrorEntry} (h : log.Holds new)
    (call : ErrorCall) :
    ErrorCallOk (event errorLog log call) ↔ ErrorCallInRange (event errorLog log call) := by
  cases call with
  | clearErrors =>
      have hafter := errorLog_clear_holds log
      exact iff_of_true ⟨hafter.accounted, hafter.range, fun hraised => absurd rfl hraised⟩ trivial
  | appendError node plugin message priority =>
      rw [errorCallOk_append_iff h]
      simp only [ErrorCallInRange, event_input, event_before, h.appended_eq]

/-- **The accounts match the report, call by call, in exactly the runs whose
calls are in range.** -/
theorem errorAccounting_iff (s : Server) (doc : Document Value) (calls : List ErrorCall) :
    (∀ e ∈ trace errorLog (ErrorLog.start s doc) calls, ErrorCallOk e) ↔
      ∀ e ∈ trace errorLog (ErrorLog.start s doc) calls, ErrorCallInRange e := by
  refine trace_forall_iff (I := fun log : ErrorLog => ∃ new, log.Holds new) ?_ ?_
    ⟨[], errorLog_start_holds s doc⟩ calls
  · rintro log call ⟨new, h⟩
    exact errorCallOk_iff_inRange h call
  · rintro log call ⟨new, h⟩ hrange
    cases call with
    | clearErrors => exact ⟨[], errorLog_clear_holds log⟩
    | appendError node plugin message priority =>
        obtain ⟨⟨hlo, hhi⟩, hroom⟩ := hrange
        rw [event_before, h.appended_eq] at hroom
        exact ⟨_, errorLog_append_holds h hlo hhi hroom⟩

/-- A priority of 101 is refused, and counted all the same. -/
theorem errorAccounting_priority_101 :
    ¬ ∀ e ∈ trace errorLog (ErrorLog.start (Server.create Options.unset) Document.empty)
        [.appendError [] "packages" "the package is missing" 101], ErrorCallOk e := by
  intro hall
  obtain ⟨-, -, hraise⟩ := hall _ List.mem_cons_self
  have hsame := hraise (by decide)
  have hcount : (1 : Int) = 0 := congrArg (fun l : ErrorLog => l.server.errorCount) hsame
  exact absurd hcount (by decide)

end Sitter
