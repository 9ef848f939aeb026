/-
# `Sitter.Network` — how long communicatord has been out of reach

The server keeps two times: when it last connected to communicatord and when it
last lost it.  The first is 0 until it connects, the second starts with the
server, so it is connected if the first is later.  The times are nanoseconds.

When it is not, the network plugin raises an error whose priority grows with
the time the connection has been missing:

    more than 15 minutes   100
    more than 5 minutes     65
    more than 1 minute      30
    otherwise               15

A server that was never connected gets 5 minutes first.  For one that was, the
time is counted from when it connected, not from when it lost the connection;
so the priority is the claimed one exactly if both times are in the same of the
four ranges (`outage_iff`).
-/
import Sitter.Base.LastWrite
import Sitter.Processes

namespace Sitter

open LastWrite

/-! ## The connection -/

/-- `f_communicatord_connected` and `f_communicatord_disconnected` -/
structure ConnectionTimes where
  connected : Int := 0
  disconnected : Int
  deriving DecidableEq, Repr

namespace ConnectionTimes

/-- `set_communicatord_connected` -/
def setCommunicatordConnected (s : ConnectionTimes) (call : Bool × Int) : ConnectionTimes :=
  if call.1 then { s with connected := call.2 } else { s with disconnected := call.2 }

/-- `get_communicatord_is_connected` -/
def getCommunicatordIsConnected (s : ConnectionTimes) : Bool := s.disconnected < s.connected

/-- The times after the calls, for a server that was made at `start`. -/
def after (start : Int) (calls : List (Bool × Int)) : ConnectionTimes :=
  calls.foldl setCommunicatordConnected { disconnected := start }

end ConnectionTimes

/-! ## The plugin -/

/-- `ONE_MINUTE`, in nanoseconds. -/
def oneMinute : Int := 60 * 10 ^ 9

/-- `FIVE_MINUTES` -/
def fiveMinutes : Int := 5 * oneMinute

/-- `FIFTEEN_MINUTES` -/
def fifteenMinutes : Int := 15 * oneMinute

/-- The priority that increases. -/
def outagePriority (duration : Int) : Int :=
  if duration > fifteenMinutes then 100
  else if duration > fiveMinutes then 65
  else if duration > oneMinute then 30
  else 15

/-- `json["network"]` -/
def networkNode : PluginNode := ⟨[.name "network"], rfl⟩

section Plugin

-- `timespec_ex::to_string`
variable (timeText : Int → String)

/-- The error about a connection that is missing. -/
def outageError (duration : Int) : PluginAction :=
  .appendError networkNode "network"
    ("found the \"communicatord\" process but somehow sitter is not connected, has not been for "
      ++ timeText duration ++ " seconds.")
    (outagePriority duration)

/-- `verify_communicatord_connection` -/
def verifyCommunicatordConnection (s : ConnectionTimes) (now : Int) : Bool × List PluginAction :=
  if s.getCommunicatordIsConnected then (true, [])
  else
    let service := [PluginAction.set (networkNode.path ++ [.name "service", .name "name"])
        (.text "communicatord"),
      .set (networkNode.path ++ [.name "service", .name "error"]) (.text "not connected")]
    -- amount of time since the last connection
    let duration := now - s.connected
    if s.connected = 0 then
      -- on startup, the process was never connected: 5 min. to get started
      let duration := now - s.disconnected
      if duration < fiveMinutes then (false, service)
      else (false, service ++ [outageError timeText (duration - fiveMinutes)])
    else (false, service ++ [outageError timeText duration])

/-- `on_process_watch`, with the process that `find("communicatord")` found. -/
def onProcessWatchNetwork (info : Option ProcessInfo) (s : ConnectionTimes) (now : Int) :
    List PluginAction :=
  outputProcess "network" networkNode 0 info "communicatord" 99 ++
    if info.isSome then (verifyCommunicatordConnection timeText s now).2 else []

end Plugin

/-! ## How long the connection has been missing

`verify_communicatord_connection` subtracts the time of the last connection
from now, where its comment speaks of how long the connection has been missing.
After a run of calls the two times are those of the last call of each kind. -/

/-- When the connection was lost last: with the server it starts lost. -/
def lastDisconnection (start : Int) (calls : List (Bool × Int)) : Int :=
  (lastWrite calls false).getD start

/-- The priority of an outage of so many nanoseconds. -/
def claimedPriority (d : Int) : Int :=
  if 900 * 10 ^ 9 < d then 100
  else if 300 * 10 ^ 9 < d then 65
  else if 60 * 10 ^ 9 < d then 30
  else 15

/-- The priorities that are claimed for a check at `now`. -/
def claimedOutage (start : Int) (calls : List (Bool × Int)) (now : Int) : List Int :=
  let d := now - lastDisconnection start calls
  match lastWrite calls true with
  | none => if d < 300 * 10 ^ 9 then [] else [claimedPriority (d - 300 * 10 ^ 9)]
  | some _ => [claimedPriority d]

/-- The times are in the same of the four ranges: up to 1 minute, up to 5, up to
15, or more. -/
structure SameRange (d d' : Int) : Prop where
  minute : d ≤ 60 * 10 ^ 9 ↔ d' ≤ 60 * 10 ^ 9
  fiveMinutes : d ≤ 300 * 10 ^ 9 ↔ d' ≤ 300 * 10 ^ 9
  fifteenMinutes : d ≤ 900 * 10 ^ 9 ↔ d' ≤ 900 * 10 ^ 9

section Outage

variable {timeText : Int → String} {start now : Int} {calls : List (Bool × Int)}

theorem outagePriority_eq (d : Int) : outagePriority d = claimedPriority d := rfl

theorem claimedPriority_eq_iff {d d' : Int} :
    claimedPriority d = claimedPriority d' ↔ SameRange d d' := by
  have hrange : SameRange d d' ↔ (d ≤ 60 * 10 ^ 9 ↔ d' ≤ 60 * 10 ^ 9) ∧
      (d ≤ 300 * 10 ^ 9 ↔ d' ≤ 300 * 10 ^ 9) ∧ (d ≤ 900 * 10 ^ 9 ↔ d' ≤ 900 * 10 ^ 9) :=
    ⟨fun h => ⟨h.minute, h.fiveMinutes, h.fifteenMinutes⟩, fun h => ⟨h.1, h.2.1, h.2.2⟩⟩
  rw [hrange, claimedPriority, claimedPriority]
  split_ifs <;> omega

/-- **The times of the server are those of the last two calls.** -/
theorem after_eq (start : Int) (calls : List (Bool × Int)) :
    ConnectionTimes.after start calls =
      ⟨(lastWrite calls true).getD 0, lastDisconnection start calls⟩ := by
  induction calls using List.reverseRecOn with
  | nil => rfl
  | append_singleton calls call ih =>
      obtain ⟨status, time⟩ := call
      have hstep : ConnectionTimes.after start (calls ++ [(status, time)]) =
          (ConnectionTimes.after start calls).setCommunicatordConnected (status, time) :=
        List.foldl_concat ..
      rw [hstep, ih, lastDisconnection, lastDisconnection, lastWrite_concat, lastWrite_concat]
      cases status <;> rfl

/-- A server that was connected knows when. -/
theorem lastWrite_ne_zero (hstart : 0 ≤ start) (hcalls : ∀ c ∈ calls, start < c.2) {t : Int}
    (ht : lastWrite calls true = some t) : t ≠ 0 := by
  obtain ⟨before, rest, hsplit, -⟩ := lastWrite_eq_some.mp ht
  have hlater := hcalls (true, t) (by rw [hsplit]; simp)
  dsimp only at hlater
  omega

theorem verify_priorities (s : ConnectionTimes) (now : Int)
    (hlost : s.getCommunicatordIsConnected = false) :
    raisedPriorities (verifyCommunicatordConnection timeText s now).2 =
      if s.connected = 0 then
        if now - s.disconnected < fiveMinutes then []
        else [outagePriority (now - s.disconnected - fiveMinutes)]
      else [outagePriority (now - s.connected)] := by
  rw [verifyCommunicatordConnection, if_neg (by rw [hlost]; exact Bool.false_ne_true)]
  dsimp only
  split
  · split <;> rfl
  · rfl

theorem onProcessWatchNetwork_priorities (info : ProcessInfo) (s : ConnectionTimes) (now : Int) :
    raisedPriorities (onProcessWatchNetwork timeText (some info) s now) =
      raisedPriorities (verifyCommunicatordConnection timeText s now).2 := by
  rw [onProcessWatchNetwork, raisedPriorities, List.filterMap_append]
  rfl

end Outage

/-- **The priority is the claimed one exactly if there never was a connection,
or if the time since it was made and the time since it was lost are in the same
range.** -/
theorem outage_iff (timeText : Int → String) {start now : Int} {calls : List (Bool × Int)}
    (hstart : 0 ≤ start) (hcalls : ∀ c ∈ calls, start < c.2)
    (hlost : (ConnectionTimes.after start calls).getCommunicatordIsConnected = false) :
    raisedPriorities
        (verifyCommunicatordConnection timeText (ConnectionTimes.after start calls) now).2 =
          claimedOutage start calls now ↔
      ∀ connection, lastWrite calls true = some connection →
        SameRange (now - connection) (now - lastDisconnection start calls) := by
  rw [verify_priorities _ now hlost, after_eq, claimedOutage]
  dsimp only
  cases hconnection : lastWrite calls true with
  | none =>
      refine iff_of_true (if_pos rfl) ?_
      intro t ht
      cases ht
  | some t =>
      rw [Option.getD_some, if_neg (lastWrite_ne_zero hstart hcalls hconnection),
        List.singleton_inj, outagePriority_eq, claimedPriority_eq_iff]
      constructor
      · intro h connection hsome
        rwa [← Option.some.inj hsome]
      · intro h
        exact h t rfl

/-- A connection of some seconds that was lost an hour ago. -/
theorem outage_hour :
    let calls := [(true, 10 ^ 18 + 10 ^ 9), (false, 10 ^ 18 + 20 * 10 ^ 9)]
    raisedPriorities (verifyCommunicatordConnection toString
        (ConnectionTimes.after (10 ^ 18) calls) (10 ^ 18 + 3600 * 10 ^ 9)).2 =
      claimedOutage (10 ^ 18) calls (10 ^ 18 + 3600 * 10 ^ 9) := by
  refine (outage_iff toString (by decide) (by decide) (by decide)).mpr ?_
  intro connection h
  rw [← Option.some.inj h]
  constructor <;> decide

/-- A connection of two hours that was lost a second ago. -/
theorem outage_second :
    (ConnectionTimes.after (10 ^ 18)
        [(true, 10 ^ 18 + 1), (false, 10 ^ 18 + 120 * oneMinute)]).getCommunicatordIsConnected =
        false ∧
      raisedPriorities (verifyCommunicatordConnection toString
        (ConnectionTimes.after (10 ^ 18) [(true, 10 ^ 18 + 1), (false, 10 ^ 18 + 120 * oneMinute)])
        (10 ^ 18 + 120 * oneMinute + 10 ^ 9)).2 ≠
      claimedOutage (10 ^ 18) [(true, 10 ^ 18 + 1), (false, 10 ^ 18 + 120 * oneMinute)]
        (10 ^ 18 + 120 * oneMinute + 10 ^ 9) := by
  refine ⟨by decide, ?_⟩
  rw [verify_priorities _ _ (by decide)]
  decide

end Sitter
