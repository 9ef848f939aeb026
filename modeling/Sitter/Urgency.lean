/-
# `Sitter.Urgency` — is a graver problem reported at least as soon?

For one state of the file and one moment, `report_error` sends or does not
send, depending on the greatest priority of the pass.  The settings divide the
priorities into tiers,

    low .. medium        lowSpan
    medium .. critical   mediumSpan
    critical ..          criticalSpan

and a greater priority is sent whenever a smaller one is exactly if the spans
of the tiers that have a priority in them do not grow (`urgency_iff`).  sitter.conf
asks for ordered priorities and spans; the check of the order was taken out of
the program, since the settings now arrive one by one, and the getters look at
one option each.
-/
import Sitter.ReportError

namespace Sitter

open Machine

def Server.tiers (lib : Advgetopt) (s : Server) : Option Tiers :=
  match s.getErrorReportLowPriority lib, s.getErrorReportLowSpan lib,
    s.getErrorReportMediumPriority lib, s.getErrorReportMediumSpan lib,
    s.getErrorReportCriticalPriority lib, s.getErrorReportCriticalSpan lib with
  | some low, some lowSpan, some medium, some mediumSpan, some critical, some criticalSpan =>
      some ⟨low.1, lowSpan.1, medium.1, mediumSpan.1, critical.1, criticalSpan.1⟩
  | _, _, _, _, _, _ => none

/-- The spans of two tiers are in order if both tiers have a priority. -/
structure Tiers.Ordered (t : Tiers) : Prop where
  critical_medium : t.low < t.critical → t.medium < t.critical → t.criticalSpan ≤ t.mediumSpan
  medium_low : t.low < t.medium → t.medium < t.critical → t.mediumSpan ≤ t.lowSpan
  critical_low : t.low < t.medium → t.low < t.critical → t.criticalSpan ≤ t.lowSpan

/-- Graver priorities do not wait longer, from the low priority on. -/
theorem Tiers.Ordered.span_antitone {t : Tiers} (h : t.Ordered) {p q : Int} (hp : t.low ≤ p)
    (hpq : p ≤ q) : t.span q ≤ t.span p := by
  obtain ⟨hcm, hml, hcl⟩ := h
  simp only [Tiers.span]
  split
  · split
    · exact le_refl _
    · split
      · exact hcm (by omega) (by omega)
      · exact hcl (by omega) (by omega)
  · split
    · split
      · omega
      · split
        · exact le_refl _
        · exact hml (by omega) (by omega)
    · rw [if_neg (by omega), if_neg (by omega)]

section Tiers

variable {lib : Advgetopt} {s : Server} {t : Tiers}

theorem tiers_eq_some (h : s.tiers lib = some t) :
    s.lowPair lib = some (t.low, t.lowSpan) ∧ s.mediumPair lib = some (t.medium, t.mediumSpan) ∧
      ∃ priority, s.criticalRead lib = some (t.critical, priority, t.criticalSpan) := by
  simp only [Server.tiers] at h
  simp only [Server.getErrorReportLowSpan, Server.getErrorReportMediumSpan,
    Server.getErrorReportCriticalSpan, Server.getLow_eq, Server.getMedium_eq,
    Server.getCritical_eq, Option.map_map] at h
  cases hlow : s.lowPair lib with
  | none => simp [hlow] at h
  | some low =>
      cases hmedium : s.mediumPair lib with
      | none => simp [hlow, hmedium] at h
      | some medium =>
          cases hcritical : s.criticalRead lib with
          | none => simp [hlow, hmedium, hcritical] at h
          | some critical =>
              simp only [hlow, hmedium, hcritical, Option.map_some, Option.some.injEq] at h
              subst h
              exact ⟨rfl, rfl, critical.2.1, rfl⟩

/-- **The span a call selects is that of the tier.** -/
theorem reportSpan_tiers (h : s.tiers lib = some t) (priority : Int) :
    ((s.cacheLow (t.low, t.lowSpan)).reportSpan lib priority).map Prod.fst =
      some (t.span priority) := by
  obtain ⟨hlow, hmedium, cached, hcritical⟩ := tiers_eq_some h
  rw [reportSpan_fst hlow, hcritical, Option.bind_some, hmedium, Option.map_some, Tiers.span]
  dsimp only
  split <;> rfl

end Tiers

/-- The call, after a pass of another greatest priority. -/
def Report.withPriority (r : Report) (priority : Int) : Report :=
  { r with server := { r.server with maxErrorPriority := priority } }

/-- Would the call send an email if the greatest priority were this one? -/
def Report.sends (lib : Advgetopt) (file : Option String) (r : Report) (priority : Int) : Bool :=
  (reporter lib file (r.withPriority priority)).2.isSome

theorem tiers_withPriority (lib : Advgetopt) (r : Report) (priority : Int) :
    (r.withPriority priority).server.tiers lib = r.server.tiers lib := by
  have hlow : (r.withPriority priority).server.lowPair lib = r.server.lowPair lib := rfl
  have hmedium : (r.withPriority priority).server.mediumPair lib = r.server.mediumPair lib := rfl
  have hcritical :
      (r.withPriority priority).server.criticalRead lib = r.server.criticalRead lib := rfl
  simp only [Server.tiers, Server.getErrorReportLowSpan, Server.getErrorReportMediumSpan,
    Server.getErrorReportCriticalSpan, Server.getLow_eq, Server.getMedium_eq,
    Server.getCritical_eq, Option.map_map, hlow, hmedium, hcritical]
  cases r.server.lowPair lib with
  | none => rfl
  | some low =>
      cases r.server.mediumPair lib with
      | none => rfl
      | some medium => cases r.server.criticalRead lib <;> rfl

theorem span_withPriority {lib : Advgetopt} {r : Report} {t : Tiers}
    (ht : r.server.tiers lib = some t) (priority : Int) :
    (r.withPriority priority).span lib =
      if priority < t.low then none else some (t.span priority) := by
  have htiers := (tiers_withPriority lib r priority).trans ht
  have hlow := (tiers_eq_some htiers).1
  have hspan := reportSpan_tiers htiers priority
  simp only [Report.span]
  rw [Server.getLow_eq, hlow, Option.map_some, Option.bind_some]
  by_cases h : priority < t.low
  · rw [if_pos h]
    exact if_pos h
  · rw [if_neg h]
    exact (if_neg h).trans hspan

/-- When a call sends, in the words of the tiers. -/
theorem sends_iff {lib : Advgetopt} {file : Option String} {r : Report} {t : Tiers}
    (ht : r.server.tiers lib = some t) (priority : Int) :
    r.sends lib file priority = true ↔
      r.server.MailSet ∧ t.low ≤ priority ∧
        spanElapsed lib (readAll r.readable file) r.now (t.span priority) = true := by
  have hdue : (r.withPriority priority).due lib file = true ↔ t.low ≤ priority ∧
      spanElapsed lib (readAll r.readable file) r.now (t.span priority) = true := by
    rw [Report.due, span_withPriority ht]
    rcases lt_or_ge priority t.low with hlow | hlow
    · rw [if_pos hlow]
      refine iff_of_false Bool.false_ne_true ?_
      rintro ⟨hge, -⟩
      omega
    · rw [if_neg (Int.not_lt.mpr hlow)]
      constructor
      · intro helapsed
        exact ⟨hlow, helapsed⟩
      · rintro ⟨-, helapsed⟩
        exact helapsed
  simp only [Report.sends]
  cases h : (r.withPriority priority).due lib file with
  | false =>
      rw [reporter_not_due h]
      refine iff_of_false (fun hs => Bool.noConfusion hs) ?_
      rintro ⟨-, hspan⟩
      rw [hdue.mpr hspan] at h
      exact Bool.noConfusion h
  | true =>
      rw [(reporter_due h).2]
      constructor
      · intro hmail
        exact ⟨hmail, hdue.mp h⟩
      · intro hs
        exact hs.1

theorem spanElapsed_mono {lib : Advgetopt} {file : Option String} {now span span' : Int}
    (hle : span' ≤ span) (h : spanElapsed lib file now span = true) :
    spanElapsed lib file now span' = true := by
  simp only [spanElapsed] at h ⊢
  split at h
  · rfl
  · simp only [Bool.not_eq_true', decide_eq_false_iff_not] at h ⊢
    omega

/-- A graver pass is sent whenever a milder one is. -/
def UrgencyMonotone (lib : Advgetopt) (s : Server) : Prop :=
  ∀ (file : Option String) (r : Report), r.server = s → ∀ p q : Int, 0 ≤ p → p ≤ q → q ≤ 100 →
    r.sends lib file p = true → r.sends lib file q = true

theorem urgency_of_ordered {lib : Advgetopt} {s : Server} {t : Tiers}
    (ht : s.tiers lib = some t) (hord : t.Ordered) : UrgencyMonotone lib s := by
  rintro file r rfl p q - hpq - hp
  rw [sends_iff ht] at hp ⊢
  obtain ⟨hmail, hlow, helapsed⟩ := hp
  exact ⟨hmail, hlow.trans hpq, spanElapsed_mono (hord.span_antitone hlow hpq) helapsed⟩

/-- If urgency is monotone, the spans of the priorities that are reported do
not grow: at the end of the smaller priority's span only it would be sent. -/
theorem span_le_of_urgency {lib : Advgetopt} (hlib : lib.ReadsBack) {s : Server} {t : Tiers}
    (ht : s.tiers lib = some t) (hmail : s.MailSet) (hmono : UrgencyMonotone lib s) {p q : Int}
    (hp : 0 ≤ p) (hlow : t.low ≤ p) (hpq : p ≤ q) (hq : q ≤ 100) (hspan : 0 ≤ t.span p)
    (hfits : t.span p < 2 ^ 63) : t.span q ≤ t.span p := by
  have hlast : lastMailDate lib (some (toString (0 : Int))) = some 0 :=
    hlib 0 (le_refl 0) (by norm_num)
  have helapsed : ∀ span, spanElapsed lib (some (toString (0 : Int))) (t.span p) span = true ↔
      span ≤ t.span p := by
    intro span
    simp only [spanElapsed, hlast, Int.sub_zero]
    rw [int64_of_range (by omega) hfits]
    simp
  let r : Report := ⟨s, t.span p, 0, true, true, "", "", ""⟩
  have hsends : r.sends lib (some (toString (0 : Int))) p = true :=
    (sends_iff (r := r) ht p).mpr ⟨hmail, hlow, (helapsed _).mpr (le_refl _)⟩
  have hsends' := hmono _ r rfl p q hp hpq hq hsends
  exact (helapsed _).mp ((sends_iff (r := r) ht q).mp hsends').2.2

/-- **Urgency is monotone exactly when no address is set or the tiers are in
order**, in every state the settings of a server get into. -/
theorem urgency_iff (lib : Advgetopt) (hlib : lib.ReadsBack) (opts : Options)
    (calls : List SettingsCall) (t : Tiers)
    (ht : (final (settings lib) (Server.create opts) calls).tiers lib = some t) :
    UrgencyMonotone lib (final (settings lib) (Server.create opts) calls) ↔
      ¬ (final (settings lib) (Server.create opts) calls).MailSet ∨ t.Ordered := by
  have hs := settings_final lib opts calls
  generalize final (settings lib) (Server.create opts) calls = s at *
  constructor
  · intro hmono
    by_cases hmail : s.MailSet
    · refine Or.inr ?_
      obtain ⟨hlow, hmedium, cached, hcritical⟩ := tiers_eq_some ht
      obtain ⟨hl₁, hl₂, hl₃, hl₄⟩ := hs.lowPair_holds hlow
      obtain ⟨hm₁, hm₂, hm₃, hm₄⟩ := hs.mediumPair_holds hmedium
      obtain ⟨hc₁, hc₂, hc₃, hc₄⟩ := hs.criticalRead_holds hcritical
      have hc₀ : t.critical = cached ∨ t.critical = 0 := Server.criticalRead_priority hcritical
      simp only [PriorityOption.low, PriorityOption.medium, PriorityOption.critical] at *
      have hspans : ∀ p, 0 ≤ t.span p ∧ t.span p < 2 ^ 63 := by
        intro p
        simp only [Tiers.span]
        split
        · omega
        · split <;> omega
      have hle : ∀ p q : Int, t.low ≤ p → p ≤ q → q ≤ 100 → t.span q ≤ t.span p := by
        intro p q hp hpq hq
        exact span_le_of_urgency hlib ht hmail hmono (by omega) hp hpq hq
          (hspans p).1 (hspans p).2
      refine ⟨?_, ?_, ?_⟩
      · intro h₁ h₂
        have h := hle (max t.low t.medium) t.critical (by omega) (by omega) (by omega)
        rwa [Tiers.span, Tiers.span, if_pos (by omega), if_neg (by omega), if_pos (by omega)] at h
      · intro h₁ h₂
        have h := hle t.low t.medium (by omega) (by omega) (by omega)
        rwa [Tiers.span, Tiers.span, if_neg (by omega), if_pos (by omega), if_neg (by omega),
          if_neg (by omega)] at h
      · intro h₁ h₂
        have h := hle t.low t.critical (by omega) (by omega) (by omega)
        rwa [Tiers.span, Tiers.span, if_pos (by omega), if_neg (by omega), if_neg (by omega)] at h
    · exact Or.inl hmail
  · rintro (hmail | hord)
    · rintro file r rfl p q - - - hp
      exact absurd ((sends_iff ht p).mp hp).1 hmail
    · exact urgency_of_ordered ht hord

/-- The settings as they are shipped, with both addresses. -/
theorem urgency_defaults :
    let opts := Options.mail "a@x.net" "b@x.net"
    UrgencyMonotone .decimal (final (settings .decimal) (Server.create opts) [.lowPriority]) ↔
      ¬ (final (settings .decimal) (Server.create opts) [.lowPriority]).MailSet ∨
        Tiers.Ordered ⟨10, 604800, 50, 259200, 90, 86400⟩ :=
  urgency_iff .decimal Advgetopt.decimal_readsBack _ _ _ (by decide)

/-- Medium problems every hour, critical ones every day as shipped: an hour
after an email a medium pass is sent and a critical one is not. -/
theorem urgency_medium_every_hour :
    ¬ UrgencyMonotone .decimal (Server.create
      ((Options.mail "a@x.net" "b@x.net").replace "error_report_medium_priority" "50,3600")) := by
  intro hmono
  have hsent := hmono (some "1700000000")
    { Report.fresh ((Options.mail "a@x.net" "b@x.net").replace "error_report_medium_priority"
        "50,3600") 0 1700003600 with server := Server.create _ } rfl 50 90
    (by decide) (by decide) (by decide) (by decide)
  exact absurd hsent (by decide)

end Sitter
