/-
# `Sitter.CertificateAccess` — certificates that cannot be loaded

A certificate may fail to load just once, so the first failure of a domain is
an error of priority 75 and only one that lasts for more than 5 hours is of
priority 100.  `f_access_error` has the time of the last of these errors:

    no time                        75, and the time is stored
    more than 18000 seconds ago    100, and the time is stored
    else                           nothing

A load that succeeds leaves the time where it is.  So a failure after a success
is measured from a failure before it: it is not a first failure again, and may
be of priority 100 at once.  What is right of a run is therefore right exactly
when the failures of the domain follow on each other (`certificateAccess_iff`).
-/
import Sitter.Base.Stretch
import Sitter.Certificate

namespace Sitter

open Machine

/-- A file the pattern selects declares the domain. -/
def CertificatePass.Checks (domain : String) (p : CertificatePass) : Prop :=
  ∃ f ∈ p.selected, f.config "domain" = some domain

def CertificatePass.fails (domain : String) (p : CertificatePass) : Bool :=
  (p.load domain).isNone

def failedLoading (domain : String) (priority : Int) : PluginAction :=
  certificateError (failedLoadingMessage domain) priority

/-! ## One domain

What a failure makes of the stored time, and the priority it raises. -/

def accessNext (last : Option Int) (now : Int) : Option Int :=
  if reportAccess last now > 0 then some now else last

def accessPriority (last : Option Int) (now : Int) : Option Int :=
  if reportAccess last now > 0 then some (if reportAccess last now > 1 then 100 else 75) else none

/-- In the pass it was reported a domain is not reported again. -/
theorem accessNext_reported (last : Option Int) (now : Int) :
    ¬ reportAccess (accessNext last now) now > 0 := by
  by_cases h : reportAccess last now > 0
  · have hzero : int64 (now - now) = 0 := by
      rw [sub_self]
      rfl
    rw [accessNext, if_pos h, reportAccess, hzero]
    decide
  · rw [accessNext, if_neg h]
    exact h

/-- After a failure there is a time. -/
theorem accessNext_isSome (last : Option Int) (now : Int) : (accessNext last now).isSome := by
  cases last with
  | none => rfl
  | some t =>
      simp only [accessNext]
      split <;> rfl

/-- A priority of 100 is for a stored time that is old. -/
theorem accessPriority_100 {last : Option Int} {now : Int}
    (h : accessPriority last now = some 100) :
    ∃ t, last = some t ∧ int64 (now - t) > 18000 := by
  cases last with
  | none =>
      have hfirst : accessPriority none now = some 75 := rfl
      rw [hfirst] at h
      exact absurd h (by decide)
  | some t =>
      refine ⟨t, rfl, ?_⟩
      by_contra hshort
      have hreport : reportAccess (some t) now = 0 := if_neg hshort
      rw [accessPriority, hreport] at h
      exact absurd h (by decide)

/-- With a stored time there is no first failure. -/
theorem accessPriority_75 {t now : Int} : accessPriority (some t) now ≠ some 75 := by
  by_cases hlong : int64 (now - t) > 3600 * 5
  · have hreport : reportAccess (some t) now = 2 := if_pos hlong
    rw [accessPriority, hreport]
    decide
  · have hreport : reportAccess (some t) now = 0 := if_neg hlong
    rw [accessPriority, hreport]
    decide

/-! ## The messages

The errors about the access are recognised by their messages, so the other
messages of the plugin have to differ from them. -/

theorem failedLoadingMessage_inj {d e : String}
    (h : failedLoadingMessage d = failedLoadingMessage e) : d = e :=
  (String.append_right_inj _).mp ((String.append_left_inj _).mp h)

/-- The character that tells the message of a failed load from the others. -/
theorem failedLoadingMessage_char (domain : String) :
    (failedLoadingMessage domain).toList[7]? = some 'l' :=
  getElem?_append_text _ (getElem?_append_text _ (by decide))

section Messages

variable (dateText : Timespec → String) (domain : String) (notAfter : Timespec)

theorem expiredMessage_char : (expiredMessage dateText domain notAfter).toList[7]? = some 'c' :=
  getElem?_append_text _ (getElem?_append_text _ (getElem?_append_text _
    (getElem?_append_text _ (by decide))))

theorem expiresMessage_char (diff : Int) :
    (expiresMessage dateText domain notAfter diff).toList[7]? = some 'c' :=
  getElem?_append_text _ (getElem?_append_text _ (getElem?_append_text _ (getElem?_append_text _
    (getElem?_append_text _ (getElem?_append_text _ (getElem?_append_text _
      (getElem?_append_text _ (by decide))))))))

theorem noDateMessage_char : (noDateMessage domain).toList[7]? = some 'g' :=
  getElem?_append_text _ (getElem?_append_text _ (by decide))

end Messages

/-- Messages with another character there are other messages. -/
theorem failedLoadingMessage_ne {domain message : String} {c : Char} (hc : c ≠ 'l')
    (h : message.toList[7]? = some c) : failedLoadingMessage domain ≠ message := by
  intro heq
  have hchar := failedLoadingMessage_char domain
  rw [heq, h] at hchar
  exact hc (Option.some.inj hchar)

/-! ## One file

A file about another domain leaves the stored time of this one alone, and a
domain is reported once in a pass. -/

section File

variable {dateText : Timespec → String} {delays : Std.TreeMap Int Int} {p : CertificatePass}
  {errors : AccessErrors} {domain : String}

theorem failedLoading_inj {d : String} {message : String} {priority priority' : Int} :
    failedLoading d priority = certificateError message priority' ↔
      failedLoadingMessage d = message ∧ priority = priority' := by
  simp only [failedLoading, certificateError, PluginAction.appendError.injEq, true_and]

theorem failedLoading_not_mem_expiry {d : String} {notAfter : Timespec} {today priority : Int} :
    failedLoading domain priority ∉ checkExpiry dateText d notAfter delays today := by
  simp only [checkExpiry]
  split
  · split
    · rw [List.mem_singleton, failedLoading_inj]
      exact fun h => failedLoadingMessage_ne (by decide) (expiredMessage_char _ _ _) h.1
    · split
      · exact List.not_mem_nil
      · rw [List.mem_singleton, failedLoading_inj]
        exact fun h => failedLoadingMessage_ne (by decide) (expiresMessage_char _ _ _ _) h.1
  · rw [List.mem_singleton, failedLoading_inj]
    exact fun h => failedLoadingMessage_ne (by decide) (noDateMessage_char _) h.1

/-- What is asked of a file that does nothing about the domain: it declares
another one, or the certificate loads, or its failure was reported just now. -/
def Quiet (p : CertificatePass) (domain : String) (errors : AccessErrors)
    (f : CertificateFile) : Prop :=
  f.config "domain" = some domain →
    p.fails domain = false ∨ ¬ reportAccess (errors domain) p.now > 0

theorem checkAccess_quiet {d : String}
    (hquiet : d = domain → ¬ reportAccess (errors domain) p.now > 0) :
    (checkAccess errors p.now d).1 domain = errors domain ∧
      ∀ priority, failedLoading domain priority ∉ (checkAccess errors p.now d).2 := by
  simp only [checkAccess]
  by_cases hreport : reportAccess (errors d) p.now > 0
  · have hne : domain ≠ d := by
      rintro rfl
      exact hquiet rfl hreport
    rw [if_pos hreport]
    refine ⟨Function.update_of_ne hne _ _, ?_⟩
    intro priority hmem
    rw [List.mem_singleton, failedLoading_inj] at hmem
    exact hne (failedLoadingMessage_inj hmem.1)
  · rw [if_neg hreport]
    exact ⟨rfl, fun _ => List.not_mem_nil⟩

theorem failedLoading_mem_cons {path : Document.Path} {value : Value} {priority : Int}
    {actions : List PluginAction} :
    failedLoading domain priority ∈ .set path value :: actions ↔
      failedLoading domain priority ∈ actions := by
  rw [List.mem_cons]
  exact or_iff_right PluginAction.noConfusion

theorem checkFile_quiet {f : CertificateFile} (hquiet : Quiet p domain errors f) :
    (checkFile dateText delays p errors f).1 domain = errors domain ∧
      ∀ priority, failedLoading domain priority ∉ (checkFile dateText delays p errors f).2 := by
  cases hd : f.config "domain" with
  | none =>
      simp only [checkFile, hd]
      exact ⟨trivial, fun _ => List.not_mem_nil⟩
  | some d =>
      cases hload : p.load d with
      | some notAfter =>
          simp only [checkFile, hd, hload, failedLoading_mem_cons]
          exact ⟨trivial, fun _ => failedLoading_not_mem_expiry⟩
      | none =>
          simp only [checkFile, hd, hload, failedLoading_mem_cons]
          refine checkAccess_quiet ?_
          rintro rfl
          refine (hquiet hd).resolve_left ?_
          rw [CertificatePass.fails, hload]
          decide

theorem checkFile_fails {f : CertificateFile} (hf : f.config "domain" = some domain)
    (hfails : p.fails domain = true) :
    (checkFile dateText delays p errors f).1 domain = accessNext (errors domain) p.now ∧
      ∀ priority, failedLoading domain priority ∈ (checkFile dateText delays p errors f).2 ↔
        accessPriority (errors domain) p.now = some priority := by
  have hload : p.load domain = none := Option.isNone_iff_eq_none.mp hfails
  simp only [checkFile, hf, hload, checkAccess, accessNext, accessPriority, failedLoading_mem_cons]
  by_cases hreport : reportAccess (errors domain) p.now > 0
  · simp only [if_pos hreport, Function.update_self, true_and, List.mem_singleton,
      failedLoading_inj, Option.some.injEq]
    exact fun priority => eq_comm
  · simp only [if_neg hreport, true_and]
    exact fun priority => iff_of_false List.not_mem_nil (Option.some_ne_none priority).symm

/-! ## One pass -/

theorem checkFiles_quiet {files : List CertificateFile}
    (hquiet : ∀ f ∈ files, Quiet p domain errors f) :
    (checkFiles dateText delays p errors files).1 domain = errors domain ∧
      ∀ priority, failedLoading domain priority ∉
        (checkFiles dateText delays p errors files).2 := by
  induction files generalizing errors with
  | nil => exact ⟨rfl, fun _ => List.not_mem_nil⟩
  | cons f files ih =>
      obtain ⟨hf, hfiles⟩ := List.forall_mem_cons.mp hquiet
      obtain ⟨hstate, hactions⟩ : (checkFile dateText delays p errors f).1 domain = _ ∧ _ :=
        checkFile_quiet hf
      obtain ⟨hstate', hactions'⟩ := @ih (checkFile dateText delays p errors f).1
        fun g hg hd => hstate ▸ hfiles g hg hd
      refine ⟨hstate'.trans hstate, ?_⟩
      intro priority hmem
      rcases List.mem_append.mp hmem with h | h
      · exact hactions priority h
      · exact hactions' priority h

/-- **A domain that fails is reported once in a pass**, however many files
declare it. -/
theorem checkFiles_fails {files : List CertificateFile} (hfails : p.fails domain = true)
    (hfiles : ∃ f ∈ files, f.config "domain" = some domain) :
    (checkFiles dateText delays p errors files).1 domain = accessNext (errors domain) p.now ∧
      ∀ priority, failedLoading domain priority ∈
          (checkFiles dateText delays p errors files).2 ↔
        accessPriority (errors domain) p.now = some priority := by
  induction files generalizing errors with
  | nil =>
      obtain ⟨f, hf, -⟩ := hfiles
      exact absurd hf List.not_mem_nil
  | cons f files ih =>
      by_cases hd : f.config "domain" = some domain
      · -- the first file that declares it; the others find it reported
        obtain ⟨hstate, hactions⟩ : (checkFile dateText delays p errors f).1 domain = _ ∧ _ :=
          checkFile_fails hd hfails
        have hquiet : ∀ g ∈ files, Quiet p domain (checkFile dateText delays p errors f).1 g := by
          intro g _ _
          rw [hstate]
          exact Or.inr (accessNext_reported _ _)
        obtain ⟨hstate', hactions'⟩ : (checkFiles dateText delays p
            (checkFile dateText delays p errors f).1 files).1 domain = _ ∧ _ :=
          checkFiles_quiet hquiet
        refine ⟨hstate'.trans hstate, ?_⟩
        intro priority
        rw [checkFiles, List.mem_append, or_iff_left (hactions' priority)]
        exact hactions priority
      · have hquiet : Quiet p domain errors f := fun h => absurd h hd
        obtain ⟨hstate, hactions⟩ : (checkFile dateText delays p errors f).1 domain = _ ∧ _ :=
          checkFile_quiet hquiet
        have hrest : ∃ g ∈ files, g.config "domain" = some domain := by
          obtain ⟨g, hg, hgd⟩ := hfiles
          rcases List.mem_cons.mp hg with rfl | hg
          · exact absurd hgd hd
          · exact ⟨g, hg, hgd⟩
        obtain ⟨hstate', hactions'⟩ := @ih (checkFile dateText delays p errors f).1 hrest
        rw [hstate] at hstate' hactions'
        refine ⟨hstate', ?_⟩
        intro priority
        rw [checkFiles, List.mem_append, or_iff_right (hactions priority)]
        exact hactions' priority

end File

/-! ## Runs

A pass in which the certificate loads leaves the stored time as it is.  So a
failure after it is taken for one that follows on the last failure. -/

/-- What is asked of a pass after the passes before it: an error of priority
100 stands for failures that go on for more than 5 hours, and a failure after a
success is reported as a first one. -/
structure AccessEscalates (domain : String) (before : List CertificatePass)
    (p : CertificatePass) (actions : List PluginAction) : Prop where
  persistent : failedLoading domain 100 ∈ actions →
    ∃ earlier q later, before ++ [p] = earlier ++ q :: later ∧
      (∀ r ∈ q :: later, r.fails domain = true) ∧ q.now + 18000 < p.now
  again : ∀ s, before.getLast? = some s → s.fails domain = false → p.fails domain = true →
    failedLoading domain 75 ∈ actions

/-- A failure that is not the first follows on a failure. -/
def FailsOn (domain : String) (before : List CertificatePass) (p : CertificatePass) : Prop :=
  p.fails domain = true → (∃ q ∈ before, q.fails domain = true) →
    ∃ s, before.getLast? = some s ∧ s.fails domain = true

section Runs

variable {lib : Advgetopt} {dateText : Timespec → String} {domain : String}
  {before : List CertificatePass} {p : CertificatePass}

theorem pass_access (hp : p.Checks domain) (errors : AccessErrors) :
    (onProcessWatchCertificate lib dateText errors p).1 domain =
        (if p.fails domain then accessNext (errors domain) p.now else errors domain) ∧
      ∀ priority, failedLoading domain priority ∈
          (onProcessWatchCertificate lib dateText errors p).2 ↔
        p.fails domain = true ∧ accessPriority (errors domain) p.now = some priority := by
  simp only [onProcessWatchCertificate]
  cases hfails : p.fails domain with
  | true =>
      obtain ⟨hstate, hactions⟩ : (checkFiles dateText (parseDelays lib p.server) p errors
          p.selected).1 domain = _ ∧ _ := checkFiles_fails hfails hp
      exact ⟨hstate, fun priority => (hactions priority).trans (and_iff_right rfl).symm⟩
  | false =>
      obtain ⟨hstate, hactions⟩ : (checkFiles dateText (parseDelays lib p.server) p errors
          p.selected).1 domain = _ ∧ _ := checkFiles_quiet fun f _ _ => Or.inl hfails
      exact ⟨hstate, fun priority => iff_of_false (hactions priority) fun h =>
        Bool.false_ne_true h.1⟩

/-- **There is no stored time before the first failure**, and one from it on. -/
theorem final_access_none (hbefore : ∀ q ∈ before, q.Checks domain) :
    final (onProcessWatchCertificate lib dateText) (fun _ => none) before domain = none ↔
      ∀ q ∈ before, q.fails domain = false := by
  induction before using List.reverseRecOn with
  | nil => exact iff_of_true rfl fun q hq => absurd hq List.not_mem_nil
  | append_singleton before p ih =>
      have hp := hbefore p List.mem_concat_self
      rw [final_concat, (pass_access hp _).1, List.forall_mem_append, List.forall_mem_singleton]
      cases hfails : p.fails domain with
      | true =>
          have hsome := accessNext_isSome
            (final (onProcessWatchCertificate lib dateText) (fun _ => none) before domain) p.now
          refine iff_of_false (Option.ne_none_iff_isSome.mpr hsome) ?_
          exact fun h => Bool.false_ne_true h.2.symm
      | false =>
          have hrest := ih fun q hq => hbefore q (List.mem_append_left _ hq)
          simpa using hrest

/-- **Where failures follow on each other, the stored time is that of a pass of
the stretch of failures.** -/
theorem final_access_time (hbefore : ∀ q ∈ before, q.Checks domain)
    (hon : ∀ earlier q later, before = earlier ++ q :: later → FailsOn domain earlier q) {t : Int}
    (htime : final (onProcessWatchCertificate lib dateText) (fun _ => none) before domain = some t)
    (hlast : ∃ s, before.getLast? = some s ∧ s.fails domain = true) :
    ∃ q ∈ stretch (CertificatePass.fails domain) before, q.now = t := by
  induction before using List.reverseRecOn generalizing t with
  | nil =>
      obtain ⟨s, hs, -⟩ := hlast
      exact absurd hs.symm (Option.some_ne_none s)
  | append_singleton before p ih =>
      have hp := hbefore p List.mem_concat_self
      have hbefore' : ∀ q ∈ before, q.Checks domain :=
        fun q hq => hbefore q (List.mem_append_left _ hq)
      have hfails : p.fails domain = true := by
        obtain ⟨s, hs, hfails⟩ := hlast
        rw [List.getLast?_concat, Option.some.injEq] at hs
        exact hs ▸ hfails
      rw [final_concat, (pass_access hp _).1, if_pos hfails, accessNext] at htime
      rw [stretch_concat_on hfails]
      split at htime
      · exact ⟨p, List.mem_concat_self, Option.some.inj htime⟩
      · have hearlier : ∃ q ∈ before, q.fails domain = true := by
          by_contra hnone
          rw [(final_access_none hbefore').mpr (by simpa using hnone)] at htime
          exact absurd htime.symm (Option.some_ne_none t)
        obtain ⟨q, hq, hnow⟩ := ih hbefore'
          (fun earlier q later hsplit => hon earlier q (later ++ [p]) (by rw [hsplit]; simp))
          htime (hon before p [] rfl hfails hearlier)
        exact ⟨q, List.mem_append_left _ hq, hnow⟩

theorem escalates_of_failsOn (hp : p.Checks domain) (hbefore : ∀ q ∈ before, q.Checks domain)
    (hon : ∀ earlier q later, before ++ [p] = earlier ++ q :: later → FailsOn domain earlier q) :
    AccessEscalates domain before p (onProcessWatchCertificate lib dateText
      (final (onProcessWatchCertificate lib dateText) (fun _ => none) before) p).2 := by
  have hbefore_on : ∀ earlier q later, before = earlier ++ q :: later → FailsOn domain earlier q :=
    fun earlier q later hsplit => hon earlier q (later ++ [p]) (by rw [hsplit]; simp)
  constructor
  · intro hmem
    obtain ⟨hfails, hpriority⟩ := ((pass_access hp _).2 100).mp hmem
    obtain ⟨t, ht, hlong⟩ := accessPriority_100 hpriority
    have hearlier : ∃ q ∈ before, q.fails domain = true := by
      by_contra hnone
      rw [(final_access_none hbefore).mpr (by simpa using hnone)] at ht
      exact absurd ht.symm (Option.some_ne_none t)
    have hlast := hon before p [] rfl hfails hearlier
    obtain ⟨q, hq, rfl⟩ := final_access_time hbefore hbefore_on ht hlast
    obtain ⟨earlier, later, hsplit, hall⟩ := stretch_split hq
    have hexact : int64 (p.now - q.now) = p.now - q.now := by
      obtain ⟨hp₀, hp₁⟩ := p.isTime
      obtain ⟨hq₀, hq₁⟩ := q.isTime
      exact int64_of_range (by omega) (by omega)
    refine ⟨earlier, q, later ++ [p], by rw [hsplit]; simp, ?_, by omega⟩
    intro r hr
    rcases List.mem_cons.mp hr with rfl | hr
    · exact hall r List.mem_cons_self
    · rcases List.mem_append.mp hr with hr | hr
      · exact hall r (List.mem_cons_of_mem _ hr)
      · exact List.mem_singleton.mp hr ▸ hfails
  · intro s hs hloads hfails
    have hnone : ∀ q ∈ before, q.fails domain = false := by
      by_contra hsome
      obtain ⟨s', hs', hfails'⟩ := hon before p [] rfl hfails (by simpa using hsome)
      obtain rfl := Option.some.inj (hs.symm.trans hs')
      exact Bool.false_ne_true (hloads.symm.trans hfails')
    refine ((pass_access hp _).2 75).mpr ⟨hfails, ?_⟩
    rw [(final_access_none hbefore).mpr hnone]
    rfl

/-- A failure after a success that came after a failure is not reported as a
first one. -/
theorem failsOn_of_escalates (hp : p.Checks domain) (hbefore : ∀ q ∈ before, q.Checks domain)
    (h : AccessEscalates domain before p (onProcessWatchCertificate lib dateText
      (final (onProcessWatchCertificate lib dateText) (fun _ => none) before) p).2) :
    FailsOn domain before p := by
  rintro hfails ⟨q, hq, hqfails⟩
  obtain ⟨s, hs⟩ : ∃ s, before.getLast? = some s :=
    ⟨_, List.getLast?_eq_some_getLast (List.ne_nil_of_mem hq)⟩
  refine ⟨s, hs, ?_⟩
  by_contra hloads
  have hmem := h.again s hs (Bool.eq_false_iff.mpr hloads) hfails
  obtain ⟨-, hpriority⟩ := ((pass_access hp _).2 75).mp hmem
  cases ht : final (onProcessWatchCertificate lib dateText) (fun _ => none) before domain with
  | none =>
      have hnone := (final_access_none hbefore).mp ht q hq
      exact Bool.false_ne_true (hnone.symm.trans hqfails)
  | some t =>
      rw [ht] at hpriority
      exact accessPriority_75 hpriority

end Runs

/-- **The access errors of a domain escalate as they should in exactly the runs
in which its failures follow on each other.** -/
theorem certificateAccess_iff (lib : Advgetopt) (dateText : Timespec → String) (domain : String)
    (passes : List CertificatePass) (hchecks : ∀ p ∈ passes, p.Checks domain) :
    (∀ before p after, passes = before ++ p :: after →
      AccessEscalates domain before p (onProcessWatchCertificate lib dateText
        (final (onProcessWatchCertificate lib dateText) (fun _ => none) before) p).2) ↔
      ∀ before p after, passes = before ++ p :: after → FailsOn domain before p := by
  have hpass : ∀ {before p after}, passes = before ++ p :: after →
      p.Checks domain ∧ ∀ q ∈ before, q.Checks domain := by
    rintro before p after rfl
    exact ⟨hchecks p (by simp), fun q hq => hchecks q (by simp [hq])⟩
  constructor
  · intro h before p after hsplit
    obtain ⟨hp, hbefore⟩ := hpass hsplit
    exact failsOn_of_escalates hp hbefore (h before p after hsplit)
  · intro hon before p after hsplit
    obtain ⟨hp, hbefore⟩ := hpass hsplit
    refine escalates_of_failsOn hp hbefore ?_
    intro earlier q later hsplit'
    exact hon earlier q (later ++ after) (by rw [hsplit, ← List.singleton_append,
      ← List.append_assoc, hsplit', List.append_assoc, List.cons_append])

/-- A pass over one certificate, which loads or does not. -/
def accessPass (now : Nat) (hnow : now < 2 ^ 63) (loads : Bool) : CertificatePass where
  server := Server.create Options.unset
  now := now
  directory _ := [⟨"10-9]-example.conf", fun n => if n = "domain" then some "example.com" else none⟩]
  load _ := if loads then some ⟨0, 0⟩ else none
  isTime := ⟨by omega, by omega⟩

theorem accessPass_checks (now : Nat) (hnow : now < 2 ^ 63) (loads : Bool) :
    (accessPass now hnow loads).Checks "example.com" :=
  ⟨_, List.mem_filter.mpr ⟨List.mem_cons_self, by decide⟩, rfl⟩

/-- The second of two failures, 5 hours after the first. -/
theorem certificateAccess_two_failures :
    AccessEscalates "example.com" [accessPass 60 (by decide) false]
      (accessPass 20000 (by decide) false) (onProcessWatchCertificate .decimal (fun _ => "")
        (final (onProcessWatchCertificate .decimal fun _ => "") (fun _ => none)
          [accessPass 60 (by decide) false]) (accessPass 20000 (by decide) false)).2 := by
  refine (certificateAccess_iff .decimal (fun _ => "") "example.com"
    [accessPass 60 (by decide) false, accessPass 20000 (by decide) false] ?_).mpr ?_ _ _ [] rfl
  · simp only [List.forall_mem_cons]
    exact ⟨accessPass_checks _ _ _, accessPass_checks _ _ _,
      fun p hp => absurd hp List.not_mem_nil⟩
  · intro before p after hsplit hfails hearlier
    rcases before with _ | ⟨a, _ | ⟨b, before⟩⟩
    · obtain ⟨q, hq, -⟩ := hearlier
      exact absurd hq List.not_mem_nil
    · cases hsplit
      exact ⟨_, rfl, rfl⟩
    · have hlength := congrArg List.length hsplit
      simp at hlength

/-- A failure, a success, and 5 hours later a failure of priority 100. -/
theorem certificateAccess_success_between :
    ¬ ∀ before p after, [accessPass 60 (by decide) false, accessPass 3600 (by decide) true,
        accessPass 20000 (by decide) false] = before ++ p :: after →
      AccessEscalates "example.com" before p (onProcessWatchCertificate .decimal (fun _ => "")
        (final (onProcessWatchCertificate .decimal fun _ => "") (fun _ => none) before) p).2 := by
  intro hall
  have hescalates := hall [accessPass 60 (by decide) false, accessPass 3600 (by decide) true]
    (accessPass 20000 (by decide) false) [] rfl
  have hbefore : ∀ q ∈ [accessPass 60 (by decide) false, accessPass 3600 (by decide) true],
      q.Checks "example.com" := by
    simp only [List.forall_mem_cons]
    exact ⟨accessPass_checks _ _ _, accessPass_checks _ _ _, fun p hp => absurd hp List.not_mem_nil⟩
  obtain ⟨s, hs, hfails⟩ := failsOn_of_escalates (accessPass_checks _ _ _) hbefore hescalates rfl
    ⟨_, List.mem_cons_self, rfl⟩
  cases hs
  exact absurd hfails (by decide)

end Sitter
