/-
# `Sitter.CachePath` — the directory of the cache files

`get_cache_path` creates the directory the first time it is asked for a file in
it, and keeps the path once that has worked:

    f_cache_path is set      the path and the name
    mkdir_p succeeds         the same, and f_cache_path is set
    mkdir_p fails            no name at all, and f_cache_path stays empty

`mkdir_p` returns 0 when it succeeds, which is how `record_usage` calls it.
`get_cache_path` takes 0 for a failure, so that it does the opposite of this
from its first call on (`cachePath_iff`).  With the sense turned around every
run is right, unless the option is empty (`cachePath_turned`).
-/
import Sitter.Base.Machine
import Sitter.Server
import Mathlib.Data.List.Induction

namespace Sitter

open Machine

/-! ## The function -/

/-- A call for a file: its name, and what `mkdir_p` returns if it is called
now. -/
structure CacheCall where
  filename : String
  mkdirP : Int
  deriving DecidableEq, Repr

/-- What a call returns, and whether it has called `mkdir_p`. -/
structure CacheAnswer where
  path : String
  tried : Bool
  deriving DecidableEq, Repr

/-- `get_cache_path`; the state is `f_cache_path`. -/
def getCachePath (opts : Options) : Step String CacheCall CacheAnswer := fun cachePath call =>
  if cachePath = "" then
    let cachePath := opts.getString "cache_path"
    -- `!snapdev::mkdir_p(f_cache_path)`
    if call.mkdirP = 0 then ("", ⟨"", true⟩)
    else (cachePath, ⟨cachePath ++ "/" ++ call.filename, true⟩)
  else (cachePath, ⟨cachePath ++ "/" ++ call.filename, false⟩)

/-! ## What is asked of a call

A call is asked for a path if the directory was made, and for nothing
otherwise.  What `mkdir_p` returns on success is a parameter: the function
takes 0 for a failure. -/

/-- The call has created the directory, where `success` says what `mkdir_p`
returns if it has. -/
def Created (success : Int → Bool) (e : Event String CacheCall CacheAnswer) : Bool :=
  e.output.tried && success e.input.mkdirP

/-- A call after the calls `before`: it returns a name exactly if the directory
was created by it or by one of them, and it tries to create the directory
exactly if none of them has. -/
structure CacheRespected (success : Int → Bool) (path : String)
    (before : List (Event String CacheCall CacheAnswer))
    (e : Event String CacheCall CacheAnswer) : Prop where
  answer : e.output.path =
    if (before ++ [e]).any (Created success) then path ++ "/" ++ e.input.filename else ""
  tries : e.output.tried = !before.any (Created success)

/-- All the calls of a run, on a server that was just started. -/
def CachePathRespected (success : Int → Bool) (opts : Options) (calls : List CacheCall) : Prop :=
  ∀ before call after, calls = before ++ call :: after →
    CacheRespected success (opts.getString "cache_path") (trace (getCachePath opts) "" before)
      (event (getCachePath opts) (final (getCachePath opts) "" before) call)

/-- `mkdir_p` returns 0 on success. -/
def mkdirSucceeds (code : Int) : Bool := code == 0

/-- The sense `get_cache_path` takes it in. -/
def mkdirTaken (code : Int) : Bool := code != 0

section CachePath

variable {opts : Options}

theorem cacheName_ne (path filename : String) : path ++ "/" ++ filename ≠ "" := by
  intro h
  have hlist := congrArg String.toList h
  simp at hlist

/-- Until the path is set, a call goes by what it takes `mkdir_p` to say. -/
theorem getCachePath_unset (opts : Options) (call : CacheCall) :
    getCachePath opts "" call =
      if mkdirTaken call.mkdirP then
        (opts.getString "cache_path", ⟨opts.getString "cache_path" ++ "/" ++ call.filename, true⟩)
      else ("", ⟨"", true⟩) := by
  simp only [getCachePath, mkdirTaken, if_true]
  by_cases hcode : call.mkdirP = 0
  · simp only [hcode, if_true, bne_self_eq_false, Bool.false_eq_true, if_false]
  · simp only [hcode, if_false, bne_iff_ne, ne_eq, not_false_eq_true, if_true]

theorem getCachePath_set {cachePath : String} (h : cachePath ≠ "") (call : CacheCall) :
    getCachePath opts cachePath call =
      (cachePath, ⟨cachePath ++ "/" ++ call.filename, false⟩) :=
  if_neg h

/-- The first call is wrong whatever `mkdir_p` does. -/
theorem firstCall_wrong (call : CacheCall) :
    ¬ CacheRespected mkdirSucceeds (opts.getString "cache_path") []
      (event (getCachePath opts) "" call) := by
  rintro ⟨hanswer, -⟩
  have hname := cacheName_ne (opts.getString "cache_path") call.filename
  rw [event_output, getCachePath_unset, List.nil_append, List.any_cons, List.any_nil,
    Bool.or_false, Created, event_output, event_input, getCachePath_unset] at hanswer
  cases htaken : mkdirTaken call.mkdirP with
  | true =>
      have hfails : mkdirSucceeds call.mkdirP = false := by
        simpa [mkdirTaken, mkdirSucceeds] using htaken
      simp only [htaken, hfails, if_true, Bool.and_false, Bool.false_eq_true, if_false] at hanswer
      exact hname hanswer
  | false =>
      have hsucceeds : mkdirSucceeds call.mkdirP = true := by
        simpa [mkdirTaken, mkdirSucceeds] using htaken
      simp only [htaken, hsucceeds, if_true, Bool.and_true, Bool.false_eq_true, if_false] at hanswer
      exact hname hanswer.symm

/-- In the sense the code takes it, the path is kept from the call on that has
created the directory. -/
theorem cachePath_kept (hpath : opts.getString "cache_path" ≠ "") (calls : List CacheCall) :
    final (getCachePath opts) "" calls =
      if (trace (getCachePath opts) "" calls).any (Created mkdirTaken) then
        opts.getString "cache_path"
      else "" := by
  induction calls using List.reverseRecOn with
  | nil => rfl
  | append_singleton calls call ih =>
      rw [final_concat, trace_concat, List.any_append, ih, List.any_cons, List.any_nil,
        Bool.or_false, Created, event_output, event_input]
      cases (trace (getCachePath opts) "" calls).any (Created mkdirTaken) with
      | true => simp only [if_true, getCachePath_set hpath, Bool.true_or]
      | false =>
          simp only [Bool.false_eq_true, if_false, getCachePath_unset, Bool.false_or]
          cases mkdirTaken call.mkdirP <;> rfl

/-- **With the sense turned around every call of every run is right**, on a
server with a cache path. -/
theorem cachePath_turned (hpath : opts.getString "cache_path" ≠ "") (calls : List CacheCall) :
    CachePathRespected mkdirTaken opts calls := by
  rintro before call after -
  have hkept := cachePath_kept hpath before
  cases hcreated : (trace (getCachePath opts) "" before).any (Created mkdirTaken) with
  | true =>
      rw [hcreated, if_pos rfl] at hkept
      rw [hkept]
      refine ⟨?_, ?_⟩
      · rw [event_output, getCachePath_set hpath, List.any_append, hcreated]
        rfl
      · rw [event_output, getCachePath_set hpath, hcreated]
        rfl
  | false =>
      rw [hcreated, if_neg Bool.false_ne_true] at hkept
      rw [hkept]
      refine ⟨?_, ?_⟩
      · rw [List.any_append, hcreated, List.any_cons, List.any_nil, Created, event_output,
          event_input, getCachePath_unset]
        cases mkdirTaken call.mkdirP <;> rfl
      · rw [event_output, getCachePath_unset, hcreated]
        cases mkdirTaken call.mkdirP <;> rfl

end CachePath

/-- **No run with a call is right**: the first call already is not. -/
theorem cachePath_iff (opts : Options) (calls : List CacheCall) :
    CachePathRespected mkdirSucceeds opts calls ↔ calls = [] := by
  constructor
  · intro h
    cases calls with
    | nil => rfl
    | cons call calls => exact absurd (h [] call calls rfl) (firstCall_wrong call)
  · rintro rfl before call after h
    exact absurd h (by simp)

/-- The directory is there, and the call for the file of the last email gets no
name. -/
theorem cachePath_last_email :
    ¬ CachePathRespected mkdirSucceeds (Options.unset.replace "cache_path" "/var/cache/sitter")
      [⟨"last_email_time.txt", 0⟩] := by
  intro h
  exact absurd (h [] _ [] rfl).answer (by decide)

end Sitter
