/-
# `Sitter.LogParameters` — each parameter of a log definition and its own field

The documentation gives `path` and `pattern` to two things: where the logs are
and which of them.  The loader takes both from `path`; `pattern` is never read
(`define_place`).  So two files that differ in `path` only make definitions
that differ in their patterns too, and the patterns are those of `pattern`
exactly if both parameters have the same pieces (`parametersIndependent_iff`).

All other fields are the same for two files that differ in these two
parameters only (`define_agree`).
-/
import Sitter.LogMode

namespace Sitter

/-! ## What is expected -/

/-- The files are the same but for one parameter. -/
structure DifferOnlyIn (name : String) (file file' : LogFile) : Prop where
  filename : file'.filename = file.filename
  sections : file'.sections = file.sections
  params : ∀ p, p ≠ name → file'.params p = file.params p

namespace LogDefinition

/-- Another path, and other patterns with their flag. -/
def withPlace (path : String) (patterns : List String) (first : Bool) (d : LogDefinition) :
    LogDefinition :=
  { d with path, patterns, firstPattern := first }

/-- The definitions are the same but for `get_path()`. -/
def SameButPath (d d' : LogDefinition) : Prop :=
  d = d'.withPlace d.path d'.patterns d.firstPattern

/-- The definitions are the same but for `get_patterns()`. -/
def SameButPatterns (d d' : LogDefinition) : Prop :=
  d = d'.withPlace d'.path d.patterns d.firstPattern

/-- What `on_process_watch` has globbed. -/
def globs (d : LogDefinition) : List String := d.patterns.map fun p => d.path ++ "/" ++ p

theorem matchedFiles_eq (d : LogDefinition) (glob : String → List LogMatch) :
    d.matchedFiles glob = d.globs.flatMap glob := by
  rw [globs, List.flatMap_map, matchedFiles]

end LogDefinition

/-- The pieces of a parameter, or the default. -/
def patternsFrom (lib : Advgetopt) : Option String → List String
  | none => ["*.log"]
  | some text => lib.splitString text [":"]

def LogFile.documentedPatterns (lib : Advgetopt) (file : LogFile) : List String :=
  patternsFrom lib (file.params "pattern")

/-- The pieces of `path`, or the default if there is none. -/
def LogFile.pathPatterns (lib : Advgetopt) (file : LogFile) : List String :=
  if patternsFrom lib (file.params "path") = [] then ["*.log"]
  else patternsFrom lib (file.params "path")

structure ParametersIndependent (lib : Advgetopt) (file file' : LogFile) (d d' : LogDefinition) :
    Prop where
  path : DifferOnlyIn "path" file file' → (file.params "path").isSome = true →
    (file'.params "path").isSome = true → d.SameButPath d'
  pattern : DifferOnlyIn "pattern" file file' → d.SameButPatterns d'
  patterns : d.patterns = file.documentedPatterns lib ∧ d'.patterns = file'.documentedPatterns lib
  globs : (∀ glob, glob ∈ d.globs ↔
      ∃ piece ∈ file.documentedPatterns lib, glob = d.path ++ "/" ++ piece) ∧
    ∀ glob, glob ∈ d'.globs ↔
      ∃ piece ∈ file'.documentedPatterns lib, glob = d'.path ++ "/" ++ piece

/-! ## The parts of `load_config`

`path` and `pattern` are read in one place and the other parameters in others.
So an accepted file is a definition without a place, and its place. -/

namespace LogFile

variable (host : LogHost) (file : LogFile)

def define (name : String) : Except LogError LogDefinition :=
  (file.readMaxSize host (file.readTexts host name)).bind fun wl =>
    (file.readMode host wl).bind fun wl => file.readSearches wl file.sections

/-- The file without `path` and `pattern`. -/
def withoutPlace : LogFile :=
  { file with params := fun name => if name = "path" ∨ name = "pattern" then none
                                    else file.params name }

def pathOf : String := (file.params "path").getD "/var/log"

def noPattern : Bool := ((file.params "path").elim [] (host.lib.splitString · [":"])).isEmpty

end LogFile

section Load

variable {host : LogHost} {file : LogFile} {result : List LogDefinition} {d : LogDefinition}

theorem define_of_load (h : file.loadConfig host result = .ok (result ++ [d])) :
    ∃ name, file.params "name" = some name ∧ file.define host name = .ok d := by
  obtain ⟨name, hname, h⟩ := bind_eq_ok.mp h
  obtain ⟨wl, hsize, h⟩ := bind_eq_ok.mp h
  obtain ⟨wl', hmode, h⟩ := bind_eq_ok.mp h
  obtain ⟨wl'', hsearches, h⟩ := bind_eq_ok.mp h
  rw [Except.ok.injEq, List.append_cancel_left_eq, List.singleton_inj] at h
  subst h
  refine ⟨name, ?_, bind_eq_ok.mpr ⟨wl, hsize, bind_eq_ok.mpr ⟨wl', hmode, hsearches⟩⟩⟩
  rw [LogFile.readName] at hname
  split at hname
  · cases hname
  · next given hgiven =>
      split at hname
      · cases hname
      · split at hname
        · cases hname
        · rw [hgiven, Except.ok.inj hname]

theorem withoutPlace_params {name : String} (hpath : name ≠ "path") (hpattern : name ≠ "pattern") :
    file.withoutPlace.params name = file.params name :=
  if_neg (not_or.mpr ⟨hpath, hpattern⟩)

theorem foldl_addPattern (d : LogDefinition) (path : String) (patterns pieces : List String) :
    pieces.foldl LogDefinition.addPattern (d.withPlace path patterns false) =
      d.withPlace path (patterns ++ pieces) false := by
  induction pieces generalizing patterns with
  | nil => rw [List.foldl_nil, List.append_nil]
  | cons piece pieces ih =>
      have hadd : (d.withPlace path patterns false).addPattern piece =
          d.withPlace path (patterns ++ [piece]) false := rfl
      rw [List.foldl_cons, hadd, ih, ← List.append_cons]

/-- The patterns replace the default, if there is one. -/
theorem foldl_addPattern_first (d : LogDefinition) (path : String) (pieces : List String) :
    pieces.foldl LogDefinition.addPattern (d.withPlace path ["*.log"] true) =
      d.withPlace path (if pieces = [] then ["*.log"] else pieces) pieces.isEmpty := by
  cases pieces with
  | nil => rfl
  | cons piece pieces => exact foldl_addPattern d path [piece] pieces

/-- The texts are those without `path` and `pattern`, put in their place. -/
theorem readTexts_place (name : String) :
    file.readTexts host name = (file.withoutPlace.readTexts host name).withPlace file.pathOf
      (file.pathPatterns host.lib) (file.noPattern host) := by
  have hparams : ∀ p ∈ ["mandatory", "secure", "user_name", "group_name"],
      file.withoutPlace.params p = file.params p := by
    intro p hp
    simp only [List.mem_cons, List.not_mem_nil, or_false] at hp
    rcases hp with rfl | rfl | rfl | rfl <;>
      exact withoutPlace_params (by decide) (by decide)
  have hnone : file.withoutPlace.params "path" = none := by simp [LogFile.withoutPlace]
  simp only [LogFile.readTexts, hnone, hparams "mandatory" (by simp), hparams "secure" (by simp),
    hparams "user_name" (by simp), hparams "group_name" (by simp), LogFile.pathOf,
    LogFile.pathPatterns, LogFile.noPattern]
  cases file.params "path" with
  | none =>
      cases file.params "secure" <;> cases file.params "user_name" <;>
        cases file.params "group_name" <;> rfl
  | some path =>
      have hfold := fun d => foldl_addPattern_first d path (host.lib.splitString path [":"])
      cases file.params "secure" <;> cases file.params "user_name" <;>
        cases file.params "group_name"
      case none.none.none | some.none.none => exact hfold _
      case none.none.some group | some.none.some group =>
        exact congrArg (LogDefinition.setGroupName host group) (hfold _)
      case none.some.none user | some.some.none user =>
        exact congrArg (LogDefinition.setUserName host user) (hfold _)
      case none.some.some user group | some.some.some user group =>
        exact congrArg (fun d => (LogDefinition.setUserName host user d).setGroupName host group)
          (hfold _)

theorem readMaxSize_place (path : String) (patterns : List String) (first : Bool)
    (d : LogDefinition) :
    file.readMaxSize host (d.withPlace path patterns first) =
      (file.withoutPlace.readMaxSize host d).map (·.withPlace path patterns first) := by
  have hparam : file.withoutPlace.params "max_size" = file.params "max_size" :=
    withoutPlace_params (by decide) (by decide)
  rw [LogFile.readMaxSize, LogFile.readMaxSize, hparam]
  cases file.params "max_size" with
  | none => rfl
  | some text =>
      dsimp only
      cases host.size text <;> rfl

theorem readMode_place (path : String) (patterns : List String) (first : Bool)
    (d : LogDefinition) :
    file.readMode host (d.withPlace path patterns first) =
      (file.withoutPlace.readMode host d).map (·.withPlace path patterns first) := by
  have hparam : file.withoutPlace.params "mode" = file.params "mode" :=
    withoutPlace_params (by decide) (by decide)
  rw [LogFile.readMode, LogFile.readMode, hparam]
  cases file.params "mode" with
  | none => rfl
  | some text =>
      show (parseMode file.filename (host.trimString text)).map _ =
        ((parseMode file.filename (host.trimString text)).map _).map _
      cases parseMode file.filename (host.trimString text) <;> rfl

theorem regex_ne_pattern (sec : String) : sec ++ "::regex" ≠ "pattern" := by
  intro heq
  have hlist := congrArg String.toList heq
  rw [String.toList_append] at hlist
  have hend := congrArg List.getLast? hlist
  rw [List.getLast?_append_of_ne_nil _ (by decide)] at hend
  exact absurd hend (by decide)

theorem readSearches_place (path : String) (patterns : List String) (first : Bool)
    (sections : List String) (d : LogDefinition) :
    file.readSearches (d.withPlace path patterns first) sections =
      (file.withoutPlace.readSearches d sections).map (·.withPlace path patterns first) := by
  have hname : file.withoutPlace.filename = file.filename := rfl
  refine readSearches_map (g := fun d => d.withPlace path patterns first) hname (fun sec => ?_)
    (fun sec => ?_) (fun _ _ => rfl) sections d
  · exact withoutPlace_params (append_ne_of_length (by decide) sec) (regex_ne_pattern sec)
  · exact withoutPlace_params (append_ne_of_length (by decide) sec)
      (append_ne_of_length (by decide) sec)

/-- **A definition is that of the file without `path` and `pattern`, put where
`path` says.** -/
theorem define_place (name : String) :
    file.define host name = (file.withoutPlace.define host name).map
      (·.withPlace file.pathOf (file.pathPatterns host.lib) (file.noPattern host)) := by
  rw [LogFile.define, LogFile.define, readTexts_place, readMaxSize_place]
  cases file.withoutPlace.readMaxSize host (file.withoutPlace.readTexts host name) with
  | error e => rfl
  | ok wl =>
      show (file.readMode host _).bind _ = ((file.withoutPlace.readMode host wl).bind _).map _
      rw [readMode_place]
      cases file.withoutPlace.readMode host wl with
      | error e => rfl
      | ok wl => exact readSearches_place _ _ _ _ wl

end Load

/-! ## Two files -/

section Two

variable {host : LogHost} {file file' : LogFile} {result result' : List LogDefinition}
  {d d' : LogDefinition}

theorem DifferOnlyIn.withoutPlace_eq {name : String} (h : DifferOnlyIn name file file')
    (hname : name = "path" ∨ name = "pattern") : file'.withoutPlace = file.withoutPlace := by
  have hparams : file'.withoutPlace.params = file.withoutPlace.params := by
    funext p
    by_cases hp : p = "path" ∨ p = "pattern"
    · exact (if_pos hp).trans (if_pos hp).symm
    · have hne : p ≠ name := by
        rintro rfl
        exact hp hname
      exact (if_neg hp).trans ((h.params p hne).trans (if_neg hp).symm)
  rw [LogFile.withoutPlace, LogFile.withoutPlace, h.filename, h.sections]
  exact congrArg (LogFile.mk _ · _) hparams

theorem load_place (h : file.loadConfig host result = .ok (result ++ [d])) :
    d.path = file.pathOf ∧ d.patterns = file.pathPatterns host.lib := by
  obtain ⟨name, -, hdefine⟩ := define_of_load h
  rw [define_place] at hdefine
  cases hbase : file.withoutPlace.define host name with
  | error e =>
      rw [hbase] at hdefine
      cases hdefine
  | ok base =>
      rw [hbase] at hdefine
      obtain rfl := Except.ok.inj hdefine
      exact ⟨rfl, rfl⟩

/-- **Two files that differ in `path` or in `pattern` only make definitions
that are the same elsewhere.** -/
theorem define_agree {name : String} (hdiffer : DifferOnlyIn name file file')
    (hname : name = "path" ∨ name = "pattern")
    (h : file.loadConfig host result = .ok (result ++ [d]))
    (h' : file'.loadConfig host result' = .ok (result' ++ [d'])) :
    d = d'.withPlace d.path d.patterns d.firstPattern := by
  obtain ⟨given, hgiven, hdefine⟩ := define_of_load h
  obtain ⟨given', hgiven', hdefine'⟩ := define_of_load h'
  have hsame : given' = given := by
    have hne : "name" ≠ name := by rcases hname with rfl | rfl <;> decide
    rw [hdiffer.params "name" hne, hgiven] at hgiven'
    exact (Option.some.inj hgiven').symm
  rw [define_place, hdiffer.withoutPlace_eq hname, hsame] at hdefine'
  rw [define_place] at hdefine
  cases hbase : file.withoutPlace.define host given with
  | error e =>
      rw [hbase] at hdefine
      cases hdefine
  | ok base =>
      rw [hbase] at hdefine hdefine'
      obtain rfl := Except.ok.inj hdefine
      obtain rfl := Except.ok.inj hdefine'
      rfl

/-- **The parameters are independent exactly if both files have the same pieces
in `path` as in `pattern`.** -/
theorem parametersIndependent_iff (host : LogHost) (result result' : List LogDefinition)
    (h : file.loadConfig host result = .ok (result ++ [d]))
    (h' : file'.loadConfig host result' = .ok (result' ++ [d'])) :
    ParametersIndependent host.lib file file' d d' ↔
      file.pathPatterns host.lib = file.documentedPatterns host.lib ∧
        file'.pathPatterns host.lib = file'.documentedPatterns host.lib := by
  obtain ⟨hpath, hpatterns⟩ := load_place h
  obtain ⟨hpath', hpatterns'⟩ := load_place h'
  constructor
  · intro hind
    rw [← hpatterns, ← hpatterns']
    exact hind.patterns
  · rintro ⟨heq, heq'⟩
    rw [heq] at hpatterns
    rw [heq'] at hpatterns'
    constructor
    case path =>
      intro hdiffer _ _
      have hsame : d'.patterns = d.patterns := by
        rw [hpatterns, hpatterns', LogFile.documentedPatterns, LogFile.documentedPatterns,
          hdiffer.params "pattern" (by decide)]
      rw [LogDefinition.SameButPath, hsame]
      exact define_agree hdiffer (Or.inl rfl) h h'
    case pattern =>
      intro hdiffer
      have hsame : d'.path = d.path := by
        rw [hpath, hpath', LogFile.pathOf, LogFile.pathOf, hdiffer.params "path" (by decide)]
      rw [LogDefinition.SameButPatterns, hsame]
      exact define_agree hdiffer (Or.inr rfl) h h'
    case patterns => exact ⟨hpatterns, hpatterns'⟩
    case globs =>
      rw [← hpatterns, ← hpatterns']
      constructor <;> intro glob <;>
        simp only [LogDefinition.globs, List.mem_map, eq_comm (a := glob)]

end Two

def LogFile.ofPlace (path pattern : Option String) : LogFile where
  filename := "mail.conf"
  params name :=
    if name = "name" then some "mail" else if name = "path" then path
    else if name = "pattern" then pattern else none
  sections := []

/-- A path that is written like the pattern, in one piece or in two. -/
theorem parametersIndependent_same :
    ∃ d d', (LogFile.ofPlace (some "mail.log") (some "mail.log")).loadConfig .plain [] =
        .ok ([] ++ [d]) ∧
      (LogFile.ofPlace (some "mail.log:syslog") (some "mail.log:syslog")).loadConfig .plain [] =
        .ok ([] ++ [d']) ∧
      ParametersIndependent LogHost.plain.lib (.ofPlace (some "mail.log") (some "mail.log"))
        (.ofPlace (some "mail.log:syslog") (some "mail.log:syslog")) d d' :=
  ⟨_, _, rfl, rfl, (parametersIndependent_iff .plain [] [] rfl rfl).mpr
    ⟨by decide, by decide⟩⟩

/-- The patterns of a definition with a path are the path. -/
theorem parametersIndependent_path :
    ∃ d d', (LogFile.ofPlace (some "/srv") (some "*.log")).loadConfig .plain [] = .ok ([] ++ [d]) ∧
      (LogFile.ofPlace (some "/opt") (some "*.log")).loadConfig .plain [] = .ok ([] ++ [d']) ∧
      ¬ ParametersIndependent LogHost.plain.lib (.ofPlace (some "/srv") (some "*.log"))
        (.ofPlace (some "/opt") (some "*.log")) d d' := by
  refine ⟨_, _, rfl, rfl, ?_⟩
  intro h
  have hpatterns : ["/srv"] = ["*.log"] := h.patterns.1
  simp at hpatterns

end Sitter
