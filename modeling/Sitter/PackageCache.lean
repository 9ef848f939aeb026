/-
# `Sitter.PackageCache` — the installation statuses, and how old they get

`is_package_installed` has three layers to answer from:

    g_installed_packages      a map of the process, never cleared
    package-statuses.txt      read into the map at the first question
    dpkg-query                asked for a name that is not in the map

A pass that asked dpkg-query marks the map as modified, for good, and writes it
out at its end.  The daily cron job removes the file, so that the statuses get
determined anew; the map it was written from stays.

After a removal the first pass tells the truth exactly when the map agrees with
dpkg-query on what the pass asks about, and the file it writes holds only new
statuses exactly when the map does (`refresh_iff`).
-/
import Sitter.Packages

namespace Sitter

open Machine

/-! ## The file -/

/-- One line of the file: a name that is not empty, `=`, and `t` for an
installed package. -/
def readStatus (line : List Char) : Option (String × Bool) :=
  match line.dropWhile (· ≠ '=') with
  | [] => none
  | _ :: value =>
      let name := line.takeWhile (· ≠ '=')
      if name = [] then none else some (String.ofList name, decide (value = ['t']))

/-- The loop over the lines of the file. -/
def readStatuses (content : String) : List (String × Bool) :=
  (content.toList.splitOnP (· == '\n')).filterMap readStatus

/-- One line of `save_cache`. -/
def statusLine (p : String × Bool) : String :=
  p.1 ++ "=" ++ (if p.2 then "t" else "f") ++ "\n"

/-! ## Questions

A pass asks for the status of each package it meets.  `is_package_installed`
answers from the map and asks dpkg-query otherwise, so a pass is a run of a
memo table. -/

/-- `g_installed_packages`, `g_cache_loaded` and `g_cache_modified`. -/
structure PackageStatuses where
  installed : Std.TreeMap String Bool
  loaded : Bool
  modified : Bool

namespace PackageStatuses

def start : PackageStatuses := ⟨∅, false, false⟩

/-- The file is read into the map, once. -/
def load (file : Option String) (s : PackageStatuses) : PackageStatuses :=
  if s.loaded then s
  else
    let entries := (file.map readStatuses).getD []
    { s with
      installed := entries.foldl (fun m p => m.insert p.1 p.2) s.installed
      loaded := true }

/-- `save_cache`: the text of the map, if it was modified. -/
def save (writable : Bool) (s : PackageStatuses) (file : Option String) : Option String :=
  if s.modified then
    writeAll writable file (String.join (s.installed.toList.map statusLine))
  else file

/-- The map as a table of answers; a new one marks it as modified. -/
def table : Ask.Table PackageStatuses String Bool where
  lookup s name := s.installed[name]?
  insert s name result :=
    { s with installed := s.installed.insert name result, modified := true }
  lookup_insert s k v j := by
    rw [Std.TreeMap.getElem?_insert]
    simp only [Std.compare_eq_iff_eq]
    exact if_congr eq_comm rfl rfl

end PackageStatuses

/-- What `dpkg-query` does for a name: the exit code, and the trimmed output. -/
abbrev DpkgQuery := String → Int × String

/-- The status `dpkg-query` reports. -/
def DpkgQuery.status (dpkg : DpkgQuery) (name : String) : Bool :=
  (dpkg name).1 == 0 && (dpkg name).2 == "install ok installed"

/-- `is_package_installed`: the file is read first, if it was not; a name that
is not in the map is asked of `dpkg-query`. -/
def isPackageInstalled (file : Option String) (dpkg : DpkgQuery) (name : String)
    (s : PackageStatuses) : Bool × PackageStatuses :=
  let s := s.load file
  match s.installed[name]? with
  | some result => (result, s)
  | none =>
      let result := dpkg.status name
      -- cache the result in case the same package is checked multiple times...
      (result, { s with installed := s.installed.insert name result, modified := true })

/-- `is_package_installed` is a memo table behind the load. -/
theorem isPackageInstalled_memo (file : Option String) (dpkg : DpkgQuery) (name : String)
    (s : PackageStatuses) :
    isPackageInstalled file dpkg name s =
      Ask.memo PackageStatuses.table dpkg.status name (s.load file) := by
  simp only [isPackageInstalled, Ask.memo, PackageStatuses.table]
  split
  · next h => rw [h]
  · next h => rw [h]

/-! ### What a pass does to the map -/

namespace PackageStatuses

def knows (s : PackageStatuses) (name : String) : Bool := (s.installed[name]?).isSome

variable {s : PackageStatuses} {file : Option String} {dpkg : DpkgQuery} {α : Type}
  {t : Ask String Bool α}

theorem load_of_loaded (h : s.loaded = true) : s.load file = s := if_pos h

theorem load_loaded (file : Option String) (s : PackageStatuses) :
    (s.load file).loaded = true := by
  simp only [load]
  split
  · next h => exact h
  · rfl

theorem load_modified (file : Option String) (s : PackageStatuses) :
    (s.load file).modified = s.modified := by
  simp only [load]
  split <;> rfl

theorem load_none_installed (s : PackageStatuses) : (s.load none).installed = s.installed := by
  simp only [load]
  split <;> rfl

theorem memo_loaded (f : String → Bool) (name : String) (s : PackageStatuses) :
    (Ask.memo table f name s).2.loaded = s.loaded := by
  simp only [Ask.memo]
  split <;> rfl

theorem exec_of_loaded (file : Option String) (dpkg : DpkgQuery) (t : Ask String Bool α)
    (h : s.loaded = true) :
    t.exec (isPackageInstalled file dpkg) s = t.exec (Ask.memo table dpkg.status) s ∧
      t.answers (isPackageInstalled file dpkg) s = t.answers (Ask.memo table dpkg.status) s ∧
      (t.exec (Ask.memo table dpkg.status) s).2.loaded = true := by
  induction t generalizing s with
  | answer a => exact ⟨rfl, rfl, h⟩
  | ask k next ih =>
      have hstep : isPackageInstalled file dpkg k s = Ask.memo table dpkg.status k s := by
        rw [isPackageInstalled_memo, load_of_loaded h]
      simp only [Ask.exec, Ask.answers, hstep]
      obtain ⟨hexec, hanswers, hend⟩ :=
        ih (Ask.memo table dpkg.status k s).1 ((memo_loaded dpkg.status k s).trans h)
      exact ⟨hexec, congrArg _ hanswers, hend⟩

/-- **A pass is a run of the memo table, from the loaded map.**  A pass that
asks nothing leaves even the file unread. -/
theorem exec_memo (file : Option String) (dpkg : DpkgQuery) (t : Ask String Bool α)
    (s : PackageStatuses) :
    t.answers (isPackageInstalled file dpkg) s =
        t.answers (Ask.memo table dpkg.status) (s.load file) ∧
      (t.exec (isPackageInstalled file dpkg) s).1 =
        (t.exec (Ask.memo table dpkg.status) (s.load file)).1 ∧
      ((t.answers (isPackageInstalled file dpkg) s = [] ∧
          (t.exec (isPackageInstalled file dpkg) s).2 = s) ∨
        ((t.exec (isPackageInstalled file dpkg) s).2.loaded = true ∧
          (t.exec (isPackageInstalled file dpkg) s).2 =
            (t.exec (Ask.memo table dpkg.status) (s.load file)).2)) := by
  cases t with
  | answer a => exact ⟨rfl, rfl, Or.inl ⟨rfl, rfl⟩⟩
  | ask k next =>
      have hloaded : (Ask.memo table dpkg.status k (s.load file)).2.loaded = true :=
        (memo_loaded _ k _).trans (load_loaded file s)
      obtain ⟨hexec, hanswers, hend⟩ := exec_of_loaded file dpkg
        (next (Ask.memo table dpkg.status k (s.load file)).1) hloaded
      simp only [Ask.exec, Ask.answers, isPackageInstalled_memo, hexec, hanswers]
      exact ⟨trivial, trivial, Or.inr ⟨hend, trivial⟩⟩

/-- The map is marked when a name was new. -/
theorem memo_modified (f : String → Bool) (t : Ask String Bool α) (s : PackageStatuses) :
    (t.exec (Ask.memo table f) s).2.modified = true ↔
      s.modified = true ∨
        ∃ n ∈ (t.answers (Ask.memo table f) s).map Prod.fst, s.knows n = false := by
  induction t generalizing s with
  | answer a => simp [Ask.exec, Ask.answers]
  | ask k next ih =>
      simp only [Ask.exec, Ask.answers, List.map_cons, List.exists_mem_cons_iff]
      rw [ih]
      cases h : table.lookup s k with
      | some v =>
          have hknown : s.knows k = true := by
            rw [knows, show s.installed[k]? = some v from h]
            rfl
          simp only [Ask.memo_hit h, hknown, Bool.true_eq_false, false_or]
      | none =>
          have hnew : s.knows k = false := by
            rw [knows, show s.installed[k]? = none from h]
            rfl
          simp only [Ask.memo_miss h, hnew, true_or, or_true, iff_true]
          exact Or.inl rfl

end PackageStatuses

/-! ## The daemon's passes and the cron job's removals

The cron job removes the file so that the next pass asks again.  The map in
memory is never cleared, so a daemon that has read it goes on with what it
knows. -/

/-- What one pass of the plugin meets. -/
structure PackagesPass where
  files : List ConfFile
  dpkg : DpkgQuery
  readable : Bool
  writable : Bool

inductive PackagesCall where
  | pass (p : PackagesPass)
  | remove

/-- The process and the file.  `determined` is no part of the program: the
names dpkg-query was asked for since the file was last removed, if it was. -/
structure PackagesState where
  statuses : PackageStatuses
  file : Option String
  running : Bool
  determined : Option (List String)

def PackagesState.start (file : Option String) : PackagesState := ⟨.start, file, true, none⟩

/-- What a pass used, and whether it wrote the file. -/
structure PassStatuses where
  used : List (String × Bool)
  saved : Bool

/-- The names a pass asked dpkg-query for: those that were not in the map. -/
def PackageStatuses.asksFor (s : PackageStatuses) (used : List (String × Bool)) : List String :=
  (used.map Prod.fst).filter fun name => !s.knows name

/-- One pass, or one removal.  A pass that throws does not write, and is the
last one. -/
def packagesDaemon (lib : Advgetopt) (snapdev : Snapdev) :
    Step PackagesState PackagesCall (Option PassStatuses) := fun st call =>
  match call with
  | .remove => ({ st with file := none, determined := some [] }, none)
  | .pass p =>
      if st.running = false then (st, none)
      else
        match onProcessWatchPackages lib snapdev p.files with
        | .error _ => ({ st with running := false }, none)
        | .ok watch =>
            let file := readAll p.readable st.file
            let query := isPackageInstalled file p.dpkg
            let r := watch.exec query st.statuses
            let used := watch.answers query st.statuses
            let determined := st.determined.map (· ++ (st.statuses.load file).asksFor used)
            if ∀ a ∈ r.1, a.Accepted then
              (⟨r.2, r.2.save p.writable st.file, true, determined⟩,
                some ⟨used, r.2.modified && p.writable⟩)
            else (⟨r.2, st.file, false, determined⟩, some ⟨used, false⟩)

/-- What is asked of a pass.  If it begins with the file absent, it uses the
statuses that dpkg-query reports; and what it writes after a removal was
determined after that removal. -/
def Refreshed (e : Event PackagesState PackagesCall (Option PassStatuses)) : Prop :=
  ∀ p out, e.input = .pass p → e.output = some out →
    (e.before.file = none → ∀ a ∈ out.used, a.2 = p.dpkg.status a.1) ∧
      (∀ names, e.after.determined = some names → out.saved = true →
        ∀ n, e.after.statuses.knows n = true → n ∈ names)

/-- The map a pass without a file starts from.  It agrees with dpkg-query on
what the pass asks about; and if the pass is going to write it, being marked or
lacking a name the pass asks about, it holds only what was determined since the
removal. -/
def StartsOver (lib : Advgetopt) (snapdev : Snapdev)
    (e : Event PackagesState PackagesCall (Option PassStatuses)) : Prop :=
  ∀ p watch, e.input = .pass p → e.before.running = true →
    onProcessWatchPackages lib snapdev p.files = .ok watch → e.before.file = none →
      (∀ n ∈ watch.asked p.dpkg.status, ∀ v, e.before.statuses.installed[n]? = some v →
        v = p.dpkg.status n) ∧
      (∀ names, e.before.determined = some names → p.writable = true →
        (∀ a ∈ watch.run p.dpkg.status, a.Accepted) →
        (e.before.statuses.modified = true ∨
          ∃ n ∈ watch.asked p.dpkg.status, e.before.statuses.knows n = false) →
        ∀ n, e.before.statuses.knows n = true → n ∈ names)

/-- What is known before every step. -/
structure PackagesState.Ok (st : PackagesState) : Prop where
  loaded : st.statuses.modified = true → st.statuses.loaded = true
  unread : ∀ names, st.determined = some names → st.statuses.loaded = false → st.file = none
  written : ∀ names, st.determined = some names → st.file ≠ none →
    ∀ n, st.statuses.knows n = true → n ∈ names

/-! ### One pass -/

section Pass

variable {st : PackagesState} {dpkg : DpkgQuery} {file : Option String}
  {watch : Ask String Bool (List PluginAction)}

/-- After a removal there is nothing left to load. -/
theorem load_knows (hok : st.Ok) {names : List String} (hnames : st.determined = some names)
    (readable : Bool) (n : String) :
    (st.statuses.load (readAll readable st.file)).knows n = st.statuses.knows n := by
  cases hloaded : st.statuses.loaded with
  | true => rw [PackageStatuses.load_of_loaded hloaded]
  | false =>
      rw [hok.unread names hnames hloaded, readAll_none, PackageStatuses.knows,
        PackageStatuses.load_none_installed]
      rfl

/-- The names in the map after a pass. -/
theorem exec_knows (h : ∀ n, (st.statuses.load file).knows n = st.statuses.knows n) (n : String) :
    (watch.exec (isPackageInstalled file dpkg) st.statuses).2.knows n = true ↔
      st.statuses.knows n = true ∨
        n ∈ (watch.answers (isPackageInstalled file dpkg) st.statuses).map Prod.fst := by
  obtain ⟨hanswers, -, ⟨hnone, hend⟩ | ⟨-, hend⟩⟩ :=
    PackageStatuses.exec_memo file dpkg watch st.statuses
  · rw [hend, hnone]
    simp
  · rw [hend, hanswers, ← h n]
    exact Ask.memo_lookup_end (T := PackageStatuses.table) n

/-- When the map is marked after a pass. -/
theorem exec_modified (h : ∀ n, (st.statuses.load file).knows n = st.statuses.knows n) :
    (watch.exec (isPackageInstalled file dpkg) st.statuses).2.modified = true ↔
      st.statuses.modified = true ∨
        ∃ n ∈ (watch.answers (isPackageInstalled file dpkg) st.statuses).map Prod.fst,
          st.statuses.knows n = false := by
  obtain ⟨hanswers, -, ⟨hnone, hend⟩ | ⟨-, hend⟩⟩ :=
    PackageStatuses.exec_memo file dpkg watch st.statuses
  · rw [hend, hnone]
    simp
  · rw [hend, hanswers, PackageStatuses.memo_modified, PackageStatuses.load_modified]
    simp only [h]

/-- A pass that leaves the file unread has asked nothing. -/
theorem exec_unread
    (h : (watch.exec (isPackageInstalled file dpkg) st.statuses).2.loaded = false) :
    (watch.exec (isPackageInstalled file dpkg) st.statuses).2 = st.statuses := by
  obtain ⟨-, -, ⟨-, hend⟩ | ⟨hloaded, -⟩⟩ :=
    PackageStatuses.exec_memo file dpkg watch st.statuses
  · exact hend
  · rw [h] at hloaded
    nomatch hloaded

/-- **Without the file, a pass uses the right statuses exactly when the map
agrees with dpkg-query** on what the pass asks about. -/
theorem exec_right_iff :
    (∀ a ∈ watch.answers (isPackageInstalled none dpkg) st.statuses, a.2 = dpkg.status a.1) ↔
      ∀ n ∈ watch.asked dpkg.status, ∀ v, st.statuses.installed[n]? = some v →
        v = dpkg.status n := by
  rw [(PackageStatuses.exec_memo none dpkg watch st.statuses).1, Ask.memo_right_iff]
  simp only [PackageStatuses.table, PackageStatuses.load_none_installed]

theorem packagesDaemon_pass {lib : Advgetopt} {snapdev : Snapdev} {p : PackagesPass}
    (hrun : st.running = true)
    (hload : onProcessWatchPackages lib snapdev p.files = .ok watch) :
    let query := isPackageInstalled (readAll p.readable st.file) p.dpkg
    let r := watch.exec query st.statuses
    let used := watch.answers query st.statuses
    let next := packagesDaemon lib snapdev st (.pass p)
    next.1.statuses = r.2 ∧
      next.1.determined = st.determined.map
        (· ++ (st.statuses.load (readAll p.readable st.file)).asksFor used) ∧
      ∃ saved, next.2 = some ⟨used, saved⟩ ∧
        (saved = true ↔ (∀ a ∈ r.1, a.Accepted) ∧ r.2.modified = true ∧ p.writable = true) ∧
        (saved = false → next.1.file = st.file) := by
  intro query r used next
  have hrunning : ¬ st.running = false := by simp [hrun]
  by_cases hok : ∀ a ∈ r.1, a.Accepted
  · have hnext : next = (⟨r.2, r.2.save p.writable st.file, true, st.determined.map
        (· ++ (st.statuses.load (readAll p.readable st.file)).asksFor used)⟩,
          some ⟨used, r.2.modified && p.writable⟩) := by
      simp only [next, packagesDaemon, if_neg hrunning, hload]
      exact if_pos hok
    rw [hnext]
    refine ⟨rfl, rfl, _, rfl, ?_, ?_⟩
    · rw [Bool.and_eq_true]
      constructor
      · intro h
        exact ⟨hok, h⟩
      · intro h
        exact h.2
    · intro hsaved
      show r.2.save p.writable st.file = st.file
      simp only [PackageStatuses.save]
      cases hmodified : r.2.modified with
      | false => rfl
      | true =>
          rw [hmodified, Bool.true_and] at hsaved
          rw [hsaved]
          rfl
  · have hnext : next = (⟨r.2, st.file, false, st.determined.map
        (· ++ (st.statuses.load (readAll p.readable st.file)).asksFor used)⟩,
          some ⟨used, false⟩) := by
      simp only [next, packagesDaemon, if_neg hrunning, hload]
      exact if_neg hok
    rw [hnext]
    exact ⟨rfl, rfl, false, rfl, iff_of_false nofun fun h => hok h.1, fun _ => rfl⟩

theorem mem_asksFor {s : PackageStatuses} {used : List (String × Bool)} {n : String} :
    n ∈ s.asksFor used ↔ n ∈ used.map Prod.fst ∧ s.knows n = false := by
  simp [PackageStatuses.asksFor]

section Step

variable {lib : Advgetopt} {snapdev : Snapdev} {p : PackagesPass}

/-- After a removal, what a pass writes was determined since then if the map it
started from was. -/
theorem knows_after (hok : st.Ok) (hrun : st.running = true)
    (hload : onProcessWatchPackages lib snapdev p.files = .ok watch) {names names' : List String}
    (hnames : st.determined = some names)
    (hnames' : (packagesDaemon lib snapdev st (.pass p)).1.determined = some names')
    (hmap : ∀ n, st.statuses.knows n = true → n ∈ names) (n : String)
    (hn : (packagesDaemon lib snapdev st (.pass p)).1.statuses.knows n = true) : n ∈ names' := by
  obtain ⟨hstatuses, hdetermined, -⟩ := packagesDaemon_pass hrun hload
  have hknows := load_knows hok hnames p.readable
  rw [hdetermined, hnames, Option.map_some, Option.some.injEq] at hnames'
  rw [hstatuses, exec_knows hknows] at hn
  rw [← hnames', List.mem_append, mem_asksFor, hknows]
  cases hold : st.statuses.knows n with
  | true => exact Or.inl (hmap n hold)
  | false =>
      rw [hold] at hn
      exact Or.inr ⟨hn.resolve_left nofun, rfl⟩

/-- A pass does not begin to know of a removal. -/
theorem determined_before (hrun : st.running = true)
    (hload : onProcessWatchPackages lib snapdev p.files = .ok watch) {names' : List String}
    (hnames' : (packagesDaemon lib snapdev st (.pass p)).1.determined = some names') :
    ∃ names, st.determined = some names := by
  rw [(packagesDaemon_pass hrun hload).2.1] at hnames'
  obtain ⟨names, hnames, -⟩ := Option.map_eq_some_iff.mp hnames'
  exact ⟨names, hnames⟩

/-- What a pass after a removal saves, once its answers are right. -/
theorem exec_saves_iff (hok : st.Ok) {names : List String} (hnames : st.determined = some names)
    (hanswers : ∀ a ∈ watch.answers (isPackageInstalled (readAll p.readable st.file) p.dpkg)
      st.statuses, a.2 = p.dpkg.status a.1) :
    ((∀ a ∈ (watch.exec (isPackageInstalled (readAll p.readable st.file) p.dpkg)
          st.statuses).1, a.Accepted) ∧
        (watch.exec (isPackageInstalled (readAll p.readable st.file) p.dpkg)
          st.statuses).2.modified = true ∧ p.writable = true) ↔
      (∀ a ∈ watch.run p.dpkg.status, a.Accepted) ∧
        (st.statuses.modified = true ∨
          ∃ n ∈ watch.asked p.dpkg.status, st.statuses.knows n = false) ∧ p.writable = true := by
  obtain ⟨hrunStatus, hasked⟩ := Ask.exec_of_right hanswers
  rw [hrunStatus, exec_modified (load_knows hok hnames p.readable), hasked]

/-- **A pass is right exactly when it starts over**, if it begins with the file
absent; else it is right. -/
theorem refreshed_pass_iff (hok : st.Ok) (hrun : st.running = true)
    (hload : onProcessWatchPackages lib snapdev p.files = .ok watch) :
    Refreshed (event (packagesDaemon lib snapdev) st (.pass p)) ↔
      (st.file = none →
        (∀ n ∈ watch.asked p.dpkg.status, ∀ v, st.statuses.installed[n]? = some v →
          v = p.dpkg.status n) ∧
        (∀ names, st.determined = some names → p.writable = true →
          (∀ a ∈ watch.run p.dpkg.status, a.Accepted) →
          (st.statuses.modified = true ∨
            ∃ n ∈ watch.asked p.dpkg.status, st.statuses.knows n = false) →
          ∀ n, st.statuses.knows n = true → n ∈ names)) := by
  obtain ⟨hstatuses, hdetermined, saved, hout, hsaved, -⟩ := packagesDaemon_pass hrun hload
  constructor
  · intro h hfile
    obtain ⟨hused, hwrites⟩ := h p _ rfl hout
    have hanswers := hused hfile
    refine ⟨?_, ?_⟩
    · rw [hfile, readAll_none] at hanswers
      exact exec_right_iff.mp hanswers
    · intro names hnames hwritable haccepted hmarked n hn
      have hknows := load_knows hok hnames p.readable
      have hsave := hsaved.mpr
        ((exec_saves_iff hok hnames hanswers).mpr ⟨haccepted, hmarked, hwritable⟩)
      have hnames' := hdetermined.trans (congrArg (Option.map _) hnames)
      have hin := hwrites _ hnames' hsave n (by
        rw [event_after, hstatuses, exec_knows hknows]
        exact Or.inl hn)
      rcases List.mem_append.mp hin with hin | hin
      · exact hin
      · rw [mem_asksFor, hknows, hn] at hin
        nomatch hin.2
  · intro h q out hq hq'
    obtain rfl : p = q := PackagesCall.pass.inj hq
    obtain rfl : (⟨_, saved⟩ : PassStatuses) = out := Option.some.inj (hout.symm.trans hq')
    have hanswers : st.file = none → ∀ a ∈ watch.answers
        (isPackageInstalled (readAll p.readable st.file) p.dpkg) st.statuses,
          a.2 = p.dpkg.status a.1 := by
      intro hfile
      rw [hfile, readAll_none]
      exact exec_right_iff.mpr (h hfile).1
    refine ⟨hanswers, ?_⟩
    intro names' hnames' hsave n hn
    obtain ⟨names, hnames⟩ := determined_before hrun hload hnames'
    refine knows_after hok hrun hload hnames hnames' (fun m hm => ?_) n hn
    by_cases hfile : st.file = none
    · obtain ⟨haccepted, hmarked, hwritable⟩ :=
        (exec_saves_iff hok hnames (hanswers hfile)).mp (hsaved.mp hsave)
      exact (h hfile).2 names hnames hwritable haccepted hmarked m hm
    · exact hok.written names hnames hfile m hm

theorem refreshed_iff (hok : st.Ok) (call : PackagesCall) :
    Refreshed (event (packagesDaemon lib snapdev) st call) ↔
      StartsOver lib snapdev (event (packagesDaemon lib snapdev) st call) := by
  cases call with
  | remove => exact iff_of_true nofun nofun
  | pass p =>
      cases hrun : st.running with
      | false =>
          refine iff_of_true ?_ ?_
          · intro q out hq hout
            simp [packagesDaemon, hrun] at hout
          · intro q watch hq hrunning
            simp [hrun] at hrunning
      | true =>
          cases hload : onProcessWatchPackages lib snapdev p.files with
          | error what =>
              refine iff_of_true ?_ ?_
              · intro q out hq hout
                simp [packagesDaemon, hrun, hload] at hout
              · intro q watch hq hrunning hwatch
                obtain rfl : p = q := PackagesCall.pass.inj hq
                rw [hload] at hwatch
                nomatch hwatch
          | ok watch =>
              rw [refreshed_pass_iff hok hrun hload]
              constructor
              · intro h q watch' hq hrunning hwatch hfile
                obtain rfl : p = q := PackagesCall.pass.inj hq
                obtain rfl : watch = watch' := Except.ok.inj (hload.symm.trans hwatch)
                exact h hfile
              · intro h hfile
                exact h p watch rfl hrun hload hfile

/-- A step that is right leaves what is known in place. -/
theorem ok_step (hok : st.Ok) (call : PackagesCall)
    (hright : Refreshed (event (packagesDaemon lib snapdev) st call)) :
    (packagesDaemon lib snapdev st call).1.Ok := by
  cases call with
  | remove => exact ⟨hok.loaded, fun _ _ _ => rfl, fun _ _ h => absurd rfl h⟩
  | pass p =>
      cases hrun : st.running with
      | false => simpa [packagesDaemon, hrun] using hok
      | true =>
          cases hload : onProcessWatchPackages lib snapdev p.files with
          | error what =>
              simp only [packagesDaemon, hrun, hload]
              exact ⟨hok.loaded, hok.unread, hok.written⟩
          | ok watch =>
              obtain ⟨hstatuses, -, saved, hout, hsaved, hkept⟩ := packagesDaemon_pass hrun hload
              obtain ⟨-, hwrites⟩ := hright p _ rfl hout
              have hsame : (packagesDaemon lib snapdev st (.pass p)).1.statuses.loaded = false →
                  (packagesDaemon lib snapdev st (.pass p)).1.statuses = st.statuses := by
                rw [hstatuses]
                exact exec_unread
              refine ⟨?_, ?_, ?_⟩
              · intro hmodified
                by_contra hloaded
                have hstart := hsame (Bool.eq_false_iff.mpr hloaded)
                rw [hstart] at hmodified hloaded
                exact hloaded (hok.loaded hmodified)
              · intro names' hnames' hunread
                obtain ⟨names, hnames⟩ := determined_before hrun hload hnames'
                have hstart := hsame hunread
                rw [hstart] at hunread
                have hunsaved : saved = false := by
                  rw [Bool.eq_false_iff]
                  intro hsave
                  have hmodified := (hsaved.mp hsave).2.1
                  rw [← hstatuses, hstart] at hmodified
                  rw [hok.loaded hmodified] at hunread
                  nomatch hunread
                rw [hkept hunsaved]
                exact hok.unread names hnames hunread
              · intro names' hnames' hfile n hn
                cases hsave : saved with
                | true => exact hwrites names' hnames' hsave n hn
                | false =>
                    obtain ⟨names, hnames⟩ := determined_before hrun hload hnames'
                    rw [hkept hsave] at hfile
                    exact knows_after hok hrun hload hnames hnames'
                      (fun m hm => hok.written names hnames hfile m hm) n hn

end Step

end Pass

/-! ### Runs -/

theorem start_ok (file : Option String) : (PackagesState.start file).Ok where
  loaded h := nomatch h
  unread _ h := nomatch h
  written _ h := nomatch h

/-- **The statuses are refreshed in exactly the runs whose passes start over
when the file is absent.** -/
theorem refresh_iff (lib : Advgetopt) (snapdev : Snapdev) (file : Option String)
    (calls : List PackagesCall) :
    (∀ e ∈ trace (packagesDaemon lib snapdev) (PackagesState.start file) calls, Refreshed e) ↔
      ∀ e ∈ trace (packagesDaemon lib snapdev) (PackagesState.start file) calls,
        StartsOver lib snapdev e :=
  trace_forall_iff (I := PackagesState.Ok) (fun _ call hok => refreshed_iff hok call)
    (fun _ call hok hstarts => ok_step hok call ((refreshed_iff hok call).mpr hstarts))
    (start_ok file) calls

/-- A file that names ntp, and no more. -/
def mentionsNtp : ConfFile := fun parameter => if parameter = "name" then some "ntp" else none

/-- A pass over that file while dpkg-query says this of every package. -/
def ntpPass (output : String) : PackagesCall :=
  .pass ⟨[mentionsNtp], fun _ => (0, output), true, true⟩

/-- ntp gets installed after the first pass; the file is removed, and the next
pass still takes it for missing. -/
theorem refresh_installed_ntp :
    ¬ ∀ e ∈ trace (packagesDaemon .decimal ⟨id⟩) (PackagesState.start none)
        [ntpPass "unknown ok not-installed", .remove, ntpPass "install ok installed"],
      Refreshed e := by
  intro hall
  have hlast := hall _ (List.mem_cons_of_mem _ (List.mem_cons_of_mem _ List.mem_cons_self)) _ _
    rfl rfl
  have hstatus := hlast.1 rfl ("ntp", false) (by decide)
  exact absurd hstatus (by decide)

end Sitter
