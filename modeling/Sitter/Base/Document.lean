/-
# `Base.Document` — a document of nested members and growing arrays

A document is the list of its cells, each a path and a value, in the order in
which they were created.  A path is a list of steps from the root; a step is
the name of a member or the position of an array item.

    set p v     the value at path p becomes v
    push p      one more item at the end of the array at p; its path is
                `p ++ [item (nextItem p)]`

A cell is created once and then changed in place, so the paths of a document
only ever grow at the end (`paths_set`, `paths_push`).  That is what makes
"the items appended since" a suffix of the list of paths.  The item `push`
makes is new (`push_fresh`), whatever cells the document has: `nextItem` is one
more than every position in use.
-/
import Mathlib.Data.List.Basic
import Mathlib.Data.List.Dedup

/-- One step into a document. -/
inductive Document.Key where
  | name (text : String)
  | item (position : Nat)
  deriving DecidableEq, Repr

/-- A path from the root of a document. -/
abbrev Document.Path := List Document.Key

/-- A document with values of type `V` in its cells. -/
structure Document (V : Type*) where
  cells : List (Document.Path × V)

namespace Document

variable {V : Type*}

/-- The document nothing was put into. -/
def empty : Document V := ⟨[]⟩

def paths (d : Document V) : List Path := d.cells.map Prod.fst

/-- The value at a path. -/
def get? (d : Document V) (p : Path) : Option V :=
  (d.cells.find? fun c => c.1 = p).map Prod.snd

/-- The cells with the value at `p` changed; a path without a cell gets one
at the end. -/
def setCells (p : Path) (v : V) : List (Path × V) → List (Path × V)
  | [] => [(p, v)]
  | c :: cs => if c.1 = p then (p, v) :: cs else c :: setCells p v cs

def set (d : Document V) (p : Path) (v : V) : Document V := ⟨setCells p v d.cells⟩

/-- The position of an item of the array at `p`, for the path of such an item. -/
def itemOf (p q : Path) : Option Nat :=
  match q.getLast? with
  | some (.item n) => if q = p ++ [.item n] then some n else none
  | _ => none

/-- The position after every item of the array at `p`. -/
def nextItem (d : Document V) (p : Path) : Nat :=
  ((d.paths.filterMap (itemOf p)).map (· + 1)).foldr max 0

/-- The path of the item that the next `push` appends. -/
def itemPath (d : Document V) (p : Path) : Path := p ++ [.item (d.nextItem p)]

/-- One more item, holding `v`, at the end of the array at `p`. -/
def push (d : Document V) (p : Path) (v : V) : Document V := d.set (d.itemPath p) v

/-- Several members of the object at `p`, one after the other. -/
def setMembers (d : Document V) (p : Path) (fields : List (String × V)) : Document V :=
  fields.foldl (fun d f => d.set (p ++ [.name f.1]) f.2) d

/-- The names of the members of the object at `p`. -/
def memberNames (d : Document V) (p : Path) : List String :=
  (d.paths.filterMap fun q =>
    match q.drop p.length with
    | .name n :: _ => if q.take p.length = p then some n else none
    | _ => none).dedup

/-! ## Reading back what was set -/

theorem find_setCells_self (p : Path) (v : V) (cs : List (Path × V)) :
    (setCells p v cs).find? (fun c => c.1 = p) = some (p, v) := by
  induction cs with
  | nil => simp [setCells]
  | cons c cs ih =>
      by_cases h : c.1 = p
      · simp [setCells, h]
      · simp [setCells, h, ih]

theorem find_setCells_ne {p q : Path} (hne : q ≠ p) (v : V) (cs : List (Path × V)) :
    (setCells p v cs).find? (fun c => c.1 = q) = cs.find? (fun c => c.1 = q) := by
  induction cs with
  | nil => simp [setCells, hne.symm]
  | cons c cs ih =>
      by_cases h : c.1 = p
      · simp [setCells, h, hne.symm]
      · by_cases hq : c.1 = q
        · have hqp : ¬ q = p := hne
          simp [setCells, hq, hqp]
        · simp [setCells, h, hq, ih]

@[simp] theorem get?_set_self (d : Document V) (p : Path) (v : V) :
    (d.set p v).get? p = some v := by
  simp [get?, set, find_setCells_self]

theorem get?_set_ne (d : Document V) {p q : Path} (hne : q ≠ p) (v : V) :
    (d.set p v).get? q = d.get? q := by
  simp [get?, set, find_setCells_ne hne]

/-! ## The paths of a document -/

theorem get?_of_not_mem {d : Document V} {p : Path} (h : p ∉ d.paths) : d.get? p = none := by
  rw [get?, Option.map_eq_none_iff, List.find?_eq_none]
  intro c hc hp
  exact h (List.mem_map.mpr ⟨c, hc, of_decide_eq_true hp⟩)

theorem map_fst_setCells (p : Path) (v : V) (cs : List (Path × V)) :
    (setCells p v cs).map Prod.fst =
      if p ∈ cs.map Prod.fst then cs.map Prod.fst else cs.map Prod.fst ++ [p] := by
  induction cs with
  | nil => simp [setCells]
  | cons c cs ih =>
      by_cases h : c.1 = p
      · simp [setCells, h]
      · simp only [setCells, if_neg h, List.map_cons, ih, List.mem_cons, Ne.symm h, false_or]
        split <;> simp

theorem paths_set (d : Document V) (p : Path) (v : V) :
    (d.set p v).paths = if p ∈ d.paths then d.paths else d.paths ++ [p] :=
  map_fst_setCells p v d.cells

theorem paths_set_of_not_mem {d : Document V} {p : Path} (h : p ∉ d.paths) (v : V) :
    (d.set p v).paths = d.paths ++ [p] := by
  rw [paths_set, if_neg h]

theorem mem_paths_set {d : Document V} {p q : Path} {v : V} :
    q ∈ (d.set p v).paths ↔ q ∈ d.paths ∨ q = p := by
  rw [paths_set]
  split
  · next h => exact ⟨Or.inl, fun hq => hq.elim id (fun he => he ▸ h)⟩
  · simp

theorem filter_paths_set {d : Document V} {p : Path} {v : V} {f : Path → Bool}
    (hp : f p = false) : (d.set p v).paths.filter f = d.paths.filter f := by
  rw [paths_set]
  split
  · rfl
  · simp [List.filter_append, hp]

/-! ## New items

A push makes an item after the last one.  Nothing in the document has its path,
so what was there before keeps its value. -/

theorem itemOf_append (p : Path) (n : Nat) : itemOf p (p ++ [.item n]) = some n := by
  simp [itemOf]

theorem lt_foldr_max {n : Nat} {ns : List Nat} (h : n ∈ ns) :
    n < (ns.map (· + 1)).foldr max 0 := by
  induction ns with
  | nil => exact absurd h List.not_mem_nil
  | cons k ks ih =>
      simp only [List.map_cons, List.foldr_cons]
      rcases List.mem_cons.mp h with rfl | h'
      · omega
      · have := ih h'
        omega

/-- **The item that is appended was not there.** -/
theorem push_fresh (d : Document V) (p : Path) : d.itemPath p ∉ d.paths := by
  intro hmem
  have hitem : d.nextItem p ∈ d.paths.filterMap (itemOf p) :=
    List.mem_filterMap.mpr ⟨_, hmem, itemOf_append p _⟩
  exact absurd (lt_foldr_max hitem) (Nat.lt_irrefl _)

theorem paths_push (d : Document V) (p : Path) (v : V) :
    (d.push p v).paths = d.paths ++ [d.itemPath p] :=
  paths_set_of_not_mem (d.push_fresh p) v

/-! ## Members -/

@[simp] theorem setMembers_nil (d : Document V) (p : Path) : d.setMembers p [] = d := rfl

@[simp] theorem setMembers_cons (d : Document V) (p : Path) (f : String × V)
    (fields : List (String × V)) :
    d.setMembers p (f :: fields) = (d.set (p ++ [.name f.1]) f.2).setMembers p fields := rfl

theorem get?_setMembers_ne {d : Document V} {p q : Path} {fields : List (String × V)}
    (hne : ∀ n, q ≠ p ++ [.name n]) : (d.setMembers p fields).get? q = d.get? q := by
  induction fields generalizing d with
  | nil => rfl
  | cons f fields ih => rw [setMembers_cons, ih, get?_set_ne _ (hne f.1)]

/-- A selection of the paths that leaves out the members of `p` does not see
them being set. -/
theorem filter_paths_setMembers {d : Document V} {p : Path} {fields : List (String × V)}
    {f : Path → Bool} (hf : ∀ n, f (p ++ [.name n]) = false) :
    (d.setMembers p fields).paths.filter f = d.paths.filter f := by
  induction fields generalizing d with
  | nil => rfl
  | cons g fields ih => rw [setMembers_cons, ih, filter_paths_set (hf g.1)]

theorem mem_paths_setMembers {d : Document V} {p q : Path} {fields : List (String × V)} :
    q ∈ (d.setMembers p fields).paths ↔
      q ∈ d.paths ∨ ∃ f ∈ fields, q = p ++ [.name f.1] := by
  induction fields generalizing d with
  | nil => simp
  | cons g fields ih =>
      rw [setMembers_cons, ih, mem_paths_set]
      simp [or_assoc]

theorem mem_memberNames {d : Document V} {p : Path} {n : String} :
    n ∈ d.memberNames p ↔ ∃ q, p ++ .name n :: q ∈ d.paths := by
  simp only [memberNames, List.mem_dedup, List.mem_filterMap]
  constructor
  · rintro ⟨q, hq, hn⟩
    split at hn
    · next m rest hdrop =>
        split at hn
        · next htake =>
            cases hn
            have hsplit : q = p ++ .name n :: rest := by
              calc
                q = q.take p.length ++ q.drop p.length := (List.take_append_drop _ _).symm
                _ = p ++ .name n :: rest := by rw [htake, hdrop]
            exact ⟨rest, hsplit ▸ hq⟩
        · nomatch hn
    · nomatch hn
  · rintro ⟨q, hq⟩
    exact ⟨_, hq, by simp⟩

end Document
