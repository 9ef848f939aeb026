/-
# `Sitter.Arrays` — the arrays a plugin fills

A plugin that tells of several things pushes one item for each of them onto an
array and then sets the members of that item.  `Records` has the plugins that
forget the item and write all their records to one node; this is about those
that do not.

An action is calm if it leaves the entries of the `error` arrays to
`append_error`.  Of calm actions a document has, after them (`Added`),

    in an array      the items it had, then one for each push onto it
    at a member      the value of the last write to it
    as entries       those it had, then one for each error

and where each push is followed by the members of its item (`FillsItems`), the
array has the records in their order, each with all its members and with no
member of another (`FillsItems.kept`).
-/
import Sitter.Base.Items
import Sitter.Members
import Sitter.Records

namespace Sitter

open Document LastWrite

/-! ## Calm actions

An action is calm if it touches no `error` array but by appending to it.  Calm
actions keep what was reported: the error entries of the document are the
earlier ones and the new ones, in order. -/

/-- The action sets a member that is in no error entry, pushes onto an array
that is no `error` array, or appends an error. -/
def PluginAction.Calm : PluginAction → Prop
  | .set path _ => ∃ p name, path = p ++ [.name name] ∧ isErrorItem (root ++ p) = false
  | .push path _ => path.getLast? ≠ some (.name "error")
  | .appendError _ _ _ _ => True
  | .throw _ => True

/-- A calm action on one of these members of the root, or on its errors. -/
structure PluginAction.Of (names : List String) (a : PluginAction) : Prop where
  calm : a.Calm
  member : ∃ n, a.member = some n ∧ (n = "error" ∨ n ∈ names)

/-- Such an action, and it does not throw. -/
def PluginAction.Safe (names : List String) (a : PluginAction) : Prop := a.Of names ∧ a.Accepted

/-- What is pushed onto an array. -/
def pushedTo (arr : Path) (actions : List PluginAction) : List Value :=
  actions.filterMap fun a =>
    match a with
    | .push path value => if path = arr then some value else none
    | _ => none

theorem pushedTo_append (arr : Path) (actions actions' : List PluginAction) :
    pushedTo arr (actions ++ actions') = pushedTo arr actions ++ pushedTo arr actions' :=
  List.filterMap_append

/-- A document before and after calm actions. -/
structure Added (before after : Document Value) (actions : List PluginAction) : Prop where
  items : ∀ arr : Path, arr.getLast? ≠ some (.name "error") →
    after.items (root ++ arr) = before.items (root ++ arr) ++ (pushedTo arr actions).map some
  member : ∀ (p : Path) (name : String), isErrorItem p = false →
    after.get? (p ++ [.name name]) =
      (lastWrite (setsOf actions) (p ++ [.name name])).or (before.get? (p ++ [.name name]))
  entries : errorEntries after = errorEntries before ++ entriesOf actions

theorem isErrorItem_append_item {arr : Path} {k : Nat} (h : arr.getLast? ≠ some (.name "error")) :
    isErrorItem (root ++ arr ++ [.item k]) = false := by
  have hlast : (root ++ arr).getLast? ≠ some (.name "error") := by
    rw [List.getLast?_append]
    cases harr : arr.getLast? with
    | none => simp [root]
    | some key => simpa [harr] using h
  rcases List.eq_nil_or_concat' (root ++ arr) with hnil | ⟨front, key, hfront⟩
  · rw [hnil]
    rfl
  · rw [hfront] at hlast ⊢
    rcases key with n | j
    · have hn : n ≠ "error" := by simpa using hlast
      simp [isErrorItem, hn]
    · simp [isErrorItem]

section Apply

variable {doc : Document Value} {a : PluginAction} {actions : List PluginAction}

theorem applyTo_items (ha : a.Calm) {arr : Path} (harr : arr.getLast? ≠ some (.name "error")) :
    (a.applyTo doc).items (root ++ arr) =
      doc.items (root ++ arr) ++ (pushedTo arr [a]).map some := by
  cases a with
  | set path value =>
      obtain ⟨p, name, rfl, -⟩ := ha
      refine (items_set ?_ value).trans (List.append_nil _).symm
      intro n heq
      rw [← List.append_assoc] at heq
      simpa using List.append_inj_right' heq rfl
  | push path value =>
      by_cases hpath : path = arr
      · subst hpath
        simpa [pushedTo, PluginAction.applyTo] using items_push doc (root ++ path) value
      · have hne : root ++ arr ≠ root ++ path := fun h => hpath (List.append_cancel_left h).symm
        simpa [pushedTo, PluginAction.applyTo, hpath] using items_push_ne hne value
  | appendError node plugin message priority =>
      have hne : root ++ arr ≠ root ++ node.path ++ [.name "error"] := by
        intro h
        rw [List.append_assoc] at h
        rw [List.append_cancel_left h, List.getLast?_concat] at harr
        exact harr rfl
      exact ((items_setMembers _).trans (items_push_ne hne _)).trans (List.append_nil _).symm
  | throw what => exact (List.append_nil _).symm

theorem applyTo_member (ha : a.Calm) {p : Path} (hp : isErrorItem p = false) (name : String) :
    (a.applyTo doc).get? (p ++ [.name name]) =
      (lastWrite (setsOf [a]) (p ++ [.name name])).or (doc.get? (p ++ [.name name])) := by
  have hitem : ∀ (q : Path) (n : Nat), p ++ [Key.name name] ≠ q ++ [.item n] := by
    intro q n heq
    simpa using List.append_inj_right' heq rfl
  cases a with
  | set path value =>
      have hwrite : lastWrite (setsOf [.set path value]) (p ++ [.name name]) =
          if p ++ [.name name] = root ++ path then some value else none :=
        lastWrite_concat [] _ _
      rw [hwrite]
      simp only [PluginAction.applyTo]
      split
      · next h =>
          rw [h, get?_set_self]
          rfl
      · next h => exact get?_set_ne _ h _
  | push path value => exact get?_set_ne _ (hitem _ _) _
  | appendError node plugin message priority =>
      have hother : ∀ n, p ++ [.name name] ≠
          doc.itemPath (root ++ node.path ++ [.name "error"]) ++ [.name n] := by
        intro n heq
        rw [List.append_inj_left' heq rfl, itemPath, isErrorItem_item] at hp
        cases hp
      simp only [PluginAction.applyTo]
      rw [get?_setMembers_ne hother, push, itemPath, get?_set_ne _ (hitem _ _)]
      rfl
  | throw what => rfl

theorem errorEntries_set_calm {p : Path} (hp : isErrorItem p = false) (name : String)
    (value : Value) : errorEntries (doc.set (p ++ [.name name]) value) = errorEntries doc := by
  rw [errorEntries, errorEntries, filter_paths_set (isErrorItem_member p name)]
  refine List.map_congr_left ?_
  intro q hq
  have hne : q ≠ p := by
    rintro rfl
    rw [(List.mem_filter.mp hq).2] at hp
    cases hp
  exact entryAt_setMembers_ne hne [(name, value)]

theorem errorEntries_push_calm {arr : Path} (harr : arr.getLast? ≠ some (.name "error"))
    (value : Value) : errorEntries (doc.push (root ++ arr) value) = errorEntries doc := by
  have hitem : isErrorItem (doc.itemPath (root ++ arr)) = false := isErrorItem_append_item harr
  rw [errorEntries, errorEntries, paths_push, List.filter_append,
    List.filter_cons_of_neg (by rw [hitem]; exact Bool.false_ne_true), List.filter_nil,
    List.append_nil]
  exact List.map_congr_left fun q _ => entryAt_push doc _ q value

theorem applyTo_entries (ha : a.Calm) (hok : a.Accepted) :
    errorEntries (a.applyTo doc) = errorEntries doc ++ entriesOf [a] := by
  cases a with
  | set path value =>
      obtain ⟨p, name, rfl, hp⟩ := ha
      simp only [PluginAction.applyTo, ← List.append_assoc]
      exact (errorEntries_set_calm hp name value).trans (List.append_nil _).symm
  | push path value => exact (errorEntries_push_calm ha value).trans (List.append_nil _).symm
  | appendError node plugin message priority =>
      have hdoc := pluginAction_doc hok ⟨Server.create Options.unset, doc⟩
      rw [← hdoc]
      exact errorEntries_appendError hok.1 hok.2
  | throw what => exact hok.elim

/-- **What calm actions leave.** -/
theorem applyAll_added (doc : Document Value) (hcalm : ∀ a ∈ actions, a.Calm)
    (hok : Completes actions) : Added doc (applyAll doc actions) actions := by
  induction actions generalizing doc with
  | nil => exact ⟨fun _ _ => (List.append_nil _).symm, fun _ _ _ => rfl, (List.append_nil _).symm⟩
  | cons a as ih =>
      obtain ⟨ha, has⟩ := List.forall_mem_cons.mp hcalm
      obtain ⟨hoka, hokas⟩ := List.forall_mem_cons.mp hok
      have hrest := ih (a.applyTo doc) has hokas
      refine ⟨?_, ?_, ?_⟩
      · intro arr harr
        have hpushed : pushedTo arr (a :: as) = pushedTo arr [a] ++ pushedTo arr as :=
          pushedTo_append arr [a] as
        rw [hpushed, List.map_append, ← List.append_assoc, ← applyTo_items ha harr]
        exact hrest.items arr harr
      · intro p name hp
        have hsets : setsOf (a :: as) = setsOf [a] ++ setsOf as := List.filterMap_append (l := [a])
        rw [hsets, lastWrite_append, Option.or_assoc, ← applyTo_member ha hp]
        exact hrest.member p name hp
      · have herrors : entriesOf (a :: as) = entriesOf [a] ++ entriesOf as :=
          List.filterMap_append (l := [a])
        rw [herrors, ← List.append_assoc, ← applyTo_entries ha hoka]
        exact hrest.entries

/-- **So it is in a pass that completes.** -/
theorem processWatch_added (st : PassState) (hcalm : ∀ a ∈ actions, a.Calm)
    (hok : Completes actions) : Added st.doc (processWatch st actions).1.doc actions := by
  rw [processWatch_doc, ranActions_completes hok]
  exact applyAll_added st.doc hcalm hok

end Apply

/-! ## An item for each record

A loop that pushes an item for each thing it describes and then sets members of
that item.  The description of such a loop is composed from those of its parts:
`FillsItems.append` puts two ranges of items after each other, and actions on
something else change nothing. -/

/-- The item and the name, for the path of a member of an item of the array. -/
def itemMember (arr path : Path) : Option (Nat × String) :=
  match path.drop arr.length with
  | [.item k, .name n] => if path.take arr.length = arr then some (k, n) else none
  | _ => none

/-- What is written to members of items of the array. -/
def itemWrites (arr : Path) (actions : List PluginAction) : List ((Nat × String) × Value) :=
  actions.filterMap fun a =>
    match a with
    | .set path value => (itemMember arr path).map fun m => (m, value)
    | _ => none

/-- The members of some records, the first of which is the item `k`. -/
def recordWrites (k : Nat) (records : List (List (String × Value))) :
    List ((Nat × String) × Value) :=
  (records.zipIdx k).flatMap fun r => r.1.map fun m => ((r.2, m.1), m.2)

/-- The actions push an item for each record, the first of which is the item
`k`, and set its members. -/
structure FillsItems (arr : Path) (k : Nat) (actions : List PluginAction)
    (records : List (List (String × Value))) : Prop where
  pushes : pushedTo arr actions = records.map fun _ => .null
  sets : itemWrites arr actions = recordWrites k records

/-- The actions that do so for one record. -/
def writeItem (arr : Path) (k : Nat) (record : List (String × Value)) : List PluginAction :=
  .push arr .null :: record.map fun m => .set (arr ++ [.item k, .name m.1]) m.2

/-- The array of the document has the records as its items, and nothing else. -/
structure ItemsKept (arr : Path) (records : List (List (String × Value)))
    (doc : Document Value) : Prop where
  items : doc.items (root ++ arr) = records.map fun _ => some .null
  member : ∀ k name,
    doc.get? (root ++ arr ++ [.item k] ++ [.name name]) = (records[k]?).bind (lastWrite · name)

section Fill

variable {arr : Path} {k : Nat}

theorem itemMember_eq_some {path : Path} {j : Nat} {n : String} :
    itemMember arr path = some (j, n) ↔ path = arr ++ [.item j, .name n] := by
  constructor
  · intro h
    simp only [itemMember] at h
    split at h
    · next i m hdrop =>
        split at h
        · next htake =>
            cases h
            calc
              path = path.take arr.length ++ path.drop arr.length :=
                (List.take_append_drop _ _).symm
              _ = arr ++ [.item j, .name n] := by rw [htake, hdrop]
        · nomatch h
    · nomatch h
  · rintro rfl
    simp [itemMember]

theorem lastWrite_setsOf_item (actions : List PluginAction) (j : Nat) (n : String) :
    lastWrite (setsOf actions) (root ++ arr ++ [.item j] ++ [.name n]) =
      lastWrite (itemWrites arr actions) (j, n) := by
  induction actions using List.reverseRecOn with
  | nil => rfl
  | append_singleton actions a ih =>
      have hsets : setsOf (actions ++ [a]) = setsOf actions ++ setsOf [a] := List.filterMap_append
      have hitems : itemWrites arr (actions ++ [a]) =
          itemWrites arr actions ++ itemWrites arr [a] :=
        List.filterMap_append
      rw [hsets, hitems, lastWrite_append, lastWrite_append, ih]
      congr 1
      cases a with
      | set path value =>
          have hpath : root ++ arr ++ [.item j] ++ [.name n] = root ++ path ↔
              itemMember arr path = some (j, n) := by
            rw [itemMember_eq_some, List.append_assoc, List.append_assoc, List.append_right_inj]
            exact eq_comm
          have hset : lastWrite (setsOf [.set path value]) (root ++ arr ++ [.item j] ++ [.name n]) =
              if root ++ arr ++ [.item j] ++ [.name n] = root ++ path then some value else none :=
            lastWrite_concat [] _ _
          rw [hset]
          cases hmember : itemMember arr path with
          | none =>
              rw [if_neg (by rw [hpath, hmember]; exact (Option.some_ne_none _).symm)]
              simp [itemWrites, hmember]
          | some m =>
              have hwrite : lastWrite (itemWrites arr [.set path value]) (j, n) =
                  if (j, n) = m then some value else none := by
                simpa [itemWrites, hmember] using lastWrite_concat [] (m, value) (j, n)
              rw [hwrite, if_congr hpath rfl rfl, hmember]
              simp only [Option.some.injEq, eq_comm]
      | push path value => rfl
      | appendError node plugin message priority => rfl
      | throw what => rfl

theorem lastWrite_item (r : List (String × Value)) (i j : Nat) (n : String) :
    lastWrite (r.map fun m => ((i, m.1), m.2)) (j, n) = if j = i then lastWrite r n else none := by
  split
  · next h =>
      have hinj : Function.Injective fun m : String => (i, m) := by
        intro a b hab
        exact congrArg Prod.snd hab
      rw [h, lastWrite_map hinj]
  · next h =>
      rw [← Option.not_isSome_iff_eq_none, lastWrite_isSome]
      rintro ⟨v, hv⟩
      obtain ⟨m, -, hm⟩ := List.mem_map.mp hv
      exact h (congrArg (fun w => w.1.1) hm).symm

theorem lastWrite_recordWrites (records : List (List (String × Value))) (j : Nat) (n : String) :
    lastWrite (recordWrites 0 records) (j, n) = (records[j]?).bind (lastWrite · n) := by
  induction records using List.reverseRecOn with
  | nil => rfl
  | append_singleton records r ih =>
      have hsplit : recordWrites 0 (records ++ [r]) =
          recordWrites 0 records ++ r.map fun m => ((records.length, m.1), m.2) := by
        simp [recordWrites, List.zipIdx_append]
      rw [hsplit, lastWrite_append, ih, lastWrite_item, List.getElem?_append]
      split
      · next hj =>
          rw [hj]
          simp
      · next hj =>
          split
          · rfl
          · rw [List.getElem?_eq_none (by omega), List.getElem?_eq_none (by simp; omega)]
            rfl

variable {actions actions' : List PluginAction} {records records' : List (List (String × Value))}

theorem fillsItems_nil : FillsItems arr k [] [] := ⟨rfl, rfl⟩

theorem FillsItems.append (h : FillsItems arr k actions records)
    (h' : FillsItems arr (k + records.length) actions' records') :
    FillsItems arr k (actions ++ actions') (records ++ records') where
  pushes := by
    rw [pushedTo_append, List.map_append, h.pushes, h'.pushes]
  sets := by
    rw [itemWrites, List.filterMap_append, recordWrites, List.zipIdx_append, List.flatMap_append]
    exact congrArg₂ (· ++ ·) h.sets h'.sets

theorem fillsItems_writeItem (record : List (String × Value)) :
    FillsItems arr k (writeItem arr k record) [record] where
  pushes := by
    simp [pushedTo, writeItem, List.filterMap_map]
  sets := by
    have hmember : ∀ n : String, itemMember arr (arr ++ [.item k, .name n]) = some (k, n) :=
      fun n => itemMember_eq_some.mpr rfl
    simp [itemWrites, writeItem, recordWrites, List.filterMap_map, hmember]

theorem FillsItems.then_nothing {j : Nat} (h : FillsItems arr k actions records)
    (h' : FillsItems arr j actions' []) : FillsItems arr k (actions ++ actions') records := by
  rw [← List.append_nil records]
  exact h.append ⟨h'.pushes, h'.sets⟩

theorem FillsItems.after_nothing {j : Nat} (h : FillsItems arr j actions [])
    (h' : FillsItems arr k actions' records) : FillsItems arr k (actions ++ actions') records := by
  rw [← List.nil_append records]
  exact FillsItems.append ⟨h.pushes, h.sets⟩ h'

theorem fillsItems_other {arr' : Path} (hne : arr' ≠ arr) (j : Nat)
    (record : List (String × Value)) : FillsItems arr k (writeItem arr' j record) [] where
  pushes := by
    simp [pushedTo, writeItem, List.filterMap_map, hne]
  sets := by
    refine List.filterMap_eq_nil_iff.mpr (List.forall_mem_cons.mpr ⟨rfl, ?_⟩)
    refine List.forall_mem_map.mpr fun m _ => Option.map_eq_none_iff.mpr ?_
    rw [Option.eq_none_iff_forall_ne_some]
    rintro ⟨i, n⟩ hmember
    exact hne (List.append_inj_left' (itemMember_eq_some.mp hmember) rfl)

theorem fillsItems_item {record more : List (String × Value)} {after : List PluginAction}
    (hpushes : pushedTo arr after = [])
    (hsets : itemWrites arr after = more.map fun m => ((k, m.1), m.2)) :
    FillsItems arr k (writeItem arr k record ++ after) [record ++ more] where
  pushes := by
    rw [pushedTo_append, (fillsItems_writeItem record).pushes, hpushes]
    rfl
  sets := by
    rw [itemWrites, List.filterMap_append]
    refine (congrArg₂ (· ++ ·) (fillsItems_writeItem record).sets hsets).trans ?_
    simp [recordWrites]

theorem accepted_writeItem (record : List (String × Value)) :
    ∀ a ∈ writeItem arr k record, a.Accepted :=
  List.forall_mem_cons.mpr ⟨trivial, List.forall_mem_map.mpr fun _ _ => trivial⟩

theorem fillsItems_elsewhere (h : ∀ a ∈ actions, pushedTo arr [a] = [] ∧ itemWrites arr [a] = []) :
    FillsItems arr k actions [] := by
  induction actions with
  | nil => exact fillsItems_nil
  | cons a as ih =>
      obtain ⟨ha, has⟩ := List.forall_mem_cons.mp h
      have hone : FillsItems arr k [a] [] := ⟨ha.1, ha.2⟩
      exact hone.after_nothing (ih has)

theorem pushedTo_errors (h : ∀ a ∈ actions, a.isError = true) : pushedTo arr actions = [] := by
  rw [pushedTo, List.filterMap_eq_nil_iff]
  intro a ha
  have herror := h a ha
  cases a with
  | set path value => rfl
  | push path value => cases herror
  | appendError node plugin message priority => rfl
  | throw what => rfl

theorem fillsItems_errors (h : ∀ a ∈ actions, a.isError = true) :
    FillsItems arr k actions [] where
  pushes := pushedTo_errors h
  sets := by
    refine List.filterMap_eq_nil_iff.mpr ?_
    intro a ha
    have herror := h a ha
    cases a with
    | set path value => cases herror
    | push path value => rfl
    | appendError node plugin message priority => rfl
    | throw what => rfl

theorem entriesOf_eq_nil (h : ∀ a ∈ actions, a.isError = false) : entriesOf actions = [] := by
  rw [entriesOf, List.filterMap_eq_nil_iff]
  intro a ha
  have herror := h a ha
  cases a with
  | set path value => rfl
  | push path value => rfl
  | appendError node plugin message priority => cases herror
  | throw what => rfl

theorem entriesOf_append :
    entriesOf (actions ++ actions') = entriesOf actions ++ entriesOf actions' :=
  List.filterMap_append

theorem not_isError_writeItem (record : List (String × Value)) :
    ∀ a ∈ writeItem arr k record, a.isError = false :=
  List.forall_mem_cons.mpr ⟨rfl, List.forall_mem_map.mpr fun _ _ => rfl⟩

/-- **The array keeps the records**, in the order they come. -/
theorem FillsItems.kept {doc : Document Value} (h : FillsItems arr 0 actions records)
    (hcalm : ∀ a ∈ actions, a.Calm) (hok : Completes actions)
    (harr : arr.getLast? ≠ some (.name "error")) (hfresh : Fresh (root ++ arr) doc) :
    ItemsKept arr records (applyAll doc actions) := by
  have hadded := applyAll_added doc hcalm hok
  have hempty : doc.items (root ++ arr) = [] :=
    items_eq_nil fun n hn => hfresh _ hn (List.prefix_append _ _)
  refine ⟨?_, ?_⟩
  · rw [hadded.items arr harr, hempty, h.pushes, List.map_map]
    rfl
  · intro j n
    have hnone : doc.get? (root ++ arr ++ [.item j] ++ [.name n]) = none := by
      rw [List.append_assoc]
      exact hfresh.get? (List.prefix_append _ _)
    rw [hadded.member _ n (isErrorItem_append_item harr), hnone, Option.or_none,
      lastWrite_setsOf_item, h.sets, lastWrite_recordWrites]

end Fill

/-! ## The members that are touched -/

section Of

variable {names : List String} {x : String}

theorem of_member (hx : x ∈ names) (name : String) (value : Value) :
    (PluginAction.set [.name x, .name name] value).Of names where
  calm := ⟨[.name x], name, rfl, isErrorItem_member root x⟩
  member := ⟨x, rfl, Or.inr hx⟩

theorem of_inner (hx : x ∈ names) (y name : String) (value : Value) :
    (PluginAction.set [.name x, .name y, .name name] value).Of names where
  calm := ⟨[.name x, .name y], name, rfl, isErrorItem_member (root ++ [.name x]) y⟩
  member := ⟨x, rfl, Or.inr hx⟩

theorem of_item (hx : x ∈ names) {rest : Path}
    (harr : (Key.name x :: rest).getLast? ≠ some (.name "error")) (k : Nat) (name : String)
    (value : Value) :
    (PluginAction.set (.name x :: rest ++ [.item k, .name name]) value).Of names where
  calm := by
    refine ⟨.name x :: rest ++ [.item k], name, by simp, ?_⟩
    rw [← List.append_assoc]
    exact isErrorItem_append_item harr
  member := ⟨x, rfl, Or.inr hx⟩

theorem of_error {node : PluginNode} (h : ∀ k ∈ node.path.head?, ∃ x ∈ names, k = .name x)
    (plugin message : String) (priority : Int) :
    (PluginAction.appendError node plugin message priority).Of names where
  calm := trivial
  member := by
    obtain ⟨_ | ⟨k, rest⟩, hbeside⟩ := node
    · exact ⟨"error", rfl, Or.inl rfl⟩
    · obtain ⟨x, hx, rfl⟩ := h k rfl
      exact ⟨x, rfl, Or.inr hx⟩

theorem of_passError (plugin message : String) (priority : Int) :
    (PluginAction.appendError passNode plugin message priority).Of names :=
  of_error (fun _ hk => absurd hk (by simp [passNode])) plugin message priority

theorem safe_error {node : PluginNode} (h : ∀ k ∈ node.path.head?, ∃ x ∈ names, k = .name x)
    (plugin message : String) {priority : Int} (hpriority : 0 ≤ priority ∧ priority ≤ 100) :
    (PluginAction.appendError node plugin message priority).Safe names :=
  ⟨of_error h plugin message priority, hpriority⟩

theorem safe_passError (plugin message : String) {priority : Int}
    (hpriority : 0 ≤ priority ∧ priority ≤ 100) :
    (PluginAction.appendError passNode plugin message priority).Safe names :=
  ⟨of_passError plugin message priority, hpriority⟩

theorem of_writeItem (hx : x ∈ names) {rest : Path}
    (harr : (Key.name x :: rest).getLast? ≠ some (.name "error")) (k : Nat)
    (record : List (String × Value)) :
    ∀ a ∈ writeItem (.name x :: rest) k record, a.Of names :=
  List.forall_mem_cons.mpr ⟨⟨harr, x, rfl, Or.inr hx⟩,
    List.forall_mem_map.mpr fun m _ => of_item hx harr k m.1 m.2⟩

end Of

end Sitter
