/-
# `Sitter.Records` — what a plugin leaves in the document

The actions of a plugin that sets members and appends errors (`Plain`) leave
behind, in the document,

    at a member     the value of the last write to it (`Base.LastWrite`)
    as entries      those that were there, then one for each error

(`processWatch_plain`).  A record is what such a plugin tells of one thing: the
members of its node and the errors that are attached to it.  A document keeps a
list of records if they can be placed on its nodes (`RecordsKept`).

Where a plugin writes all its records to one node (`SharesNode`) the document
has the members of the last of them there and no record anywhere else.
-/
import Sitter.Base.LastWrite
import Sitter.RunPlugins

namespace Sitter

open Document LastWrite

/-! ## Plain actions

A plain action leaves the members of an error entry alone, so the entries that
are there keep what they say. -/

/-- A member that an error entry has. -/
def isErrorMember (name : String) : Bool :=
  name == "plugin_name" || name == "message" || name == "priority"

/-- The action sets a member no error entry has, or appends an error. -/
def PluginAction.Plain : PluginAction → Prop
  | .set path _ => ∃ p name, path = p ++ [.name name] ∧ isErrorMember name = false
  | .push _ _ => False
  | .appendError _ _ _ priority => 0 ≤ priority ∧ priority ≤ 100
  | .throw _ => False

/-- The members the actions set, as writes. -/
def setsOf (actions : List PluginAction) : List (Path × Value) :=
  actions.filterMap fun a =>
    match a with
    | .set path value => some (root ++ path, value)
    | _ => none

/-- The errors the actions append, as entries. -/
def entriesOf (actions : List PluginAction) : List ErrorEntry :=
  actions.filterMap fun a =>
    match a with
    | .appendError node plugin message priority =>
        some (ErrorEntry.of (root ++ node.path) plugin message priority)
    | _ => none

/-- A document before and after plain actions. -/
structure Written (before after : Document Value) (actions : List PluginAction) : Prop where
  entries : errorEntries after = errorEntries before ++ entriesOf actions
  member : ∀ (p : Path) (name : String), isErrorMember name = false →
    after.get? (p ++ [.name name]) =
      (lastWrite (setsOf actions) (p ++ [.name name])).or (before.get? (p ++ [.name name]))

theorem member_ne {p q : Path} {a b : String} (h : a ≠ b) : p ++ [Key.name a] ≠ q ++ [.name b] := by
  intro heq
  have hlast := List.append_inj_right' heq rfl
  simp only [List.cons.injEq, Key.name.injEq, and_true] at hlast
  exact h hlast

theorem errorEntries_set {doc : Document Value} {p : Path} {name : String} {value : Value}
    (hname : isErrorMember name = false) :
    errorEntries (doc.set (p ++ [.name name]) value) = errorEntries doc := by
  simp only [isErrorMember, Bool.or_eq_false_iff, beq_eq_false_iff_ne] at hname
  obtain ⟨⟨hplugin, hmessage⟩, hpriority⟩ := hname
  have hentry : entryAt (doc.set (p ++ [.name name]) value) = entryAt doc := by
    funext q
    simp only [entryAt]
    rw [get?_set_ne doc (member_ne hplugin.symm), get?_set_ne doc (member_ne hmessage.symm),
      get?_set_ne doc (member_ne hpriority.symm)]
  simp only [errorEntries, hentry]
  rw [filter_paths_set (isErrorItem_member p name)]

theorem get?_appendError {s : Server} {doc : Document Value} {node p : Path}
    {plugin message name : String} {priority : Int} (hname : isErrorMember name = false) :
    (s.appendError doc node plugin message priority).doc.get? (p ++ [.name name]) =
      doc.get? (p ++ [.name name]) := by
  simp only [isErrorMember, Bool.or_eq_false_iff, beq_eq_false_iff_ne] at hname
  obtain ⟨⟨hplugin, hmessage⟩, hpriority⟩ := hname
  have hitem : ∀ items : Path, p ++ [.name name] ≠ doc.itemPath items := by
    intro items heq
    have hlast := List.append_inj_right' heq rfl
    simp at hlast
  simp only [Server.appendError]
  split
  · rfl
  · simp only [errorFields, setMembers_cons, setMembers_nil]
    rw [get?_set_ne _ (member_ne hpriority), get?_set_ne _ (member_ne hmessage),
      get?_set_ne _ (member_ne hplugin), push, get?_set_ne _ (hitem _)]

theorem pluginAction_plain (st : PassState) {a : PluginAction} (ha : a.Plain) :
    (pluginAction st a).2 = none ∧ Written st.doc (pluginAction st a).1.doc [a] := by
  cases a with
  | set path value =>
      obtain ⟨p, name, rfl, hname⟩ := ha
      refine ⟨rfl, ?_, ?_⟩
      · simp only [pluginAction, ← List.append_assoc]
        rw [errorEntries_set hname]
        exact (List.append_nil _).symm
      · intro q other _
        have hwrite : lastWrite (setsOf [.set (p ++ [.name name]) value]) (q ++ [.name other]) =
            if q ++ [.name other] = root ++ (p ++ [.name name]) then some value else none :=
          lastWrite_concat [] _ _
        rw [hwrite]
        simp only [pluginAction]
        split
        · next h =>
            rw [h, get?_set_self]
            rfl
        · next h => exact get?_set_ne _ h _
  | push path value => exact absurd ha id
  | appendError node plugin message priority =>
      refine ⟨appendError_raised.mpr ha, errorEntries_appendError ha.1 ha.2, ?_⟩
      intro q other hother
      exact get?_appendError hother
  | throw what => exact ha.elim

/-- **The plain actions of a plugin get to their end**, and what they leave is
what was written last and every error they append. -/
theorem processWatch_plain {actions : List PluginAction} (hplain : ∀ a ∈ actions, a.Plain)
    (st : PassState) :
    (processWatch st actions).2 = none ∧
      Written st.doc (processWatch st actions).1.doc actions := by
  induction actions generalizing st with
  | nil => exact ⟨rfl, (List.append_nil _).symm, fun _ _ _ => rfl⟩
  | cons a as ih =>
      obtain ⟨ha, has⟩ := List.forall_mem_cons.mp hplain
      obtain ⟨hnone, hentries, hmember⟩ := pluginAction_plain st ha
      have hpair : pluginAction st a = ((pluginAction st a).1, none) := Prod.ext rfl hnone
      obtain ⟨hnone', hentries', hmember'⟩ := ih has (pluginAction st a).1
      have hsets : setsOf (a :: as) = setsOf [a] ++ setsOf as :=
        List.filterMap_append (l := [a])
      have herrors : entriesOf (a :: as) = entriesOf [a] ++ entriesOf as :=
        List.filterMap_append (l := [a])
      rw [processWatch, hpair]
      refine ⟨hnone', ?_, ?_⟩
      · rw [hentries', hentries, herrors, List.append_assoc]
      · intro p name hname
        rw [hmember' p name hname, hmember p name hname, hsets, lastWrite_append, Option.or_assoc]

/-! ## Records -/

/-- What a plugin tells of one thing: the members of its node, and the errors
attached to it, each a message and a priority. -/
structure Record where
  members : List (String × Value)
  errors : List (String × Int)
  deriving DecidableEq

namespace Record

variable (r : Record)

/-- The members as writes to a node. -/
def setsOn (n : Path) : List (Path × Value) := r.members.map fun m => (n ++ [.name m.1], m.2)

/-- The errors as entries of a node. -/
def entriesOn (plugin : String) (n : Path) : List ErrorEntry :=
  r.errors.map fun e => ErrorEntry.of n plugin e.1 e.2

/-- The actions that write a record to a node. -/
def writeTo (node : PluginNode) (plugin : String) : List PluginAction :=
  r.members.map (fun m => .set (node.path ++ [.name m.1]) m.2) ++
    r.errors.map fun e => .appendError node plugin e.1 e.2

theorem raisedPriorities_writeTo (node : PluginNode) (plugin : String) :
    raisedPriorities (r.writeTo node plugin) = r.errors.map Prod.snd := by
  have hmembers : (r.members.map fun m => PluginAction.set (node.path ++ [.name m.1]) m.2).filterMap
      PluginAction.raises = [] := by
    rw [List.filterMap_map, List.filterMap_eq_nil_iff]
    intro m _
    rfl
  rw [raisedPriorities, writeTo, List.filterMap_append, hmembers, List.nil_append,
    List.filterMap_map]
  show r.errors.filterMap (fun e => some e.2) = _
  rw [List.filterMap_eq_map']

/-- What a plugin can write without harm to an error entry. -/
def Plain : Prop :=
  (∀ m ∈ r.members, isErrorMember m.1 = false) ∧ ∀ e ∈ r.errors, 0 ≤ e.2 ∧ e.2 ≤ 100

end Record

/-- The node has the members of the record. -/
def HoldsRecord (doc : Document Value) (n : Path) (r : Record) : Prop :=
  ∀ m ∈ r.members, doc.get? (n ++ [.name m.1]) = some m.2

/-- The records are on these nodes, each with the errors of the records there
and no error of another one. -/
structure Placed (base : Path) (plugin : String) (doc : Document Value)
    (placed : List (Path × Record)) : Prop where
  below : ∀ x ∈ placed, base <+: x.1
  holds : ∀ x ∈ placed, HoldsRecord doc x.1 x.2
  attached : ∀ x ∈ placed, (errorEntries doc).filter (fun e => e.node = x.1) =
    (placed.filter fun y => y.1 = x.1).flatMap fun y => y.2.entriesOn plugin y.1
  noOther : ∀ e ∈ errorEntries doc, base <+: e.node → (∀ x ∈ placed, x.1 ≠ e.node) →
    ∀ x ∈ placed, e ∉ x.2.entriesOn plugin e.node

/-- The document has all the records somewhere below the base. -/
def RecordsKept (base : Path) (plugin : String) (records : List Record)
    (doc : Document Value) : Prop :=
  ∃ placed, placed.map Prod.snd = records ∧ Placed base plugin doc placed

/-- Nothing was put below the base so far. -/
def Fresh (base : Path) (doc : Document Value) : Prop := ∀ q ∈ doc.paths, ¬ base <+: q

theorem Fresh.get? {base q : Path} {doc : Document Value} (h : Fresh base doc) (hq : base <+: q) :
    doc.get? q = none :=
  get?_of_not_mem fun hmem => h q hmem hq

/-- A pass before its plugins, with a document that has nothing in it. -/
def PassState.blank : PassState :=
  ⟨Server.create (Options.mail "a@x.net" "b@x.net"), Document.empty⟩

theorem fresh_empty (base : Path) : Fresh base Document.empty := List.forall_mem_nil _

theorem Fresh.entries {base : Path} {doc : Document Value} (h : Fresh base doc) :
    ∀ e ∈ errorEntries doc, ¬ base <+: e.node := by
  intro e he hbase
  obtain ⟨q, hq, rfl⟩ := List.mem_map.mp he
  refine h q (List.mem_filter.mp hq).1 (hbase.trans ?_)
  exact (List.dropLast_prefix _).trans (List.dropLast_prefix _)

/-! ## Records on one node

Records that are written to one node one after the other share its members.
The last one is there, and an earlier one is only if it has the same members. -/

/-- The actions write all the records to one node, one after the other. -/
structure SharesNode (node : PluginNode) (plugin : String) (actions : List PluginAction)
    (records : List Record) : Prop where
  plain : ∀ a ∈ actions, a.Plain
  sets : setsOf actions = records.flatMap fun r => r.setsOn (root ++ node.path)
  entries : (entriesOf actions).filter (fun e => e.node = root ++ node.path) =
    records.flatMap fun r => r.entriesOn plugin (root ++ node.path)

section Shares

variable {node : PluginNode} {plugin : String}

theorem sharesNode_nil : SharesNode node plugin [] [] where
  plain := List.forall_mem_nil _
  sets := rfl
  entries := rfl

theorem SharesNode.append {actions actions' : List PluginAction} {records records' : List Record}
    (h : SharesNode node plugin actions records) (h' : SharesNode node plugin actions' records') :
    SharesNode node plugin (actions ++ actions') (records ++ records') where
  plain := List.forall_mem_append.mpr ⟨h.plain, h'.plain⟩
  sets := by
    rw [setsOf, List.filterMap_append, List.flatMap_append, ← h.sets, ← h'.sets]
    rfl
  entries := by
    rw [entriesOf, List.filterMap_append, List.filter_append, List.flatMap_append, ← h.entries,
      ← h'.entries]
    rfl

theorem SharesNode.flatMap {α : Type} {f : α → List PluginAction} {g : α → List Record}
    {xs : List α} (h : ∀ x ∈ xs, SharesNode node plugin (f x) (g x)) :
    SharesNode node plugin (xs.flatMap f) (xs.flatMap g) := by
  induction xs with
  | nil => exact sharesNode_nil
  | cons x xs ih =>
      obtain ⟨hx, hxs⟩ := List.forall_mem_cons.mp h
      exact hx.append (ih hxs)

theorem sharesNode_writeTo {r : Record} (hr : r.Plain) :
    SharesNode node plugin (r.writeTo node plugin) [r] where
  plain := by
    refine List.forall_mem_append.mpr ⟨?_, ?_⟩
    · refine List.forall_mem_map.mpr ?_
      intro m hm
      exact ⟨node.path, m.1, rfl, hr.1 m hm⟩
    · exact List.forall_mem_map.mpr hr.2
  sets := by
    simp [setsOf, Record.writeTo, Record.setsOn, List.filterMap_append, List.filterMap_map]
  entries := by
    simp [entriesOf, Record.writeTo, Record.entriesOn, List.filterMap_append, List.filterMap_map]
    rintro e message priority - rfl
    rfl

theorem sharesNode_elsewhere {other : PluginNode} (hne : other.path ≠ node.path)
    {name message : String} {priority : Int} (hlo : 0 ≤ priority) (hhi : priority ≤ 100) :
    SharesNode node plugin [.appendError other name message priority] [] where
  plain := by
    intro a ha
    obtain rfl := List.mem_singleton.mp ha
    exact ⟨hlo, hhi⟩
  sets := rfl
  entries := by
    have hnode : root ++ other.path ≠ root ++ node.path := fun h => hne (List.append_cancel_left h)
    simp [entriesOf, ErrorEntry.of, hnode]

variable {base : Path} {st : PassState} {actions : List PluginAction} {records : List Record}

theorem SharesNode.node_of_holds (h : SharesNode node plugin actions records)
    (hfresh : Fresh base st.doc) {n : Path} {r : Record} {m : String × Value}
    (hm : m ∈ r.members) (hname : isErrorMember m.1 = false) (hbelow : base <+: n)
    (hholds : HoldsRecord (processWatch st actions).1.doc n r) : n = root ++ node.path := by
  have hget := hholds m hm
  rw [(processWatch_plain h.plain st).2.member n m.1 hname,
    hfresh.get? (hbelow.trans (List.prefix_append n _)), Option.or_none] at hget
  obtain ⟨v, hv⟩ := lastWrite_isSome.mp (Option.isSome_of_eq_some hget)
  rw [h.sets] at hv
  obtain ⟨s, -, hs⟩ := List.mem_flatMap.mp hv
  obtain ⟨k, -, hk⟩ := List.mem_map.mp hs
  exact (List.append_inj_left' (congrArg Prod.fst hk) rfl).symm

theorem SharesNode.holds_last {rs : List Record} {r : Record}
    (h : SharesNode node plugin actions (rs ++ [r])) (hnodup : (r.members.map Prod.fst).Nodup)
    (hnames : ∀ m ∈ r.members, isErrorMember m.1 = false) :
    HoldsRecord (processWatch st actions).1.doc (root ++ node.path) r := by
  have hinj : Function.Injective fun name : String => root ++ node.path ++ [Key.name name] := by
    intro a b hab
    by_contra hne
    exact member_ne hne hab
  intro m hm
  have hlast : lastWrite (r.setsOn (root ++ node.path)) (root ++ node.path ++ [.name m.1]) =
      some m.2 :=
    (lastWrite_map hinj r.members m.1).trans (lastWrite_of_nodup hnodup hm)
  rw [(processWatch_plain h.plain st).2.member _ m.1 (hnames m hm), h.sets, List.flatMap_append,
    List.flatMap_singleton, lastWrite_append, hlast]
  rfl

/-- Two records with the same names on one node are the same. -/
theorem members_eq {doc : Document Value} {n : Path} {r s : Record}
    (hr : HoldsRecord doc n r) (hs : HoldsRecord doc n s)
    (hnames : r.members.map Prod.fst = s.members.map Prod.fst) : r.members = s.members := by
  have hread : ∀ t : Record, HoldsRecord doc n t →
      t.members.map (fun m => (m.1, some m.2)) =
        (t.members.map Prod.fst).map fun k => (k, doc.get? (n ++ [.name k])) := by
    intro t ht
    rw [List.map_map]
    refine List.map_congr_left ?_
    intro m hm
    simp only [Function.comp_apply, ht m hm]
  have hinj : Function.Injective fun m : String × Value => (m.1, some m.2) := by
    rintro ⟨a, v⟩ ⟨b, w⟩ hab
    simpa using hab
  refine List.map_injective_iff.mpr hinj ?_
  rw [hread r hr, hread s hs, hnames]

theorem SharesNode.placed (h : SharesNode node plugin actions records)
    (hfresh : Fresh base st.doc) (hbase : base <+: root ++ node.path)
    (hholds : ∀ r ∈ records,
      HoldsRecord (processWatch st actions).1.doc (root ++ node.path) r)
    (hother : ∀ e ∈ entriesOf actions, e.node ≠ root ++ node.path →
      ∀ r ∈ records, e ∉ r.entriesOn plugin e.node) :
    Placed base plugin (processWatch st actions).1.doc
      (records.map fun r => (root ++ node.path, r)) where
  below := List.forall_mem_map.mpr fun _ _ => hbase
  holds := List.forall_mem_map.mpr hholds
  attached := by
    refine List.forall_mem_map.mpr ?_
    intro r _
    have hbefore : (errorEntries st.doc).filter (fun e => e.node = root ++ node.path) = [] := by
      rw [List.filter_eq_nil_iff]
      intro e he hnode
      exact hfresh.entries e he (of_decide_eq_true hnode ▸ hbase)
    have hall : (records.map fun r => (root ++ node.path, r)).filter
        (fun y => y.1 = root ++ node.path) = records.map fun r => (root ++ node.path, r) := by
      refine List.filter_eq_self.mpr (List.forall_mem_map.mpr ?_)
      intro s _
      exact decide_eq_true rfl
    rw [(processWatch_plain h.plain st).2.entries, List.filter_append, hbefore, List.nil_append,
      h.entries, hall, List.flatMap_map]
  noOther := by
    intro e he hbelow haway x hx
    obtain ⟨r, hr, rfl⟩ := List.mem_map.mp hx
    rw [(processWatch_plain h.plain st).2.entries] at he
    rcases List.mem_append.mp he with hold | hnew
    · exact absurd hbelow (hfresh.entries e hold)
    · exact hother e hnew (haway _ hx).symm r hr

/-- **Records on one node are kept exactly if they all are the same one.** -/
theorem SharesNode.recordsKept_iff (h : SharesNode node plugin actions records)
    (hfresh : Fresh base st.doc) (hbase : base <+: root ++ node.path) (names : List String)
    (hnames : ∀ r ∈ records, r.members.map Prod.fst = names) (hnodup : names.Nodup)
    (hplain : ∀ k ∈ names, isErrorMember k = false) (hne : names ≠ [])
    (hother : ∀ e ∈ entriesOf actions, e.node ≠ root ++ node.path →
      ∀ r ∈ records, e ∉ r.entriesOn plugin e.node) :
    RecordsKept base plugin records (processWatch st actions).1.doc ↔
      ∀ r ∈ records, ∀ s ∈ records, r.members = s.members := by
  have hmember : ∀ r ∈ records, ∀ m ∈ r.members, isErrorMember m.1 = false := by
    intro r hr m hm
    exact hplain m.1 (hnames r hr ▸ List.mem_map_of_mem hm)
  constructor
  · rintro ⟨placed, rfl, hplaced⟩
    have hholds : ∀ r ∈ placed.map Prod.snd,
        HoldsRecord (processWatch st actions).1.doc (root ++ node.path) r := by
      refine List.forall_mem_map.mpr ?_
      intro x hx
      have hr : x.2 ∈ placed.map Prod.snd := List.mem_map_of_mem hx
      obtain ⟨m, hm⟩ : ∃ m, m ∈ x.2.members := by
        refine List.exists_mem_of_ne_nil _ ?_
        intro hnil
        have hempty := hnames x.2 hr
        rw [hnil] at hempty
        exact hne hempty.symm
      rw [← h.node_of_holds hfresh hm (hmember x.2 hr m hm) (hplaced.below x hx)
        (hplaced.holds x hx)]
      exact hplaced.holds x hx
    intro r hr s hs
    exact members_eq (hholds r hr) (hholds s hs) ((hnames r hr).trans (hnames s hs).symm)
  · intro hsame
    have hmap : (records.map fun r => (root ++ node.path, r)).map Prod.snd = records := by
      rw [List.map_map]
      exact List.map_id records
    refine ⟨_, hmap, h.placed hfresh hbase ?_ hother⟩
    intro r hr
    rcases List.eq_nil_or_concat' records with rfl | ⟨rs, last, rfl⟩
    · exact absurd hr List.not_mem_nil
    · have hlast : last ∈ rs ++ [last] := List.mem_concat_self
      have hholds : HoldsRecord (processWatch st actions).1.doc (root ++ node.path) last :=
        h.holds_last (hnames last hlast ▸ hnodup) (hmember last hlast)
      rw [HoldsRecord, ← hsame r hr last hlast] at hholds
      exact hholds

end Shares

end Sitter
