/-
# `Sitter.LogDefinition` — the definitions of the log plugin

`load_config` reads one configuration file into a definition: where the logs
are, how large they may get, and who may own them with which permissions.  The
permissions are a pair `(mode, mask)` and are written in one of two ways:

    0640/0777      octal digits, and after a slash those of the mask
    <who><op><p>   letters: `who` over u, g, o and a, an operator +, - or =,
                   and permissions over r, w, x, s and t

The digits are those from `'0'` to `'8'`, as the source compares them.  The
letters are gone through by two loops: `readWho` until the operator and
`readPerms` after it; `applyFlags` and `applyOperator` make a pair of what the
loops have collected.  An `int` is a `BitVec 32`.

What load_config throws names its own kind and text (`LogError`).
-/
import Sitter.Platform

namespace Sitter

/-! ## The data -/

inductive LogError where
  | missingParameter (what : String)
  | invalidParameter (what : String)
  | logicError (what : String)
  deriving DecidableEq, Repr

theorem bind_eq_ok {α β : Type} {x : Except LogError α} {f : α → Except LogError β} {b : β} :
    x.bind f = .ok b ↔ ∃ a, x = .ok a ∧ f a = .ok b := by
  cases x with
  | error e => simp [Except.bind]
  | ok a => simp [Except.bind]

/-- `search` -/
structure LogSearch where
  regex : String
  reportAs : String
  deriving DecidableEq, Repr

/-- `definition` -/
structure LogDefinition where
  name : String
  mandatory : Bool
  secure : Bool := false
  path : String := "/var/log"
  patterns : List String := ["*.log"]
  maxSize : Nat := 0
  uid : BitVec 32 := -1
  gid : BitVec 32 := -1
  mode : BitVec 32 := 0
  modeMask : BitVec 32 := 0o7777
  searches : List LogSearch := []
  firstPattern : Bool := true
  deriving DecidableEq, Repr

structure LogFile where
  filename : String
  params : ConfFile
  sections : List String

/-- The functions `load_config` calls: `trim_string`, `validator_size`, and the
numbers of users and groups. -/
structure LogHost where
  lib : Advgetopt
  trimString : String → String
  size : String → Option Int
  uidOf : String → Option (BitVec 32)
  gidOf : String → Option (BitVec 32)

/-! ## Modes

A mode is written with octal digits or with letters.  Both give the bits that
are asked for and a mask; the branches and their errors are those of the
loader. -/

section Mode

variable (filename modeText : String)

/-- The test for an octal digit. -/
def isOctal (c : Char) : Bool := '0' ≤ c && c ≤ '8'

/-- The value of the digits at the start, and what follows them. -/
def readOctal : BitVec 32 → List Char → BitVec 32 × List Char
  | n, [] => (n, [])
  | n, c :: rest =>
      if isOctal c then readOctal (n * 8 + BitVec.ofNat 32 (c.toNat - '0'.toNat)) rest
      else (n, c :: rest)

/-- A mode written with digits. -/
def numericMode (chars : List Char) : Except LogError (BitVec 32 × BitVec 32) :=
  let mode := readOctal 0 chars
  match mode.2 with
  | [] => .ok (mode.1, 0)
  | '/' :: rest =>
      let mask := readOctal 0 rest
      if mask.2 = [] then .ok (mode.1, mask.1)
      else
        .error (.invalidParameter ("invalid numeric mode \"" ++ modeText ++ "\" found in \""
          ++ filename ++ "\"; it must have a numeric mask."))
  | _ =>
      .error (.invalidParameter ("invalid numeric mode \"" ++ modeText ++ "\" found in \""
        ++ filename ++ "\"; it must be one or two octal numbers separated by a slash."))

/-- The first loop: the flags, the operator if there is one, and what follows.
It ends at the first operator, so a second one is for the other loop. -/
def readWho : BitVec 32 → List Char → Except LogError (BitVec 32 × Option Char × List Char)
  | flags, [] => .ok (flags, none, [])
  | flags, c :: rest =>
      match c with
      | 'u' => readWho (flags ||| 0o700) rest
      | 'g' => readWho (flags ||| 0o070) rest
      | 'o' => readWho (flags ||| 0o007) rest
      | 'a' => readWho (flags ||| 0o777) rest
      | '+' | '-' | '=' =>
          -- default is 'a' if undefined
          .ok (if flags = 0 then 0o777 else flags, some c, rest)
      | _ =>
          .error (.invalidParameter ("unknown character '" ++ String.singleton c
            ++ "' for mode and/or operator; expected one or more of u, g, o, a, +, -, or =."))

/-- The second loop: `mode` and `upper_mode`. -/
def readPerms : BitVec 32 → BitVec 32 → List Char → Except LogError (BitVec 32 × BitVec 32)
  | mode, upper, [] => .ok (mode, upper)
  | mode, upper, c :: rest =>
      match c with
      | 'r' => readPerms (mode ||| 0o004) upper rest
      | 'w' => readPerms (mode ||| 0o002) upper rest
      | 'x' => readPerms (mode ||| 0o001) upper rest
      | 's' => readPerms mode (upper ||| 0o6000) rest
      | 't' => readPerms mode (upper ||| 0o1000) rest
      | _ =>
          .error (.invalidParameter ("unknown character '" ++ String.singleton c
            ++ "' for actual mode; expected one or more of r, w, x, s, or t."))

/-- The mode repeated as the flags say, and the upper mode. -/
def applyFlags (flags mode upper : BitVec 32) : BitVec 32 :=
  let mode := mode * flags
  let mode := if upper &&& 0o1000 ≠ 0 then mode ||| 0o1000 else mode
  if upper &&& 0o6000 ≠ 0 then
    mode ||| ((if flags &&& 0o700 ≠ 0 then 0o4000 else 0)
      ||| (if flags &&& 0o070 ≠ 0 then 0o2000 else 0))
  else mode

/-- The operator defines the mode versus the mask. -/
def applyOperator (op : Option Char) (mode : BitVec 32) :
    Except LogError (BitVec 32 × BitVec 32) :=
  match op with
  | some '+' => .ok (mode, mode)
  -- we can't set mode to zero
  | some '-' => .ok (mode ^^^ 0o777, mode)
  | some '=' => .ok (mode, 0o7777)
  | _ =>
      .error (.logicError
        "unexpected operator, did we add one above and are not properly handling it here?")

/-- A mode written with letters. -/
def symbolicMode (chars : List Char) : Except LogError (BitVec 32 × BitVec 32) :=
  (readWho 0 chars).bind fun who =>
    (readPerms 0 0 who.2.2).bind fun perms =>
      applyOperator who.2.1 (applyFlags who.1 perms.1 perms.2)

/-- The pair of a mode's text. -/
def parseMode : Except LogError (BitVec 32 × BitVec 32) :=
  match modeText.toList with
  | [] => .ok (0, 0)
  | c :: rest =>
      if isOctal c then numericMode filename modeText (c :: rest) else symbolicMode (c :: rest)

end Mode

/-! ## Definitions -/

namespace LogDefinition

/-- `set_user_name` -/
def setUserName (host : LogHost) (userName : String) (d : LogDefinition) : LogDefinition :=
  { d with uid := if userName = "" then -1 else (host.uidOf userName).getD (-1) }

/-- `set_group_name` -/
def setGroupName (host : LogHost) (groupName : String) (d : LogDefinition) : LogDefinition :=
  { d with gid := if groupName = "" then -1 else (host.gidOf groupName).getD (-1) }

/-- `add_pattern`: the first one replaces the default. -/
def addPattern (d : LogDefinition) (pattern : String) : LogDefinition :=
  { d with
    patterns := if d.firstPattern then [pattern] else d.patterns ++ [pattern]
    firstPattern := false }

/-- `set_mode` and `set_mode_mask`, where 0 is no mask. -/
def setMode (pair : BitVec 32 × BitVec 32) (d : LogDefinition) : LogDefinition :=
  { d with mode := pair.1, modeMask := if pair.2 = 0 then 0o7777 else pair.2 }

end LogDefinition

namespace LogFile

variable (host : LogHost) (file : LogFile)

/-- The name of a definition, which is not that of another one. -/
def readName (result : List LogDefinition) : Except LogError String :=
  match file.params "name" with
  | none =>
      .error (.missingParameter "the \"name\" parameter is mandatory in a log definition.")
  | some name =>
      if name = "" then
        .error (.invalidParameter
          "the \"name=...\" of a log definition cannot be the empty string.")
      else if result.any fun d => d.name = name then
        .error (.invalidParameter ("found log definition named \"" ++ name ++ "\" twice."))
      else .ok name

/-- `max_size`, as a `size_t`. -/
def readMaxSize (d : LogDefinition) : Except LogError LogDefinition :=
  match file.params "max_size" with
  | none => .ok d
  | some text =>
      match host.size text with
      | none =>
          .error (.invalidParameter ("the \"max-size=" ++ text ++ "\" found in log definition \""
            ++ file.filename ++ "\" is not considered a valid size."))
      | some size => .ok { d with maxSize := (size % 2 ^ 64).toNat }

/-- `mode` -/
def readMode (d : LogDefinition) : Except LogError LogDefinition :=
  match file.params "mode" with
  | none => .ok d
  | some text =>
      (parseMode file.filename (host.trimString text)).map fun pair => d.setMode pair

/-- The sections with a regular expression. -/
def readSearches (d : LogDefinition) : List String → Except LogError LogDefinition
  | [] => .ok d
  | sec :: sections =>
      match file.params (sec ++ "::regex") with
      | none => readSearches d sections
      | some regex =>
          if regex = "" then
            .error (.invalidParameter ("regular expression cannot be empty in \""
              ++ file.filename ++ "\"."))
          else
            let reportAs := (file.params (sec ++ "::report_as")).getD "error"
            readSearches { d with searches := d.searches ++ [⟨regex, reportAs⟩] } sections

/-- The parameters that are taken as they are.  The patterns come from `path`. -/
def readTexts (name : String) : LogDefinition :=
  let wl : LogDefinition :=
    { name, mandatory := ((file.params "mandatory").map host.lib.isTrue).getD false }
  let wl :=
    match file.params "secure" with
    | none => wl
    | some secure => { wl with secure := host.lib.isTrue secure }
  let wl :=
    match file.params "path" with
    | none => wl
    | some path => { wl with path }
  let wl :=
    match file.params "path" with
    | none => wl
    | some patterns => (host.lib.splitString patterns [":"]).foldl LogDefinition.addPattern wl
  let wl :=
    match file.params "user_name" with
    | none => wl
    | some userName => wl.setUserName host userName
  match file.params "group_name" with
  | none => wl
  | some groupName => wl.setGroupName host groupName

/-- `load_config` -/
def loadConfig (result : List LogDefinition) : Except LogError (List LogDefinition) :=
  (file.readName result).bind fun name =>
    (file.readMaxSize host (file.readTexts host name)).bind fun wl =>
      (file.readMode host wl).bind fun wl =>
        (file.readSearches wl file.sections).bind fun wl => .ok (result ++ [wl])

end LogFile

end Sitter
