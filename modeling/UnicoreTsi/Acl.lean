/-
# UnicoreTsi.Acl — file access control lists.

`processAcl` finds out which kind of ACL the file system of the path supports and runs the configured
`getfacl` or `setfacl`.  The paths of `tsi.acl` are used as regular expressions, so matching them is an
answer of the host.
-/
import UnicoreTsi.Connector

set_option autoImplicit false

namespace UnicoreTsi.Acl

open UnicoreTsi.Text UnicoreTsi.Effects UnicoreTsi.Utils UnicoreTsi.Connector

/-! ## Which ACLs a path supports -/

/-- The entry whose match is longest, the first of several; `size` is the length matched so far. -/
def bestMatch (host : Host) (path : Str) : List (Str × Str) → Nat → Str → Except PyExc Str
  | [], _, best => .ok best
  | (key, value) :: rest, size, best =>
      match host.reMatch ('^' :: key) path with
      | .error e => .error e
      | .ok none => bestMatch host path rest size best
      | .ok (some n) =>
          if n > size then bestMatch host path rest n value
          else bestMatch host path rest size best

/-- `check_support`: `POSIX`, `NFS` or `NONE`. -/
def checkSupport (path : Option Str) (acl : List (Str × Str)) : Handler Str := do
  let path ← ofExcept (pathArg path)
  -- `os.path.abspath` asks for the working directory when the path is relative
  if path.head? ≠ some '/' then
    sysCall .getcwd
  let r ← ask
  ofExcept (bestMatch r.host path acl 0 "NONE".toList)

/-! ## Reading ACLs -/

def getfaclNfs : Handler Unit := pure ()

def setfaclNfs : Handler Unit := pure ()

/-- The lines of the `getfacl` output that are passed on. -/
def isAclLine (line : Str) : Bool :=
  ["user".toList, "group".toList, "default:user".toList, "default:group".toList].any
    fun p => p.isPrefixOf line

def writeLines : List Str → Handler Unit
  | [] => pure ()
  | line :: rest => do
      if isAclLine line then
        writeMessage line
      writeLines rest

def getfaclPosix (path : Str) (config : Settings) : Handler Unit := do
  let command := config.getfacl ++ " ".toList ++ path
  let (success, result) ← runCommand command false false config.useLoginShell
  if success then
    ok none
    writeLines (splitlines result)
  else
    failed (some result)

/-! ## Changing ACLs -/

/-- `val.split(" ")` -/
def splitBlanks (val : Str) : List Str := val.splitOn ' '

/-- `s[i]` -/
def item (xs : List Str) (i : Nat) : Except PyExc Str :=
  match xs[i]? with
  | some x => .ok x
  | none => .error (indexError "list index out of range")

/-- `re.match(r"[D]?" + c, s)` -/
def isClass (c : Char) (s : Str) : Bool := [c].isPrefixOf s || ['D', c].isPrefixOf s

def preparePosixArg (val : Str) (remove : Bool) : Except PyExc Str := do
  let oargs := splitBlanks val
  let kind ← item oargs 0
  let ret ←
    if isClass 'U' kind then (item oargs 1).map ("user:".toList ++ ·)
    else if isClass 'G' kind then (item oargs 1).map ("group:".toList ++ ·)
    else .ok []
  if remove then
    return ret
  else
    let permissions ← item oargs 2
    return ret ++ ":".toList ++ permissions

/-- `"..." in op` -/
def mentions (word : String) (op : Option Str) : Except PyExc Bool :=
  match op with
  | some op => .ok (contains word.toList op)
  | none => .error (typeError "argument of type 'NoneType' is not iterable")

def runSetfacl (command : Str) (config : Settings) : Handler Unit := do
  let (success, result) ← runCommand command false false config.useLoginShell
  if success then ok none else failed (some result)

def setfaclPosix (path : Str) (op val : Option Str) (config : Settings) : Handler Unit := do
  let isRecursive ← ofExcept (mentions "RECURSIVE" op)
  let recursive := if isRecursive then "-R ".toList else []
  let rmAll ← ofExcept (mentions "RM_ALL" op)
  if rmAll then
    runSetfacl (config.setfacl ++ " -b ".toList ++ recursive ++ "'".toList ++ path ++ "'".toList) config
  else
    let val ← ofExcept (match val with
      | some v => .ok v
      | none => .error (attributeError "'NoneType' object has no attribute 'startswith'"))
    let baseArg := if ['D'].isPrefixOf val then "-d ".toList else []
    let modify ← ofExcept (mentions "MODIFY" op)
    let rm ← ofExcept (mentions "RM" op)
    if !modify && !rm then
      failed (some "WRONG SETFACL SYNTAX".toList)
    else
      let action := if modify then "-m".toList else "-x".toList
      let arg ← ofExcept (preparePosixArg val (!modify))
      runSetfacl (config.setfacl ++ " ".toList ++ recursive ++ " ".toList ++ baseArg ++ action ++
        " ".toList ++ arg ++ " '".toList ++ path ++ "'".toList) config

/-! ## Requests -/

def unsupported (what : String) : Str :=
  "ERROR: ".toList ++ what.toList ++ " ACL on this file system is unsupported.".toList

/-- `GETFACL` on a path with this kind of ACL. -/
def getAcl (support : Str) (path : Option Str) (config : Settings) : Handler Unit :=
  if support = "POSIX".toList then getfaclPosix (optText path) config
  else if support = "NFS".toList then getfaclNfs
  else failed (some (unsupported "Getting"))

/-- Report a missing parameter; the request goes on all the same. -/
def reportMissing (value : Option Str) (name : String) : Handler Unit :=
  if value = none then failed (some ("Missing parameter ".toList ++ name.toList)) else pure ()

/-- `SETFACL` on a path with this kind of ACL. -/
def setAcl (support : Str) (path command commandSpec : Option Str) (config : Settings) : Handler Unit := do
  reportMissing commandSpec "TSI_ACL_COMMAND_SPEC"
  reportMissing command "TSI_ACL_COMMAND"
  if support = "POSIX".toList then setfaclPosix (optText path) command commandSpec config
  else if support = "NFS".toList then setfaclNfs
  else failed (some (unsupported "Setting"))

def processAcl (msg : Str) (config : Settings) : Handler Unit := do
  let operation := extractParameter msg "ACL_OPERATION".toList
  let path := extractParameter msg "ACL_PATH".toList
  if operation = some "CHECK_SUPPORT".toList then
    let support ← checkSupport path config.acl
    if support = "NONE".toList then ok (some "false".toList) else ok (some "true".toList)
  else if operation = some "GETFACL".toList then
    let support ← checkSupport path config.acl
    getAcl support path config
  else if operation = some "SETFACL".toList then
    let support ← checkSupport path config.acl
    setAcl support path (extractParameter msg "ACL_COMMAND".toList)
      (extractParameter msg "ACL_COMMAND_SPEC".toList) config
  else
    failed (some ("UNSUPPORTED_OPERATION: '".toList ++ optText operation ++ "'".toList))

end UnicoreTsi.Acl
