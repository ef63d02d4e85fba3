/-
# UnicoreTsi.Io — file chunks, directory listings, free space.

The functions of `lib/IO.py`.  The two chunk transfers are loops over partial reads and writes: how much
each call transfers is an answer of the host, and a loop that would not end by itself runs on the fuel of
the context and diverges when that is used up.  `listDirectory` recurses into subdirectories as deep as
the interpreter's stack allows.
-/
import UnicoreTsi.Connector

set_option autoImplicit false

namespace UnicoreTsi.Io

open UnicoreTsi.Text UnicoreTsi.Effects UnicoreTsi.Regex UnicoreTsi.Utils UnicoreTsi.Connector

/-! ## Files -/

/-- `with open(path, mode) as f: body`; the file is closed however the body ends. -/
def withFile {α : Type} (path mode : Str) (body : Handler α) : Handler α := do
  sysCall (.open path mode)
  let a ← handle body fun e => do
    sysCall (.close path)
    raise e
  sysCall (.close path)
  return a

/-- `with open(path, "w") as f: f.write(content)` -/
def writeText (path content : Str) : Handler Unit :=
  withFile path "w".toList do
    modify fun s => { s with scripts := s.scripts ++ [(path, content)] }

/-- Append bytes to a file. -/
def appendFile (path : Str) (data : List UInt8) : Handler Unit :=
  modify fun s => { s with
    files := fun p => if p = path then some ((s.files path).getD [] ++ data) else s.files p }

/-- What opening a file for writing makes of its content: `w` truncates it, `a` keeps it. -/
def openForWriting (path mode : Str) : Handler Unit :=
  modify fun s => { s with
    files := fun p => if p = path then some (if mode = "ab".toList then (s.files path).getD [] else [])
      else s.files p }

/-! ## Reading a chunk -/

/-- `f.readinto(buf)` at offset `pos`: the bytes read, which overwrite the front of the buffer. -/
def readInto (path : Str) (pos bufLength : Nat) : Handler (List UInt8) := do
  let wanted ← attempt fun h t => h.fileRead t
  let s ← get
  let available := ((s.files path).getD []).drop pos
  return available.take (min bufLength (max 1 wanted))

/-- The read loop: the buffer and the number of bytes read. -/
def readChunk (path : Str) : Nat → Nat → List UInt8 → Nat → Int → Handler (List UInt8 × Nat)
  | 0, _, _, _, _ => diverge
  | fuel + 1, pos, buf, total, remaining =>
      if remaining > 0 then do
        let data ← readInto path pos buf.length
        if data = [] then
          return (buf, total)
        else
          -- `readinto` gets the whole buffer each time, so a second read starts over at its front
          readChunk path fuel (pos + data.length) (data ++ buf.drop data.length)
            (total + data.length) (remaining - data.length)
      else
        return (buf, total)

/-- The write loop over `buf[write_offset:total]`. -/
def writeChunk (buf : List UInt8) (total : Nat) : Nat → Nat → Int → Handler Unit
  | 0, _, _ => diverge
  | fuel + 1, writeOffset, mustWrite =>
      if mustWrite > 0 then do
        let written ← writeData ((buf.take total).drop writeOffset)
        writeChunk buf total fuel (writeOffset + written) (mustWrite - written)
      else
        return ()

def getFileChunk (msg : Str) (_config : Settings) : Handler Unit := do
  let r ← ask
  let path ← ofExcept (expandVariablesOpt r.environ (extractParameter msg "FILE".toList))
  let start ← ofExcept (pyIntOpt (extractParameter msg "START".toList))
  let length ← ofExcept (pyIntOpt (extractParameter msg "LENGTH".toList))
  withFile path "rb".toList do
    let seekable ← consult fun h t => h.seekable t path
    if seekable then
      sysCall (.seek path start)
    if length < 0 then
      raise (valueError "negative count")
    let pos := if seekable then start.toNat else 0
    let (buf, total) ← readChunk path r.fuel pos (List.replicate length.toNat 0) 0 length
    ok (some ("TSI_LENGTH ".toList ++ natText total ++ "\nENDOFMESSAGE".toList))
    writeChunk buf total r.fuel 0 total

/-! ## Writing a chunk -/

/-- `path_and_mode.rindex(" ")` and the two parts around it. -/
def splitLastSpace (s : Option Str) : Except PyExc (Str × Str) :=
  match s with
  | none => .error (attributeError "'NoneType' object has no attribute 'rindex'")
  | some s =>
      match splitOnce ' ' s.reverse with
      | none => .error (valueError "substring not found")
      | some (mode, path) => .ok (path.reverse, mode.reverse)

/-- `f.write(buf[write_offset:])` until the block is written. -/
def writeBlock (path : Str) : Nat → List UInt8 → Handler Unit
  | 0, _ => diverge
  | fuel + 1, block =>
      if block = [] then
        return ()
      else do
        let wanted ← attempt fun h t => h.fileWrite t
        let n := max 1 (min wanted block.length)
        appendFile path (block.take n)
        writeBlock path fuel (block.drop n)

/-- The copy loop from the data channel to the file. -/
def copyBlocks (path : Str) (blockFuel : Nat) : Nat → Int → Handler Unit
  | 0, _ => diverge
  | fuel + 1, remaining =>
      if remaining > 0 then do
        let buf ← readData remaining.toNat
        writeBlock path blockFuel buf
        copyBlocks path blockFuel fuel (remaining - buf.length)
      else
        return ()

def putFileChunk (msg : Str) (_config : Settings) : Handler Unit := do
  let r ← ask
  let (rawPath, mode) ← ofExcept (splitLastSpace (extractParameter msg "FILE".toList))
  let path := expandVariables r.environ rawPath
  let action := (extractParameter msg "FILESACTION".toList).getD "1".toList
  let length ← ofExcept (pyIntOpt (extractParameter msg "LENGTH".toList))
  let openMode := if action = "3".toList then "ab".toList else "wb".toList
  withFile path openMode do
    openForWriting path openMode
    ok (some "ENDOFMESSAGE".toList)
    copyBlocks path r.fuel r.fuel length
  handle
    (do
      let bits ← ofExcept (pyInt 8 mode)
      sysCall (.chmod path bits))
    fun e => if e.isOSError then pure () else raise e

/-! ## Listings -/

/-- The permission bits with the letters they print as. -/
def modeTable : List (Nat × Char) :=
  [(0o400, 'r'), (0o200, 'w'), (0o100, 'x'), (0o040, 'r'), (0o020, 'w'), (0o010, 'x'), (0o004, 'r'),
    (0o002, 'w'), (0o001, 'x')]

def permissionText (mode : Nat) : Str :=
  modeTable.map fun p => if mode &&& p.1 ≠ 0 then p.2 else '-'

/-- `stat.S_ISDIR` -/
def isDirMode (mode : Nat) : Bool := decide (mode &&& 0o170000 = 0o040000)

def flag (set : Bool) (c : Char) : Str := if set then [c] else [' ']

/-- `TSI_LS` listing for a single file. -/
def getInfo (path : Str) : Handler Str := do
  let statinfo ← attempt fun h t => h.stat t path
  let isRead ← consult fun h t => h.access t path 'R'
  let isWrite ← consult fun h t => h.access t path 'W'
  let isExec ← consult fun h t => h.access t path 'X'
  let euid ← consult fun h t => h.geteuid t
  let path := path.map fun c => if c = '\r' ∨ c = '\n' then '?' else c
  let pwdEntry ← attempt fun h t => h.getpwuid t statinfo.uid
  let user := pwdEntry.getD (intText statinfo.uid)
  let grpEntry ← attempt fun h t => h.getgrgid t statinfo.gid
  let group := grpEntry.getD (intText statinfo.gid)
  return " ".toList ++ flag (isDirMode statinfo.mode) 'D' ++ flag isRead 'R' ++ flag isWrite 'W' ++
    flag isExec 'X' ++ flag (euid = statinfo.uid) 'O' ++ " ".toList ++ natText statinfo.size ++
    " ".toList ++ intText statinfo.mtime ++ " ".toList ++ path ++ "\n--".toList ++
    permissionText statinfo.mode ++ " ".toList ++ user ++ " ".toList ++ group

/-- `os.path.join` -/
def pathJoin (path entry : Str) : Str :=
  if entry.head? = some '/' then entry
  else if path = [] ∨ path.getLast? = some '/' then path ++ entry
  else path ++ '/' :: entry

def recursionError : PyExc :=
  { kind := .recursionError, text := "maximum recursion depth exceeded".toList }

/-- Write the entry of one file; every exception is ignored. -/
def writeInfo (path : Str) : Handler Unit :=
  handle
    (do
      let info ← getInfo path
      writeMessage info)
    fun _ => pure ()

/-- The loop of `list_directory`; `descend` lists a subdirectory. -/
def listEntries (descend : Str → Handler Unit) (path : Str) (recursive : Bool) :
    List Str → Handler Unit
  | [] => pure ()
  | entry :: rest => do
      let fullPath := pathJoin path entry
      if recursive then
        let isdir ← consult fun h t => h.isdir t fullPath
        if isdir then
          descend fullPath
          writeMessage "<".toList
      writeInfo fullPath
      listEntries descend path recursive rest

/-- List a directory; the first argument is the stack depth that is left. -/
def listDirectory : Nat → Str → Bool → Handler Unit
  | 0, _, _ => raise recursionError
  | depth + 1, path, recursive => do
      let entries ← attempt fun h t => h.listdir t path
      listEntries (fun subdir => listDirectory depth subdir recursive) path recursive entries

def unknownMode (mode : Option Str) : Str :=
  "Unknown TSI_LS mode: '".toList ++ optText mode ++ "', must be one of 'R', 'A' or 'N'.".toList

/-- The listing between `START_LISTING` and `END_LISTING`. -/
def listing (path : Str) (asSingleFile recurse : Bool) : Handler Unit := do
  let r ← ask
  let isdir ← consult fun h t => h.isdir t path
  if isdir && !asSingleFile then
    listDirectory r.host.recursionLimit path recurse
  else
    let info ← getInfo path
    writeMessage info

/-- A path that does not exist has an empty listing; an `OSError` cuts the listing short. -/
def listIfExists (path : Str) (asSingleFile recurse : Bool) : Handler Unit := do
  let found ← consult fun h t => h.pathExists t path
  if found then
    handle (listing path asSingleFile recurse) fun e =>
      if e.isOSError then pure () else raise e

def ls (msg : Str) (_config : Settings) : Handler Unit := do
  let r ← ask
  let path ← ofExcept (expandVariablesOpt r.environ (extractParameter msg "FILE".toList))
  let mode := extractParameter msg "LS_MODE".toList
  if mode ∉ [some "R".toList, some "A".toList, some "N".toList] then
    failed (some (unknownMode mode))
  else
    let asSingleFile := decide (mode = some "A".toList)
    let recurse := decide (mode = some "R".toList)
    ok (some "START_LISTING".toList)
    listIfExists path asSingleFile recurse
    writeMessage "END_LISTING".toList

/-! ## Free space -/

/-- `(\S+)\s+(\d+)\s+(\d+)\s+(\d+).+` -/
def dfItems : List (Item Char) :=
  [nonSpaces, spaces, digits, spaces, digits, spaces, digits, .rep (fun c => c ≠ '\n') 1 none]

/-- Total and free space; the last line that looks like one of `df`'s wins. -/
def dfFields (lines : List Str) : Str × Str :=
  lines.foldl (fun fields line =>
    match matchItems dfItems none line with
    | some [_, _, total, _, _, _, free, _] => (total, free)
    | _ => fields) ("-1".toList, "-1".toList)

def df (msg : Str) (config : Settings) : Handler Unit := do
  let r ← ask
  let path ← ofExcept (expandVariablesOpt r.environ (extractParameter msg "FILE".toList))
  let (success, result) ← runCommand ("df -P -B 1 ".toList ++ path) false false config.useLoginShell
  if success then
    let (total, free) := dfFields (splitlines result)
    ok (some "START_DF".toList)
    writeMessage ("TOTAL ".toList ++ total)
    writeMessage ("FREE ".toList ++ free)
    writeMessage "USER -1".toList
    writeMessage "END_DF".toList
  else
    failed (some result)

end UnicoreTsi.Io
