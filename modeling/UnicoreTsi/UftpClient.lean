/-
# UnicoreTsi.UftpClient — the transfer that the started client makes.

`main` logs in to a server, asks for a byte range where one is given, and copies between a local file and a
remote one.  `ftplib` and the server behind it are a parameter (`Ftp`).  The local file is written through a
buffer: how much of what was handed over reaches the disk, and when a write fails, is an answer of the context.
-/
import UnicoreTsi.UftpLaunch
import UnicoreTsi.Lib.Patch

set_option autoImplicit false

namespace UnicoreTsi.UftpClient

open UnicoreTsi.Text UnicoreTsi.Effects UnicoreTsi.Utils UnicoreTsi.Shell UnicoreTsi.Uftp UnicoreTsi.Patch

/-! ## What the client runs on -/

/-- An `ftplib.FTP` object: each call changes the state of the session and of the server behind it. -/
structure Ftp (σ : Type) where
  connect (host : Str) (port : Int) : σ → Except PyExc Str × σ
  login (user passwd : Str) : σ → Except PyExc Str × σ
  sendcmd (cmd : Str) : σ → Except PyExc Str × σ
  /-- The blocks that are handed to the callback, and how the call ends after them. -/
  retrbinary (cmd : Str) (rest : Option Int) : σ → (List (List UInt8) × Except PyExc Str) × σ
  storbinary (cmd : Str) (data : List UInt8) : σ → Except PyExc Str × σ
  quit : σ → Except PyExc Unit × σ

structure ClientCtx where
  fileCall : Nat → SysCall → Option PyExc
  /-- How many of the buffered bytes a write puts on disk, and the exception it ends with. -/
  flush : Nat → Nat × Option PyExc
  /-- Reading the local file breaks off after so many bytes. -/
  readError : Nat → Option (Nat × PyExc)

structure ClientState (σ : Type) where
  tick : Nat
  server : σ
  files : Str → Option (List UInt8)
  /-- Where in the open file the first buffered byte belongs. -/
  pos : Nat
  /-- The bytes that were written to the open file and are not on disk yet. -/
  buffered : List UInt8
  /-- The lines printed. -/
  output : List Str

abbrev Client (σ α : Type) := Comp ClientCtx (ClientState σ) PyExc α

section Calls

variable {σ : Type}

/-- A call of the session. -/
def session {α : Type} (call : σ → α × σ) : Client σ α := fun _ s =>
  (.done (call s.server).1, { s with server := (call s.server).2 })

/-- Take one answer of the system. -/
def answer {α : Type} (f : ClientCtx → Nat → α) : Client σ α := fun r s =>
  (.done (f r s.tick), { s with tick := s.tick + 1 })

@[simp] theorem session_run {α : Type} (call : σ → α × σ) (r : ClientCtx) (s : ClientState σ) :
    session call r s = (.done (call s.server).1, { s with server := (call s.server).2 }) := rfl

@[simp] theorem answer_run {α : Type} (f : ClientCtx → Nat → α) (r : ClientCtx) (s : ClientState σ) :
    answer f r s = (.done (f r s.tick), { s with tick := s.tick + 1 }) := rfl

def printLine (line : Str) : Client σ Unit := modify fun s => { s with output := s.output ++ [line] }

def fileCall (c : SysCall) : Client σ Unit := do
  match ← answer fun r t => r.fileCall t c with
  | none => pure ()
  | some e => raise e

/-- `if condition:` with nothing else to do. -/
def onlyIf (condition : Prop) [Decidable condition] (x : Client σ Unit) : Client σ Unit :=
  if condition then x else pure ()

def noSuchFile : PyExc := { kind := .osError, errno := 2, text := "No such file or directory".toList }

def invalidOffset : PyExc := { kind := .osError, errno := 22, text := "Invalid argument".toList }

/-- The local file, where there is none an empty one. -/
def content (s : ClientState σ) (path : Str) : List UInt8 := (s.files path).getD []

def setContent (path : Str) (bytes : List UInt8) (s : ClientState σ) : ClientState σ :=
  { s with files := Function.update s.files path (some bytes) }

/-- `Path(path).touch()` -/
def touch (path : Str) : Client σ Unit := do
  fileCall (.open path "a".toList)
  modify fun s => setContent path (content s path) s

/-- `open(path, mode)` for the modes `r+b`, `rb` and `wb`. -/
def openFile (path mode : Str) : Client σ Unit := do
  fileCall (.open path mode)
  let s ← get
  onlyIf (mode = "wb".toList) (modify (setContent path []))
  onlyIf (mode ≠ "wb".toList ∧ s.files path = none) (raise noSuchFile)
  modify fun s => { s with pos := 0, buffered := [] }

/-- `fp.seek(offset)` -/
def seek (path : Str) (offset : Int) : Client σ Unit := do
  fileCall (.seek path offset)
  onlyIf (offset < 0) (raise invalidOffset)
  modify fun s => { s with pos := offset.toNat }

/-- The first `n` buffered bytes reach the disk. -/
def toDisk (path : Str) (n : Nat) (s : ClientState σ) : ClientState σ :=
  { setContent path (patch 0 (content s path) s.pos (s.buffered.take n)) s with
    pos := s.pos + (s.buffered.take n).length
    buffered := s.buffered.drop n }

/-- `fp.write(block)` -/
def writeBlock (path : Str) (block : List UInt8) : Client σ Unit := do
  modify fun s => { s with buffered := s.buffered ++ block }
  let (n, failure) ← answer fun r t => r.flush t
  modify (toDisk path n)
  match failure with
  | none => pure ()
  | some e => raise e

/-- `fp.close()` puts the rest on disk. -/
def closeFile (path : Str) : Client σ Unit := do
  let (n, failure) ← answer fun r t => r.flush t
  match failure with
  | none => modify fun s => toDisk path s.buffered.length s
  | some e => do
      modify (toDisk path n)
      raise e

/-- `with open(path, mode) as fp: body` -/
def withFile {α : Type} (path mode : Str) (body : Client σ α) : Client σ α := do
  openFile path mode
  let a ← handle body fun e => do
    closeFile path
    raise e
  closeFile path
  return a

def eachBlock (callback : List UInt8 → Client σ Unit) : List (List UInt8) → Client σ Unit
  | [] => pure ()
  | block :: rest => do
      callback block
      eachBlock callback rest

variable (ftp : Ftp σ)

def sendcmd (cmd : Str) : Client σ Str := do
  let reply ← session (ftp.sendcmd cmd)
  ofExcept reply

def retrbinary (cmd : Str) (callback : List UInt8 → Client σ Unit) (rest : Option Int) : Client σ Str := do
  let (blocks, reply) ← session (ftp.retrbinary cmd rest)
  eachBlock callback blocks
  ofExcept reply

/-- The data is what the open file has from its position on. -/
def storbinary (cmd path : Str) : Client σ Str := do
  let s ← get
  let data := (content s path).drop s.pos
  match ← answer fun r t => r.readError t with
  | none => do
      let reply ← session (ftp.storbinary cmd data)
      ofExcept reply
  | some (n, e) => do
      let _ ← session (ftp.storbinary cmd (data.take n))
      raise e

end Calls

/-! ## The client -/

section Client

variable {σ : Type} (ftp : Ftp σ)

def logReply {σ : Type} (reply : Str) : Client σ Unit := printLine ("uftpd: ".toList ++ reply)

def openSession (host : Str) (port : Int) (secret : Str) : Client σ Unit := do
  let welcome ← session (ftp.connect host port)
  let welcome ← ofExcept welcome
  logReply welcome
  let reply ← session (ftp.login "anonymous".toList secret)
  let reply ← ofExcept reply
  logReply reply

def rangCommand (offset length : Int) : Str :=
  "RANG ".toList ++ intText offset ++ " ".toList ++ intText length

def retrCommand (path : Str) : Str := "RETR ".toList ++ path

def storCommand (path : Str) : Str := "STOR ".toList ++ path

/-- The byte range is set; any reply but `350` is an error. -/
def setRange (offset length : Int) : Client σ Unit := do
  let reply ← sendcmd ftp (rangCommand offset length)
  onlyIf (¬ "350".toList <+: reply)
    (raise { kind := .osError, text := "Error setting RANG: ".toList ++ reply })
  logReply reply

/-- `ftp.quit()`, whatever comes of it. -/
def quitQuietly : Client σ Unit :=
  handle
    (do
      let result ← session ftp.quit
      ofExcept result)
    fun _ => pure ()

/-- Go to the place that the data is for, and ask for the part that is wanted. -/
def prepareFetch (c : ClientParameters) (partially : Bool) : Client σ Unit := do
  onlyIf (c.offset > 0 ∨ c.length > -1) do
    onlyIf partially (seek c.localPath c.offset)
    onlyIf (c.length > -1) (setRange ftp c.offset c.length)

/-- The body of `with open(local_path, _mode)` for `GET`. -/
def fetch (c : ClientParameters) (partially : Bool) : Client σ Unit := do
  prepareFetch ftp c partially
  let reply ← retrbinary ftp (retrCommand c.remotePath) (writeBlock c.localPath)
    (if c.length > -1 then none else some c.offset)
  logReply reply
  quitQuietly ftp

/-- Go to the data that is to be sent, and say where it goes. -/
def prepareStore (c : ClientParameters) (partially : Bool) : Client σ Unit := do
  onlyIf (c.offset > 0 ∨ c.length > -1) do
    seek c.localPath c.offset
    setRange ftp (if partially then c.offset else 0) c.length

/-- The body of `with open(local_path, 'rb')` for every other operation. -/
def store (c : ClientParameters) (partially : Bool) : Client σ Unit := do
  prepareStore ftp c partially
  let reply ← storbinary ftp (storCommand c.remotePath) c.localPath
  logReply reply
  quitQuietly ftp

/-- The branch of `main` for `GET`. -/
def getFile (c : ClientParameters) (partially : Bool) : Client σ Unit := do
  printLine ("GET ".toList ++ c.remotePath ++ " -> ".toList ++ c.localPath)
  onlyIf partially (touch c.localPath)
  withFile c.localPath (if partially then "r+b".toList else "wb".toList) (fetch ftp c partially)

/-- The other branch. -/
def putFile (c : ClientParameters) (partially : Bool) : Client σ Unit := do
  printLine ("PUT ".toList ++ c.localPath ++ " -> ".toList ++ c.remotePath)
  withFile c.localPath "rb".toList (store ftp c partially)

/-- `main()` in a process with the given environment. -/
def main (vars : Vars) : Client σ Int := do
  let c ← ofExcept (mainParameters vars)
  printLine ("Connecting to UFTPD ".toList ++ c.host ++ ":".toList ++ intText c.port)
  openSession ftp c.host c.port c.secret
  let partially := decide ("PARTIAL".toList = c.writeMode)
  if "GET".toList = c.operation then getFile ftp c partially else putFile ftp c partially
  return 0

/-- The exit code of the client: an exception that is not caught ends it with `1`. -/
def exitCode (vars : Vars) : Client σ Int := handle (main ftp vars) fun _ => pure 1

/-- One client after the other, each with its own environment. -/
def clients : List Vars → Client σ (List Int)
  | [] => pure []
  | vars :: rest => do
      let code ← exitCode ftp vars
      let codes ← clients rest
      return code :: codes

end Client

end UnicoreTsi.UftpClient
