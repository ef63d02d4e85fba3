/-
# UnicoreTsi.Runtime — what the TSI process runs on: exceptions, the host's answers, and process state.

Everything a TSI function learns from outside the process is an answer of `Host`.  Each answer is
indexed by a *tick*, the number of answers taken so far, so that two calls of the same function with
the same arguments may come out differently: a theorem that holds for every `Host` holds for every
behaviour of the operating system, whatever changes between calls.

The state is split in two.  `HandlerState` is what the functions of the command table can change: the
two channels to UNICORE/X, files, launched commands.  `Worker` adds what only the main loop changes:
the process credentials, the login environment, and the record of who was made to run what.
-/
import UnicoreTsi.Lib.Text
import UnicoreTsi.Lib.Effects

set_option autoImplicit false

namespace UnicoreTsi

open UnicoreTsi.Text UnicoreTsi.Effects

/-! ## Exceptions -/

/-- The Python exception classes the code distinguishes or runs into. -/
inductive ExcKind where
  | osError | keyError | valueError | typeError | attributeError | indexError | nameError
  | runtimeError | recursionError | zeroDivisionError | exception
  deriving DecidableEq, Repr

/-- A raised exception: its class, its `errno` (0 when it has none) and `str()` of it. -/
structure PyExc where
  kind : ExcKind
  errno : Int := 0
  text : Str
  deriving DecidableEq, Repr

/-- Caught by `except OSError`, `except IOError` and `except EnvironmentError`, which are one class. -/
def PyExc.isOSError (e : PyExc) : Bool := decide (e.kind = .osError)

def typeError (msg : String) : PyExc := { kind := .typeError, text := msg.toList }
def valueError (msg : String) : PyExc := { kind := .valueError, text := msg.toList }
def attributeError (msg : String) : PyExc := { kind := .attributeError, text := msg.toList }
def indexError (msg : String) : PyExc := { kind := .indexError, text := msg.toList }
def nameError (msg : String) : PyExc := { kind := .nameError, text := msg.toList }
def runtimeError (msg : Str) : PyExc := { kind := .runtimeError, text := msg }

/-! ## Text encoding -/

/-- `bytes.decode("UTF-8")`; `none` stands for `UnicodeDecodeError`. -/
def decodeUtf8 (bs : List UInt8) : Option Str :=
  (String.fromUTF8? ⟨bs.toArray⟩).map String.toList

/-- `str.encode("UTF-8")`. -/
def encodeUtf8 (s : Str) : List UInt8 := (String.ofList s).toUTF8.data.toList

/-- `UnicodeDecodeError` is a `ValueError`. -/
def unicodeDecodeError : PyExc := valueError "'utf-8' codec can't decode byte: invalid data"

def decode (bs : List UInt8) : Except PyExc Str :=
  match decodeUtf8 bs with
  | some s => .ok s
  | none => .error unicodeDecodeError

/-! ## The host's answers -/

/-- The getters of `UserCache`, as one process sees them at one moment. -/
structure UserCache where
  getUid4user : Str → Except PyExc Int
  getGid4user : Str → Except PyExc Int
  getGids4user : Str → Except PyExc (List Int)
  getGid4group : Str → Except PyExc Int
  getHome4user : Str → Except PyExc (Option Str)

/-- The fields of `os.stat` that are read. -/
structure StatInfo where
  mode : Nat
  uid : Int
  gid : Int
  size : Nat
  mtime : Int
  deriving DecidableEq, Repr

/-- System calls whose only answer is success or an exception. -/
inductive SysCall where
  | chdir (path : Str)
  | getcwd
  | mkdir (path : Str)
  | chmod (path : Str) (mode : Int)
  | open (path mode : Str)
  | close (path : Str)
  | seek (path : Str) (offset : Int)
  | setgid (gid : Int)
  | setgroups (gids : List Int)
  | setegid (gid : Int)
  | setresuid (ruid euid suid : Int)
  | fork
  | waitChild
  | loadPam (module : Str)
  deriving DecidableEq, Repr

/-- Everything the process asks of its surroundings. -/
structure Host where
  userCache : Nat → UserCache
  sysCall : Nat → SysCall → Option PyExc
  /-- Whether a process with this effective uid may set its groups (`CAP_SETGID`). -/
  privileged : Int → Bool
  /-- Error codes of the PAM library, by function name. -/
  pam : Nat → Str → Int
  /-- The control connection turns out to be gone when this write is made. -/
  channelGone : Nat → Bool
  /-- How many bytes a read of the data channel hands out, as far as there are so many. -/
  dataRead : Nat → Nat
  dataWrite : Nat → Except PyExc (Option Nat)
  /-- Exit code and output of a command run in the foreground. -/
  checkOutput : Nat → List Str → Except PyExc (Int × List UInt8)
  popen : Nat → List Str → Except PyExc Int
  /-- Whether the child with this pid has ended: the pid `waitpid` returns. -/
  waitpid : Nat → Int → Except PyExc Int
  pathExists : Nat → Str → Bool
  isdir : Nat → Str → Bool
  access : Nat → Str → Char → Bool
  stat : Nat → Str → Except PyExc StatInfo
  listdir : Nat → Str → Except PyExc (List Str)
  getpwuid : Nat → Int → Except PyExc (Option Str)
  getgrgid : Nat → Int → Except PyExc (Option Str)
  readText : Nat → Str → Except PyExc Str
  /-- How many bytes a raw read or write of a file transfers. -/
  fileRead : Nat → Except PyExc Nat
  fileWrite : Nat → Except PyExc Nat
  seekable : Nat → Str → Bool
  geteuid : Nat → Int
  getpid : Nat → Int
  /-- `time()` in whole milliseconds. -/
  timeMillis : Nat → Nat
  randomString : Nat → Str
  /-- `re.match(pattern, text)` for a pattern taken from the configuration: the length matched. -/
  reMatch : Str → Str → Except PyExc (Option Nat)
  /-- Letters and digits beyond ASCII, by the interpreter's Unicode database. -/
  isAlnum : Char → Bool
  /-- How many nested calls of a recursive function fit on the interpreter's stack. -/
  recursionLimit : Nat
  pythonpath : Option Str
  /-- The path of the module `UFTP`. -/
  uftpFile : Str

/-! ## The state a handler can change -/

/-- A call of one of the three writing methods of the connector. -/
inductive ConnCall where
  | ok (message : Option Str)
  | failed (message : Option Str)
  | message (text : Str)
  deriving DecidableEq, Repr

/-- `ok` and `failed` report the status of a request. -/
def ConnCall.isStatus : ConnCall → Bool
  | .ok _ | .failed _ => true
  | .message _ => false

structure HandlerState where
  tick : Nat
  calls : List ConnCall
  broken : Bool
  /-- Bytes sent by UNICORE/X on the data channel and not read yet. -/
  dataIn : List UInt8
  /-- What UNICORE/X sends on the data channel when its upload is acknowledged. -/
  upload : List UInt8
  dataOut : List UInt8
  files : Str → Option (List UInt8)
  /-- Text files written, with their content. -/
  scripts : List (Str × Str)
  commands : List (List Str)
  childPids : List Int

/-- The three variables of `os.environ` the TSI itself sets. -/
structure Environ where
  home : Option Str
  user : Option Str
  logname : Option Str
  deriving DecidableEq, Repr

structure HandlerCtx where
  host : Host
  environ : Environ
  /-- Bound on the iterations of a loop of the source that has none of its own; see `diverge`. -/
  fuel : Nat

/-- What the functions of the command table are written in. -/
abbrev Handler (α : Type) := Comp HandlerCtx HandlerState PyExc α

/-- Take one answer of the host. -/
def consult {α : Type} (f : Host → Nat → α) : Handler α := fun r s =>
  (.done (f r.host s.tick), { s with tick := s.tick + 1 })

/-- Take one answer of the host that may be an exception. -/
def attempt {α : Type} (f : Host → Nat → Except PyExc α) : Handler α := do
  let answer ← consult f
  ofExcept answer

def sysCall (c : SysCall) : Handler Unit :=
  attempt fun h t => match h.sysCall t c with
    | none => .ok ()
    | some e => .error e

@[simp] theorem consult_run {α : Type} (f : Host → Nat → α) (r : HandlerCtx) (s : HandlerState) :
    consult f r s = (.done (f r.host s.tick), { s with tick := s.tick + 1 }) := rfl

theorem attempt_run {α : Type} (f : Host → Nat → Except PyExc α) (r : HandlerCtx)
    (s : HandlerState) :
    attempt f r s = match f r.host s.tick with
      | .ok a => (.done a, { s with tick := s.tick + 1 })
      | .error e => (.raised e, { s with tick := s.tick + 1 }) := by
  rw [attempt, bind_run_done (consult_run f r s)]
  cases f r.host s.tick <;> rfl

theorem sysCall_run (c : SysCall) (r : HandlerCtx) (s : HandlerState) :
    sysCall c r s = match r.host.sysCall s.tick c with
      | none => (.done (), { s with tick := s.tick + 1 })
      | some e => (.raised e, { s with tick := s.tick + 1 }) := by
  rw [sysCall, attempt_run]
  cases r.host.sysCall s.tick c <;> rfl

theorem attempt_eq_done {α : Type} {f : Host → Nat → Except PyExc α} {r : HandlerCtx} {s s' : HandlerState} {a : α} :
    attempt f r s = (.done a, s') ↔ f r.host s.tick = .ok a ∧ s' = { s with tick := s.tick + 1 } := by
  rw [attempt, bind_run_done (consult_run f r s)]
  exact ofExcept_eq_done

theorem sysCall_eq_done {c : SysCall} {r : HandlerCtx} {s s' : HandlerState} :
    sysCall c r s = (.done (), s') ↔ r.host.sysCall s.tick c = none ∧ s' = { s with tick := s.tick + 1 } := by
  rw [sysCall, attempt_eq_done]
  cases r.host.sysCall s.tick c with
  | none => simp
  | some e => simp

/-- Only answers of the host have been taken. -/
def Ticks (s s' : HandlerState) : Prop := ∃ n, s' = { s with tick := n }

instance : Std.Refl Ticks := ⟨fun s => ⟨s.tick, rfl⟩⟩

instance : IsTrans HandlerState Ticks := ⟨by
  rintro _ _ _ ⟨_, rfl⟩ ⟨n, rfl⟩
  exact ⟨n, rfl⟩⟩

theorem consult_ticks {α : Type} (f : Host → Nat → α) : Within Ticks (consult f) :=
  fun _ s => ⟨s.tick + 1, rfl⟩

theorem attempt_ticks {α : Type} (f : Host → Nat → Except PyExc α) : Within Ticks (attempt f) :=
  within_bind (consult_ticks f) fun _ => within_ofExcept _

theorem sysCall_ticks (c : SysCall) : Within Ticks (sysCall c) := attempt_ticks _

/-! ## The state of a worker -/

/-- Process credentials. -/
structure Cred where
  ruid : Int
  euid : Int
  suid : Int
  rgid : Int
  egid : Int
  sgid : Int
  groups : List Int
  deriving DecidableEq, Repr

/-- A call of a function of the command table, with the credentials it was made under. -/
structure Invocation where
  command : Str
  message : Str
  cred : Cred
  deriving DecidableEq, Repr

/-- PAM calls that completed, in order. -/
inductive PamEvent where
  | opened (user : Str)
  | closed
  deriving DecidableEq, Repr

structure Worker where
  io : HandlerState
  /-- The lines the control channel still holds; every one but the last ends with a newline. -/
  controlIn : List Str
  cred : Cred
  environ : Environ
  /-- The identity-changing calls made, in order. -/
  idCalls : List SysCall
  invocations : List Invocation
  pamEvents : List PamEvent
  /-- The local variable `pam_session` of `handle_function` has been assigned. -/
  pamSession : Bool
  /-- The data UNICORE/X has ready for each of its next requests. -/
  uploads : List (List UInt8)
  closed : Bool

/-- A handler state in which nothing has happened yet. -/
def HandlerState.fresh : HandlerState where
  tick := 0
  calls := []
  broken := false
  dataIn := []
  upload := []
  dataOut := []
  files := fun _ => none
  scripts := []
  commands := []
  childPids := []

/-- A worker just forked by a root server, with the given lines on its control channel. -/
def Worker.fresh (controlIn : List Str) : Worker where
  io := .fresh
  controlIn := controlIn
  cred := { ruid := 0, euid := 0, suid := 0, rgid := 0, egid := 0, sgid := 0, groups := [0] }
  environ := { home := none, user := none, logname := none }
  idCalls := []
  invocations := []
  pamEvents := []
  pamSession := false
  uploads := []
  closed := false

structure WorkerCtx where
  host : Host
  fuel : Nat

abbrev WorkerM (α : Type) := Comp WorkerCtx Worker PyExc α

/-- Run a handler in the worker: it sees the login environment and changes only its own state. -/
def runHandler {α : Type} (h : Handler α) : WorkerM α := fun r w =>
  let (o, io) := h { host := r.host, environ := w.environ, fuel := r.fuel } w.io
  (o, { w with io := io })

theorem runHandler_run {α : Type} (h : Handler α) (r : WorkerCtx) (w : Worker) :
    runHandler h r w =
      ((h { host := r.host, environ := w.environ, fuel := r.fuel } w.io).1,
        { w with io := (h { host := r.host, environ := w.environ, fuel := r.fuel } w.io).2 }) := rfl

/-- Only the channels, the state of the handlers and the client's data have changed. -/
def Quiet (w w' : Worker) : Prop :=
  ∃ io controlIn uploads closed,
    w' = { w with io := io, controlIn := controlIn, uploads := uploads, closed := closed }

instance : Std.Refl Quiet := ⟨fun w => ⟨w.io, w.controlIn, w.uploads, w.closed, rfl⟩⟩

instance : IsTrans Worker Quiet := ⟨by
  rintro _ _ _ ⟨_, _, _, _, rfl⟩ ⟨io, controlIn, uploads, closed, rfl⟩
  exact ⟨io, controlIn, uploads, closed, rfl⟩⟩

theorem runHandler_quiet {α : Type} (h : Handler α) : Within Quiet (runHandler h) :=
  fun _ w => ⟨_, w.controlIn, w.uploads, w.closed, rfl⟩

/-- Only answers of the host have been taken, and the identity, the environment or the PAM session of the
process changed. -/
def Manages (w w' : Worker) : Prop :=
  ∃ n cred environ idCalls pamEvents pamSession,
    w' = { w with
      io := { w.io with tick := n }, cred := cred, environ := environ, idCalls := idCalls,
      pamEvents := pamEvents, pamSession := pamSession }

instance : Std.Refl Manages :=
  ⟨fun w => ⟨w.io.tick, w.cred, w.environ, w.idCalls, w.pamEvents, w.pamSession, rfl⟩⟩

instance : IsTrans Worker Manages := ⟨by
  rintro _ _ _ ⟨_, _, _, _, _, _, rfl⟩ ⟨n, cred, environ, idCalls, pamEvents, pamSession, rfl⟩
  exact ⟨n, cred, environ, idCalls, pamEvents, pamSession, rfl⟩⟩

theorem runHandler_manages {α : Type} {h : Handler α} (hh : Within Ticks h) :
    Within Manages (runHandler h) := by
  intro r w
  obtain ⟨n, hn⟩ := hh { host := r.host, environ := w.environ, fuel := r.fuel } w.io
  exact ⟨n, w.cred, w.environ, w.idCalls, w.pamEvents, w.pamSession, by rw [runHandler_run, hn]⟩

/-! ## A host on which nothing goes wrong -/

/-- Every call succeeds, every query finds nothing, and the users are those of `cache`. -/
def calmHost (cache : UserCache) : Host where
  userCache _ := cache
  sysCall _ _ := none
  privileged _ := true
  pam _ _ := 0
  channelGone _ := false
  dataRead _ := 32768
  dataWrite _ := .ok none
  checkOutput _ _ := .ok (0, [])
  popen _ _ := .ok 4711
  waitpid _ pid := .ok pid
  pathExists _ _ := false
  isdir _ _ := false
  access _ _ _ := true
  stat _ _ := .ok { mode := 0o100644, uid := 0, gid := 0, size := 0, mtime := 0 }
  listdir _ _ := .ok []
  getpwuid _ _ := .ok none
  getgrgid _ _ := .ok none
  readText _ _ := .ok []
  fileRead _ := .ok 32768
  fileWrite _ := .ok 32768
  seekable _ _ := true
  geteuid _ := 0
  getpid _ := 4242
  timeMillis _ := 1700000000000
  randomString _ := "ABC123".toList
  reMatch _ _ := .ok none
  isAlnum _ := false
  recursionLimit := 900
  pythonpath := some "lib".toList
  uftpFile := "lib/UFTP.py".toList

/-! ## Settings -/

/-- The settings the worker's functions read.  The defaults are those of `get_default_config` and, for
the batch system commands, of `BSSBase.defaults`; a command without a default is `none`. -/
structure Settings where
  switchUid : Bool := true
  openUserSessions : Bool := false
  effectiveUid : Nat := 0
  effectiveGid : Nat := 0
  enforceOsGids : Bool := true
  failOnInvalidGids : Bool := false
  pamModule : Str := "unicore-tsi".toList
  useLoginShell : Bool := true
  keyfiles : List Str := [".ssh/authorized_keys".toList]
  getUserkeysCmd : Option Str := none
  getUserinfoCmd : Option Str := none
  acl : List (Str × Str) := []
  getfacl : Str := "/bin/false".toList
  setfacl : Str := "/bin/false".toList
  safeDir : Str := "/tmp".toList
  submitCmd : Option Str := none
  qstatCmd : Str := "ps -e -os,args".toList
  detailsCmd : Option Str := none
  abortCmd : Str := ("SID=$(ps -e -osid,args | grep \"nice .* ./UNICORE_Job_%s\" | " ++
    "grep -v \"grep \" | egrep -o \"^\\s*([0-9]+)\" ); pkill -SIGTERM -s $SID").toList
  holdCmd : Option Str := none
  resumeCmd : Option Str := none
  getProcessesCmd : Str := "ps -e".toList
  getPartitionsCmd : Str := "echo".toList
  allocCmd : Option Str := none
  lsfMemoryConversionFactor : Option Str := none
  defaultJobName : Str := "UnicoreJob".toList
  nodesFilter : Str := []
  testing : Bool := false

end UnicoreTsi
