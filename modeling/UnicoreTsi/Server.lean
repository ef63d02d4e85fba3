/-
# UnicoreTsi.Server — the loop of the main process that accepts connections from UNICORE/X.

One iteration of the loop of `connect` is a computation in the environment `Connection`, which holds what the
peer and the operating system answer while the connection is handled.  It changes the settings `connect`
writes and records the acts that have an effect on the outside (`Act`).  The worker is a process of its own:
of a fork, only what the parent does afterwards is modelled.
-/
import UnicoreTsi.Config

set_option autoImplicit false

namespace UnicoreTsi.Server

open UnicoreTsi.Text UnicoreTsi.Effects UnicoreTsi.Utils UnicoreTsi.BssCommon UnicoreTsi.Configuration

/-! ## State and environment -/

/-- A range of local ports and the one that is tried next; a first port of 0 leaves the choice to the system. -/
structure PortRange where
  next : Int
  lower : Int
  upper : Int
  deriving DecidableEq, Repr

/-- The settings that `connect` reads, and the three that it writes: `settings`, `portRange`, `workerId`. -/
structure ServerConfig where
  sslMode : Bool
  allowedIps : Option (List Str)
  allowedDns : List (List Rdn)
  unicorexPort : Option Str
  portRange : PortRange
  workerId : ConfigValue
  settings : List (Str × Str)

/-- What happens outside while a connection is handled.  An exception of `accept` may come from the TLS
handshake; the attempts to connect are numbered over the life of the server, the sockets of a callback over
the callback. -/
structure Connection where
  accept : Except PyExc Str
  getpeercert : Except PyExc Subject
  configureSocket : Option PyExc
  recv : Except PyExc (List UInt8)
  sendall : Option PyExc
  createConnection : Nat → Int → Option PyExc
  setupSsl : Nat → Option PyExc
  configureCallback : Nat → Option PyExc
  fork : Option PyExc
  close : Nat → Option PyExc

/-- The acts that must not happen before the peer is verified. -/
inductive Act where
  | readCommand
  | setSetting (key value : Str)
  | callback (localPort : Int)
  | fork
  | countWorker
  | shutdown
  deriving DecidableEq, Repr

structure ServerState where
  config : ServerConfig
  acts : List Act
  attempts : Nat

/-- How an iteration of the loop ends: it goes on, or leaves the loop by `return` or by `exit(0)`. -/
inductive Progress where
  | next
  | returned
  | exited
  deriving DecidableEq, Repr

abbrev ServerM (α : Type) := Comp Connection ServerState PyExc α

def record (act : Act) : ServerM Unit := modify fun s => { s with acts := s.acts ++ [act] }

/-- A call of the operating system that may raise. -/
def raising (answer : Connection → Option PyExc) : ServerM Unit := do
  let c ← ask
  match answer c with
  | none => return ()
  | some e => raise e

/-- `try: x` with `except EnvironmentError: close_quietly(unicorex); continue`: `none` after the exception. -/
def guarded {α : Type} (x : ServerM α) : ServerM (Option α) :=
  handle
    (do
      let a ← x
      return some a)
    fun e => if e.isOSError then pure none else raise e

/-! ## Verification of the peer -/

def notAllowedIp : PyExc := { kind := .osError, text := "Connecting IP not in list of allowed IPs".toList }

def verifyIp (config : ServerConfig) (unicorexHost : Str) : Except PyExc Unit :=
  match config.allowedIps with
  | none => .ok ()
  | some allowedIps => if unicorexHost ∈ allowedIps then .ok () else .error notAllowedIp

/-- `verify_peer` of the module `SSL`, which is called in SSL mode only. -/
def verifySubject (config : ServerConfig) (c : Connection) : Except PyExc Unit :=
  if config.sslMode then do
    let subject ← c.getpeercert
    verifyPeer config.allowedDns subject
  else .ok ()

/-! ## Calling back -/

def eaddrinuse : Int := 98

def noFreePorts (range : PortRange) : PyExc :=
  { kind := .exception,
    text := "Cannot connect - no free local ports in configured range ".toList ++ intText range.lower ++
      ":".toList ++ intText range.upper }

/-- The port after this one in the range. -/
def PortRange.after (range : PortRange) (port : Int) : Int :=
  if port + 1 > range.upper then range.lower else port + 1

/-- `use_port_range` -/
def PortRange.used (range : PortRange) : Bool := decide (range.next > 0)

def PortRange.maxAttempts (range : PortRange) : Nat :=
  if range.used then (range.upper - range.lower + 1).toNat else 1

/-- `socket.create_connection(address, timeout, ('', local_port))`: its exception as a value. -/
def createConnection (localPort : Int) : ServerM (Option PyExc) := do
  record (.callback localPort)
  let c ← ask
  let s ← get
  modify fun s => { s with attempts := s.attempts + 1 }
  return c.createConnection s.attempts localPort

/-- The loop of `open_connection`. -/
def tryPorts (range : PortRange) : Nat → Int → ServerM Unit
  | 0, _ => raise (noFreePorts range)
  | attempts + 1, localPort => do
      match ← createConnection localPort with
      | none =>
          if range.used then
            modify fun s => { s with
              config := { s.config with portRange := { range with next := range.after localPort } } }
      | some e =>
          if e.isOSError && range.used && e.errno = eaddrinuse then
            tryPorts range attempts (range.after localPort)
          else raise e

def openConnection : ServerM Unit := do
  let s ← get
  let range := s.config.portRange
  tryPorts range range.maxAttempts range.next

/-- The port in the settings, else the first word of the parameters. -/
def getUnicorexPort (config : ServerConfig) (params : Str) : Option Str :=
  match config.unicorexPort with
  | some port => some port
  | none =>
      match splitOnce ' ' params with
      | some (port, _) => some port
      | none => some params

/-- The sockets of a callback, from number `i` on. -/
def openSockets (sslMode : Bool) : Nat → Nat → ServerM Unit
  | 0, _ => return ()
  | numConns + 1, i => do
      openConnection
      if sslMode then
        raising fun c => c.setupSsl i
      raising fun c => c.configureCallback i
      openSockets sslMode numConns (i + 1)

def invalidMessage : PyExc := { kind := .osError, text := "Received invalid message".toList }

/-- The `try` block that answers the peer and calls it back. -/
def callBack (params : Str) (numConns : Nat) : ServerM Unit := do
  raising (·.sendall)
  let s ← get
  match getUnicorexPort s.config params with
  | none => raise invalidMessage
  | some _ => openSockets s.config.sslMode numConns 0

/-! ## The loop -/

/-- `"tsi-worker-%d" % worker_id` wants a number. -/
def number : ConfigValue → Except PyExc Int
  | .int n => .ok n
  | _ => .error (typeError "%d format: a real number is required, not str")

/-- The parent closes its copies of the sockets. -/
def closeSockets : Nat → Nat → ServerM Unit
  | 0, _ => return ()
  | numConns + 1, i => do
      raising fun c => c.close i
      closeSockets numConns (i + 1)

/-- Call the peer back and fork a worker for it. -/
def startWorker (params : Str) (numConns : Nat) : ServerM Progress := do
  match ← guarded (callBack params numConns) with
  | none => return .next
  | some () =>
      let s ← get
      let workerId ← ofExcept (number s.config.workerId)
      record .fork
      raising (·.fork)
      closeSockets numConns 0
      modify fun s => { s with config := { s.config with workerId := .int (workerId + 1) } }
      record .countWorker
      return .next

def tooFewValues : PyExc := valueError "not enough values to unpack (expected 2, got 1)"

/-- `config['settings'][key] = value` -/
def setSetting (params : Str) : ServerM Progress :=
  match splitOnce ' ' params with
  | none => raise tooFewValues
  | some (key, value) => do
      record (.setSetting key value)
      modify fun s => { s with config := { s.config with settings := putField key value s.config.settings } }
      return .next

/-- The command and its parameters; a command without parameters is not one. -/
def parseCommand (msg : Str) : Str × Str := (splitOnce ' ' msg).getD ([], [])

def handleCommand (msg : Str) : ServerM Progress :=
  let (cmd, params) := parseCommand msg
  if cmd = "shutdown".toList then do
    record .shutdown
    return .exited
  else if cmd = "start-forwarding".toList then startWorker params 1
  else if cmd = "newtsiprocess".toList then startWorker params 2
  else if cmd = "set".toList then setSetting params
  else return .next

/-- `str(unicorex.recv(1024), "UTF-8").strip()` -/
def readCommand : ServerM Str := do
  record .readCommand
  let c ← ask
  let bytes ← ofExcept c.recv
  let text ← ofExcept (decode bytes)
  return strip text

/-- What follows the verification of the peer. -/
def serveVerified : ServerM Progress := do
  raising (·.configureSocket)
  match ← guarded readCommand with
  | none => return .next
  | some msg => handleCommand msg

/-- An iteration of the loop. -/
def handleConnection : ServerM Progress := do
  let c ← ask
  match c.accept with
  | .error e => if e.isOSError then return .returned else raise e
  | .ok unicorexHost =>
      let s ← get
      match ← guarded (ofExcept (verifySubject s.config c)) with
      | none => return .next
      | some () =>
          match ← guarded (ofExcept (verifyIp s.config unicorexHost)) with
          | none => return .next
          | some () => serveVerified

/-- The loop over the connections that come in: how it stands after them. -/
def serve : List Connection → ServerState → Outcome PyExc Progress × ServerState
  | [], s => (.done .next, s)
  | c :: cs, s =>
      match handleConnection c s with
      | (.done .next, s') => serve cs s'
      | ended => ended

end UnicoreTsi.Server
