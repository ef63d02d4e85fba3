/-
# UnicoreTsi.Tsi — the command table and the processing loop of a worker.

`initFunctions` is the table in the order of the source; `findCommand` searches a message for each entry
in turn.  `handleFunction` runs a function of the table under the identity the message asks for and
restores the identity afterwards; with PAM sessions it does so in a forked child, of which only the
effects outside the process remain.  `round` is one iteration of the loop of `process`.
-/
import UnicoreTsi.Acl
import UnicoreTsi.BecomeUser
import UnicoreTsi.BssNobatch
import UnicoreTsi.Uftp

set_option autoImplicit false

namespace UnicoreTsi.Tsi

open UnicoreTsi.Text UnicoreTsi.Effects UnicoreTsi.Regex UnicoreTsi.Utils UnicoreTsi.Connector
open UnicoreTsi.BecomeUser UnicoreTsi.BssCommon

/-- A function of the command table. -/
abbrev Function := Str → Settings → Handler Unit

/-! ## The functions of the module itself -/

def myVersion : Str := "__VERSION__".toList

def ping (_msg : Str) (_config : Settings) : Handler Unit := ok (some myVersion)

def pingUid (_msg : Str) (config : Settings) : Handler Unit := do
  ok (some myVersion)
  writeMessage (" running as UID [".toList ++ natText config.effectiveUid ++ "]".toList)

/-- `.*#TSI_IDENTITY (\S+) (\S+)\n.*` -/
def identityItems : List (Item Char) :=
  [anyChars, literal "#TSI_IDENTITY ", nonSpaces, literal " ", nonSpaces, literal "\n", anyChars]

/-- User and group text of the first match. -/
def identityInfo (msg : Str) : Option (Str × Str) :=
  match search identityItems none msg with
  | some [_, _, user, _, groups, _, _] => some (user, groups)
  | _ => none

/-- The user and the list of groups a request asks for. -/
def requestedIdentity (msg : Str) : Option (Str × List Str) :=
  (identityInfo msg).map fun info => (info.1, info.2.splitOn ':')

/-- The exception of `x` as a value. -/
def caught {α : Type} (x : Handler α) : Handler (Except PyExc α) :=
  handle
    (do
      let a ← x
      return .ok a)
    fun e => pure (.error e)

/-- Status text, response and number of keys while `get_user_info` collects them. -/
structure UserInfo where
  status : Str
  response : Str
  keys : Nat

/-- `f.readlines()`; the line ends do not matter to the callers. -/
def readlines (text : Str) : List Str :=
  let pieces := text.splitOn '\n'
  if pieces.getLast? = some [] then pieces.dropLast else pieces

def addUserkeys (lines : List Str) (info : UserInfo) : UserInfo :=
  lines.foldl (fun info line =>
    if ['#'].isPrefixOf line then info
    else { info with
      response := info.response ++ "Accepted key ".toList ++ natText info.keys ++ ": ".toList ++
        strip line ++ "\n".toList
      keys := info.keys + 1 }) info

def addUserinfo (lines : List Str) (info : UserInfo) : UserInfo :=
  lines.foldl (fun info line =>
    if ['#'].isPrefixOf line then info
    else { info with
      response := info.response ++ "Attribute: ".toList ++ strip line ++ "\n".toList }) info

/-- ` <what> '<name>': <text><stop>` -/
def statusText (what : String) (name text stop : Str) : Str :=
  what.toList ++ " '".toList ++ name ++ "': ".toList ++ text ++ stop

/-- The loop over `tsi.keyfiles`. -/
def readKeyfiles (home : Str) : List Str → UserInfo → Handler UserInfo
  | [], info => pure info
  | keyfile :: rest, info => do
      let file := Io.pathJoin home keyfile
      let opened ← caught (sysCall (.open file "r".toList))
      match opened with
      | .error e =>
          readKeyfiles home rest
            { info with status := info.status ++ statusText " keyfile" file e.text "\n".toList }
      | .ok () =>
          let info := { info with status := info.status ++ statusText " keyfile" file "OK".toList ".".toList }
          let text ← caught (attempt fun h t => h.readText t file)
          match text with
          | .error e =>
              readKeyfiles home rest
                { info with status := info.status ++ statusText " keyfile" file e.text "\n".toList }
          | .ok text => readKeyfiles home rest (addUserkeys (readlines text) info)

/-- One of the two configured commands; `add` takes in the lines of its output. -/
def queryCommand (what : String) (cmd : Option Str) (add : List Str → UserInfo → UserInfo)
    (config : Settings) (info : UserInfo) : Handler UserInfo :=
  match cmd with
  | none => pure info
  | some cmd => do
      let result ← caught (runCommand cmd false false config.useLoginShell)
      match result with
      | .ok (true, out) =>
          return add (splitlines out) { info with status := info.status ++ what.toList ++ ": OK.".toList }
      | .ok (false, out) =>
          return { info with status := info.status ++ statusText what cmd ("ERROR ".toList ++ out) ".".toList }
      | .error e =>
          return { info with status := info.status ++ statusText what cmd e.text ".".toList }

/-- `connector.failed(msg, user)` has one argument too many. -/
def tooManyArguments : PyExc :=
  typeError "Connector.failed() takes 2 positional arguments but 3 were given"

def getUserInfo (msg : Str) (config : Settings) : Handler Unit :=
  match identityInfo msg with
  | none => failed (some "No user/group info given".toList)
  | some (user, _) => do
      let home ← attempt fun h t => (h.userCache t).getHome4user user
      match home with
      | none => raise tooManyArguments
      | some home =>
          let info : UserInfo :=
            { status := [], response := "home: ".toList ++ home ++ "\n".toList, keys := 0 }
          let info ← readKeyfiles home config.keyfiles info
          let info ← queryCommand " key_cmd" config.getUserkeysCmd addUserkeys config info
          let info ← queryCommand " info_cmd" config.getUserinfoCmd addUserinfo config info
          ok (some (info.response ++ "status: ".toList ++ info.status ++ "\n".toList))

def executeScript (msg : Str) (config : Settings) : Handler Unit := do
  let discard := contains "#TSI_DISCARD_OUTPUT true\n".toList msg
  let (success, output) ← runCommand msg discard true config.useLoginShell
  if success then
    ok (some output)
  else
    failed (some output)

/-! ## The command table -/

def initFunctions (bss : Bss) : List (Str × Function) :=
  [("TSI_PING".toList, ping),
    ("TSI_PING_UID".toList, pingUid),
    ("TSI_GET_USER_INFO".toList, getUserInfo),
    ("TSI_EXECUTESCRIPT".toList, executeScript),
    ("TSI_GETFILECHUNK".toList, Io.getFileChunk),
    ("TSI_PUTFILECHUNK".toList, Io.putFileChunk),
    ("TSI_LS".toList, Io.ls),
    ("TSI_DF".toList, Io.df),
    ("TSI_UFTP".toList, Uftp.uftp),
    ("TSI_SUBMIT".toList, bss.submit),
    ("TSI_RUN_ON_LOGIN_NODE".toList, bss.runOnLoginNode),
    ("TSI_GETSTATUSLISTING".toList, bss.getStatusListing),
    ("TSI_GETPROCESSLISTING".toList, bss.getProcessListing),
    ("TSI_GETJOBDETAILS".toList, bss.getJobDetails),
    ("TSI_GET_PARTITIONS".toList, bss.getPartitions),
    ("TSI_ABORTJOB".toList, bss.abortJob),
    ("TSI_HOLDJOB".toList, bss.holdJob),
    ("TSI_RESUMEJOB".toList, bss.resumeJob),
    ("TSI_GET_COMPUTE_BUDGET".toList, bss.getBudget),
    ("TSI_MAKE_RESERVATION".toList, makeReservation),
    ("TSI_QUERY_RESERVATION".toList, queryReservation),
    ("TSI_CANCEL_RESERVATION".toList, cancelReservation),
    ("TSI_FILE_ACL".toList, Acl.processAcl)]

/-- The names of the commands, in the order in which they are looked for. -/
def commandNames : List Str :=
  ["TSI_PING", "TSI_PING_UID", "TSI_GET_USER_INFO", "TSI_EXECUTESCRIPT", "TSI_GETFILECHUNK",
    "TSI_PUTFILECHUNK", "TSI_LS", "TSI_DF", "TSI_UFTP", "TSI_SUBMIT", "TSI_RUN_ON_LOGIN_NODE",
    "TSI_GETSTATUSLISTING", "TSI_GETPROCESSLISTING", "TSI_GETJOBDETAILS", "TSI_GET_PARTITIONS",
    "TSI_ABORTJOB", "TSI_HOLDJOB", "TSI_RESUMEJOB", "TSI_GET_COMPUTE_BUDGET", "TSI_MAKE_RESERVATION",
    "TSI_QUERY_RESERVATION", "TSI_CANCEL_RESERVATION", "TSI_FILE_ACL"].map String.toList

theorem initFunctions_names (bss : Bss) : (initFunctions bss).map Prod.fst = commandNames := rfl

/-- `.*#<cmd>\n` -/
def commandItems (cmd : Str) : List (Item Char) := [anyChars, .lit ('#' :: cmd), literal "\n"]

/-- `re.search(r".*#%s\n" % cmd, message, re.M)` -/
def hasCommand (message cmd : Str) : Bool := (search (commandItems cmd) none message).isSome

/-- The first entry of the table whose tag the message contains. -/
def findCommand (functions : List (Str × Function)) (message : Str) : Option (Str × Function) :=
  functions.find? fun entry => hasCommand message entry.1

/-! ## PAM sessions -/

def isAscii (s : Str) : Bool := s.all fun c => c.toNat < 128

/-- `bytes(s, encoding="ascii")` -/
def asciiBytes (s : Str) : Except PyExc Unit :=
  if isAscii s then .ok ()
  else .error (valueError "'ascii' codec can't encode characters: ordinal not in range(128)")

/-- `PAM.PAM(LOG, module_name=...)` -/
def loadPam (moduleName : Str) : WorkerM Unit := do
  ofExcept (asciiBytes moduleName)
  runHandler (sysCall (.loadPam moduleName))
  modify fun w => { w with pamSession := true }

def pamError (err : Int) : PyExc :=
  { kind := .osError,
    text := "Error ".toList ++ intText err ++ " invoking 'pam_open_session'".toList }

/-- `open_session`: a failing `pam_start` is only logged. -/
def openSession (user : Str) : WorkerM Unit := do
  ofExcept (asciiBytes user)
  let _ ← runHandler (consult fun h t => h.pam t "pam_start".toList)
  let err ← runHandler (consult fun h t => h.pam t "pam_open_session".toList)
  if err ≠ 0 then
    raise (pamError err)
  modify fun w => { w with pamEvents := w.pamEvents ++ [.opened user] }

/-- `close_session`: errors are only logged. -/
def closeSession : WorkerM Unit := do
  let w ← get
  if w.pamSession then
    let _ ← runHandler (consult fun h t => h.pam t "pam_close_session".toList)
    let _ ← runHandler (consult fun h t => h.pam t "pam_end".toList)
    modify fun w => { w with pamEvents := w.pamEvents ++ [.closed] }
  else
    raise (nameError "cannot access local variable 'pam_session' where it is not associated with a value")

/-! ## Handling a request -/

def startForwarding : Str := "_START_FORWARDING".toList

/-- The commands that start processes of the user. -/
def spawningCommands : List Str :=
  ["TSI_EXECUTESCRIPT".toList, "TSI_RUN_ON_LOGIN_NODE".toList, "TSI_SUBMIT".toList, "TSI_UFTP".toList]

def noUserInfo : PyExc := runtimeError "No user/group info given".toList

/-- Become the user the message names. -/
def assumeIdentity (msg : Str) (openUserSession : Bool) (config : Settings) : WorkerM Unit := do
  let (user, groups) ← ofExcept (match requestedIdentity msg with
    | some info => .ok info
    | none => .error noUserInfo)
  if openUserSession then
    loadPam config.pamModule
    openSession user
  let _ ← becomeUser user groups config

/-- Call a function of the table, recording who it runs as. -/
def invoke (function : Function) (command msg : Str) (config : Settings) : WorkerM Unit := do
  modify fun w => { w with
    invocations := w.invocations ++
      [{ command := command, message := msg, cred := w.cred }] }
  runHandler (function msg config)

/-- The `try` block of `handle_function`. -/
def attemptFunction (function : Function) (command msg : Str) (openUserSession : Bool)
    (config : Settings) : WorkerM Unit := do
  if config.switchUid then
    assumeIdentity msg openUserSession config
  invoke function command msg config

/-- `handle_function` after the decision to fork. -/
def runFunction (function : Function) (command msg : Str) (openUserSession : Bool)
    (config : Settings) : WorkerM Unit := do
  modify fun w => { w with pamSession := false }
  handle (attemptFunction function command msg openUserSession config) fun e =>
    runHandler (failed (some e.text))
  if config.switchUid && command ≠ startForwarding then
    restoreId config
    if openUserSession then
      closeSession

/-- What is left in the parent of what a child did: its effects outside the process. -/
def afterChild (parent child : Worker) : Worker :=
  { child with
    io := { child.io with childPids := parent.io.childPids }
    cred := parent.cred
    environ := parent.environ
    pamSession := parent.pamSession }

/-- Run `x` in a forked child and wait for it; a child that ends with an exception ends all the same. -/
def inChild (x : WorkerM Unit) : WorkerM Unit := fun r w =>
  match x r w with
  | (.hung, w') => (.hung, afterChild w w')
  | (_, w') => (.done (), afterChild w w')

/-- `open_user_session` of `handle_function`: whether a command is run in a PAM session of its own. -/
def userSession (command : Str) (config : Settings) : Bool :=
  let cmdSpawns := decide (command ∈ spawningCommands)
  config.openUserSessions && cmdSpawns && config.switchUid

def handleFunction (function : Function) (command msg : Str) (config : Settings) : WorkerM Unit := do
  if userSession command config && command ≠ startForwarding then
    runHandler (sysCall .fork)
    inChild (runFunction function command msg (userSession command config) config)
    runHandler (sysCall .waitChild)
  else
    runFunction function command msg (userSession command config) config

/-! ## The processing loop -/

def unknownCommand : Str := "Unknown #TSI_* command".toList

/-- Answer one message, without the final `ENDOFMESSAGE`. -/
def answer (functions : List (Str × Function)) (message : Str) (config : Settings) : WorkerM Unit :=
  match findCommand functions message with
  | none => runHandler (failed (some unknownCommand))
  | some (command, function) =>
      if command = "TSI_PING".toList then runHandler (ping message config)
      else handleFunction function command message config

/-- What `process` does with a message. -/
def processMessage (functions : List (Str × Function)) (message : Str) (config : Settings) :
    WorkerM Unit := do
  runHandler (sysCall (.chdir config.safeDir))
  answer functions message config
  runHandler (writeMessage endOfMessage)

/-- UNICORE/X has the data ready that belongs to the request it has just sent. -/
def peerPrepares : WorkerM Unit :=
  modify fun w => { w with
    io := { w.io with upload := w.uploads.headD [] }
    uploads := w.uploads.tail }

/-- `connector.read_message()`, with `none` for the end of the connection. -/
def nextMessage : WorkerM (Option Str) :=
  handle
    (do
      let message ← readMessage
      return some message)
    fun e => if e.isOSError then pure none else raise e

/-- One iteration of the loop of `process`: whether to go on. -/
def round (functions : List (Str × Function)) (config : Settings) (oneShot : Bool) : WorkerM Bool := do
  runHandler cleanup
  let next ← nextMessage
  match next with
  | none =>
      modify fun w => { w with closed := true }
      return false
  | some message =>
      peerPrepares
      processMessage functions message config
      return !(oneShot || config.testing)

def process (functions : List (Str × Function)) (config : Settings) (oneShot : Bool) :
    Nat → WorkerM Unit
  | 0 => diverge
  | fuel + 1 => do
      let go ← round functions config oneShot
      if go then
        process functions config oneShot fuel

end UnicoreTsi.Tsi
