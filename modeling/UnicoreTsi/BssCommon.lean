/-
# UnicoreTsi.BssCommon — the batch system functions common to all variants.

`Bss` is the object the command table is built from; `BssHooks` collects what a batch system variant
overrides in `BSSBase` (script generation, parsing of the tools' output), and `base` is `BSSBase` with
those hooks.  The module also holds `Quota` and the dummy `Reservation`.
-/
import UnicoreTsi.Io

set_option autoImplicit false

namespace UnicoreTsi.BssCommon

open UnicoreTsi.Text UnicoreTsi.Effects UnicoreTsi.Regex UnicoreTsi.Utils UnicoreTsi.Connector

/-! ## JSON -/

/-- The values the parsers of tool output build. -/
inductive Json where
  | str (s : Str)
  | int (n : Int)
  | bool (b : Bool)
  | obj (fields : List (Str × Json))

def hexDigit (n : Nat) : Char := (Nat.toDigits 16 n).headD '0'

/-- `\uXXXX` -/
def unicodeEscape (n : Nat) : Str :=
  "\\u".toList ++ [hexDigit (n / 4096 % 16), hexDigit (n / 256 % 16), hexDigit (n / 16 % 16),
    hexDigit (n % 16)]

/-- One character of a JSON string; beyond the basic plane it becomes a surrogate pair. -/
def jsonChar (c : Char) : Str :=
  let n := c.toNat
  if c = '"' then "\\\"".toList
  else if c = '\\' then "\\\\".toList
  else if c = '\n' then "\\n".toList
  else if c = '\r' then "\\r".toList
  else if c = '\t' then "\\t".toList
  else if n = 8 then "\\b".toList
  else if n = 12 then "\\f".toList
  else if 32 ≤ n ∧ n ≤ 126 then [c]
  else if n < 0x10000 then unicodeEscape n
  else unicodeEscape (0xd800 + (n - 0x10000) / 0x400) ++ unicodeEscape (0xdc00 + (n - 0x10000) % 0x400)

def jsonString (s : Str) : Str := '"' :: (s.flatMap jsonChar ++ ['"'])

mutual

/-- `json.dumps` -/
def jsonDumps : Json → Str
  | .str s => jsonString s
  | .int n => intText n
  | .bool b => if b then "true".toList else "false".toList
  | .obj fields => "\x7b".toList ++ jsonFields fields ++ "\x7d".toList

def jsonFields : List (Str × Json) → Str
  | [] => []
  | [(k, v)] => jsonString k ++ ": ".toList ++ jsonDumps v
  | (k, v) :: rest => jsonString k ++ ": ".toList ++ jsonDumps v ++ ", ".toList ++ jsonFields rest

end

/-- `d[k] = v`: a key that is present keeps its place. -/
def putField {α : Type} (k : Str) (v : α) : List (Str × α) → List (Str × α)
  | [] => [(k, v)]
  | (k', v') :: rest => if k' = k then (k, v) :: rest else (k', v') :: putField k v rest

/-! ## What a variant overrides -/

structure BssHooks where
  createSubmitScript : Settings → Str → Except PyExc (List Str)
  createAllocScript : Settings → Str → Except PyExc (List Str)
  extractJobId : Str → Option Str
  /-- Job id, state and queue of a line of the status listing, when it has them. -/
  extractInfo : Host → Str → Except PyExc (Option (Str × Str × Str))
  convertStatus : Str → Except PyExc Str
  parseJobDetails : Str → Except PyExc Json
  parsePartitions : Str → Except PyExc Json

/-- The functions of the command table that belong to the batch system. -/
structure Bss where
  submit : Str → Settings → Handler Unit
  runOnLoginNode : Str → Settings → Handler Unit
  getStatusListing : Str → Settings → Handler Unit
  getProcessListing : Str → Settings → Handler Unit
  getJobDetails : Str → Settings → Handler Unit
  getPartitions : Str → Settings → Handler Unit
  abortJob : Str → Settings → Handler Unit
  holdJob : Str → Settings → Handler Unit
  resumeJob : Str → Settings → Handler Unit
  getBudget : Str → Settings → Handler Unit

/-! ## The hooks of `BSSBase` itself -/

/-- `re.search(r"\D*(\d+)\D*", submit_result)` -/
def extractJobId (submitResult : Str) : Option Str :=
  match search [nonDigits, digits, nonDigits] none submitResult with
  | some [_, jobId, _] => some jobId
  | _ => none

/-- `re.compile("\\s+").split(s)` -/
def splitSpacesFrom (current : Str) (inSpace : Bool) : Str → List Str
  | [] => [current]
  | c :: cs =>
      if isSpace c then
        if inSpace then splitSpacesFrom current true cs else current :: splitSpacesFrom [] true cs
      else splitSpacesFrom (current ++ [c]) false cs

def splitSpaces (s : Str) : List Str := splitSpacesFrom [] false s

/-- `parse_job_details` of the base class: tokens without `=` are ignored. -/
def parseJobDetails (rawInfo : Str) : Json :=
  .obj ((splitSpaces (strip rawInfo)).foldl (fun fields t =>
    match splitOnce '=' t with
    | some (k, v) => putField k (.str v) fields
    | none => fields) [])

def notImplemented : PyExc := runtimeError "Method not implemented!".toList

def baseHooks : BssHooks where
  createSubmitScript _ _ := .ok []
  createAllocScript _ _ := .ok []
  extractJobId := extractJobId
  extractInfo _ _ := .error notImplemented
  convertStatus _ := .error notImplemented
  parseJobDetails rawInfo := .ok (parseJobDetails rawInfo)
  parsePartitions _ := .ok (.obj [])

/-! ## Submission -/

section Functions

variable (hooks : BssHooks)

def illegalMode (jobMode : Str) : Str := "Illegal job mode: ".toList ++ jobMode ++ " ".toList

def submitFailed (reply : Str) : Str := "Submit failed? Submission result:".toList ++ reply

/-- The script for the batch system: `none` when the request has been answered with a failure. -/
def submitCommands (msg jobMode : Str) (config : Settings) : Handler (Option (List Str)) := do
  if jobMode = "normal".toList then
    let cmds ← ofExcept (hooks.createSubmitScript config msg)
    return some cmds
  else if jobMode = "raw".toList then
    match extractParameter msg "JOB_FILE".toList with
    | none =>
        failed (some "Job mode 'raw' requires TSI_JOB_FILE".toList)
        return none
    | some file =>
        let text ← attempt fun h t => h.readText t file
        return some [text]
  else if "alloc".toList.isPrefixOf jobMode then
    match hooks.createAllocScript config msg with
    | .ok cmds => return some cmds
    | .error _ =>
        failed (some "Allocation mode not (yet) supported!".toList)
        return none
  else
    failed (some (illegalMode jobMode))
    return none

/-- The text that runs the allocation command in the background. -/
def allocScript (msg : Str) (cmds : List Str) : Str :=
  let pidFile := optText (extractParameter msg "PID_FILE".toList (some "UNICORE_SCRIPT_PID".toList))
  msg ++ "\n\x7b ".toList ++ cmds.flatMap (fun line => line ++ " ; ".toList) ++
    "\x7d & echo $! > ".toList ++ pidFile ++ " \n".toList

/-- Write the job script and run the command that submits or allocates. -/
def runSubmission (msg uspaceDir : Str) (isAlloc : Bool) (cmds : List Str) (config : Settings) :
    Handler (Bool × Str) := do
  let submitId ← consult fun h t => h.randomString t
  let userjobFile := "UNICORE_Job_".toList ++ submitId
  if isAlloc then
    let cmd := allocScript msg cmds
    Io.writeText userjobFile cmd
    runCommand cmd true true config.useLoginShell
  else
    Io.writeText userjobFile msg
    addperms userjobFile 0o770
    let cmds := cmds ++ [uspaceDir ++ "/".toList ++ userjobFile]
    let submitFile := "bss_submit_".toList ++ submitId
    Io.writeText submitFile (unlines cmds)
    addperms submitFile 0o770
    let submitCmd ← ofExcept (configured "tsi.submit_cmd" config.submitCmd)
    runCommand (submitCmd ++ " ./".toList ++ submitFile) false false config.useLoginShell

def submit (msg : Str) (config : Settings) : Handler Unit := do
  let r ← ask
  let msg := expandVariables r.environ msg
  let uspaceDir ← ofExcept (pathArg (extractParameter msg "USPACE_DIR".toList))
  sysCall (.chdir uspaceDir)
  let jobMode := (extractParameter msg "JOB_MODE".toList).getD "normal".toList
  let isAlloc := "alloc".toList.isPrefixOf jobMode
  match ← submitCommands hooks msg jobMode config with
  | none => return ()
  | some cmds =>
      let (success, reply) ← runSubmission msg uspaceDir isAlloc cmds config
      if !success then
        failed (some reply)
      else if isAlloc then
        ok none
      else
        match hooks.extractJobId reply with
        | some jobId => ok (some jobId)
        | none => failed (some (submitFailed reply))

/-! ## Running a script on the login node -/

/-- `./<script> > <outcome>/<stdout> 2> <outcome>/<stderr>` -/
def redirected (script outcomeDir : Str) (stdout stderr : Option Str) : Str :=
  "./".toList ++ script ++ " > ".toList ++ outcomeDir ++ "/".toList ++ optText stdout ++
    " 2> ".toList ++ outcomeDir ++ "/".toList ++ optText stderr

/-- Make the directory unless it is there. -/
def makeDir (path : Str) : Handler Unit := do
  let found ← consult fun h t => h.pathExists t path
  if !found then
    sysCall (.mkdir path)

/-- The same, with permissions for a new directory. -/
def makeOutcomeDir (path : Str) : Handler Unit := do
  let found ← consult fun h t => h.pathExists t path
  if !found then
    sysCall (.mkdir path)
    addperms path 0o700

def runOnLoginNode (message : Str) (config : Settings) : Handler Unit := do
  let r ← ask
  let message := expandVariables r.environ message
  let outcomeDir := extractParameter message "OUTCOME_DIR".toList
  let uspaceDir ← ofExcept (pathArg (extractParameter message "USPACE_DIR".toList))
  let stdout := extractParameter message "STDOUT".toList
  let stderr := extractParameter message "STDERR".toList
  sysCall (.chdir uspaceDir)
  let outcomeDir ← ofExcept (pathArg outcomeDir)
  makeOutcomeDir outcomeDir
  let submitId ← consult fun h t => h.randomString t
  let cmdsFile := "UNICORE_Job_".toList ++ submitId
  Io.writeText cmdsFile message
  addperms cmdsFile 0o700
  let (success, reply) ← runCommand (redirected cmdsFile outcomeDir stdout stderr) true true
    config.useLoginShell
  if success then
    let s ← get
    match s.childPids.getLast? with
    | some jobPid => ok (some (intText jobPid))
    | none => raise (indexError "list index out of range")
  else
    failed (some (submitFailed reply))

/-! ## Status listing -/

/-- `__ustates`, lowest first. -/
def ustates : List Str :=
  ["COMPLETED".toList, "QUEUED".toList, "SUSPENDED".toList, "RUNNING".toList, "UNKNOWN".toList]

/-- `__ustates.index(ustate)` -/
def stateIndex (ustate : Str) : Except PyExc Nat :=
  if ustate ∈ ustates then .ok (ustates.idxOf ustate)
  else .error (valueError "is not in list")

/-- The state, queue and original state reported for a job. -/
abbrev StatusEntry := Str × Str × Str

/-- The loop of `parse_status_listing` over the remaining lines. -/
def mergeStates (host : Host) : List Str → List (Str × StatusEntry) →
    Except PyExc (List (Str × StatusEntry))
  | [], states => .ok states
  | line :: rest, states => do
      match ← hooks.extractInfo host line with
      | none => mergeStates host rest states
      | some (bssid, state, queueName) =>
          let ustate ← hooks.convertStatus state
          match states.lookup bssid with
          | none => mergeStates host rest (putField bssid (ustate, queueName, state) states)
          | some (haveState, _, _) =>
              let new ← stateIndex ustate
              let old ← stateIndex haveState
              if new > old then
                mergeStates host rest (putField bssid (ustate, queueName, state) states)
              else mergeStates host rest states

def statusLine (entry : Str × StatusEntry) : Str :=
  " ".toList ++ entry.1 ++ " ".toList ++ entry.2.1 ++ " ".toList ++ entry.2.2.1 ++ " ".toList ++
    entry.2.2.2 ++ "\n".toList

def parseStatusListing (host : Host) (qstatResult : Str) : Except PyExc Str := do
  let states ← mergeStates hooks host (splitlines qstatResult) []
  return "QSTAT\n".toList ++ states.flatMap statusLine

def getStatusListing (_msg : Str) (config : Settings) : Handler Unit := do
  let r ← ask
  let (success, output) ← runCommand config.qstatCmd false false true
  if success then
    let result ← ofExcept (parseStatusListing hooks r.host output)
    ok (some result)
  else
    failed (some output)

def getProcessListing (msg : Str) (config : Settings) : Handler Unit := do
  let psCmd := (extractParameter msg "PS".toList).getD config.getProcessesCmd
  runAndReport psCmd

/-! ## Job control -/

def getJobDetails (msg : Str) (config : Settings) : Handler Unit := do
  let bssid := extractParameter msg "BSSID".toList
  let detailsCmd ← ofExcept (configured "tsi.details_cmd" config.detailsCmd)
  let cmd ← ofExcept (concat (detailsCmd ++ " ".toList) bssid)
  let (success, output) ← runCommand cmd false false true
  if success then
    let result ← ofExcept (hooks.parseJobDetails output)
    ok (some (jsonDumps result ++ "\n".toList))
  else
    failed (some output)

/-- `fmt % arg` for one text argument; `pending` says that it has not been used yet. -/
def formatOne (arg : Str) : Bool → Str → Except PyExc Str
  | pending, [] =>
      if pending then .error (typeError "not all arguments converted during string formatting")
      else .ok []
  | pending, '%' :: '%' :: cs => (formatOne arg pending cs).map ('%' :: ·)
  | true, '%' :: 's' :: cs => (formatOne arg false cs).map (arg ++ ·)
  | false, '%' :: 's' :: _ => .error (typeError "not enough arguments for format string")
  | _, '%' :: _ => .error (valueError "unsupported format character")
  | pending, c :: cs => (formatOne arg pending cs).map (c :: ·)

def abortJob (msg : Str) (config : Settings) : Handler Unit := do
  let bssid := extractParameter msg "BSSID".toList
  let cmd ← ofExcept (formatOne (optText bssid) true config.abortCmd)
  runAndReport cmd config.useLoginShell

/-- `hold_job` and `resume_job`: a configured command is run on the job id. -/
def controlJob (key : String) (command : Option Str) (msg : Str) (config : Settings) :
    Handler Unit := do
  let bssid := extractParameter msg "BSSID".toList
  let command ← ofExcept (configured key command)
  let cmd ← ofExcept (concat (command ++ " ".toList) bssid)
  runAndReport cmd config.useLoginShell

def holdJob (msg : Str) (config : Settings) : Handler Unit :=
  controlJob "tsi.hold_cmd" config.holdCmd msg config

def resumeJob (msg : Str) (config : Settings) : Handler Unit :=
  controlJob "tsi.resume_cmd" config.resumeCmd msg config

/-! ## Budget and partitions -/

/-- `Quota.get_quota` -/
def getQuota : Str := "USER -1".toList

def getBudget (_msg : Str) (_config : Settings) : Handler Unit :=
  ok (some (getQuota ++ "\n".toList))

def getPartitions (_msg : Str) (config : Settings) : Handler Unit := do
  let (success, output) ← runCommand config.getPartitionsCmd false false true
  if success then
    let result ← ofExcept (hooks.parsePartitions output)
    ok (some (jsonDumps result ++ "\n".toList))
  else
    failed (some output)

/-! ## Child processes -/

def isChildProcessError (e : PyExc) : Bool := e.isOSError && e.errno = 10

def removeChild (pid : Int) : Handler Unit :=
  modify fun s => { s with childPids := s.childPids.erase pid }

/-- One step of the loop of `cleanup`. -/
def reapChild (pid : Int) : Handler Unit :=
  handle
    (do
      let ended ← attempt fun h t => h.waitpid t pid
      if ended ≠ 0 then
        removeChild pid)
    fun e => if isChildProcessError e then removeChild pid else raise e

/-- The loop of `cleanup` from index `i` on: it runs over the list it removes from. -/
def cleanupFrom : Nat → Nat → Handler Unit
  | 0, _ => pure ()
  | n + 1, i => do
      let s ← get
      match s.childPids[i]? with
      | none => return ()
      | some pid =>
          reapChild pid
          cleanupFrom n (i + 1)

def cleanup : Handler Unit := do
  let s ← get
  cleanupFrom s.childPids.length 0

/-- `BSSBase` with the overrides of a batch system variant. -/
def base : Bss where
  submit := submit hooks
  runOnLoginNode := runOnLoginNode
  getStatusListing := getStatusListing hooks
  getProcessListing := getProcessListing
  getJobDetails := getJobDetails hooks
  getPartitions := getPartitions hooks
  abortJob := abortJob
  holdJob := holdJob
  resumeJob := resumeJob
  getBudget := getBudget

end Functions

/-! ## Reservation -/

/-- The functions of the dummy module `Reservation`, which all answer the same. -/
def reservationNotSupported : Handler Unit := failed (some "Reservation not supported!".toList)

def makeReservation (_msg : Str) (_config : Settings) : Handler Unit := reservationNotSupported

def queryReservation (_msg : Str) (_config : Settings) : Handler Unit := reservationNotSupported

def cancelReservation (_msg : Str) (_config : Settings) : Handler Unit := reservationNotSupported

end UnicoreTsi.BssCommon
