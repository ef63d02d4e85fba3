/-
# UnicoreTsi.BssNobatch — the batch system variant without a batch system.

A submitted script becomes a child process of the worker, with time and memory limits; job details,
hold and resume have nothing to do.
-/
import UnicoreTsi.BssCommon

set_option autoImplicit false

namespace UnicoreTsi.BssNobatch

open UnicoreTsi.Text UnicoreTsi.Effects UnicoreTsi.Regex UnicoreTsi.Utils UnicoreTsi.Connector
open UnicoreTsi.BssCommon

/-- `int(0.01 * t)`: the double `0.01` is `5764607523034235 / 2 ^ 59`. -/
def grace (reqTime : Int) : Except PyExc Nat :=
  match truncDouble (5764607523034235 * reqTime.toNat) (2 ^ 59) with
  | some n => .ok n
  | none => .error { kind := .exception, text := "cannot convert float infinity to integer".toList }

def timeoutCmd (reqTime : Int) : Except PyExc Str :=
  if reqTime > 0 then
    (grace reqTime).map fun g =>
      "timeout -k ".toList ++ natText g ++ " ".toList ++ intText reqTime
  else .ok []

def ulimits (memory : Int) : Str :=
  if memory > 0 then "ulimit -v ".toList ++ intText (1024 * memory) ++ ";".toList else []

def submit (message : Str) (_config : Settings) : Handler Unit := do
  let r ← ask
  let message := expandVariables r.environ message
  let outcomeDir := extractParameter message "OUTCOME_DIR".toList
  let uspaceDir := extractParameter message "USPACE_DIR".toList
  let stdout := extractParameter message "STDOUT".toList
  let stderr := extractParameter message "STDERR".toList
  let reqTime := extractNumber message "TIME".toList
  let memory := extractNumber message "MEMORY".toList
  let timeoutcmd ← ofExcept (timeoutCmd reqTime)
  let uspaceDir ← ofExcept (pathArg uspaceDir)
  sysCall (.chdir uspaceDir)
  let outcomeDir ← ofExcept (pathArg outcomeDir)
  makeDir outcomeDir
  addperms outcomeDir 0o700
  let pid ← consult fun h t => h.getpid t
  let millis ← consult fun h t => h.timeMillis t
  let jobId := intText pid ++ (natText millis).drop 5
  let cmdsFile := "UNICORE_Job_".toList ++ jobId
  Io.writeText cmdsFile message
  addperms cmdsFile 0o755
  let cmd := ulimits memory ++ " ionice -c 3 nice -n 100 ".toList ++ timeoutcmd ++ " ".toList ++
    redirected cmdsFile outcomeDir stdout stderr
  let args := ["/bin/sh".toList, "-c".toList, cmd]
  logCommand args
  let child ← attempt fun h t => h.popen t args
  modify fun s => { s with childPids := s.childPids ++ [child] }
  ok (some jobId)

/-- `re.search(r"(\w) .*UNICORE_Job_(\d+).*", qstat_line)` -/
def extractInfo (host : Host) (qstatLine : Str) : Option (Str × Str × Str) :=
  match search [.rep (isWord host) 1 (some 1), literal " ", anyChars, literal "UNICORE_Job_", digits,
    anyChars] none qstatLine with
  | some [state, _, _, _, bssid, _] => some (bssid, state, "NOBATCH".toList)
  | _ => none

def convertStatus (bssState : Str) : Str :=
  if bssState = "T".toList then "SUSPENDED".toList else "RUNNING".toList

def nobatchHooks : BssHooks :=
  { baseHooks with
    extractInfo := fun host line => .ok (extractInfo host line)
    convertStatus := fun state => .ok (convertStatus state) }

def getJobDetails (msg : Str) (_config : Settings) : Handler Unit :=
  ok (some ("No info available for job ".toList ++ optText (extractParameter msg "BSSID".toList) ++
    " \n".toList))

def holdJob (_msg : Str) (_config : Settings) : Handler Unit := ok (some "\n".toList)

def resumeJob (_msg : Str) (_config : Settings) : Handler Unit := ok (some "\n".toList)

def nobatch : Bss :=
  { base nobatchHooks with
    submit := submit
    getJobDetails := getJobDetails
    holdJob := holdJob
    resumeJob := resumeJob }

end UnicoreTsi.BssNobatch
