/-
# UnicoreTsi.BssSlurm — the Slurm variant.

The options common to `sbatch` and `salloc` come from `parseCommonOptions`, in the order the source appends
them; a submit script has them as `#SBATCH` lines, an allocation script as arguments of the allocation command.
-/
import UnicoreTsi.BssScript

set_option autoImplicit false

namespace UnicoreTsi.BssSlurm

open UnicoreTsi.Text UnicoreTsi.Regex UnicoreTsi.Utils UnicoreTsi.BssCommon UnicoreTsi.BssScript

/-! ## Options -/

/-- The class `[0-9a-zA-Z\.:.=~/]`. -/
def isJobNameChar (c : Char) : Bool :=
  c.isDigit || c.isAlpha || c = '.' || c = ':' || c = '=' || c = '~' || c = '/'

def checkedJobName (jobName : Str) : Str :=
  if jobName.any fun c => !isJobNameChar c then fallbackJobName else jobName

/-- `s.lower() == "true"`: no letter beyond ASCII has one of these four as its lower case. -/
def meansTrue (s : Str) : Bool := s.map Char.toLower = "true".toList

/-- The filter of the site and that of the user. -/
def joinedFilter (siteFilter userFilter : Str) : Str :=
  if userFilter ≠ noneText then
    if siteFilter ≠ [] then siteFilter ++ "&".toList ++ userFilter else userFilter
  else siteFilter

/-- `max(int(req_time / 60), 1)` -/
def timeInMinutes (reqTime : Int) : Except PyExc Int := (truncQuotient reqTime 60).map (max · 1)

def timeOption (reqTime : Int) : Except PyExc (List Str) :=
  if 0 < reqTime then
    (timeInMinutes reqTime).map fun minutes => ["--time=".toList ++ intText minutes]
  else .ok []

/-- The options before the wall time. -/
def resourceOptions (message : Str) (config : Settings) : List Str :=
  let jobName := parameterOr message "JOBNAME".toList config.defaultJobName
  let project := parameterOrNone message "PROJECT".toList
  let memory := extractNumber message "MEMORY".toList
  let nodes := extractNumber message "NODES".toList
  let processorsPerNode := extractNumber message "PROCESSORS_PER_NODE".toList
  let totalProcessors := extractNumber message "TOTAL_PROCESSORS".toList
  let queue := parameterOrNone message "QUEUE".toList
  let nodesFilter := joinedFilter config.nodesFilter (parameterOrNone message "BSS_NODES_FILTER".toList)
  let gpusPerNode := extractNumber message "GPUS_PER_NODE".toList
  let qos := parameterOrNone message "QOS".toList
  let exclusive := parameterOrNone message "EXCLUSIVE".toList
  let exclusive := parameterOr message "SSR_EXCLUSIVE".toList exclusive
  let comment := parameterOrNone message "SSR_COMMENT".toList
  ["--job-name=".toList ++ checkedJobName jobName] ++
  unlessNone queue ("--partition=".toList ++ ·) ++
  (if meansTrue exclusive then ["--exclusive".toList] else []) ++
  unlessNone comment (fun text => "--comment=\"".toList ++ text ++ "\"".toList) ++
  unlessNone project ("--account=".toList ++ ·) ++
  (if 0 < nodes then
    ["--nodes=".toList ++ intText nodes] ++ ifPositive processorsPerNode ("--ntasks-per-node=".toList ++ ·)
  else ifPositive totalProcessors ("--ntasks=".toList ++ ·)) ++
  ifPositive gpusPerNode ("--gpus-per-node=".toList ++ ·) ++
  (if nodesFilter ≠ [] then ["--constraint=".toList ++ nodesFilter] else []) ++
  unlessNone qos ("--qos=".toList ++ ·) ++
  (if 0 ≤ memory then ["--mem=".toList ++ intText memory] else [])

/-- The options after the wall time. -/
def accountOptions (message : Str) : List Str :=
  let email := parameterOrNone message "EMAIL".toList
  let reservationId := parameterOrNone message "RESERVATION_REFERENCE".toList
  (if email ≠ noneText then ["--mail-user=".toList ++ email, "--mail-type=ALL".toList] else []) ++
  unlessNone reservationId ("--reservation=".toList ++ ·)

def parseCommonOptions (message : Str) (config : Settings) : Except PyExc (List Str) := do
  let wallTime ← timeOption (extractNumber message "TIME".toList)
  return resourceOptions message config ++ wallTime ++ accountOptions message

/-! ## Scripts -/

def directive (option : Str) : Str := "#SBATCH ".toList ++ option

/-- The lines that make the script one for an array of jobs. -/
def arrayLines (arraySpec arrayLimit : Int) : List Str :=
  if 0 < arraySpec then
    [directive ("--array=".toList ++ limited (intText arraySpec) arrayLimit),
      taskIdCommand "SLURM_ARRAY_TASK_ID"]
  else []

/-- What an array job adds to the names of its output files. -/
def arraySuffix (arraySpec : Int) : Str := if 0 < arraySpec then "%a".toList else []

def umaskLines (umask : Option Str) : List Str :=
  match umask with
  | some mask => ["umask ".toList ++ mask]
  | none => []

def createSubmitScript (config : Settings) (message : Str) : Except PyExc (List Str) := do
  let outcomeDir := optText (extractParameter message "OUTCOME_DIR".toList)
  let stderr := parameterOr message "STDERR".toList "stderr".toList
  let stdout := parameterOr message "STDOUT".toList "stdout".toList
  let umask := extractParameter message "UMASK".toList
  let uspaceDir := optText (extractParameter message "USPACE_DIR".toList)
  let arraySpec := extractNumber message "ARRAY".toList
  let arrayLimit := extractNumber message "ARRAY_LIMIT".toList
  let options ← parseCommonOptions message config
  let stdout := stdout ++ arraySuffix arraySpec
  let stderr := stderr ++ arraySuffix arraySpec
  return ["#!/bin/bash".toList] ++ options.map directive ++ arrayLines arraySpec arrayLimit ++
    [directive ("--output=".toList ++ outcomeDir ++ "/".toList ++ stdout),
      directive ("--error=".toList ++ outcomeDir ++ "/".toList ++ stderr),
      directive ("--chdir=".toList ++ uspaceDir)] ++ umaskLines umask

def createAllocScript (config : Settings) (message : Str) : Except PyExc (List Str) := do
  let uspaceDir := optText (extractParameter message "USPACE_DIR".toList)
  let stdout := parameterOr message "STDOUT".toList "stdout".toList
  let allocIdFile := parameterOr message "ALLOCATION_ID".toList "UNICORE_ALLOCATION_ID".toList
  let exitCodeFile := parameterOr message "EXIT_CODE_FILE".toList "UNICORE_SCRIPT_EXIT_CODE".toList
  let allocOptions ← parseCommonOptions message config
  let allocCmd ← configured "tsi.alloc_cmd" config.allocCmd
  let allocCmd := allocCmd ++ allocOptions.flatMap (" ".toList ++ ·)
  return [allocCmd ++ " > ".toList ++ stdout ++ " 2>&1 ; echo $? > ".toList ++ exitCodeFile,
    "grep -o '[[:digit:]]*' ".toList ++ uspaceDir ++ "/".toList ++ stdout ++ " | head -1 > ".toList ++
      allocIdFile]

/-! ## Output of the Slurm commands -/

/-- `re.search(r"Submitted\D*(\d+)\D*", submit_result)` -/
def extractJobId (submitResult : Str) : Option Str :=
  match search [literal "Submitted", nonDigits, digits, nonDigits] none submitResult with
  | some [_, _, jobId, _] => some jobId
  | _ => none

/-- `(\d+)_?\S*\s+(\w+)\s+(\w+)` -/
def infoItems (host : Host) : List (Item Char) :=
  [digits, .rep (· = '_') 0 (some 1), .rep (fun c => !isSpace c) 0 none, spaces, .rep (isWord host) 1 none,
    spaces, .rep (isWord host) 1 none]

/-- `re.match`: the pattern is tried at the start of the line only. -/
def extractInfo (host : Host) (qstatLine : Str) : Option (Str × Str × Str) :=
  match matchItems (infoItems host) none qstatLine with
  | some [bssid, _, _, _, state, _, queueName] => some (bssid, state, queueName)
  | _ => none

def decoders : List (Str × List Str) :=
  [("QUEUED".toList,
      ["CONFIGURING".toList, "PENDING".toList, "RESV_DEL_HOLD".toList, "REQUEUE_FED".toList,
        "REQUEUE_HOLD".toList]),
    ("RUNNING".toList,
      ["COMPLETING".toList, "RUNNING".toList, "SIGNALING".toList, "STAGE_OUT".toList]),
    ("SUSPENDED".toList, ["PREEMPTED".toList, "STOPPED".toList, "SUSPENDED".toList]),
    ("COMPLETED".toList,
      ["BOOT_FAIL".toList, "CANCELLED".toList, "COMPLETED".toList, "DEADLINE".toList, "FAILED".toList,
        "NODE_FAIL".toList, "OUT_OF_MEMORY".toList, "REVOKED".toList, "TIMEOUT".toList])]

def convertStatus (bssState : Str) : Str :=
  match decoders.find? fun entry => bssState ∈ entry.2 with
  | some (ustate, _) => ustate
  | none => "UNKNOWN".toList

/-- What a partition is reported with. -/
def partition (nodes : Int) (isDefault : Bool) : Json :=
  .obj [("Nodes".toList, .int nodes), ("isDefault".toList, .bool isDefault)]

/-- The loop of `parse_partitions` over the remaining lines. -/
def addPartitions : List Str → List (Str × Json) → Except PyExc (List (Str × Json))
  | [], result => .ok result
  | line :: rest, result =>
      match (splitSpaces line).filter (· ≠ []) with
      | [name, nodes] => do
          let isDefault := name.getLast? = some '*'
          let name := if isDefault then name.dropLast else name
          let nodes ← pyInt 10 nodes
          -- the entry of a partition seen before is a dictionary, to which no number can be added
          match result.lookup name with
          | none => addPartitions rest (putField name (partition nodes isDefault) result)
          | some _ => .error (typeError "unsupported operand type(s) for +=: 'dict' and 'int'")
      | _ => addPartitions rest result

/-- `s.split(sep)` -/
def splitAll (sep : Char) (s : Str) : List Str := s.splitOn sep

def parsePartitions (rawInfo : Str) : Except PyExc Json :=
  (addPartitions (splitAll '\n' rawInfo) []).map .obj

/-! ## The variant -/

def slurmHooks : BssHooks :=
  { baseHooks with
    createSubmitScript := createSubmitScript
    createAllocScript := createAllocScript
    extractJobId := extractJobId
    extractInfo := fun host line => .ok (extractInfo host line)
    convertStatus := fun state => .ok (convertStatus state)
    parsePartitions := parsePartitions }

def slurm : Bss := base slurmHooks

/-- The settings of a site that leaves the commands to the variant's `defaults`. -/
def defaults : Settings where
  submitCmd := some "sbatch".toList
  allocCmd := some "salloc --no-shell".toList
  qstatCmd := "squeue -h -o \"%i %T %P\"".toList
  detailsCmd := some "scontrol show jobid".toList
  abortCmd := "scancel %s".toList
  holdCmd := some "scontrol hold".toList
  resumeCmd := some "scontrol release".toList
  getPartitionsCmd := "sinfo --all --noheader --format \"%P %D\"".toList

end UnicoreTsi.BssSlurm
