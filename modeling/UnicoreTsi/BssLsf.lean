/-
# UnicoreTsi.BssLsf — the LSF variant.

The generator turns the wall time into minutes whether or not there is one, and computes a memory limit it
emits no line for; the computation still raises when the processors per node are zero or the conversion
factor is not a number.
-/
import UnicoreTsi.BssScript

set_option autoImplicit false

namespace UnicoreTsi.BssLsf

open UnicoreTsi.Text UnicoreTsi.Regex UnicoreTsi.Utils UnicoreTsi.BssCommon UnicoreTsi.BssScript

/-! ## Submit script -/

def directive (option : Str) : Str := "#BSUB ".toList ++ option

/-- The job slots: the processors in total, or those of all nodes. -/
def slotOptions (totalProcessors nodes processorsPerNode : Int) : List Str :=
  if 0 < totalProcessors then ["-n ".toList ++ intText totalProcessors]
  else if 0 < nodes ∧ 0 < processorsPerNode then
    ["-R \"span[ptile=".toList ++ intText processorsPerNode ++ "]\"".toList,
      "-n ".toList ++ intText (nodes * processorsPerNode)]
  else []

/-- `int(gpus)`, or zero if that fails. -/
def gpuCount (gpus : Str) : Int :=
  match pyInt 10 gpus with
  | .ok n => n
  | .error _ => 0

/-- `int( int(req_time) / 60 )` -/
def timeInMinutes (reqTime : Int) : Except PyExc Int := truncQuotient reqTime 60

/-- The memory limit per process. -/
def memoryPerProcess (memory processorsPerNode : Int) (factor : Option Str) : Except PyExc Int := do
  let memory ← truncQuotient memory processorsPerNode
  let factor ← pyIntOpt factor
  return memory * factor

/-- The directives before the wall time. -/
def resourceOptions (message : Str) : List Str :=
  let email := parameterOrNone message "EMAIL".toList
  let project := parameterOrNone message "PROJECT".toList
  let nodes := extractNumber message "NODES".toList
  let processorsPerNode := extractNumber message "PROCESSORS_PER_NODE".toList
  let totalProcessors := extractNumber message "TOTAL_PROCESSORS".toList
  let gpus := parameterOrNone message "GPUS_PER_NODE".toList
  let queue := parameterOrNone message "QUEUE".toList
  unlessNone email ("-B -N -u ".toList ++ ·) ++
  unlessNone queue ("-q ".toList ++ ·) ++
  unlessNone project ("-P ".toList ++ ·) ++
  slotOptions totalProcessors nodes processorsPerNode ++
  ifPositive (gpuCount gpus) (fun count => "-gpu \"num=".toList ++ count ++ ":j_exclusive=yes\"".toList)

/-- The lines with the job name, which for an array of jobs also has the array specification. -/
def nameLines (jobName : Str) (arraySpec arrayLimit : Int) : List Str :=
  if 0 < arraySpec then
    [directive ("-J \"".toList ++ jobName ++
        limited ("[".toList ++ intText arraySpec ++ "]".toList) arrayLimit ++ "\"".toList),
      taskIdCommand "LSB_JOB_INDEX"]
  else [directive ("-J ".toList ++ jobName)]

/-- What an array job adds to the names of its output files. -/
def arraySuffix (arraySpec : Int) : Str := if 0 < arraySpec then "%I".toList else []

def createSubmitScript (config : Settings) (message : Str) : Except PyExc (List Str) := do
  let jobName := parameterOr message "JOBNAME".toList config.defaultJobName
  let outcomeDir := optText (extractParameter message "OUTCOME_DIR".toList)
  let stderr := parameterOr message "STDERR".toList "stderr".toList
  let stdout := parameterOr message "STDOUT".toList "stdout".toList
  let umask := parameterOrNone message "UMASK".toList
  let memory := extractNumber message "MEMORY".toList
  let processorsPerNode := extractNumber message "PROCESSORS_PER_NODE".toList
  let arraySpec := extractNumber message "ARRAY".toList
  let arrayLimit := extractNumber message "ARRAY_LIMIT".toList
  let reservationId := parameterOrNone message "RESERVATION_REFERENCE".toList
  let minutes ← timeInMinutes (extractNumber message "TIME".toList)
  -- the limit is not emitted, the line for it is commented out
  let _ ← memoryPerProcess memory processorsPerNode config.lsfMemoryConversionFactor
  let stdout := stdout ++ arraySuffix arraySpec
  let stderr := stderr ++ arraySuffix arraySpec
  return (resourceOptions message).map directive ++ [directive ("-W ".toList ++ intText minutes)] ++
    unlessNone reservationId (fun ref => directive ("-U ".toList ++ ref)) ++
    nameLines (fittingJobName jobName) arraySpec arrayLimit ++
    [directive ("-o ".toList ++ outcomeDir ++ "/".toList ++ stdout),
      directive ("-e ".toList ++ outcomeDir ++ "/".toList ++ stderr), "umask ".toList ++ umask]

/-! ## Output of the LSF commands -/

/-- `^\s*(\d+)\s+\S+\s+(\w+)\s+(\w+)\.*`, where `^` is the start of the text. -/
def infoItems (host : Host) : List (Item Char) :=
  [.look fun prev => prev = none, .rep isSpace 0 none, digits, spaces, nonSpaces, spaces,
    .rep (isWord host) 1 none, spaces, .rep (isWord host) 1 none, .rep (· = '.') 0 none]

def extractInfo (host : Host) (qstatLine : Str) : Option (Str × Str × Str) :=
  match search (infoItems host) none qstatLine with
  | some [_, _, bssid, _, _, _, state, _, queueName, _] => some (bssid, state, queueName)
  | _ => none

def convertStatus (bssState : Str) : Str :=
  if bssState ∈ ["PEND".toList, "WAIT".toList, "ZOMBI".toList] then "QUEUED".toList
  else if bssState ∈ ["RUN".toList, "POST_DONE".toList, "POST_ERR".toList] then "RUNNING".toList
  else if bssState ∈ ["PSUSP".toList, "USUSP".toList, "SSUSP".toList] then "SUSPENDED".toList
  else if bssState ∈ ["DONE".toList, "EXIT".toList] then "COMPLETED".toList
  else "UNKNOWN".toList

/-! ## The variant -/

def lsfHooks : BssHooks :=
  { baseHooks with
    createSubmitScript := createSubmitScript
    extractInfo := fun host line => .ok (extractInfo host line)
    convertStatus := fun state => .ok (convertStatus state) }

def lsf : Bss := base lsfHooks

/-- `init`: the submit command reads the script from its standard input. -/
def redirectSubmit (submitCmd : Str) : Str :=
  if (strip submitCmd).getLast? = some '<' then submitCmd else submitCmd ++ " <".toList

/-- The settings of a site that leaves the commands to the variant's `defaults`. -/
def defaults : Settings where
  submitCmd := some (redirectSubmit "bsub <".toList)
  qstatCmd := "bjobs -w -u all".toList
  detailsCmd := some "bjobs -l".toList
  abortCmd := "bkill %s".toList
  holdCmd := some "bstop".toList
  resumeCmd := some "bresume".toList
  lsfMemoryConversionFactor := some "1".toList

end UnicoreTsi.BssLsf
