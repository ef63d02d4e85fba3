/-
# UnicoreTsi.BssTorque — the Torque variant, which also serves OpenPBS.
-/
import UnicoreTsi.BssScript

set_option autoImplicit false

namespace UnicoreTsi.BssTorque

open UnicoreTsi.Text UnicoreTsi.Regex UnicoreTsi.Utils UnicoreTsi.BssCommon UnicoreTsi.BssScript

/-! ## Submit script -/

def directive (option : Str) : Str := "#PBS ".toList ++ option

/-- The filter of the site and that of the user, which is read only if the site has one. -/
def joinedFilter (siteFilter userFilter : Str) : Str :=
  if siteFilter ≠ [] then
    ":".toList ++ siteFilter ++ (if userFilter ≠ noneText then ":".toList ++ userFilter else [])
  else siteFilter

/-- `nodes=N`, with the processors per node if they are given. -/
def nodesSpec (nodes processorsPerNode : Int) : Str :=
  "nodes=".toList ++ intText nodes ++
    (if 0 < processorsPerNode then ":ppn=".toList ++ intText processorsPerNode else [])

/-- The directives before the array specification. -/
def resourceOptions (message : Str) (config : Settings) : List Str :=
  let email := parameterOrNone message "EMAIL".toList
  let jobName := parameterOr message "JOBNAME".toList config.defaultJobName
  let project := parameterOrNone message "PROJECT".toList
  let nodes := extractNumber message "NODES".toList
  let nodesFilter := joinedFilter config.nodesFilter (parameterOrNone message "BSS_NODES_FILTER".toList)
  let processorsPerNode := extractNumber message "PROCESSORS_PER_NODE".toList
  let queue := parameterOrNone message "QUEUE".toList
  let reservationId := parameterOrNone message "RESERVATION_REFERENCE".toList
  let reqTime := extractNumber message "TIME".toList
  ["-N ".toList ++ fittingJobName jobName] ++
  unlessNone queue ("-q ".toList ++ ·) ++
  unlessNone project ("-A ".toList ++ ·) ++
  (if 0 < nodes then ["-l ".toList ++ nodesSpec nodes processorsPerNode ++ nodesFilter] else []) ++
  ifPositive reqTime ("-l walltime=".toList ++ ·) ++
  ["-m ".toList ++ (if email = noneText then "n".toList else "abe -M ".toList ++ email)] ++
  unlessNone reservationId ("-W x=FLAGS:ADVRES:".toList ++ ·)

/-- The lines that make the script one for an array of jobs. -/
def arrayLines (arraySpec arrayLimit : Int) : List Str :=
  if 0 < arraySpec then
    [directive ("-t ".toList ++ limited (intText arraySpec) arrayLimit), taskIdCommand "PBS_ARRAYID"]
  else []

/-- What an array job adds to the names of its output files. -/
def arraySuffix (arraySpec : Int) : Str := if 0 < arraySpec then "$PBS_ARRAYID".toList else []

def umaskLines (umask : Option Str) : List Str :=
  match umask with
  | some mask => [directive ("-W umask=".toList ++ mask)]
  | none => []

def createSubmitScript (config : Settings) (message : Str) : Except PyExc (List Str) :=
  let outcomeDir := optText (extractParameter message "OUTCOME_DIR".toList)
  let stderr := parameterOr message "STDERR".toList "stderr".toList
  let stdout := parameterOr message "STDOUT".toList "stdout".toList
  let umask := extractParameter message "UMASK".toList
  let arraySpec := extractNumber message "ARRAY".toList
  let arrayLimit := extractNumber message "ARRAY_LIMIT".toList
  let stdout := stdout ++ arraySuffix arraySpec
  let stderr := stderr ++ arraySuffix arraySpec
  .ok ((resourceOptions message config).map directive ++ arrayLines arraySpec arrayLimit ++
    [directive ("-o ".toList ++ outcomeDir ++ "/".toList ++ stdout),
      directive ("-e ".toList ++ outcomeDir ++ "/".toList ++ stderr)] ++ umaskLines umask)

/-! ## Output of the Torque commands -/

/-- The class `[CEHQRTWS]`. -/
def isStateLetter (c : Char) : Bool := "CEHQRTWS".toList.contains c

/-- `\s+\S+` -/
def field : List (Item Char) := [spaces, nonSpaces]

/-- `\s*(\d+)\.\S+\s+\S+\s+(\S+)\s+\S+\s+\S+\s+\S+\s+\S+\s+\S+\s+\S+\s+([CEHQRTWS]+)\s+\S+` -/
def infoItems : List (Item Char) :=
  [.rep isSpace 0 none, digits, literal ".", nonSpaces] ++ field ++ field ++ field ++ field ++ field ++
    field ++ field ++ field ++ [spaces, .rep isStateLetter 1 none] ++ field

/-- The three groups of a match: job id, queue and state. -/
def infoOf (pieces : List Str) : Option (Str × Str × Str) :=
  match pieces with
  | [_, bssid, _, _, _, _, _, queueName, _, _, _, _, _, _, _, _, _, _, _, _, _, state, _, _] =>
      some (bssid, state, queueName)
  | _ => none

def extractInfo (qstatLine : Str) : Option (Str × Str × Str) := (search infoItems none qstatLine).bind infoOf

/-- The local variables of the first loop of `parse_job_details`. -/
structure Merging where
  multi : Bool
  last : Str
  merged : List Str

/-- One line: lines that start with a tab continue the one before. -/
def mergeLine (state : Merging) (line : Str) : Merging :=
  if "\t".toList.isPrefixOf line then
    { state with multi := true, last := state.last ++ strip line }
  else if state.multi then
    { multi := false, last := [], merged := state.merged ++ [state.last, line] }
  else
    { state with last := line, merged := state.merged ++ [line] }

def mergedLines (rawInfo : Str) : List Str :=
  ((splitlines rawInfo ++ ["_end_\n".toList]).foldl mergeLine
    { multi := false, last := [], merged := [] }).merged

def parseJobDetails (rawInfo : Str) : Json :=
  .obj ((mergedLines rawInfo).foldl (fun fields line =>
    match splitOnce '=' line with
    | some (k, v) => putField (strip k) (.str (strip v)) fields
    | none => fields) [])

def convertStatus (bssState : Str) : Str :=
  if bssState ∈ ["Q".toList, "T".toList, "W".toList] then "QUEUED".toList
  else if bssState ∈ ["E".toList, "R".toList] then "RUNNING".toList
  else if bssState ∈ ["S".toList, "H".toList] then "SUSPENDED".toList
  else if bssState ∈ ["C".toList, "F".toList] then "COMPLETED".toList
  else "UNKNOWN".toList

/-! ## The variant -/

def torqueHooks : BssHooks :=
  { baseHooks with
    createSubmitScript := createSubmitScript
    extractInfo := fun _ line => .ok (extractInfo line)
    convertStatus := fun state => .ok (convertStatus state)
    parseJobDetails := fun rawInfo => .ok (parseJobDetails rawInfo) }

def torque : Bss := base torqueHooks

/-- The settings of a site that leaves the commands to the variant's `defaults`. -/
def defaults : Settings where
  submitCmd := some "qsub".toList
  qstatCmd := "qstat -a".toList
  detailsCmd := some "qstat -f".toList
  abortCmd := "qdel %s".toList
  holdCmd := some "qhold".toList
  resumeCmd := some "qrls".toList

end UnicoreTsi.BssTorque
