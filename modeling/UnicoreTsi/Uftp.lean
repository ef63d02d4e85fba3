/-
# UnicoreTsi.Uftp — launching a UFTP transfer.

`uftp` builds a shell script from the message and the transfer parameters and starts it in the
background.  The client the script runs is a separate process and not modelled here.
-/
import UnicoreTsi.Connector

set_option autoImplicit false

namespace UnicoreTsi.Uftp

open UnicoreTsi.Text UnicoreTsi.Effects UnicoreTsi.Utils UnicoreTsi.Connector

/-- `dir + "/" + name` -/
def inDir (dir : Option Str) (name : Str) : Except PyExc Str :=
  match dir with
  | some d => .ok (d ++ "/".toList ++ name)
  | none => .error (typeError "unsupported operand type(s) for +: 'NoneType' and 'str'")

def exportLine (name : String) (value : Str) : Str :=
  "export ".toList ++ name.toList ++ "=".toList ++ value

/-- `environ["PYTHONPATH"]` -/
def environPythonpath (host : Host) : Except PyExc Str :=
  match host.pythonpath with
  | some p => .ok p
  | none => .error { kind := .keyError, text := "'PYTHONPATH'".toList }

/-- The script that runs the client. -/
def uftpScript (host : Host) (environ : Environ) (msg : Str) : Except PyExc Str := do
  let uftpHost := extractParameter msg "UFTP_HOST".toList
  let port ← pyIntOpt (extractParameter msg "UFTP_PORT".toList)
  let secret := extractParameter msg "UFTP_SECRET".toList
  let operation := extractParameter msg "UFTP_OPERATION".toList
  let writeMode := (extractParameter msg "UFTP_WRITE_MODE".toList).getD "FULL".toList
  let remotePath ← expandVariablesOpt environ (extractParameter msg "UFTP_REMOTE_FILE".toList)
  let localPath ← expandVariablesOpt environ (extractParameter msg "UFTP_LOCAL_FILE".toList)
  let offset ← pyInt 10 ((extractParameter msg "UFTP_OFFSET".toList).getD "0".toList)
  let length ← pyInt 10 ((extractParameter msg "UFTP_LENGTH".toList).getD "-1".toList)
  let uspaceDir := extractParameter msg "USPACE_DIR".toList
  let outcomeDir := extractParameter msg "OUTCOME_DIR".toList
  let stdout ← inDir outcomeDir ((extractParameter msg "STDOUT".toList).getD "stdout".toList)
  let stderr ← inDir outcomeDir ((extractParameter msg "STDERR".toList).getD "stderr".toList)
  let pidFile ← inDir outcomeDir
    ((extractParameter msg "PID_FILE".toList).getD "UNICORE_SCRIPT_PID".toList)
  let exitCodeFile ← inDir outcomeDir
    ((extractParameter msg "EXIT_CODE_FILE".toList).getD "UNICORE_SCRIPT_EXIT_CODE".toList)
  let pythonpath ← environPythonpath host
  return unlines
    [msg,
      exportLine "UFTP_HOST" (optText uftpHost),
      exportLine "UFTP_PORT" (intText port),
      exportLine "UFTP_SECRET" (optText secret),
      exportLine "UFTP_OPERATION" (optText operation),
      exportLine "UFTP_WRITE_MODE" writeMode,
      exportLine "UFTP_OFFSET" (intText offset),
      exportLine "UFTP_LENGTH" (intText length),
      exportLine "UFTP_WRITE_MODE" writeMode,
      exportLine "UFTP_REMOTE_FILE" remotePath,
      exportLine "UFTP_LOCAL_FILE" localPath,
      exportLine "PYTHONPATH" pythonpath,
      "cd ".toList ++ optText uspaceDir,
      "\x7b python3 ".toList ++ host.uftpFile ++ " >> ".toList ++ stdout ++ " 2 > ".toList ++ stderr ++
        " ; echo $? > ".toList ++ exitCodeFile ++ " ; \x7d & echo $! > ".toList ++ pidFile ++
        " ".toList]

def uftp (msg : Str) (config : Settings) : Handler Unit := do
  let r ← ask
  let cmd ← ofExcept (uftpScript r.host r.environ msg)
  let (success, reply) ← runCommand cmd true true config.useLoginShell
  if success then
    ok none
  else
    failed (some ("Failed to launch uftp command: ".toList ++ reply))

end UnicoreTsi.Uftp
