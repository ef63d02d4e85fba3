/-
# UnicoreTsi.BssScript — what the script generators of the batch systems share.

A generator reads the parameters of the message with `extract_parameter`, which returns a text or a default,
and `extract_number`, which returns `-1` for whatever is not a number, and appends one directive after the
other.  The definitions here are the few steps all of them repeat: a parameter with a default, an entry
unless the value is `NONE`, an entry for a positive number, the quotient of two integers, the check of a job
name, and the text of an array specification.
-/
import UnicoreTsi.BssCommon

set_option autoImplicit false

namespace UnicoreTsi.BssScript

open UnicoreTsi.Text UnicoreTsi.Regex UnicoreTsi.Utils

/-! ## Values -/

/-- The value of a parameter that is not to be passed to the batch system. -/
def noneText : Str := "NONE".toList

/-- `extract_parameter` with a default. -/
def parameterOr (message parameter defaultValue : Str) : Str :=
  (extractParameter message parameter).getD defaultValue

/-- `extract_parameter` with the default `"NONE"`. -/
def parameterOrNone (message parameter : Str) : Str := parameterOr message parameter noneText

/-- An entry for a value other than `"NONE"`. -/
def unlessNone (value : Str) (entry : Str → Str) : List Str :=
  if value ≠ noneText then [entry value] else []

/-- An entry for a number greater than zero. -/
def ifPositive (n : Int) (entry : Str → Str) : List Str :=
  if 0 < n then [entry (intText n)] else []

def divisionByZero : PyExc := { kind := .zeroDivisionError, text := "division by zero".toList }

def quotientOverflow : PyExc :=
  { kind := .exception, text := "integer division result too large for a float".toList }

/-- `int(a / b)` for two integers: the quotient is a double before it is truncated. -/
def truncQuotient (a b : Int) : Except PyExc Int :=
  if b = 0 then .error divisionByZero
  else match truncDouble a.natAbs b.natAbs with
    | some q => .ok (if a < 0 ↔ b < 0 then q else -q)
    | none => .error quotientOverflow

/-! ## Job names -/

def isLetter (c : Char) : Bool := c.isAlpha

/-- `([a-zA-Z]\S{0,14})` -/
def jobNameItems : List (Item Char) :=
  [.rep isLetter 1 (some 1), .rep (fun c => !isSpace c) 0 (some 14)]

def fallbackJobName : Str := "UNICORE_job".toList

/-- The check of the job name in the Torque and LSF variants. -/
def fittingJobName (jobName : Str) : Str :=
  match search jobNameItems none jobName with
  | some [first, rest] => first ++ rest
  | _ => fallbackJobName

/-! ## Arrays -/

/-- `str(array_spec)`, with the limit after a percent sign if there is one. -/
def limited (spec : Str) (arrayLimit : Int) : Str :=
  if 0 < arrayLimit then spec ++ "%".toList ++ intText arrayLimit else spec

/-- The command that passes the index of a task on under a name of its own. -/
def taskIdCommand (indexName : String) : Str :=
  "UC_ARRAY_TASK_ID = \"$".toList ++ indexName.toList ++ "\"; export UC_ARRAY_TASK_ID".toList

end UnicoreTsi.BssScript
