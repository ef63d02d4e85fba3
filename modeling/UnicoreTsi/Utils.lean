/-
# UnicoreTsi.Utils — parameters of a message, numbers, and running commands.

The functions of `lib/Utils.py` that the handlers share.  `extractParameter` is the anchored search
`.*^#TSI_<parameter> (.*)\n.*`, run on the linear-pattern matcher; `extractNumber` is
`int(float(...))`, which rounds to a double before it truncates; `runCommand` decodes the output of
a foreground command strictly and keeps the pid of a background one.
-/
import Mathlib.Algebra.Group.Nat.Defs
import UnicoreTsi.Lib.Regex
import UnicoreTsi.Runtime

set_option autoImplicit false

namespace UnicoreTsi.Utils

open UnicoreTsi.Text UnicoreTsi.Effects UnicoreTsi.Regex

/-! ## Patterns -/

/-- The class `.`: anything but a newline. -/
def anyChars : Item Char := dots '\n'

/-- `\S+` -/
def nonSpaces : Item Char := .rep (fun c => !isSpace c) 1 none

/-- `\s+` -/
def spaces : Item Char := .rep isSpace 1 none

/-- `^` with `re.M`. -/
def lineStart : Item Char := .look fun prev => prev = none ∨ prev = some '\n'

/-- `\w`, letters and digits beyond ASCII as the host knows them. -/
def isWord (host : Host) (c : Char) : Bool :=
  c.isAlphanum || c = '_' || (128 ≤ c.toNat && host.isAlnum c)

def literal (s : String) : Item Char := .lit s.toList

/-! ## Parameters -/

/-- `.*^#TSI_%s (.*)\n.*` -/
def parameterItems (parameter : Str) : List (Item Char) :=
  [anyChars, lineStart, .lit ("#TSI_".toList ++ parameter ++ " ".toList), anyChars, literal "\n",
    anyChars]

def extractParameter (message parameter : Str) (defaultValue : Option Str := none) : Option Str :=
  match search (parameterItems parameter) none message with
  | some [_, _, _, value, _, _] => if value = [] then defaultValue else some value
  | _ => defaultValue

/-! ## Numbers -/

/-- Code points of the decimal zeros; the nine digits follow each. -/
def decimalZeros : List Nat :=
  [0x30, 0x660, 0x6f0, 0x7c0, 0x966, 0x9e6, 0xa66, 0xae6, 0xb66, 0xbe6, 0xc66, 0xce6, 0xd66, 0xde6,
    0xe50, 0xed0, 0xf20, 0x1040, 0x1090, 0x17e0, 0x1810, 0x1946, 0x19d0, 0x1a80, 0x1a90, 0x1b50,
    0x1bb0, 0x1c40, 0x1c50, 0xa620, 0xa8d0, 0xa900, 0xa9d0, 0xa9f0, 0xaa50, 0xabf0, 0xff10, 0x104a0,
    0x10d30, 0x11066, 0x110f0, 0x11136, 0x111d0, 0x112f0, 0x11450, 0x114d0, 0x11650, 0x116c0,
    0x11730, 0x118e0, 0x11950, 0x11c50, 0x11d50, 0x11da0, 0x16a60, 0x16ac0, 0x16b50, 0x1d7ce,
    0x1d7d8, 0x1d7e2, 0x1d7ec, 0x1d7f6, 0x1e140, 0x1e2f0, 0x1e950, 0x1fbf0]

/-- The value of a decimal digit. -/
def digitValue (c : Char) : Option Nat :=
  (decimalZeros.find? fun z => z ≤ c.toNat && c.toNat ≤ z + 9).map fun z => c.toNat - z

/-- The digits of a numeral, single underscores between them dropped. -/
def digitList : Str → Option (List Nat)
  | [] => some []
  | '_' :: c :: cs => do
      let d ← digitValue c
      let ds ← digitList cs
      return d :: ds
  | c :: cs => do
      let d ← digitValue c
      let ds ← digitList cs
      return d :: ds

/-- A nonempty numeral; an underscore may not come first. -/
def numeral : Str → Option (List Nat)
  | [] => none
  | '_' :: _ => none
  | s => digitList s

/-- `\d+` -/
def digits : Item Char := .rep (fun c => (digitValue c).isSome) 1 none

/-- `\D*` -/
def nonDigits : Item Char := .rep (fun c => (digitValue c).isNone) 0 none

def ofDigits (base : Nat) (ds : List Nat) : Nat := ds.foldl (fun n d => n * base + d) 0

/-- A sign and the rest. -/
def splitSign : Str → Bool × Str
  | '-' :: s => (true, s)
  | '+' :: s => (false, s)
  | s => (false, s)

/-- The prefix `0o` that `int(s, 8)` accepts. -/
def dropOctalPrefix : Str → Str
  | '0' :: 'o' :: '_' :: s => s
  | '0' :: 'O' :: '_' :: s => s
  | '0' :: 'o' :: s => s
  | '0' :: 'O' :: s => s
  | s => s

/-- `int(s, base)` for base 8 or 10. -/
def pyInt (base : Nat) (s : Str) : Except PyExc Int :=
  let (neg, body) := splitSign (strip s)
  let body := if base = 8 then dropOctalPrefix body else body
  match numeral body with
  | some ds =>
      if ds.all (· < base) then
        .ok (if neg then -(ofDigits base ds : Int) else (ofDigits base ds : Int))
      else .error (valueError "invalid literal for int()")
  | none => .error (valueError "invalid literal for int()")

/-- `int(x)` where `x` may be `None`. -/
def pyIntOpt (x : Option Str) : Except PyExc Int :=
  match x with
  | some s => pyInt 10 s
  | none => .error (typeError
      "int() argument must be a string, a bytes-like object or a real number, not 'NoneType'")

/-- A decimal float literal as mantissa and power of ten. -/
def floatLiteral (s : Str) : Option (Nat × Int) := do
  let (mant, exponent) ← match splitOnce 'e' (s.map fun c => if c = 'E' then 'e' else c) with
    | none => some (s, (0 : Int))
    | some (m, x) =>
        let (neg, body) := splitSign x
        (numeral body).map fun ds => (m, if neg then -(ofDigits 10 ds : Int) else ofDigits 10 ds)
  match splitOnce '.' mant with
  | none => do
      let ds ← numeral mant
      return (ofDigits 10 ds, exponent)
  | some (a, b) => do
      let da ← if a = [] then some [] else numeral a
      let db ← if b = [] then some [] else numeral b
      if da = [] ∧ db = [] then none
      else return (ofDigits 10 (da ++ db), exponent - db.length)

/-- Round half to even. -/
def roundDiv (n d : Nat) : Nat :=
  let q := n / d
  let twice := 2 * (n % d)
  if twice < d ∨ (twice = d ∧ q % 2 = 0) then q else q + 1

/-- `int()` of the double nearest to `n / d`; `none` when that is infinite. -/
def truncDouble (n d : Nat) : Option Nat :=
  if n = 0 then some 0 else
    let e₀ : Int := (Nat.log2 n : Int) - (Nat.log2 d : Int) - 52
    let num (e : Int) : Nat := n * 2 ^ (-e).toNat
    let den (e : Int) : Nat := d * 2 ^ e.toNat
    let e := if num e₀ / den e₀ < 2 ^ 52 then e₀ - 1 else e₀
    let m := roundDiv (num e) (den e)
    let v := m * 2 ^ e.toNat / 2 ^ (-e).toNat
    if Nat.log2 v < 1024 then some v else none

/-- The double nearest to `n / d` as mantissa and power of two; `none` when that is infinite. -/
def nearestDouble (n d : Nat) : Option (Nat × Int) :=
  if n = 0 then some (0, 0) else
    let e₀ : Int := (Nat.log2 n : Int) - (Nat.log2 d : Int) - 52
    let num (e : Int) : Nat := n * 2 ^ (-e).toNat
    let den (e : Int) : Nat := d * 2 ^ e.toNat
    let e := if num e₀ / den e₀ < 2 ^ 52 then e₀ - 1 else e₀
    let m := roundDiv (num e) (den e)
    if Nat.log2 (m * 2 ^ e.toNat / 2 ^ (-e).toNat) < 1024 then some (m, e) else none

/-- `int()` of a double cuts its fraction off. -/
theorem truncDouble_eq_nearestDouble (n d : Nat) :
    truncDouble n d = (nearestDouble n d).map fun p => p.1 * 2 ^ p.2.toNat / 2 ^ (-p.2).toNat := by
  unfold truncDouble nearestDouble
  split
  · rfl
  · rw [apply_ite (Option.map _)]
    rfl

/-- `int(float(s))`; `none` stands for the exceptions of either conversion. -/
def intOfFloat (s : Str) : Option Int := do
  let (neg, body) := splitSign (strip s)
  let (m, x) ← floatLiteral body
  let v ← truncDouble (m * 10 ^ x.toNat) (10 ^ (-x).toNat)
  return if neg then -(v : Int) else v

def extractNumber (message parameter : Str) : Int :=
  match extractParameter message parameter with
  | some s => (intOfFloat s).getD (-1)
  | none => -1

/-! ## Text -/

/-- `s.replace(pat, new)` for a nonempty `pat`; `skip` symbols belong to the last occurrence. -/
def replaceFrom (pat new : Str) : Nat → Str → Str
  | _, [] => []
  | skip + 1, _ :: cs => replaceFrom pat new skip cs
  | 0, c :: cs =>
      if pat.isPrefixOf (c :: cs) then new ++ replaceFrom pat new (pat.length - 1) cs
      else c :: replaceFrom pat new 0 cs

def replace (pat new s : Str) : Str := replaceFrom pat new 0 s

def expandVariables (env : Environ) (message : Str) : Str :=
  let message := replace "$HOME".toList (env.home.getD []) message
  let message := replace "$LOGNAME".toList (env.logname.getD []) message
  replace "$USER".toList (env.user.getD []) message

/-- `expand_variables` on the value of a parameter that may be missing. -/
def expandVariablesOpt (env : Environ) (message : Option Str) : Except PyExc Str :=
  match message with
  | some m => .ok (expandVariables env m)
  | none => .error (attributeError "'NoneType' object has no attribute 'replace'")

/-- The line boundaries of `str.splitlines`; `\r\n` counts as one. -/
def isLineBoundary (c : Char) : Bool :=
  let n := c.toNat
  (10 ≤ n && n ≤ 13) || (28 ≤ n && n ≤ 30) || n == 0x85 || n == 0x2028 || n == 0x2029

def splitlinesFrom (current : Str) : Str → List Str
  | [] => if current = [] then [] else [current]
  | '\r' :: '\n' :: cs => current :: splitlinesFrom [] cs
  | c :: cs =>
      if isLineBoundary c then current :: splitlinesFrom [] cs
      else splitlinesFrom (current ++ [c]) cs

def splitlines (s : Str) : List Str := splitlinesFrom [] s

def natText (n : Nat) : Str := (toString n).toList

def intText (n : Int) : Str := (toString n).toList

/-- What `%s` prints for a value that may be `None`. -/
def optText (x : Option Str) : Str := x.getD "None".toList

/-! ## Running commands -/

/-- The command line `run_command` starts. -/
def shellArgs (cmd : Str) (loginShell : Bool) : List Str :=
  if loginShell then ["/bin/bash".toList, "-l".toList, "-c".toList, cmd]
  else ["/bin/bash".toList, "-c".toList, cmd]

def failedCommandText (cmd : Str) (code : Int) (output : Str) : Str :=
  "Command '".toList ++ cmd ++ "' failed with code ".toList ++ intText code ++ ": ".toList ++ output

/-- Remember that a command has been started. -/
def logCommand (args : List Str) : Handler Unit :=
  modify fun s => { s with commands := s.commands ++ [args] }

/-- `run_command`; a background command's pid is kept when the caller passes its list. -/
def runCommand (cmd : Str) (discard keepPid loginShell : Bool) : Handler (Bool × Str) := do
  let args := shellArgs cmd loginShell
  logCommand args
  if discard then
    let pid ← attempt fun h t => h.popen t args
    if keepPid then
      modify fun s => { s with childPids := s.childPids ++ [pid] }
    return (true, [])
  else
    let (code, raw) ← attempt fun h t => h.checkOutput t args
    let output ← ofExcept (decode raw)
    if code = 0 then return (true, output)
    else return (false, failedCommandText cmd code output)

/-- The argument of `os.chdir` and its like, which may not be `None`. -/
def pathArg (path : Option Str) : Except PyExc Str :=
  match path with
  | some p => .ok p
  | none => .error (typeError
      "expected str, bytes or os.PathLike object, not NoneType")

/-- `a + b` where `b` may be `None`. -/
def concat (a : Str) (b : Option Str) : Except PyExc Str :=
  match b with
  | some b => .ok (a ++ b)
  | none => .error (typeError "can only concatenate str (not \"NoneType\") to str")

/-- `config[key]` for a command that may not be configured. -/
def configured (key : String) (command : Option Str) : Except PyExc Str :=
  match command with
  | some c => .ok c
  | none => .error { kind := .keyError, text := "'".toList ++ key.toList ++ "'".toList }

theorem configured_eq_ok {key : String} {command : Option Str} {c : Str} :
    configured key command = .ok c ↔ command = some c := by
  cases command with
  | none => simp [configured]
  | some c' => simp [configured]

/-- `addperms`: read the mode, then change it. -/
def addperms (path : Str) (mode : Nat) : Handler Unit := do
  let info ← attempt fun h t => h.stat t path
  sysCall (.chmod path (info.mode ||| mode : Nat))

end UnicoreTsi.Utils
