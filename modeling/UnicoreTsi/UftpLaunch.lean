/-
# UnicoreTsi.UftpLaunch — what the client of a UFTP transfer is started with.

`uftp` writes the parameters of the transfer into a shell script without quoting them, and the client reads them
from its environment.  The script is read here by the rules of the shell (`UnicoreTsi.Lib.Shell`), line by line.
Two things come out of it (`uftp_launch`).  The parameters reach the client if and only if none of them has a
character that is special to the shell.  And its output never goes where it should: `2 > file` has a blank
before the `>`, so that `2` is an argument and the standard output goes to the file for the standard error.
-/
import UnicoreTsi.Uftp
import UnicoreTsi.Chunks
import UnicoreTsi.Numbers
import UnicoreTsi.Submission
import UnicoreTsi.Lib.Shell

set_option autoImplicit false

namespace UnicoreTsi.Uftp

open UnicoreTsi.Text UnicoreTsi.Effects UnicoreTsi.Utils UnicoreTsi.Connector UnicoreTsi.BssCommon UnicoreTsi.Shell

/-! ## Running the script -/

/-- Where a stream of a process goes. -/
inductive Sink where
  | inherited
  | file (path : Str)
  deriving DecidableEq, Repr

structure Streams where
  stdout : Sink
  stderr : Sink
  deriving DecidableEq, Repr

def redirectStream (streams : Streams) (redirect : Redirect) : Streams :=
  if redirect.fd = none ∨ redirect.fd = some "1".toList then { streams with stdout := .file redirect.target }
  else if redirect.fd = some "2".toList then { streams with stderr := .file redirect.target }
  else streams

/-- The redirections of a command, from left to right. -/
def redirected (redirects : List Redirect) : Streams := redirects.foldl redirectStream ⟨.inherited, .inherited⟩

/-- The start of the client: its environment, its streams, and the file its exit code is written to. -/
structure Launch where
  vars : Vars
  streams : Streams
  exitCode : Sink

/-- `echo $?` after the client prints its exit code. -/
def exitCodeSink : List Simple → Sink
  | c :: _ => if c.words = ["echo".toList, "$?".toList] then (redirected c.redirects).stdout else .inherited
  | [] => .inherited

/-- A brace at the beginning of a command opens or closes a group. -/
def dropBrace : List Str → List Str
  | w :: ws => if w = "\x7b".toList ∨ w = "\x7d".toList then ws else w :: ws
  | [] => []

/-- Run commands up to the start of the client; `none` for a command that does something else than to set
variables, to change the directory or to print. -/
def run (client : Str) : Vars → List Simple → Option Launch
  | _, [] => none
  | vars, c :: cs =>
      match dropBrace c.words with
      | [] => run client vars cs
      | w :: args =>
          if w = "export".toList then run client (exports vars args) cs
          else if w = "cd".toList ∨ w = "echo".toList then run client vars cs
          else if w = "python3".toList ∧ args.head? = some client then
            some { vars := vars, streams := redirected c.redirects, exitCode := exitCodeSink cs }
          else none

/-- The start of the client by a script. -/
def launch (client : Str) (vars : Vars) (script : Str) : Option Launch :=
  (completeLines script).mapM commands >>= fun css => run client vars css.flatten

/-! ## The client -/

/-- What `main` reads from its environment. -/
structure ClientParameters where
  host : Str
  port : Int
  secret : Str
  remotePath : Str
  localPath : Str
  operation : Str
  writeMode : Str
  offset : Int
  length : Int
  deriving DecidableEq, Repr

/-- `environ[key]` -/
def environItem (vars : Vars) (key : String) : Except PyExc Str :=
  match vars key.toList with
  | some value => .ok value
  | none => .error { kind := .keyError, text := "'".toList ++ key.toList ++ "'".toList }

/-- The first statements of `main`. -/
def mainParameters (vars : Vars) : Except PyExc ClientParameters := do
  let host ← environItem vars "UFTP_HOST"
  let port ← environItem vars "UFTP_PORT" >>= pyInt 10
  let secret ← environItem vars "UFTP_SECRET"
  let remotePath ← environItem vars "UFTP_REMOTE_FILE"
  let localPath ← environItem vars "UFTP_LOCAL_FILE"
  let operation ← environItem vars "UFTP_OPERATION"
  let writeMode ← environItem vars "UFTP_WRITE_MODE"
  let offset ← pyInt 10 ((vars "UFTP_OFFSET".toList).getD "0".toList)
  let length ← pyInt 10 ((vars "UFTP_LENGTH".toList).getD "-1".toList)
  return { host, port, secret, remotePath, localPath, operation, writeMode, offset, length }

/-! ## The request -/

/-- A transfer as UNICORE/X asks for it. -/
structure Transfer where
  client : ClientParameters
  uspaceDir : Str
  outcomeDir : Str
  stdout : Str
  stderr : Str
  pidFile : Str
  exitCodeFile : Str

/-- The message asks for the transfer. -/
structure Asks (msg : Str) (t : Transfer) : Prop where
  host : extractParameter msg "UFTP_HOST".toList = some t.client.host
  port : pyIntOpt (extractParameter msg "UFTP_PORT".toList) = .ok t.client.port
  secret : extractParameter msg "UFTP_SECRET".toList = some t.client.secret
  operation : extractParameter msg "UFTP_OPERATION".toList = some t.client.operation
  writeMode : (extractParameter msg "UFTP_WRITE_MODE".toList).getD "FULL".toList = t.client.writeMode
  remoteFile : extractParameter msg "UFTP_REMOTE_FILE".toList = some t.client.remotePath
  localFile : extractParameter msg "UFTP_LOCAL_FILE".toList = some t.client.localPath
  offset : pyInt 10 ((extractParameter msg "UFTP_OFFSET".toList).getD "0".toList) = .ok t.client.offset
  length : pyInt 10 ((extractParameter msg "UFTP_LENGTH".toList).getD "-1".toList) = .ok t.client.length
  uspaceDir : extractParameter msg "USPACE_DIR".toList = some t.uspaceDir
  outcomeDir : extractParameter msg "OUTCOME_DIR".toList = some t.outcomeDir
  stdout : (extractParameter msg "STDOUT".toList).getD "stdout".toList = t.stdout
  stderr : (extractParameter msg "STDERR".toList).getD "stderr".toList = t.stderr
  pidFile : (extractParameter msg "PID_FILE".toList).getD "UNICORE_SCRIPT_PID".toList = t.pidFile
  exitCodeFile : (extractParameter msg "EXIT_CODE_FILE".toList).getD "UNICORE_SCRIPT_EXIT_CODE".toList = t.exitCodeFile

/-- The six texts among the parameters of the client. -/
def texts (c : ClientParameters) : List Str :=
  [c.host, c.secret, c.operation, c.writeMode, c.remotePath, c.localPath]

/-- A file in the directory of the outcome. -/
def Transfer.outcome (t : Transfer) (name : Str) : Str := t.outcomeDir ++ "/".toList ++ name

/-- The directories and the names of files are plain words, also those of the installation. -/
structure PlainNames (host : Host) (pythonpath : Str) (t : Transfer) : Prop where
  pythonpath : Plain pythonpath
  client : PlainWord host.uftpFile
  uspaceDir : PlainWord t.uspaceDir
  stdout : PlainWord (t.outcome t.stdout)
  stderr : PlainWord (t.outcome t.stderr)
  pidFile : PlainWord (t.outcome t.pidFile)
  exitCodeFile : PlainWord (t.outcome t.exitCodeFile)

/-- The variables that the script exports, in order. -/
def exported (pythonpath : Str) (c : ClientParameters) : List (Str × Str) :=
  [("UFTP_HOST".toList, c.host), ("UFTP_PORT".toList, intText c.port), ("UFTP_SECRET".toList, c.secret),
    ("UFTP_OPERATION".toList, c.operation), ("UFTP_WRITE_MODE".toList, c.writeMode),
    ("UFTP_OFFSET".toList, intText c.offset), ("UFTP_LENGTH".toList, intText c.length),
    ("UFTP_WRITE_MODE".toList, c.writeMode), ("UFTP_REMOTE_FILE".toList, c.remotePath),
    ("UFTP_LOCAL_FILE".toList, c.localPath), ("PYTHONPATH".toList, pythonpath)]

def exportText (p : Str × Str) : Str := "export".toList ++ ' ' :: (p.1 ++ '=' :: p.2)

def launchLine (host : Host) (t : Transfer) : Str :=
  "\x7b python3 ".toList ++ host.uftpFile ++ " >> ".toList ++ t.outcome t.stdout ++ " 2 > ".toList ++
    t.outcome t.stderr ++ " ; echo $? > ".toList ++ t.outcome t.exitCodeFile ++ " ; \x7d & echo $! > ".toList ++
    t.outcome t.pidFile ++ " ".toList

/-- The lines of the script after the message. -/
def scriptLines (host : Host) (pythonpath : Str) (t : Transfer) : List Str :=
  (exported pythonpath t.client).map exportText ++ ["cd ".toList ++ t.uspaceDir, launchLine host t]

theorem uftpScript_eq {host : Host} {environ : Environ} {msg pythonpath : Str} {t : Transfer} (hasks : Asks msg t)
    (hpath : host.pythonpath = some pythonpath) (hdollar : ∀ v ∈ texts t.client, '$' ∉ v) :
    uftpScript host environ msg = .ok (unlines (msg :: scriptLines host pythonpath t)) := by
  have hremote : expandVariablesOpt environ (some t.client.remotePath) = .ok t.client.remotePath := by
    rw [expandVariablesOpt, Io.expandVariables_of_not_mem environ (hdollar _ (by simp [texts]))]
  have hlocal : expandVariablesOpt environ (some t.client.localPath) = .ok t.client.localPath := by
    rw [expandVariablesOpt, Io.expandVariables_of_not_mem environ (hdollar _ (by simp [texts]))]
  unfold uftpScript
  rw [hasks.port, hasks.remoteFile, hremote, hasks.localFile, hlocal, hasks.offset, hasks.length, hasks.outcomeDir,
    hasks.stdout, hasks.stderr, hasks.pidFile, hasks.exitCodeFile, hasks.host, hasks.secret, hasks.operation,
    hasks.writeMode, hasks.uspaceDir, environPythonpath, hpath]
  rfl

/-! ## Reading the lines -/

theorem commands_comment {line : Str} (h : line = [] ∨ line.head? = some '#') : commands line = some [] := by
  have hcomment : ∀ s, lex .comment s = some [] := by
    intro s
    induction s with
    | nil => rfl
    | cons c s ih => rw [lex_silent rfl, ih]
  have htokens : tokens line = some [] := by
    rcases h with rfl | hhead
    · rfl
    · obtain ⟨s, rfl⟩ : ∃ s, line = '#' :: s := by
        cases line with
        | nil => cases hhead
        | cons c s => exact ⟨s, by rw [Option.some.inj hhead]⟩
      rw [tokens, lex_silent rfl, hcomment]
  rw [commands, htokens]
  rfl

/-- The name of a variable. -/
structure VarName (name : Str) : Prop where
  word : PlainWord (name ++ ['='])
  no_assignment : '=' ∉ name

theorem tokens_exportText {name : Str} (hname : VarName name) (value : Str) :
    tokens (exportText (name, value)) =
      (lex (.word (name ++ ['=']) true) value).map (.word "export".toList :: ·) := by
  have hexport : PlainWord "export".toList := ⟨by decide, by decide, by decide⟩
  have hline : exportText (name, value) = "export".toList ++ ' ' :: ((name ++ ['=']) ++ value) :=
    congrArg ("export".toList ++ ' ' :: ·) (List.append_assoc name ['='] value).symm
  rw [tokens, hline, lex_plainWord hexport, lex_outside_word hname.word]

theorem commands_plain {name value : Str} (hname : VarName name) (hvalue : Plain value) :
    commands (exportText (name, value)) = some [⟨["export".toList, name ++ '=' :: value], []⟩] := by
  rw [commands, tokens_exportText hname, lex_plain hvalue, List.append_assoc]
  rfl

/-- The line of a value that is not plain: its variable gets something shorter, and whatever else the line says
is shorter, too. -/
theorem commands_not_plain {name value : Str} (hname : VarName name) (hvalue : ¬ Plain value) {cs : List Simple}
    (h : commands (exportText (name, value)) = some cs) :
    ∃ (short : Str) (args : List Str) (redirects : List Redirect) (more : List Simple),
      cs = ⟨"export".toList :: (name ++ '=' :: short) :: args, redirects⟩ :: more ∧ short.length < value.length ∧
        (∀ w ∈ args, w.length < value.length) ∧ ∀ c ∈ more, ∀ w ∈ c.words, w.length < value.length := by
  rw [commands, tokens_exportText hname] at h
  obtain ⟨all, hall, hparse⟩ := Option.bind_eq_some_iff.mp h
  obtain ⟨ts, hts, rfl⟩ := Option.map_eq_some_iff.mp hall
  have hsize := lex_size_lt hvalue hts
  have hnodigit : ∃ c ∈ name ++ ['='], c.isDigit = false := ⟨'=', by simp, by decide⟩
  have hin : (Mode.word (name ++ ['=']) true).In (name ++ ['=']) := List.prefix_rfl
  obtain ⟨t, us, ⟨short, rfl⟩, rfl⟩ := lex_in hnodigit hin hts
  rw [size_cons, Token.size, List.length_append] at hsize
  have hword : ∀ w, Token.word w ∈ us → w.length < value.length := by
    intro w hw
    have hle := length_le_size hw
    omega
  rw [parse, parse] at hparse
  rcases parse_some hparse with ⟨-, hempty⟩ | ⟨args, redirects, more, rfl, hargs, hmore⟩
  · cases hempty
  · have hfirst : name ++ ['='] ++ short = name ++ '=' :: short := List.append_assoc name ['='] short
    refine ⟨short, args, redirects, more, ?_, by omega, ?_, ?_⟩
    · exact congrArg (fun w => ⟨"export".toList :: w :: args, redirects⟩ :: more) hfirst
    · exact fun w hw => hword w (hargs w hw)
    · exact fun c hc w hw => hword w (hmore c hc w hw)

/-- The start of the client: the standard output goes to the file for the standard error, and `2` is an argument. -/
def launchCommands (host : Host) (t : Transfer) : List Simple :=
  [⟨["\x7b".toList, "python3".toList, host.uftpFile, "2".toList],
      [⟨none, true, t.outcome t.stdout⟩, ⟨none, false, t.outcome t.stderr⟩]⟩,
    ⟨["echo".toList, "$?".toList], [⟨none, false, t.outcome t.exitCodeFile⟩]⟩,
    ⟨["\x7d".toList], []⟩,
    ⟨["echo".toList, "$!".toList], [⟨none, false, t.outcome t.pidFile⟩]⟩]

/-- The pieces of the line that starts the client, word by word. -/
theorem launchLine_pieces {front out err status back last lbrace rbrace python two echo code pid : Str}
    (hfront : front = lbrace ++ ' ' :: (python ++ [' '])) (hout : out = [' ', '>', '>', ' '])
    (herr : err = ' ' :: (two ++ [' ', '>', ' ']))
    (hstatus : status = ' ' :: ';' :: ' ' :: (echo ++ ' ' :: (code ++ [' ', '>', ' '])))
    (hback : back = ' ' :: ';' :: ' ' :: (rbrace ++ ' ' :: '&' :: ' ' :: (echo ++ ' ' :: (pid ++ [' ', '>', ' ']))))
    (hlast : last = [' ']) (a b c d e : Str) :
    front ++ a ++ out ++ b ++ err ++ c ++ status ++ d ++ back ++ e ++ last =
      lbrace ++ ' ' :: (python ++ ' ' :: (a ++ ' ' :: ('>' :: '>' :: ' ' :: (b ++ ' ' :: (two ++ ' ' :: ('>' :: ' ' ::
        (c ++ ' ' :: (';' :: ' ' :: (echo ++ ' ' :: (code ++ ' ' :: ('>' :: ' ' :: (d ++ ' ' :: (';' :: ' ' ::
          (rbrace ++ ' ' :: ('&' :: ' ' :: (echo ++ ' ' :: (pid ++ ' ' :: ('>' :: ' ' ::
            (e ++ ' ' :: []))))))))))))))))))) := by
  subst hfront hout herr hstatus hback hlast
  simp only [List.append_assoc, List.cons_append, List.nil_append]

theorem commands_launchLine {host : Host} {pythonpath : Str} {t : Transfer} (hnames : PlainNames host pythonpath t) :
    commands (launchLine host t) = some (launchCommands host t) := by
  have hopen : PlainWord "\x7b".toList := ⟨by decide, by decide, by decide⟩
  have hclose : PlainWord "\x7d".toList := ⟨by decide, by decide, by decide⟩
  have hpython : PlainWord "python3".toList := ⟨by decide, by decide, by decide⟩
  have htwo : PlainWord "2".toList := ⟨by decide, by decide, by decide⟩
  have hecho : PlainWord "echo".toList := ⟨by decide, by decide, by decide⟩
  have hstatus : PlainWord "$?".toList := ⟨by decide, by decide, by decide⟩
  have hpid : PlainWord "$!".toList := ⟨by decide, by decide, by decide⟩
  have hfront : "\x7b python3 ".toList = "\x7b".toList ++ ' ' :: ("python3".toList ++ [' ']) := by decide
  have hout : " >> ".toList = [' ', '>', '>', ' '] := by decide
  have herr : " 2 > ".toList = ' ' :: ("2".toList ++ [' ', '>', ' ']) := by decide
  have hcode : " ; echo $? > ".toList =
      ' ' :: ';' :: ' ' :: ("echo".toList ++ ' ' :: ("$?".toList ++ [' ', '>', ' '])) := by decide
  have hback : " ; \x7d & echo $! > ".toList = ' ' :: ';' :: ' ' :: ("\x7d".toList ++ ' ' :: '&' :: ' ' ::
      ("echo".toList ++ ' ' :: ("$!".toList ++ [' ', '>', ' ']))) := by decide
  have hlast : " ".toList = [' '] := by decide
  have hline : launchLine host t = _ := launchLine_pieces hfront hout herr hcode hback hlast host.uftpFile
    (t.outcome t.stdout) (t.outcome t.stderr) (t.outcome t.exitCodeFile) (t.outcome t.pidFile)
  have htokens : tokens (launchLine host t) = some
      [.word "\x7b".toList, .word "python3".toList, .word host.uftpFile, .redirect none true,
        .word (t.outcome t.stdout), .word "2".toList, .redirect none false, .word (t.outcome t.stderr), .separator,
        .word "echo".toList, .word "$?".toList, .redirect none false, .word (t.outcome t.exitCodeFile), .separator,
        .word "\x7d".toList, .separator, .word "echo".toList, .word "$!".toList, .redirect none false,
        .word (t.outcome t.pidFile)] := by
    rw [tokens, hline, lex_plainWord hopen, lex_plainWord hpython, lex_plainWord hnames.client, lex_append,
      lex_plainWord hnames.stdout, lex_plainWord htwo, lex_redirect, lex_plainWord hnames.stderr,
      lex_separator (Or.inl rfl), lex_plainWord hecho, lex_plainWord hstatus, lex_redirect,
      lex_plainWord hnames.exitCodeFile, lex_separator (Or.inl rfl), lex_plainWord hclose,
      lex_separator (Or.inr rfl), lex_plainWord hecho, lex_plainWord hpid, lex_redirect, lex_plainWord hnames.pidFile]
    rfl
  rw [commands, htokens]
  rfl

theorem commands_cd {dir : Str} (hdir : PlainWord dir) :
    commands ("cd ".toList ++ dir) = some [⟨["cd".toList, dir], []⟩] := by
  have hcd : PlainWord "cd".toList := ⟨by decide, by decide, by decide⟩
  have hline : "cd ".toList ++ dir = "cd".toList ++ ' ' :: (dir ++ []) := by
    rw [List.append_nil]
    rfl
  rw [commands, tokens, hline, lex_plainWord hcd, lex_outside_word hdir, lex_word_end]
  rfl

/-! ## Running the lines -/

section Run

variable {client : Str} {vars : Vars} {l : Launch}

theorem run_export (args : List Str) (redirects : List Redirect) (cs : List Simple) :
    run client vars (⟨"export".toList :: args, redirects⟩ :: cs) = run client (exports vars args) cs := rfl

/-- Commands whose words are short leave a variable short. -/
theorem run_below {name : Str} {n : Nat} (hvars : Below vars name n) {cs : List Simple}
    (hcs : ∀ c ∈ cs, ∀ w ∈ c.words, w.length < n) {later : List Simple}
    (h : run client vars (cs ++ later) = some l) :
    Below l.vars name n ∨ ∃ vars', Below vars' name n ∧ run client vars' later = some l := by
  induction cs generalizing vars with
  | nil => exact Or.inr ⟨vars, hvars, h⟩
  | cons c cs ih =>
      have hrest : ∀ d ∈ cs, ∀ w ∈ d.words, w.length < n := fun d hd => hcs d (List.mem_cons_of_mem c hd)
      have hdrop : ∀ w ∈ dropBrace c.words, w.length < n := by
        intro w hw
        apply hcs c List.mem_cons_self w
        unfold dropBrace at hw
        split at hw
        · rename_i w' ws heq
          rw [heq]
          split at hw
          · exact List.mem_cons_of_mem _ hw
          · exact hw
        · cases hw
      rw [List.cons_append, run] at h
      split at h
      · exact ih hvars hrest h
      · rename_i w args hwords
        rw [hwords] at hdrop
        split_ifs at h
        · exact ih (exports_below hvars fun arg harg => (hdrop arg (List.mem_cons_of_mem _ harg)).le) hrest h
        · exact ih hvars hrest h
        · obtain rfl := Option.some.inj h
          exact Or.inl hvars

/-- A variable of a value that is not plain has something shorter. -/
def Spoiled (all : List (Str × Str)) (vars : Vars) : Prop :=
  ∃ p ∈ all, ¬ Plain p.2 ∧ Below vars p.1 p.2.length

def assign (vars : Vars) (p : Str × Str) : Vars := Function.update vars p.1 (some p.2)

/-- The line of one variable. -/
theorem run_line {p : Str × Str} (hname : VarName p.1) {cs : List Simple} (hread : commands (exportText p) = some cs)
    {later : List Simple} (h : run client vars (cs ++ later) = some l) :
    (Plain p.2 ∧ run client (assign vars p) later = some l) ∨
      (¬ Plain p.2 ∧ (Below l.vars p.1 p.2.length ∨
        ∃ vars', Below vars' p.1 p.2.length ∧ run client vars' later = some l)) := by
  by_cases hplain : Plain p.2
  · left
    rw [commands_plain hname hplain] at hread
    obtain rfl := Option.some.inj hread
    rw [List.singleton_append, run_export, exports, List.foldl_cons, List.foldl_nil,
      export1_assignment hname.no_assignment] at h
    exact ⟨hplain, h⟩
  · right
    refine ⟨hplain, ?_⟩
    obtain ⟨short, args, redirects, more, rfl, hshort, hargs, hmore⟩ := commands_not_plain hname hplain hread
    rw [List.cons_append, run_export, exports, List.foldl_cons, export1_assignment hname.no_assignment] at h
    have hfirst : Below (Function.update vars p.1 (some short)) p.1 p.2.length :=
      ⟨short, Function.update_self _ _ _, hshort⟩
    exact run_below (exports_below hfirst fun arg harg => (hargs arg harg).le) hmore h

theorem mapM_cons_eq_some {α β : Type} {f : α → Option β} {a : α} {as : List α} {bs : List β}
    (h : (a :: as).mapM f = some bs) : ∃ b bs', f a = some b ∧ as.mapM f = some bs' ∧ bs = b :: bs' := by
  rw [List.mapM_cons] at h
  obtain ⟨b, hb, hrest⟩ := Option.bind_eq_some_iff.mp h
  obtain ⟨bs', hbs', heq⟩ := Option.bind_eq_some_iff.mp hrest
  exact ⟨b, bs', hb, hbs', (Option.some.inj heq).symm⟩

section Lines

variable {all : List (Str × Str)} (hnames : ∀ p ∈ all, VarName p.1)
  (hsame : ∀ p ∈ all, ∀ q ∈ all, p.1 = q.1 → p.2 = q.2)

include hnames hsame

/-- Once a variable is spoiled, one is, at every line that follows. -/
theorem run_spoiled {pairs : List (Str × Str)} (hpairs : ∀ p ∈ pairs, p ∈ all) (hvars : Spoiled all vars)
    {css : List (List Simple)} (hread : (pairs.map exportText).mapM commands = some css) {later : List Simple}
    (h : run client vars (css.flatten ++ later) = some l) :
    Spoiled all l.vars ∨ ∃ vars', Spoiled all vars' ∧ run client vars' later = some l := by
  induction pairs generalizing vars css with
  | nil =>
      obtain rfl := Option.some.inj hread
      exact Or.inr ⟨vars, hvars, h⟩
  | cons p pairs ih =>
      have hp : p ∈ all := hpairs p List.mem_cons_self
      have hrest : ∀ q ∈ pairs, q ∈ all := fun q hq => hpairs q (List.mem_cons_of_mem p hq)
      obtain ⟨cs, css', hcs, hcss', rfl⟩ := mapM_cons_eq_some hread
      rw [List.flatten_cons, List.append_assoc] at h
      rcases run_line (hnames p hp) hcs h with ⟨hplain, hrun⟩ | ⟨hspecial, hbelow | ⟨vars', hbelow, hrun⟩⟩
      · obtain ⟨q, hq, hqspecial, value, hvalue, hlt⟩ := hvars
        have hne : q.1 ≠ p.1 := fun heq => hqspecial (by rw [hsame q hq p hp heq]; exact hplain)
        refine ih hrest ⟨q, hq, hqspecial, value, ?_, hlt⟩ hcss' hrun
        rw [assign, Function.update_of_ne hne, hvalue]
      · exact Or.inl ⟨p, hp, hspecial, hbelow⟩
      · exact ih hrest ⟨p, hp, hspecial, hbelow⟩ hcss' hrun

/-- The lines of the variables: all values are plain and are assigned, or a variable is spoiled. -/
theorem run_exports {pairs : List (Str × Str)} (hpairs : ∀ p ∈ pairs, p ∈ all) {css : List (List Simple)}
    (hread : (pairs.map exportText).mapM commands = some css) {later : List Simple}
    (h : run client vars (css.flatten ++ later) = some l) :
    ((∀ p ∈ pairs, Plain p.2) ∧ run client (pairs.foldl assign vars) later = some l) ∨
      (Spoiled all l.vars ∨ ∃ vars', Spoiled all vars' ∧ run client vars' later = some l) := by
  induction pairs generalizing vars css with
  | nil =>
      obtain rfl := Option.some.inj hread
      exact Or.inl ⟨nofun, h⟩
  | cons p pairs ih =>
      have hp : p ∈ all := hpairs p List.mem_cons_self
      have hrest : ∀ q ∈ pairs, q ∈ all := fun q hq => hpairs q (List.mem_cons_of_mem p hq)
      obtain ⟨cs, css', hcs, hcss', rfl⟩ := mapM_cons_eq_some hread
      rw [List.flatten_cons, List.append_assoc] at h
      rcases run_line (hnames p hp) hcs h with ⟨hplain, hrun⟩ | ⟨hspecial, hbelow | ⟨vars', hbelow, hrun⟩⟩
      · rcases ih hrest hcss' hrun with ⟨hplains, hlater⟩ | hspoiled
        · refine Or.inl ⟨fun q hq => ?_, hlater⟩
          rcases List.mem_cons.mp hq with rfl | hmem
          · exact hplain
          · exact hplains q hmem
        · exact Or.inr hspoiled
      · exact Or.inr (Or.inl ⟨p, hp, hspecial, hbelow⟩)
      · exact Or.inr (run_spoiled hnames hsame hrest ⟨p, hp, hspecial, hbelow⟩ hcss' hrun)

end Lines

end Run

/-! ## The whole script -/

theorem run_launchCommands (host : Host) (t : Transfer) (vars : Vars) :
    run host.uftpFile vars (⟨["cd".toList, t.uspaceDir], []⟩ :: launchCommands host t) = some
      { vars := vars, streams := ⟨.file (t.outcome t.stderr), .inherited⟩,
        exitCode := .file (t.outcome t.exitCodeFile) } := by
  have hdrop : dropBrace ["\x7b".toList, "python3".toList, host.uftpFile, "2".toList] =
      ["python3".toList, host.uftpFile, "2".toList] := rfl
  have hexport : "python3".toList ≠ "export".toList := by decide
  have hcd : ¬ ("python3".toList = "cd".toList ∨ "python3".toList = "echo".toList) := by decide
  have hfirst : run host.uftpFile vars (⟨["cd".toList, t.uspaceDir], []⟩ :: launchCommands host t) =
      run host.uftpFile vars (launchCommands host t) := rfl
  rw [hfirst, launchCommands, run, hdrop]
  dsimp only
  rw [if_neg hexport, if_neg hcd, if_pos ⟨rfl, rfl⟩]
  rfl

theorem lookup_assigned {pairs : List (Str × Str)} {name value : Str} (hmem : (name, value) ∈ pairs)
    (hsame : ∀ q ∈ pairs, q.1 = name → q.2 = value) (vars : Vars) :
    pairs.foldl assign vars name = some value := by
  induction pairs using List.reverseRecOn with
  | nil => cases hmem
  | append_singleton pairs q ih =>
      rw [List.foldl_append, List.foldl_cons, List.foldl_nil, assign]
      by_cases hname : name = q.1
      · rw [hname, Function.update_self, hsame q (by simp) hname.symm]
      · rw [Function.update_of_ne hname]
        refine ih ?_ fun q' hq' => hsame q' (List.mem_append_left _ hq')
        rcases List.mem_append.mp hmem with hold | hnew
        · exact hold
        · exact absurd (congrArg Prod.fst (List.mem_singleton.mp hnew)) hname

/-- A name that is exported twice, the write mode, has the same value both times. -/
theorem exported_same {pythonpath : Str} {c : ClientParameters} :
    ∀ p ∈ exported pythonpath c, ∀ q ∈ exported pythonpath c, p.1 = q.1 → p.2 = q.2 := by
  obtain ⟨front, mode, middle, back, hsplit, hnames⟩ : ∃ front mode middle back,
      exported pythonpath c = front ++ mode :: (middle ++ mode :: back) ∧
        (front ++ mode :: (middle ++ back)).map Prod.fst = ["UFTP_HOST".toList, "UFTP_PORT".toList,
          "UFTP_SECRET".toList, "UFTP_OPERATION".toList, "UFTP_WRITE_MODE".toList, "UFTP_OFFSET".toList,
          "UFTP_LENGTH".toList, "UFTP_REMOTE_FILE".toList, "UFTP_LOCAL_FILE".toList, "PYTHONPATH".toList] :=
    ⟨[("UFTP_HOST".toList, c.host), ("UFTP_PORT".toList, intText c.port), ("UFTP_SECRET".toList, c.secret),
        ("UFTP_OPERATION".toList, c.operation)], ("UFTP_WRITE_MODE".toList, c.writeMode),
      [("UFTP_OFFSET".toList, intText c.offset), ("UFTP_LENGTH".toList, intText c.length)],
      [("UFTP_REMOTE_FILE".toList, c.remotePath), ("UFTP_LOCAL_FILE".toList, c.localPath),
        ("PYTHONPATH".toList, pythonpath)], rfl, rfl⟩
  have hnodup : ((front ++ mode :: (middle ++ back)).map Prod.fst).Nodup := by
    rw [hnames]
    decide +kernel
  have hmem : ∀ p ∈ front ++ mode :: (middle ++ mode :: back), p ∈ front ++ mode :: (middle ++ back) := by
    intro p hp
    simp only [List.mem_append, List.mem_cons] at hp ⊢
    tauto
  intro p hp q hq hname
  rw [hsplit] at hp hq
  rw [List.inj_on_of_nodup_map hnodup (hmem p hp) (hmem q hq) hname]

theorem exported_names {pythonpath : Str} {c : ClientParameters} : ∀ p ∈ exported pythonpath c, VarName p.1 := by
  have hnames : ∀ name ∈ ["UFTP_HOST".toList, "UFTP_PORT".toList, "UFTP_SECRET".toList, "UFTP_OPERATION".toList,
      "UFTP_WRITE_MODE".toList, "UFTP_OFFSET".toList, "UFTP_LENGTH".toList, "UFTP_WRITE_MODE".toList,
      "UFTP_REMOTE_FILE".toList, "UFTP_LOCAL_FILE".toList, "PYTHONPATH".toList],
      (name ++ ['='] ≠ [] ∧ (name ++ ['=']).head? ≠ some '#' ∧ Plain (name ++ ['='])) ∧ '=' ∉ name := by
    decide +kernel
  intro p hp
  obtain ⟨⟨hne, hcomment, hplain⟩, hassign⟩ := hnames p.1 (List.mem_map_of_mem (f := Prod.fst) hp)
  exact ⟨⟨hne, hcomment, hplain⟩, hassign⟩

theorem plain_natText (n : Nat) : Plain (natText n) := by
  intro c hc
  have hrange : 48 ≤ c.toNat ∧ c.toNat ≤ 57 := Char.isDigit_iff_toNat.mp (isDigit_of_mem_natText hc)
  have hsmall : ∀ k < 58, 48 ≤ k → isSpecial (Char.ofNat k) = false := by decide +kernel
  have hspecial := hsmall c.toNat (by omega) hrange.1
  rwa [Char.ofNat_toNat] at hspecial

theorem plain_intText (n : Int) : Plain (intText n) := by
  cases n with
  | ofNat n => exact plain_natText n
  | negSucc n =>
      rw [intText_negSucc]
      intro c hc
      rcases List.mem_cons.mp hc with rfl | hmem
      · decide
      · exact plain_natText _ c hmem

/-- The environment has the parameters under the names of the variables. -/
structure Has (vars : Vars) (c : ClientParameters) : Prop where
  host : vars "UFTP_HOST".toList = some c.host
  secret : vars "UFTP_SECRET".toList = some c.secret
  operation : vars "UFTP_OPERATION".toList = some c.operation
  writeMode : vars "UFTP_WRITE_MODE".toList = some c.writeMode
  remotePath : vars "UFTP_REMOTE_FILE".toList = some c.remotePath
  localPath : vars "UFTP_LOCAL_FILE".toList = some c.localPath

theorem environItem_eq_ok {vars : Vars} {key : String} {value : Str} :
    environItem vars key = .ok value ↔ vars key.toList = some value := by
  unfold environItem
  cases vars key.toList with
  | none => exact ⟨nofun, nofun⟩
  | some v => exact ⟨fun h => congrArg some (Except.ok.inj h), fun h => congrArg Except.ok (Option.some.inj h)⟩

theorem has_of_mainParameters {vars : Vars} {c : ClientParameters} (h : mainParameters vars = .ok c) : Has vars c := by
  unfold mainParameters at h
  obtain ⟨host, hhost, h₁⟩ := except_bind_eq_ok.mp h
  obtain ⟨port, -, h₂⟩ := except_bind_eq_ok.mp h₁
  obtain ⟨secret, hsecret, h₃⟩ := except_bind_eq_ok.mp h₂
  obtain ⟨remotePath, hremote, h₄⟩ := except_bind_eq_ok.mp h₃
  obtain ⟨localPath, hlocal, h₅⟩ := except_bind_eq_ok.mp h₄
  obtain ⟨operation, hoperation, h₆⟩ := except_bind_eq_ok.mp h₅
  obtain ⟨writeMode, hmode, h₇⟩ := except_bind_eq_ok.mp h₆
  obtain ⟨offset, -, h₈⟩ := except_bind_eq_ok.mp h₇
  obtain ⟨length, -, h₉⟩ := except_bind_eq_ok.mp h₈
  obtain rfl := Except.ok.inj h₉
  exact ⟨environItem_eq_ok.mp hhost, environItem_eq_ok.mp hsecret, environItem_eq_ok.mp hoperation,
    environItem_eq_ok.mp hmode, environItem_eq_ok.mp hremote, environItem_eq_ok.mp hlocal⟩

theorem mainParameters_assigned {pythonpath : Str} (c : ClientParameters) (vars : Vars) :
    mainParameters ((exported pythonpath c).foldl assign vars) = .ok c := by
  have hlookup : ∀ {name value : Str}, (name, value) ∈ exported pythonpath c →
      (exported pythonpath c).foldl assign vars name = some value := fun hmem =>
    lookup_assigned hmem (fun q hq hname => exported_same q hq _ hmem hname) vars
  have hitem : ∀ {key : String} {value : Str}, (key.toList, value) ∈ exported pythonpath c →
      environItem ((exported pythonpath c).foldl assign vars) key = .ok value := fun hmem =>
    environItem_eq_ok.mpr (hlookup hmem)
  have hhost := hitem (List.mem_of_getElem? (i := 0) rfl)
  have hport := hitem (List.mem_of_getElem? (i := 1) rfl)
  have hsecret := hitem (List.mem_of_getElem? (i := 2) rfl)
  have hoperation := hitem (List.mem_of_getElem? (i := 3) rfl)
  have hmode := hitem (List.mem_of_getElem? (i := 4) rfl)
  have hoffset := hlookup (List.mem_of_getElem? (i := 5) rfl)
  have hlength := hlookup (List.mem_of_getElem? (i := 6) rfl)
  have hremote := hitem (List.mem_of_getElem? (i := 8) rfl)
  have hlocal := hitem (List.mem_of_getElem? (i := 9) rfl)
  rw [mainParameters, hhost, ok_bind, hport, ok_bind, pyInt_intText, ok_bind, hsecret, ok_bind, hremote, ok_bind,
    hlocal, ok_bind, hoperation, ok_bind, hmode, ok_bind, hoffset, Option.getD_some, pyInt_intText, ok_bind, hlength,
    Option.getD_some, pyInt_intText, ok_bind]
  rfl

/-- The exported values: numbers, the search path of the interpreter, and the six texts, which the client reads
under the name they are exported as. -/
theorem exported_cases {pythonpath : Str} {c : ClientParameters} {p : Str × Str} (hp : p ∈ exported pythonpath c) :
    (∃ n, p.2 = intText n) ∨ p.2 = pythonpath ∨ p.2 ∈ texts c ∧ ∀ vars, Has vars c → vars p.1 = some p.2 := by
  have htext : ∀ i v, (texts c)[i]? = some v → v ∈ texts c := fun i v h => List.mem_of_getElem? h
  rw [exported, List.mem_cons, List.mem_cons, List.mem_cons, List.mem_cons, List.mem_cons, List.mem_cons, List.mem_cons,
    List.mem_cons, List.mem_cons, List.mem_cons, List.mem_singleton] at hp
  rcases hp with rfl | rfl | rfl | rfl | rfl | rfl | rfl | rfl | rfl | rfl | rfl
  · exact Or.inr (Or.inr ⟨htext 0 _ rfl, fun _ h => h.host⟩)
  · exact Or.inl ⟨_, rfl⟩
  · exact Or.inr (Or.inr ⟨htext 1 _ rfl, fun _ h => h.secret⟩)
  · exact Or.inr (Or.inr ⟨htext 2 _ rfl, fun _ h => h.operation⟩)
  · exact Or.inr (Or.inr ⟨htext 3 _ rfl, fun _ h => h.writeMode⟩)
  · exact Or.inl ⟨_, rfl⟩
  · exact Or.inl ⟨_, rfl⟩
  · exact Or.inr (Or.inr ⟨htext 3 _ rfl, fun _ h => h.writeMode⟩)
  · exact Or.inr (Or.inr ⟨htext 4 _ rfl, fun _ h => h.remotePath⟩)
  · exact Or.inr (Or.inr ⟨htext 5 _ rfl, fun _ h => h.localPath⟩)
  · exact Or.inr (Or.inl rfl)

/-- A variable with a shorter value is not one of the six. -/
theorem Spoiled.not_has {pythonpath : Str} (hpath : Plain pythonpath) {vars : Vars} {c : ClientParameters}
    (h : Spoiled (exported pythonpath c) vars) : ¬ Has vars c := by
  obtain ⟨p, hp, hspecial, value, hvalue, hlt⟩ := h
  intro hhas
  have hdiffers : vars p.1 ≠ some p.2 := by
    intro heq
    rw [heq] at hvalue
    rw [Option.some.inj hvalue] at hlt
    exact Nat.lt_irrefl _ hlt
  rcases exported_cases hp with ⟨n, hn⟩ | hsearch | ⟨-, hread⟩
  · exact hspecial (hn ▸ plain_intText n)
  · exact hspecial (hsearch ▸ hpath)
  · exact hdiffers (hread vars hhas)

/-- Every line of the message is a comment for the shell, as the lines `#TSI_...` are. -/
def OnlyComments (msg : Str) : Prop := ∀ line ∈ completeLines (msg ++ ['\n']), line = [] ∨ line.head? = some '#'

theorem commands_comments {lines : List Str} (h : ∀ line ∈ lines, line = [] ∨ line.head? = some '#') :
    ∃ css, lines.mapM commands = some css ∧ css.flatten = [] := by
  induction lines with
  | nil => exact ⟨[], rfl, rfl⟩
  | cons line lines ih =>
      obtain ⟨css, hcss, hflatten⟩ := ih fun later hlater => h later (List.mem_cons_of_mem line hlater)
      refine ⟨[] :: css, ?_, hflatten⟩
      rw [List.mapM_cons, commands_comment (h line List.mem_cons_self), hcss]
      rfl

theorem not_mem_of_plain {v : Str} (h : Plain v) : '\n' ∉ v := by
  intro hmem
  have hspecial := h '\n' hmem
  revert hspecial
  decide

theorem scriptLines_no_newline {host : Host} {pythonpath : Str} {t : Transfer} (hnames : PlainNames host pythonpath t)
    (hvalues : ∀ v ∈ texts t.client, '\n' ∉ v) : ∀ line ∈ scriptLines host pythonpath t, '\n' ∉ line := by
  have hexport : ∀ p ∈ exported pythonpath t.client, '\n' ∉ p.2 := by
    intro p hp
    rcases exported_cases hp with ⟨n, hn⟩ | hsearch | ⟨htext, -⟩
    · rw [hn]
      exact not_mem_of_plain (plain_intText n)
    · rw [hsearch]
      exact not_mem_of_plain hnames.pythonpath
    · exact hvalues _ htext
  have hname : ∀ p ∈ exported pythonpath t.client, '\n' ∉ p.1 := by
    intro p hp hmem
    have hplain := (exported_names p hp).word.plain
    exact not_mem_of_plain hplain (List.mem_append_left _ hmem)
  intro line hline
  rcases List.mem_append.mp hline with hvariable | hlast
  · obtain ⟨p, hp, rfl⟩ := List.mem_map.mp hvariable
    have hword : '\n' ∉ "export".toList := by decide
    have hassign : '\n' ∉ p.1 ++ '=' :: p.2 := by
      rw [List.mem_append, List.mem_cons, not_or, not_or]
      exact ⟨hname p hp, by decide, hexport p hp⟩
    intro hmem
    rcases List.mem_append.mp hmem with hfront | hrest
    · exact hword hfront
    · rcases List.mem_cons.mp hrest with hblank | hback
      · exact absurd hblank (by decide)
      · exact hassign hback
  · rw [List.mem_cons, List.mem_singleton] at hlast
    rcases hlast with rfl | rfl
    · have hcd : '\n' ∉ "cd ".toList := by decide
      rw [List.mem_append, not_or]
      exact ⟨hcd, not_mem_of_plain hnames.uspaceDir.plain⟩
    · have hfront : '\n' ∉ "\x7b python3 ".toList := by decide
      have hout : '\n' ∉ " >> ".toList := by decide
      have herr : '\n' ∉ " 2 > ".toList := by decide
      have hcode : '\n' ∉ " ; echo $? > ".toList := by decide
      have hback : '\n' ∉ " ; \x7d & echo $! > ".toList := by decide
      have hend : '\n' ∉ " ".toList := by decide
      unfold launchLine
      simp only [List.mem_append, not_or]
      exact ⟨⟨⟨⟨⟨⟨⟨⟨⟨⟨hfront, not_mem_of_plain hnames.client.plain⟩, hout⟩, not_mem_of_plain hnames.stdout.plain⟩,
        herr⟩, not_mem_of_plain hnames.stderr.plain⟩, hcode⟩, not_mem_of_plain hnames.exitCodeFile.plain⟩, hback⟩,
        not_mem_of_plain hnames.pidFile.plain⟩, hend⟩

/-- The script is read as its variables and the start of the client. -/
theorem launch_script {host : Host} {pythonpath msg : Str} {t : Transfer} (hnames : PlainNames host pythonpath t)
    (hvalues : ∀ v ∈ texts t.client, '\n' ∉ v) (hcomments : OnlyComments msg) {vars : Vars} {l : Launch} :
    launch host.uftpFile vars (unlines (msg :: scriptLines host pythonpath t)) = some l ↔
      ∃ css, ((exported pythonpath t.client).map exportText).mapM commands = some css ∧
        run host.uftpFile vars (css.flatten ++ ⟨["cd".toList, t.uspaceDir], []⟩ :: launchCommands host t) = some l := by
  have hlines : completeLines (unlines (msg :: scriptLines host pythonpath t)) =
      completeLines (msg ++ ['\n']) ++ scriptLines host pythonpath t := by
    have hsplit : unlines (msg :: scriptLines host pythonpath t) =
        (msg ++ ['\n']) ++ unlines (scriptLines host pythonpath t) := by simp
    rw [hsplit, completeLines, Framing.Terminated.frames_append (Framing.terminated_append_mark msg)]
    exact congrArg _ (completeLines_unlines (scriptLines_no_newline hnames hvalues))
  obtain ⟨comments, hread, hflatten⟩ := commands_comments hcomments
  have hlast : ["cd ".toList ++ t.uspaceDir, launchLine host t].mapM commands =
      some [[⟨["cd".toList, t.uspaceDir], []⟩], launchCommands host t] := by
    rw [List.mapM_cons, commands_cd hnames.uspaceDir, List.mapM_cons, commands_launchLine hnames]
    rfl
  rw [launch, hlines, List.mapM_append, hread, scriptLines, List.mapM_append, hlast]
  cases ((exported pythonpath t.client).map exportText).mapM commands with
  | none => exact ⟨nofun, nofun⟩
  | some css =>
      have hall : (comments ++ (css ++ [[⟨["cd".toList, t.uspaceDir], []⟩], launchCommands host t])).flatten =
          css.flatten ++ ⟨["cd".toList, t.uspaceDir], []⟩ :: launchCommands host t := by
        simp [hflatten]
      show run host.uftpFile vars (comments ++ (css ++ _)).flatten = some l ↔ _
      rw [hall]
      constructor
      · exact fun h => ⟨css, rfl, h⟩
      · rintro ⟨_, ⟨⟩, h⟩
        exact h

/-- What the exports of plain values make of the script. -/
theorem mapM_plain {pairs : List (Str × Str)} (hnames : ∀ p ∈ pairs, VarName p.1) (hplain : ∀ p ∈ pairs, Plain p.2) :
    ∃ css, (pairs.map exportText).mapM commands = some css ∧
      ∀ (client : Str) (vars : Vars) (later : List Simple),
        run client vars (css.flatten ++ later) = run client (pairs.foldl assign vars) later := by
  induction pairs with
  | nil => exact ⟨[], rfl, fun _ _ _ => rfl⟩
  | cons p pairs ih =>
      obtain ⟨css, hcss, hrun⟩ := ih (fun q hq => hnames q (List.mem_cons_of_mem p hq))
        fun q hq => hplain q (List.mem_cons_of_mem p hq)
      have hname := hnames p List.mem_cons_self
      refine ⟨[⟨["export".toList, p.1 ++ '=' :: p.2], []⟩] :: css, ?_, fun client vars later => ?_⟩
      · rw [List.map_cons, List.mapM_cons, commands_plain hname (hplain p List.mem_cons_self), hcss]
        rfl
      · rw [List.flatten_cons, List.append_assoc, List.singleton_append, run_export, exports, List.foldl_cons,
          List.foldl_nil, export1_assignment hname.no_assignment, hrun]
        rfl

theorem exported_plain_iff {pythonpath : Str} (hpath : Plain pythonpath) {c : ClientParameters} :
    (∀ p ∈ exported pythonpath c, Plain p.2) ↔ ∀ v ∈ texts c, Plain v := by
  constructor
  · intro h
    have hvalue : ∀ i (p : Str × Str), (exported pythonpath c)[i]? = some p → Plain p.2 := fun i p hi =>
      h p (List.mem_of_getElem? hi)
    intro v hv
    rw [texts, List.mem_cons, List.mem_cons, List.mem_cons, List.mem_cons, List.mem_cons, List.mem_singleton] at hv
    rcases hv with rfl | rfl | rfl | rfl | rfl | rfl
    · exact hvalue 0 _ rfl
    · exact hvalue 2 _ rfl
    · exact hvalue 3 _ rfl
    · exact hvalue 4 _ rfl
    · exact hvalue 8 _ rfl
    · exact hvalue 9 _ rfl
  · intro h p hp
    rcases exported_cases hp with ⟨n, hn⟩ | hsearch | ⟨htext, -⟩
    · rw [hn]
      exact plain_intText n
    · rw [hsearch]
      exact hpath
    · exact h _ htext

/-- A start of the client with the parameters of the request: all six texts are plain, and the start is the one the
code writes down. -/
theorem launch_has {host : Host} {pythonpath msg : Str} {t : Transfer} (hnames : PlainNames host pythonpath t)
    (hvalues : ∀ v ∈ texts t.client, '\n' ∉ v) (hcomments : OnlyComments msg) {vars : Vars} {l : Launch}
    (h : launch host.uftpFile vars (unlines (msg :: scriptLines host pythonpath t)) = some l)
    (hhas : mainParameters l.vars = .ok t.client) :
    (∀ v ∈ texts t.client, Plain v) ∧ l.streams = ⟨.file (t.outcome t.stderr), .inherited⟩ := by
  obtain ⟨css, hread, hrun⟩ := (launch_script hnames hvalues hcomments).mp h
  have hspoiled : ¬ Spoiled (exported pythonpath t.client) l.vars := fun hs =>
    hs.not_has hnames.pythonpath (has_of_mainParameters hhas)
  rcases run_exports exported_names exported_same (fun p hp => hp) hread hrun with
    ⟨hplain, hlater⟩ | hwrong | ⟨vars', hwrong, hlater⟩
  · rw [run_launchCommands] at hlater
    obtain rfl := Option.some.inj hlater
    exact ⟨(exported_plain_iff hnames.pythonpath).mp hplain, rfl⟩
  · exact absurd hwrong hspoiled
  · rw [run_launchCommands] at hlater
    obtain rfl := Option.some.inj hlater
    exact absurd hwrong hspoiled

/-- The client is started as it was asked for. -/
def StartedRight (client : Str) (vars : Vars) (script : Str) (t : Transfer) : Prop :=
  ∃ l, launch client vars script = some l ∧ mainParameters l.vars = .ok t.client ∧
    l.streams = ⟨.file (t.outcome t.stdout), .file (t.outcome t.stderr)⟩ ∧
    l.exitCode = .file (t.outcome t.exitCodeFile)

theorem shellArgs_inj {cmd cmd' : Str} {loginShell : Bool} (h : shellArgs cmd loginShell = shellArgs cmd' loginShell) :
    cmd = cmd' := by
  cases loginShell with
  | true => exact List.singleton_inj.mp (congrArg (List.drop 3) h)
  | false => exact List.singleton_inj.mp (congrArg (List.drop 2) h)

/-- The command that an answered request has started. -/
theorem uftp_commands {msg script : Str} {config : Settings} {r : HandlerCtx} {s s' : HandlerState}
    (hscript : uftpScript r.host r.environ msg = .ok script) (hrun : uftp msg config r s = (.done (), s')) :
    s'.commands = s.commands ++ [shellArgs script config.useLoginShell] := by
  rw [uftp, bind_run_done ask_run, hscript, ofExcept_ok, pure_bind] at hrun
  obtain ⟨result, s₁, hcommand, hreply⟩ := bind_eq_done.mp hrun
  obtain ⟨rfl, pid, -, rfl⟩ := BssCommon.runCommand_background.mp hcommand
  have hok : ok none r _ = (.done (), s') := hreply
  rw [ok, send_run] at hok
  split at hok
  · cases hok
  · obtain rfl := congrArg Prod.snd hok
    rw [acknowledge, if_neg (by decide)]

/-- **The start of a UFTP transfer.**  For every request that `uftp` answers with success, whatever the environment
of the shell: the client gets the parameters if and only if they are plain, and it is never started right. -/
theorem uftp_launch {msg pythonpath : Str} {config : Settings} {t : Transfer} {r : HandlerCtx} {s s' : HandlerState}
    (hasks : Asks msg t) (hpath : r.host.pythonpath = some pythonpath) (hnames : PlainNames r.host pythonpath t)
    (hcomments : OnlyComments msg) (hvalues : ∀ v ∈ texts t.client, '\n' ∉ v ∧ '$' ∉ v)
    (hrun : uftp msg config r s = (.done (), s')) :
    ∃ script, s'.commands = s.commands ++ [shellArgs script config.useLoginShell] ∧ ∀ vars : Vars,
      ((∃ l, launch r.host.uftpFile vars script = some l ∧ mainParameters l.vars = .ok t.client) ↔
        ∀ v ∈ texts t.client, Plain v) ∧ ¬ StartedRight r.host.uftpFile vars script t := by
  have hlines : ∀ v ∈ texts t.client, '\n' ∉ v := fun v hv => (hvalues v hv).1
  have hscript : uftpScript r.host r.environ msg = .ok (unlines (msg :: scriptLines r.host pythonpath t)) :=
    uftpScript_eq hasks hpath fun v hv => (hvalues v hv).2
  refine ⟨unlines (msg :: scriptLines r.host pythonpath t), uftp_commands hscript hrun, fun vars => ⟨⟨?_, ?_⟩, ?_⟩⟩
  · rintro ⟨l, hlaunch, hhas⟩
    exact (launch_has hnames hlines hcomments hlaunch hhas).1
  · intro hplain
    obtain ⟨css, hread, hrest⟩ := mapM_plain exported_names ((exported_plain_iff hnames.pythonpath).mpr hplain)
    have hrun' := (hrest r.host.uftpFile vars _).trans (run_launchCommands r.host t _)
    exact ⟨_, (launch_script hnames hlines hcomments).mpr ⟨css, hread, hrun'⟩, mainParameters_assigned t.client vars⟩
  · rintro ⟨l, hlaunch, hhas, hstreams, -⟩
    have hactual := (launch_has hnames hlines hcomments hlaunch hhas).2
    rw [hstreams] at hactual
    cases congrArg Streams.stderr hactual

/-- An ordinary request: fetch the file `foo` and store it under the name `bar`. -/
def fetchParameters : List (Str × Str) :=
  [("USPACE_DIR".toList, "/u".toList), ("OUTCOME_DIR".toList, "/u/o".toList),
    ("UFTP_HOST".toList, "localhost".toList), ("UFTP_PORT".toList, "54434".toList),
    ("UFTP_SECRET".toList, "test123".toList), ("UFTP_OPERATION".toList, "GET".toList),
    ("UFTP_REMOTE_FILE".toList, "foo".toList), ("UFTP_LOCAL_FILE".toList, "bar".toList)]

def fetchMsg : Str := unlines (["#!/bin/bash".toList, "#TSI_UFTP".toList] ++ parameterLines fetchParameters)

def fetchTransfer : Transfer where
  client :=
    { host := "localhost".toList, port := 54434, secret := "test123".toList, remotePath := "foo".toList,
      localPath := "bar".toList, operation := "GET".toList, writeMode := "FULL".toList, offset := 0, length := -1 }
  uspaceDir := "/u".toList
  outcomeDir := "/u/o".toList
  stdout := "stdout".toList
  stderr := "stderr".toList
  pidFile := "UNICORE_SCRIPT_PID".toList
  exitCodeFile := "UNICORE_SCRIPT_EXIT_CODE".toList

def fetchCtx : HandlerCtx := { host := calmHost UserDb.empty.cache, environ := ⟨none, none, none⟩, fuel := 0 }

theorem fetch_lines : completeLines fetchMsg =
    ["#!/bin/bash".toList, "#TSI_UFTP".toList] ++ parameterLines fetchParameters :=
  completeLines_unlines (by decide +kernel)

theorem fetch_given {parameter : Str} (hparameter : ' ' ∉ parameter) :
    givenValue fetchMsg parameter = fetchParameters.lookup parameter := by
  have hfirst : ∀ l ∈ ["#!/bin/bash".toList, "#TSI_UFTP".toList], lineValue parameter l = none := by
    intro l hl
    cases hvalue : lineValue parameter l with
    | none => rfl
    | some v =>
        have hblank : ' ' ∈ l := by
          rw [lineValue_eq_some.mp hvalue, parameterTag]
          simp
        have hno : ∀ l ∈ ["#!/bin/bash".toList, "#TSI_UFTP".toList], ' ' ∉ l := by decide +kernel
        exact absurd hblank (hno l hl)
  have hnames : ∀ p ∈ fetchParameters, ' ' ∉ p.1 := by decide +kernel
  rw [givenValue, fetch_lines, List.findSome?_append, List.findSome?_eq_none_iff.mpr hfirst, Option.none_or,
    findSome?_parameterLines hnames hparameter]

theorem fetch_parameter (parameter : String) (v : Str) (hname : ' ' ∉ parameter.toList ∧ '\n' ∉ parameter.toList)
    (hv : v ≠ []) (hgiven : fetchParameters.lookup parameter.toList = some v) :
    extractParameter fetchMsg parameter.toList = some v :=
  extractParameter_of_given hname.2 ((fetch_given hname.1).trans hgiven) hv

theorem fetch_default (parameter default : String)
    (hname : ' ' ∉ parameter.toList ∧ '\n' ∉ parameter.toList)
    (hmissing : fetchParameters.lookup parameter.toList = none) :
    (extractParameter fetchMsg parameter.toList).getD default.toList = default.toList := by
  rw [extractParameter_eq hname.2, fetch_given hname.1, hmissing, Option.getD_none]

theorem fetch_asks : Asks fetchMsg fetchTransfer where
  host := fetch_parameter "UFTP_HOST" "localhost".toList (by decide) (by decide) (by decide +kernel)
  port := by
    have hgiven := fetch_parameter "UFTP_PORT" "54434".toList (by decide) (by decide) (by decide +kernel)
    have hread : pyIntOpt (some "54434".toList) = .ok 54434 := by decide +kernel
    exact (congrArg pyIntOpt hgiven).trans hread
  secret := fetch_parameter "UFTP_SECRET" "test123".toList (by decide) (by decide) (by decide +kernel)
  operation := fetch_parameter "UFTP_OPERATION" "GET".toList (by decide) (by decide) (by decide +kernel)
  writeMode := fetch_default "UFTP_WRITE_MODE" "FULL" (by decide) (by decide +kernel)
  remoteFile := fetch_parameter "UFTP_REMOTE_FILE" "foo".toList (by decide) (by decide) (by decide +kernel)
  localFile := fetch_parameter "UFTP_LOCAL_FILE" "bar".toList (by decide) (by decide) (by decide +kernel)
  offset := by
    have hread : pyInt 10 "0".toList = .ok 0 := by decide +kernel
    exact (congrArg (pyInt 10) (fetch_default "UFTP_OFFSET" "0" (by decide) (by decide +kernel))).trans hread
  length := by
    have hread : pyInt 10 "-1".toList = .ok (-1) := by decide +kernel
    exact (congrArg (pyInt 10) (fetch_default "UFTP_LENGTH" "-1" (by decide) (by decide +kernel))).trans hread
  uspaceDir := fetch_parameter "USPACE_DIR" "/u".toList (by decide) (by decide) (by decide +kernel)
  outcomeDir := fetch_parameter "OUTCOME_DIR" "/u/o".toList (by decide) (by decide) (by decide +kernel)
  stdout := fetch_default "STDOUT" "stdout" (by decide) (by decide +kernel)
  stderr := fetch_default "STDERR" "stderr" (by decide) (by decide +kernel)
  pidFile := fetch_default "PID_FILE" "UNICORE_SCRIPT_PID" (by decide) (by decide +kernel)
  exitCodeFile := fetch_default "EXIT_CODE_FILE" "UNICORE_SCRIPT_EXIT_CODE" (by decide) (by decide +kernel)

theorem fetch_plainNames : PlainNames fetchCtx.host "lib".toList fetchTransfer where
  pythonpath := by decide
  client := ⟨by decide, by decide, by decide⟩
  uspaceDir := ⟨by decide, by decide, by decide⟩
  stdout := ⟨by decide, by decide, by decide⟩
  stderr := ⟨by decide, by decide, by decide⟩
  pidFile := ⟨by decide +kernel, by decide +kernel, by decide +kernel⟩
  exitCodeFile := ⟨by decide +kernel, by decide +kernel, by decide +kernel⟩

theorem fetch_onlyComments : OnlyComments fetchMsg := by
  have hrest : completeLines ['\n'] = [[]] := by decide
  have hall : ∀ line ∈ (["#!/bin/bash".toList, "#TSI_UFTP".toList] ++ parameterLines fetchParameters) ++ [[]],
      line = [] ∨ line.head? = some '#' := by decide +kernel
  intro line hline
  rw [fetchMsg, completeLines_unlines_append (by decide +kernel), hrest] at hline
  exact hall line hline

theorem fetch_texts : ∀ v ∈ texts fetchTransfer.client, '\n' ∉ v ∧ '$' ∉ v := by
  decide +kernel

theorem fetch_script : uftpScript fetchCtx.host fetchCtx.environ fetchMsg =
    .ok (unlines (fetchMsg :: scriptLines fetchCtx.host "lib".toList fetchTransfer)) :=
  uftpScript_eq fetch_asks rfl fun v hv => (fetch_texts v hv).2

theorem fetch_done : ∃ s', uftp fetchMsg {} fetchCtx .fresh = (.done (), s') := by
  obtain ⟨script, hscript⟩ : ∃ script, uftpScript fetchCtx.host fetchCtx.environ fetchMsg = .ok script :=
    ⟨_, fetch_script⟩
  rw [uftp, bind_run_done ask_run, hscript, ofExcept_ok, pure_bind]
  exact ⟨_, rfl⟩

theorem uftp_launch_fetch : ∃ s', uftp fetchMsg {} fetchCtx .fresh = (.done (), s') ∧
    ∃ script, s'.commands = [] ++ [shellArgs script true] ∧ ∀ vars : Vars,
      ((∃ l, launch "lib/UFTP.py".toList vars script = some l ∧ mainParameters l.vars = .ok fetchTransfer.client) ↔
        ∀ v ∈ texts fetchTransfer.client, Plain v) ∧ ¬ StartedRight "lib/UFTP.py".toList vars script fetchTransfer := by
  obtain ⟨s', hrun⟩ := fetch_done
  exact ⟨s', hrun, uftp_launch fetch_asks rfl fetch_plainNames fetch_onlyComments fetch_texts hrun⟩

/-- The ordinary request has its client write to the wrong file. -/
theorem fetch_output_misplaced : ¬ ∀ (msg pythonpath : Str) (config : Settings) (t : Transfer) (r : HandlerCtx)
    (s s' : HandlerState), Asks msg t → r.host.pythonpath = some pythonpath → PlainNames r.host pythonpath t →
    OnlyComments msg → (∀ v ∈ texts t.client, '\n' ∉ v ∧ '$' ∉ v) → uftp msg config r s = (.done (), s') →
    ∃ script, s'.commands = s.commands ++ [shellArgs script config.useLoginShell] ∧
      ∀ vars : Vars, StartedRight r.host.uftpFile vars script t := by
  intro h
  obtain ⟨s', hrun⟩ := fetch_done
  obtain ⟨script, hcommands, hright⟩ := h fetchMsg "lib".toList {} fetchTransfer fetchCtx .fresh s' fetch_asks rfl
    fetch_plainNames fetch_onlyComments fetch_texts hrun
  have hargs := List.append_cancel_left (hcommands.symm.trans (uftp_commands fetch_script hrun))
  have hscript : script = unlines (fetchMsg :: scriptLines fetchCtx.host "lib".toList fetchTransfer) :=
    shellArgs_inj (List.singleton_inj.mp hargs)
  obtain ⟨l, hlaunch, hhas, hstreams, -⟩ := hright fun _ => none
  rw [hscript] at hlaunch
  have hactual := (launch_has fetch_plainNames (fun v hv => (fetch_texts v hv).1) fetch_onlyComments hlaunch hhas).2
  rw [hstreams] at hactual
  cases congrArg Streams.stderr hactual

end UnicoreTsi.Uftp
