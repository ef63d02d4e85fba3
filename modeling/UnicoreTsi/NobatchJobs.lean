/-
# UnicoreTsi.NobatchJobs — the ids of jobs without a batch system, and which processes an abort finds.

The id of a job is the pid of the worker and the digits of the clock from the sixth on, one after the other, so it
is the text of one number made of the two (`SubmittedJob.id_eq`).  To abort a job, `grep` is given a pattern that
ends in the id (`abort_command`), and runs over the lines of `ps`.  It finds the line of a job if its id begins the
one in the line, or in what the request says about the files of the output (`JobLine.matches_iff`).

So an abort of one job leaves another one alone exactly if the digits of its number do not begin those of the
other number, and the names of the files do not look like a script of the job (`jobs_told_apart_iff`).
-/
import UnicoreTsi.Lib.Decimal
import UnicoreTsi.Numbers
import UnicoreTsi.ScriptLines
import UnicoreTsi.Submission

set_option autoImplicit false

namespace UnicoreTsi.BssNobatch

open UnicoreTsi.Text UnicoreTsi.Effects UnicoreTsi.Regex UnicoreTsi.Decimal UnicoreTsi.Utils UnicoreTsi.Connector
open UnicoreTsi.BssCommon

/-! ## The pattern of an abort -/

/-- `nice .* ./UNICORE_Job_%s`, for an id without special characters. -/
def abortPattern (jobId : Str) : List (Item Char) :=
  [literal "nice ", anyChars, literal " ", .rep (fun c => decide (c ≠ '\n')) 1 (some 1),
    .lit ("/UNICORE_Job_".toList ++ jobId)]

/-- `grep` prints a line in which the pattern occurs. -/
def grepMatches (jobId line : Str) : Bool := (search (abortPattern jobId) none line).isSome

/-- A text without directives is copied. -/
theorem formatOne_copy (arg : Str) (pending : Bool) {s : Str} (h : '%' ∉ s) (rest : Str) :
    formatOne arg pending (s ++ rest) = (formatOne arg pending rest).map (s ++ ·) := by
  induction s with
  | nil =>
      rw [List.nil_append]
      cases formatOne arg pending rest <;> rfl
  | cons c s ih =>
      rw [List.mem_cons, not_or] at h
      have hc : formatOne arg pending (c :: (s ++ rest)) = (formatOne arg pending (s ++ rest)).map (c :: ·) := by
        rw [formatOne.eq_def]
        split <;> simp_all
      rw [List.cons_append, hc, ih h.2]
      cases formatOne arg pending rest <;> rfl

/-- The command of `abort_job` with the default of `tsi.abort_cmd`. -/
theorem abort_command (jobId : Str) :
    formatOne jobId true ({} : Settings).abortCmd =
      .ok ("SID=$(ps -e -osid,args | grep \"nice .* ./UNICORE_Job_".toList ++ (jobId ++
        "\" | grep -v \"grep \" | egrep -o \"^\\s*([0-9]+)\" ); pkill -SIGTERM -s $SID".toList)) := by
  have hsplit : ({} : Settings).abortCmd =
      "SID=$(ps -e -osid,args | grep \"nice .* ./UNICORE_Job_".toList ++ ('%' :: 's' ::
        ("\" | grep -v \"grep \" | egrep -o \"^\\s*([0-9]+)\" ); pkill -SIGTERM -s $SID".toList ++ [])) := by
    decide +kernel
  rw [hsplit, formatOne_copy jobId true (by decide +kernel), formatOne, formatOne_copy jobId false (by decide +kernel),
    formatOne]
  simp [Except.map]

theorem grepMatches_iff {jobId line : Str} :
    grepMatches jobId line = true ↔ ∃ pre mid c post,
      line = pre ++ ("nice ".toList ++ (mid ++ (' ' :: c :: ("/UNICORE_Job_".toList ++ jobId ++ post)))) ∧
        '\n' ∉ mid ∧ c ≠ '\n' := by
  constructor
  · intro h
    obtain ⟨ps, hps⟩ := Option.isSome_iff_exists.mp h
    obtain ⟨pre, ⟨post, rfl, hfits⟩, -⟩ := search_eq_some hps
    match ps, hfits with
    | [nice, mid, blank, dot, script], ⟨hnice, ⟨hmid, _, _⟩, hblank, ⟨hdot, hlow, hhigh⟩, hscript, _⟩ =>
      obtain rfl : nice = "nice ".toList := hnice
      obtain rfl : blank = " ".toList := hblank
      obtain rfl : script = "/UNICORE_Job_".toList ++ jobId := hscript
      have hone : dot.length = 1 := le_antisymm (hhigh 1 rfl) hlow
      obtain ⟨c, rfl⟩ := List.length_eq_one_iff.mp hone
      refine ⟨pre, mid, c, post, by simp, ?_, ?_⟩
      · intro hnewline
        exact absurd (hmid '\n' hnewline) (by decide)
      · exact of_decide_eq_true (hdot c List.mem_cons_self)
  · rintro ⟨pre, mid, c, post, rfl, hmid, hc⟩
    have hfits : Fits (abortPattern jobId) (lastOr none pre)
        ["nice ".toList, mid, " ".toList, [c], "/UNICORE_Job_".toList ++ jobId] := by
      refine ⟨rfl, ⟨?_, Nat.zero_le _, by simp⟩, rfl, ⟨?_, le_refl _, by simp⟩, rfl, rfl⟩
      · intro a ha
        refine decide_eq_true ?_
        rintro rfl
        exact hmid ha
      · intro a ha
        obtain rfl := List.mem_singleton.mp ha
        exact decide_eq_true hc
    exact search_isSome ⟨post, by simp, hfits⟩

/-- A text in which something looks like the script of a job. -/
def Mentions (jobId text : Str) : Prop :=
  ∃ pre c post, text = pre ++ (' ' :: c :: ("/UNICORE_Job_".toList ++ jobId ++ post))

/-- Digits that begin a text begin the digits in front of it. -/
theorem digits_begin {a b tail : Str} (ha : ∀ c ∈ a, c.isDigit = true) (htail : ∀ c ∈ tail.head?, c.isDigit = false)
    (h : a <+: b ++ tail) : a <+: b := by
  rcases le_total a.length b.length with hle | hle
  · exact List.prefix_of_prefix_length_le h (List.prefix_append b tail) hle
  · obtain ⟨rest, rfl⟩ := List.prefix_of_prefix_length_le (List.prefix_append b tail) h hle
    rw [List.prefix_append_right_inj] at h
    cases rest with
    | nil => rw [List.append_nil]
    | cons c rest =>
        obtain ⟨after, rfl⟩ := h
        have hc := htail c rfl
        rw [ha c (List.mem_append_right _ List.mem_cons_self)] at hc
        cases hc

/-! ## The line of a job -/

/-- The line of a process that runs the script of a job, in its parts. -/
structure JobLine where
  front : Str
  timeout : Str
  jobId : Str
  files : Str
  front_lower : 'U' ∉ front
  timeout_lower : 'U' ∉ timeout
  timeout_line : '\n' ∉ timeout
  jobId_digits : ∀ c ∈ jobId, c.isDigit = true
  files_start : ∃ rest, files = " > ".toList ++ rest
  files_line : '\n' ∉ files

namespace JobLine

variable (l : JobLine)

/-- What stands before the name of the script. -/
def beforeScript : Str := l.front ++ ("nice ".toList ++ ("-n 100 ".toList ++ (l.timeout ++ " .".toList)))

def text : Str := l.beforeScript ++ ("/UNICORE_Job_".toList ++ (l.jobId ++ l.files))

theorem upper_beforeScript : 'U' ∉ l.beforeScript := by
  simp [beforeScript, l.front_lower, l.timeout_lower]

theorem slash_script : '/' ∉ "UNICORE_Job_".toList ++ l.jobId := by
  rw [List.mem_append, not_or]
  refine ⟨by decide, ?_⟩
  intro h
  exact absurd (l.jobId_digits '/' h) (by decide)

theorem newline_jobId : '\n' ∉ l.jobId := by
  intro h
  exact absurd (l.jobId_digits '\n' h) (by decide)

/-- Where the name of a script of a job stands in the line: it is the one that the job runs, or it is in the names
of the files. -/
theorem script_position {a x post : Str} (h : l.text = x ++ ("/UNICORE_Job_".toList ++ (a ++ post))) :
    (x = l.beforeScript ∧ a ++ post = l.jobId ++ l.files) ∨
      ∃ p, x = l.beforeScript ++ ("/UNICORE_Job_".toList ++ (l.jobId ++ p)) ∧
        l.files = p ++ ("/UNICORE_Job_".toList ++ (a ++ post)) := by
  obtain ⟨rest, hfiles⟩ := l.files_start
  have hname : "/UNICORE_Job_".toList = '/' :: "UNICORE_Job_".toList := rfl
  rw [text, hname, List.cons_append, List.cons_append, ← List.append_assoc _ l.jobId] at h
  rcases List.append_eq_append_iff.mp h with ⟨p, rfl, hp⟩ | ⟨p, hx, hp⟩
  · cases p with
    | nil =>
        left
        rw [List.nil_append, List.cons.injEq, List.append_assoc, List.append_cancel_left_eq] at hp
        exact ⟨List.append_nil _, hp.2.symm⟩
    | cons c p =>
        -- a slash after the one of the script: it is in the names of the files
        right
        obtain ⟨rfl, hafter⟩ := List.cons.inj hp
        rcases List.append_eq_append_iff.mp hafter with ⟨q, rfl, hq⟩ | ⟨q, hq, hend⟩
        · refine ⟨q, ?_, ?_⟩
          · simp
          · rw [hq, hname, List.cons_append]
        · cases q with
          | nil =>
              rw [List.nil_append, hfiles] at hend
              exact absurd (List.cons.inj hend).1 (by decide)
          | cons c q =>
              obtain ⟨rfl, -⟩ := List.cons.inj hend
              exact absurd (hq ▸ List.mem_append_right _ List.mem_cons_self) l.slash_script
  · cases p with
    | nil =>
        left
        rw [List.nil_append, List.cons.injEq, List.append_assoc, List.append_cancel_left_eq] at hp
        rw [List.append_nil] at hx
        exact ⟨hx.symm, hp.2⟩
    | cons c p =>
        -- a slash before the one of the script is not followed by the capital letter
        obtain ⟨rfl, hafter⟩ := List.cons.inj hp
        cases p with
        | nil => exact absurd (List.cons.inj hafter).1 (by decide)
        | cons c p =>
            have hupper : 'U' = c := (List.cons.inj hafter).1
            refine absurd ?_ l.upper_beforeScript
            rw [hx, ← hupper]
            simp

theorem files_head : ∀ c ∈ l.files.head?, c.isDigit = false := by
  obtain ⟨rest, hfiles⟩ := l.files_start
  intro c hc
  rw [hfiles] at hc
  obtain rfl := Option.some.inj hc
  rfl

/-- A script in the names of the files has a blank and one character before its slash there too, since the names
come after more than one character. -/
theorem mentions_of_position {a before p post : Str} {c : Char}
    (hx : before ++ [' ', c] = l.beforeScript ++ ("/UNICORE_Job_".toList ++ (l.jobId ++ p)))
    (hp : l.files = p ++ ("/UNICORE_Job_".toList ++ (a ++ post))) : Mentions a l.files := by
  obtain ⟨rest, hfiles⟩ := l.files_start
  rcases List.eq_nil_or_concat p with rfl | ⟨p₁, z, rfl⟩
  · rw [hfiles] at hp
    exact absurd (List.cons.inj hp).1 (by decide)
  · rcases List.eq_nil_or_concat p₁ with rfl | ⟨p₂, y, rfl⟩
    · rw [hfiles] at hp
      exact absurd (List.cons.inj (List.cons.inj hp).2).1 (by decide)
    · have hlast : before ++ [' ', c] =
          (l.beforeScript ++ ("/UNICORE_Job_".toList ++ (l.jobId ++ p₂))) ++ [y, z] := by
        simpa using hx
      obtain ⟨-, htwo⟩ := List.append_inj' hlast rfl
      obtain ⟨rfl, hone⟩ := List.cons.inj htwo
      obtain ⟨rfl, -⟩ := List.cons.inj hone
      refine ⟨p₂, c, post, ?_⟩
      rw [hp]
      simp

theorem matches_of_begins {a : Str} (h : a <+: l.jobId) : grepMatches a l.text = true := by
  obtain ⟨rest, hid⟩ := h
  refine grepMatches_iff.mpr ⟨l.front, "-n 100 ".toList ++ l.timeout, '.', rest ++ l.files, ?_, ?_, by decide⟩
  · rw [text, beforeScript, ← hid]
    simp
  · rw [List.mem_append, not_or]
    exact ⟨by decide, l.timeout_line⟩

theorem matches_of_mentions {a : Str} (h : Mentions a l.files) : grepMatches a l.text = true := by
  obtain ⟨p, c, post, hp⟩ := h
  have hline := l.files_line
  simp only [hp, List.mem_append, List.mem_cons, not_or] at hline
  have hblank : '\n' ∉ "-n 100 ".toList ∧ '\n' ∉ " ./UNICORE_Job_".toList := by decide
  -- all that the command line has between `nice` and the names of the files
  refine grepMatches_iff.mpr ⟨l.front, "-n 100 ".toList ++ (l.timeout ++ (" ./UNICORE_Job_".toList ++ (l.jobId ++ p))),
    c, post, ?_, ?_, Ne.symm hline.2.2.1⟩
  · rw [text, beforeScript, hp]
    simp
  · simp only [List.mem_append, not_or]
    exact ⟨hblank.1, l.timeout_line, hblank.2, l.newline_jobId, hline.1⟩

/-- The pattern for an id is found if the id begins that of the job, or in the names of the files. -/
theorem matches_iff {a : Str} (ha : ∀ c ∈ a, c.isDigit = true) :
    grepMatches a l.text = true ↔ a <+: l.jobId ∨ Mentions a l.files := by
  constructor
  · intro h
    obtain ⟨pre, mid, c, post, hline, -, -⟩ := grepMatches_iff.mp h
    have hscript : l.text = (pre ++ ("nice ".toList ++ (mid ++ [' ', c]))) ++
        ("/UNICORE_Job_".toList ++ (a ++ post)) := by
      rw [hline]
      simp
    rcases l.script_position hscript with ⟨-, hid⟩ | ⟨p, hx, hp⟩
    · exact Or.inl (digits_begin ha l.files_head ⟨post, hid⟩)
    · have hbefore : (pre ++ ("nice ".toList ++ mid)) ++ [' ', c] =
          l.beforeScript ++ ("/UNICORE_Job_".toList ++ (l.jobId ++ p)) := by
        simpa using hx
      exact Or.inr (l.mentions_of_position hbefore hp)
  · rintro (hid | hfiles)
    · exact l.matches_of_begins hid
    · exact l.matches_of_mentions hfiles

end JobLine

/-! ## What a submission does -/

theorem upper_natText (n : Nat) : 'U' ∉ natText n := not_mem_natText (by decide) n

theorem upper_intText (n : Int) : 'U' ∉ intText n := by
  cases n with
  | ofNat n => exact upper_natText n
  | negSucc n =>
      rw [intText_negSucc, List.mem_cons, not_or]
      exact ⟨by decide, upper_natText _⟩

/-- The commands in front of the script have no capital letters, and no line ends in them. -/
theorem timeoutCmd_plain {reqTime : Int} {timeoutcmd : Str} (h : timeoutCmd reqTime = .ok timeoutcmd) :
    'U' ∉ timeoutcmd ∧ '\n' ∉ timeoutcmd := by
  unfold timeoutCmd at h
  split at h
  · obtain ⟨g, -, rfl⟩ := except_map_eq_ok.mp h
    have hfixed : 'U' ∉ "timeout -k ".toList ∧ '\n' ∉ "timeout -k ".toList := by decide
    have hgrace : '\n' ∉ natText g := not_mem_natText (by decide) g
    simp only [List.mem_append, not_or]
    exact ⟨⟨⟨⟨hfixed.1, upper_natText g⟩, by decide⟩, upper_intText reqTime⟩,
      ⟨⟨hfixed.2, hgrace⟩, by decide⟩, newline_intText reqTime⟩
  · obtain rfl := Except.ok.inj h
    exact ⟨List.not_mem_nil, List.not_mem_nil⟩

theorem ulimits_plain (memory : Int) : 'U' ∉ ulimits memory := by
  unfold ulimits
  split
  · simp only [List.mem_append, not_or]
    exact ⟨⟨by decide, upper_intText _⟩, by decide⟩
  · exact List.not_mem_nil

/-- The command line, cut in front of the name of the script and after it. -/
theorem command_parts (limits timeoutcmd jobId outcomeDir : Str) (stdout stderr : Option Str) :
    limits ++ " ionice -c 3 nice -n 100 ".toList ++ timeoutcmd ++ " ".toList ++
        redirected ("UNICORE_Job_".toList ++ jobId) outcomeDir stdout stderr =
      limits ++ (" ionice -c 3 nice -n 100 ".toList ++ (timeoutcmd ++ (" ./UNICORE_Job_".toList ++
        (jobId ++ (" > ".toList ++ outcomeDir ++ "/".toList ++ optText stdout ++ " 2> ".toList ++ outcomeDir ++
          "/".toList ++ optText stderr))))) := by
  have hscript : " ./UNICORE_Job_".toList = " ".toList ++ ("./".toList ++ "UNICORE_Job_".toList) := by decide
  rw [hscript]
  unfold redirected
  simp only [List.append_assoc]

/-- What is made or changed before the worker asks for its pid. -/
theorem makeDir_done {path : Str} {r : HandlerCtx} {s s' : HandlerState} (h : makeDir path r s = (.done (), s')) :
    s' = { s with tick := s.tick + if r.host.pathExists s.tick path then 1 else 2 } := by
  rw [makeDir, bind_run_done (consult_run _ _ _)] at h
  cases hfound : r.host.pathExists s.tick path with
  | true =>
      rw [hfound] at h
      exact (congrArg Prod.snd h).symm
  | false =>
      rw [hfound] at h
      exact (sysCall_eq_done.mp h).2

theorem send_commands {c : ConnCall} {r : HandlerCtx} {s s' : HandlerState} (h : send c r s = (.done (), s')) :
    s'.commands = s.commands := by
  have hidle := send_idle c r s
  rw [h] at hidle
  exact hidle

theorem pathArg_eq_ok {p : Option Str} {path : Str} : pathArg p = .ok path ↔ p = some path := by
  cases p <;> simp [pathArg]

/-- What a submission does: it returns an id made of the pid and the clock, and starts a process. -/
theorem submit_done {message : Str} {config : Settings} {r : HandlerCtx} {s s' : HandlerState}
    (h : submit message config r s = (.done (), s')) {msg : Str} (hmsg : expandVariables r.environ message = msg) :
    ∃ timeoutcmd outcomeDir t jobId, timeoutCmd (extractNumber msg "TIME".toList) = .ok timeoutcmd ∧
      extractParameter msg "OUTCOME_DIR".toList = some outcomeDir ∧
      t = s.tick + 1 + (if r.host.pathExists (s.tick + 1) outcomeDir then 1 else 2) + 2 ∧
      jobId = intText (r.host.getpid t) ++ (natText (r.host.timeMillis (t + 1))).drop 5 ∧
      s'.calls = s.calls ++ [.ok (some jobId)] ∧
      s'.commands = s.commands ++ [["/bin/sh".toList, "-c".toList,
        ulimits (extractNumber msg "MEMORY".toList) ++ " ionice -c 3 nice -n 100 ".toList ++ timeoutcmd ++ " ".toList ++
          redirected ("UNICORE_Job_".toList ++ jobId) outcomeDir (extractParameter msg "STDOUT".toList)
            (extractParameter msg "STDERR".toList)]] := by
  rw [submit, bind_run_done ask_run, hmsg] at h
  obtain ⟨timeoutcmd, s₁, htimeout, h₁⟩ := bind_eq_done.mp h
  obtain ⟨htimeoutcmd, rfl⟩ := ofExcept_eq_done.mp htimeout
  obtain ⟨uspaceDir, s₂, huspace, h₂⟩ := bind_eq_done.mp h₁
  obtain ⟨-, rfl⟩ := ofExcept_eq_done.mp huspace
  obtain ⟨⟨⟩, s₃, hchdir, h₃⟩ := bind_eq_done.mp h₂
  obtain ⟨-, rfl⟩ := sysCall_eq_done.mp hchdir
  obtain ⟨outcomeDir, s₄, houtcome, h₄⟩ := bind_eq_done.mp h₃
  obtain ⟨houtcomePath, rfl⟩ := ofExcept_eq_done.mp houtcome
  obtain ⟨⟨⟩, s₅, hmake, h₅⟩ := bind_eq_done.mp h₄
  have hmade := makeDir_done hmake
  obtain ⟨⟨⟩, s₆, hperms, h₆⟩ := bind_eq_done.mp h₅
  have hpermitted := addperms_done hperms
  -- the pid, and after it the time
  rw [bind_run_done (consult_run _ _ _), bind_run_done (consult_run _ _ _)] at h₆
  obtain ⟨⟨⟩, s₇, hwrite, h₇⟩ := bind_eq_done.mp h₆
  obtain ⟨-, hwritten⟩ := writeText_eq_done.mp hwrite
  obtain ⟨⟨⟩, s₈, hexec, h₈⟩ := bind_eq_done.mp h₇
  have hexecutable := addperms_done hexec
  rw [logCommand, bind_run_done (modify_run _)] at h₈
  obtain ⟨child, s₉, hpopen, h₉⟩ := bind_eq_done.mp h₈
  obtain ⟨-, hchild⟩ := attempt_eq_done.mp hpopen
  rw [bind_run_done (modify_run _)] at h₉
  obtain ⟨-, hcalls⟩ := send_done h₉
  have hcommands := send_commands h₉
  subst hmade hpermitted hwritten hexecutable hchild
  exact ⟨timeoutcmd, outcomeDir, _, _, htimeoutcmd, pathArg_eq_ok.mp houtcomePath, rfl, rfl, hcalls, hcommands⟩

/-! ## Submitted jobs -/

/-- A submission that has come to its end, in a worker with a positive pid. -/
structure SubmittedJob where
  message : Str
  config : Settings
  ctx : HandlerCtx
  before : HandlerState
  after : HandlerState
  run : submit message config ctx before = (.done (), after)
  pid_pos : ∀ t, 0 < ctx.host.getpid t

namespace SubmittedJob

variable (job : SubmittedJob)

/-- The id that is returned. -/
def id : Str :=
  match job.after.calls.getLast? with
  | some (.ok (some jobId)) => jobId
  | _ => []

/-- The command line of the process that is started. -/
def args : List Str := job.after.commands.getLast?.getD []

/-- What the request says about the files of the output. -/
def files : Str :=
  let message := expandVariables job.ctx.environ job.message
  let outcomeDir := (extractParameter message "OUTCOME_DIR".toList).getD []
  " > ".toList ++ outcomeDir ++ "/".toList ++ optText (extractParameter message "STDOUT".toList) ++
    " 2> ".toList ++ outcomeDir ++ "/".toList ++ optText (extractParameter message "STDERR".toList)

/-- How many questions to the host come before the one for the pid; a new directory takes one more. -/
def pidTick : Nat :=
  let message := expandVariables job.ctx.environ job.message
  let outcomeDir := (extractParameter message "OUTCOME_DIR".toList).getD []
  job.before.tick + if job.ctx.host.pathExists (job.before.tick + 1) outcomeDir then 4 else 5

def pid : Nat := (job.ctx.host.getpid job.pidTick).toNat

def millis : Nat := job.ctx.host.timeMillis (job.pidTick + 1)

/-- The number of the digits of the clock that are kept. -/
def clockDigits (millis : Nat) : Nat := (natText millis).length - 5

/-- The pid, and the last digits of the clock after it. -/
def idNumber (pid millis : Nat) : Nat := pid * 10 ^ clockDigits millis + millis % 10 ^ clockDigits millis

theorem idNumber_text {pid : Nat} (hpid : 0 < pid) (millis : Nat) :
    natText pid ++ (natText millis).drop 5 = natText (idNumber pid millis) := by
  have hdigits : ∀ c ∈ (natText millis).drop 5, c.isDigit = true := fun c hc =>
    isDigit_of_mem_natText (List.mem_of_mem_drop hc)
  have hend : value ((natText millis).drop 5) = millis % 10 ^ ((natText millis).drop 5).length := by
    refine value_end (s := (natText millis).take 5) ?_
    rw [List.take_append_drop, natText_eq]
  rw [natText_eq pid, toDigits_append hpid hdigits, hend, natText_eq (idNumber pid millis), idNumber, clockDigits,
    List.length_drop]

/-- The id that is returned, and the process that is started. -/
theorem run_spec : ∃ timeoutcmd limits,
    ('U' ∉ timeoutcmd ∧ '\n' ∉ timeoutcmd) ∧ 'U' ∉ limits ∧
      job.id = intText (job.ctx.host.getpid job.pidTick) ++ (natText job.millis).drop 5 ∧
      job.args = ["/bin/sh".toList, "-c".toList,
        limits ++ (" ionice -c 3 nice -n 100 ".toList ++ (timeoutcmd ++ (" ./UNICORE_Job_".toList ++
          (job.id ++ job.files))))] := by
  obtain ⟨timeoutcmd, outcomeDir, t, jobId, htimeout, houtcome, ht, hjobId, hcalls, hcommands⟩ := submit_done job.run rfl
  have houtcomeDir : (extractParameter (expandVariables job.ctx.environ job.message) "OUTCOME_DIR".toList).getD [] =
      outcomeDir := by rw [houtcome, Option.getD_some]
  have hpidTick : job.pidTick = t := by
    rw [pidTick, houtcomeDir, ht]
    split <;> omega
  have hid : job.id = jobId := by rw [id, hcalls, List.getLast?_concat]
  have hfiles : job.files = " > ".toList ++ outcomeDir ++ "/".toList ++
      optText (extractParameter (expandVariables job.ctx.environ job.message) "STDOUT".toList) ++ " 2> ".toList ++
      outcomeDir ++ "/".toList ++
      optText (extractParameter (expandVariables job.ctx.environ job.message) "STDERR".toList) := by
    rw [← houtcomeDir]
    rfl
  refine ⟨timeoutcmd, ulimits (extractNumber (expandVariables job.ctx.environ job.message) "MEMORY".toList),
    timeoutCmd_plain htimeout, ulimits_plain _, ?_, ?_⟩
  · rw [hid, hjobId, millis, hpidTick]
  · rw [args, hcommands, List.getLast?_concat, Option.getD_some, hid, hfiles, command_parts]

/-- The number of the job. -/
def number : Nat := idNumber job.pid job.millis

theorem pid_positive : 0 < job.pid := by
  have hpos : 0 < job.ctx.host.getpid job.pidTick := job.pid_pos _
  rw [pid]
  omega

theorem number_positive : 0 < job.number := by
  have hshifted : 0 < job.pid * 10 ^ clockDigits job.millis := Nat.mul_pos job.pid_positive (Nat.pow_pos (by decide))
  rw [number, idNumber]
  omega

theorem id_eq : job.id = natText job.number := by
  obtain ⟨_, _, -, -, hid, -⟩ := job.run_spec
  have hpos : 0 < job.ctx.host.getpid job.pidTick := job.pid_pos _
  have hpid : intText (job.ctx.host.getpid job.pidTick) = natText job.pid := by
    rw [← intText_natCast, pid, Int.toNat_of_nonneg hpos.le]
  rw [hid, hpid, idNumber_text job.pid_positive, number]

theorem id_digits : ∀ c ∈ job.id, c.isDigit = true := by
  rw [id_eq]
  exact fun c hc => isDigit_of_mem_natText hc

theorem files_start : ∃ rest, job.files = " > ".toList ++ rest := by
  unfold files
  simp only [List.append_assoc]
  exact ⟨_, rfl⟩

theorem newline_files : '\n' ∉ job.files := by
  have houtcomeDir : '\n' ∉ (extractParameter (expandVariables job.ctx.environ job.message) "OUTCOME_DIR".toList).getD [] := by
    cases hvalue : extractParameter (expandVariables job.ctx.environ job.message) "OUTCOME_DIR".toList with
    | none => exact List.not_mem_nil
    | some v => exact newline_extractParameter (by decide) hvalue
  refine newline_append (newline_append ?_ (by decide)) (newline_optText (by decide))
  refine newline_append (newline_append ?_ (by decide)) houtcomeDir
  exact newline_append (newline_append (newline_append (by decide) houtcomeDir) (by decide)) (newline_optText (by decide))

/-- `ps -e -osid,args`: the session on the right of its column, and the words of the command. -/
def psLine (indent sid : Nat) (args : List Str) : Str :=
  List.replicate indent ' ' ++ natText sid ++ " ".toList ++ [' '].intercalate args

/-- The line of a job is made as the pattern of an abort expects it. -/
theorem psLine_eq (indent sid : Nat) :
    ∃ l : JobLine, psLine indent sid job.args = l.text ∧ l.jobId = job.id ∧ l.files = job.files := by
  obtain ⟨timeoutcmd, limits, ⟨hupper, hline⟩, hlimits, -, hargs⟩ := job.run_spec
  refine ⟨{
    front := List.replicate indent ' ' ++ natText sid ++ " /bin/sh -c ".toList ++ limits ++ " ionice -c 3 ".toList
    timeout := timeoutcmd
    jobId := job.id
    files := job.files
    front_lower := ?_
    timeout_lower := hupper
    timeout_line := hline
    jobId_digits := job.id_digits
    files_start := job.files_start
    files_line := job.newline_files }, ?_, rfl, rfl⟩
  · simp only [List.mem_append, not_or]
    refine ⟨⟨⟨⟨?_, upper_natText sid⟩, by decide⟩, hlimits⟩, by decide⟩
    intro h
    exact absurd (List.eq_of_mem_replicate h) (by decide)
  · have hwords : " /bin/sh -c ".toList = " ".toList ++ ("/bin/sh".toList ++ (" ".toList ++ ("-c".toList ++ " ".toList))) := by
      decide
    have hnice : " ionice -c 3 nice -n 100 ".toList = " ionice -c 3 ".toList ++ ("nice ".toList ++ "-n 100 ".toList) := by
      decide
    have hscript : " ./UNICORE_Job_".toList = " .".toList ++ "/UNICORE_Job_".toList := by decide
    have hblank : [' '] = " ".toList := by decide
    show psLine indent sid job.args = (_ ++ _ ++ " /bin/sh -c ".toList ++ limits ++ " ionice -c 3 ".toList) ++
      ("nice ".toList ++ ("-n 100 ".toList ++ (timeoutcmd ++ " .".toList))) ++
        ("/UNICORE_Job_".toList ++ (job.id ++ job.files))
    rw [hargs, psLine, hwords, hnice, hscript, hblank]
    simp only [List.intercalate, List.intersperse, List.flatten_cons, List.flatten_nil, List.append_assoc, List.append_nil]

end SubmittedJob

/-! ## An abort finds the job, and only the job -/

/-- An abort of `a` does not find `b`: the ids differ, none begins the other, and the line of `b` is not printed. -/
def ToldApart (a b : SubmittedJob) : Prop :=
  a.id ≠ b.id ∧ ¬ a.id <+: b.id ∧ ∀ indent sid, grepMatches a.id (SubmittedJob.psLine indent sid b.args) = false

/-- The number of `a` is not what is left of the number of `b` without some of its last digits, and the names of
the files of `b` do not look like the script of `a`. -/
def Separate (a b : SubmittedJob) : Prop :=
  (∀ j, b.number / 10 ^ j ≠ a.number) ∧
    ¬ Mentions (natText (a.number)) b.files

theorem toldApart_iff (a b : SubmittedJob) : ToldApart a b ↔ Separate a b := by
  have hbegins : a.id <+: b.id ↔ ∃ j, b.number / 10 ^ j = a.number := by
    rw [a.id_eq, b.id_eq, natText_eq, natText_eq, toDigits_prefix_iff a.number_positive]
  have hmatches : ∀ indent sid, grepMatches a.id (SubmittedJob.psLine indent sid b.args) = true ↔
      a.id <+: b.id ∨ Mentions a.id b.files := by
    intro indent sid
    obtain ⟨l, hline, hid, hfiles⟩ := b.psLine_eq indent sid
    rw [hline, l.matches_iff a.id_digits, hid, hfiles]
  unfold ToldApart Separate
  rw [← a.id_eq, ← not_exists, ← hbegins]
  constructor
  · rintro ⟨-, hapart, hnoline⟩
    refine ⟨hapart, fun hmentions => ?_⟩
    have hfound := (hmatches 0 0).mpr (Or.inr hmentions)
    rw [hnoline 0 0] at hfound
    cases hfound
  · rintro ⟨hapart, hnofiles⟩
    refine ⟨fun hsame => hapart (hsame ▸ List.prefix_refl _), hapart, fun indent sid => ?_⟩
    rw [← Bool.not_eq_true, hmatches]
    exact not_or.mpr ⟨hapart, hnofiles⟩

/-- **Aborts of jobs.**  Two jobs are told apart, in both directions, exactly if they are separate. -/
theorem jobs_told_apart_iff (a b : SubmittedJob) :
    (ToldApart a b ∧ ToldApart b a) ↔ (Separate a b ∧ Separate b a) :=
  and_congr (toldApart_iff a b) (toldApart_iff b a)

/-! ### Two workers -/

/-- A host with this pid and this time. -/
def workerHost (pid : Int) (millis : Nat) : Host :=
  { calmHost UserDb.empty.cache with
    getpid := fun _ => pid
    timeMillis := fun _ => millis }

def plainJob : Str := "#TSI_USPACE_DIR /u\n#TSI_OUTCOME_DIR /o\n".toList

/-- What a worker with this pid has done when it has submitted a job at this time. -/
def submitted (pid : Int) (millis : Nat) : Outcome PyExc Unit × HandlerState :=
  submit plainJob {} (calledOn (workerHost pid millis)) .fresh

theorem submitted_done {pid : Int} {millis : Nat} (h : (submitted pid millis).1 = .done ()) :
    submitted pid millis = (.done (), (submitted pid millis).2) := by
  rw [← h]

/-- The job it has submitted. -/
def jobAt (pid : Int) (millis : Nat) (hpid : 0 < pid) (hdone : (submitted pid millis).1 = .done ()) : SubmittedJob where
  message := plainJob
  config := {}
  ctx := calledOn (workerHost pid millis)
  before := .fresh
  after := (submitted pid millis).2
  run := submitted_done hdone
  pid_pos _ := hpid

/-- The job of the worker 12, and the one that the worker 123 submits in the next millisecond. -/
def firstJob : SubmittedJob := jobAt 12 1700033333333 (by decide) (by decide +kernel)

def secondJob : SubmittedJob := jobAt 123 1700033333334 (by decide) (by decide +kernel)

/-- An abort of the first one finds the second one. -/
theorem foreign_job_found :
    ¬ ∀ a b : SubmittedJob, a.pid ≠ b.pid ∨ a.millis ≠ b.millis → ToldApart a b := by
  intro h
  obtain ⟨-, -, hnoline⟩ := h firstJob secondJob (Or.inl (by decide))
  have hfound : grepMatches firstJob.id (SubmittedJob.psLine 0 4711 secondJob.args) = true := by decide +kernel
  rw [hnoline 0 4711] at hfound
  cases hfound

end UnicoreTsi.BssNobatch
