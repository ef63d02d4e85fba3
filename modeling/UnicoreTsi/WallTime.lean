/-
# UnicoreTsi.WallTime — the wall time of a job.

`TIME` is a number of seconds.  Torque takes seconds, Slurm and LSF take minutes, and without a batch system
the job runs under `timeout`.  The conversion to minutes cuts the seconds off, so the limit of a time that is
no whole number of minutes is up to a minute short; Slurm has a minimum of one minute, LSF has none and emits
a limit even if there is no time in the message.  The grace `timeout` leaves before it kills a job is one
percent of the time, cut to whole seconds, and `timeout` takes a grace of 0 for none.
-/
import UnicoreTsi.Commands
import UnicoreTsi.Numbers
import UnicoreTsi.ScriptOptions
import UnicoreTsi.UserCache

set_option autoImplicit false

namespace UnicoreTsi.BssCommon

open UnicoreTsi.Text UnicoreTsi.Effects UnicoreTsi.Utils UnicoreTsi.BssScript

/-! ## The wall-clock limit of a script -/

/-- The option for the wall-clock limit. -/
def Variant.limitOption : Variant → Str
  | nobatch => []
  | slurm => "--time=".toList
  | torque => "-l walltime=".toList
  | lsf => "-W ".toList

/-- The seconds in the unit of the limit. -/
def Variant.limitUnit : Variant → ℕ
  | nobatch => 1
  | slurm => 60
  | torque => 1
  | lsf => 60

/-- The limits a script has. -/
def Variant.limits (v : Variant) (script : List Str) : List Str :=
  optionValues (v.directive v.limitOption) script

/-- `TIME` is a number of seconds that a limit is to be set to. -/
def TimeGiven (message : Str) (t : ℤ) : Prop := GivesInt message "TIME".toList t ∧ 0 < t ∧ t < 2 ^ 53

/-- `TIME` is absent, `NONE` or not positive. -/
def TimeNotGiven (message : Str) : Prop :=
  NotGiven message "TIME".toList ∨ ∃ t ≤ 0, GivesInt message "TIME".toList t

/-- The script limits the job to the time in the message, less than a minute of which may be added, and does
not limit it if the message has no time. -/
structure ScriptHonours (v : Variant) (message : Str) (script : List Str) : Prop where
  given : ∀ t, TimeGiven message t → ∃ limit : ℕ, v.limits script = [natText limit] ∧
    t ≤ limit * v.limitUnit ∧ limit * v.limitUnit < t + 60
  notGiven : TimeNotGiven message → v.limits script = []

/-- The times that a variant honours: whole minutes for those that count in minutes, where Slurm takes anything
shorter than a minute for one, and at least 100 seconds without a batch system. -/
def TimeFits (message : Str) : Variant → Prop
  | .nobatch => ∀ t, TimeGiven message t → 100 ≤ t
  | .slurm => ∀ t, TimeGiven message t → 60 ∣ t ∨ t < 60
  | .torque => True
  | .lsf => ¬ TimeNotGiven message ∧ ∀ t, TimeGiven message t → 60 ∣ t

theorem TimeGiven.extractNumber_eq {message : Str} {t : ℤ} (h : TimeGiven message t) :
    extractNumber message "TIME".toList = t := extractNumber_of_small (by decide) h.1 h.2.1 h.2.2

theorem TimeNotGiven.extractNumber_nonpos {message : Str} (h : TimeNotGiven message) :
    extractNumber message "TIME".toList ≤ 0 := by
  rcases h with h | ⟨t, ht, h⟩
  · rw [extractNumber_of_notGiven (by decide) h]
    decide
  · exact extractNumber_of_nonpos (by decide) h ht

/-- The quotient by a positive number is cut to an integer. -/
theorem truncQuotient_of_small {t : ℤ} (ht : 0 < t) (hsmall : t < 2 ^ 53) {unit : ℕ} (hunit : 0 < unit) :
    truncQuotient t unit = .ok ((t.toNat / unit : ℕ) : ℤ) := by
  rw [truncQuotient, if_neg (by omega), truncDouble_floor (by omega) (by omega)]
  have hsign : t < 0 ↔ (unit : ℤ) < 0 := by omega
  have habs : t.natAbs = t.toNat := by omega
  rw [habs, Int.natAbs_natCast]
  show Except.ok (if _ then _ else _) = _
  rw [if_pos hsign]

section Scripts

variable {config : Settings} {message : Str} {lines : List Str}

theorem slurm_limits (h : BssSlurm.createSubmitScript config message = .ok lines) :
    ∃ wallTime, BssSlurm.timeOption (extractNumber message "TIME".toList) = .ok wallTime ∧
      Variant.slurm.limits lines = optionValues "--time=".toList wallTime := by
  have hdistinct : Distinct "--time=".toList slurmNames := by decide
  obtain ⟨wallTime, htime, hvalues⟩ := slurm_values hdistinct h
  have harray : Apart "--time=".toList "--array=".toList := by decide
  have hlack : ∀ arraySpec arrayLimit, Lacks (Variant.slurm.directive "--time=".toList)
      (BssSlurm.arrayLines arraySpec arrayLimit) := fun arraySpec arrayLimit =>
    lacks_ite (((harray.append _).directive .slurm).lacks_cons
      ((apart_taskId (v := .slurm) (by decide) _).lacks_cons lacks_nil)) lacks_nil
  rw [(hlack _ _).optionValues_eq, List.append_nil] at hvalues
  exact ⟨wallTime, htime, hvalues⟩

theorem slurm_timeOption {t : ℤ} (ht : 0 < t) (hsmall : t < 2 ^ 53) :
    BssSlurm.timeOption t = .ok ["--time=".toList ++ natText (max (t.toNat / 60) 1)] := by
  have hquotient : truncQuotient t 60 = .ok ((t.toNat / 60 : ℕ) : ℤ) :=
    truncQuotient_of_small ht hsmall (by decide)
  have hmax : max ((t.toNat / 60 : ℕ) : ℤ) 1 = ((max (t.toNat / 60) 1 : ℕ) : ℤ) := by omega
  rw [BssSlurm.timeOption, if_pos ht, BssSlurm.timeInMinutes, hquotient]
  show Except.ok ["--time=".toList ++ intText (max _ 1)] = _
  rw [hmax, intText_natCast]

/-- The text of a limit tells the limit. -/
theorem exists_natText_iff {limit : ℕ} {Q : ℕ → Prop} :
    (∃ n, [natText limit] = [natText n] ∧ Q n) ↔ Q limit := by
  constructor
  · rintro ⟨n, heq, hQ⟩
    rwa [natText_injective (List.singleton_inj.mp heq)]
  · exact fun hQ => ⟨limit, rfl, hQ⟩

theorem slurm_given (h : BssSlurm.createSubmitScript config message = .ok lines) {t : ℤ}
    (ht : TimeGiven message t) :
    (∃ limit : ℕ, Variant.slurm.limits lines = [natText limit] ∧ t ≤ limit * Variant.slurm.limitUnit ∧
      limit * Variant.slurm.limitUnit < t + 60) ↔ 60 ∣ t ∨ t < 60 := by
  obtain ⟨wallTime, htime, hlimits⟩ := slurm_limits h
  rw [ht.extractNumber_eq, slurm_timeOption ht.2.1 ht.2.2] at htime
  obtain rfl := Except.ok.inj htime
  rw [hlimits, optionValues_tagged, exists_natText_iff]
  have hpos := ht.2.1
  show t ≤ ((max (t.toNat / 60) 1 : ℕ) : ℤ) * (60 : ℕ) ∧ ((max (t.toNat / 60) 1 : ℕ) : ℤ) * (60 : ℕ) < t + 60 ↔ _
  omega

theorem slurm_notGiven (h : BssSlurm.createSubmitScript config message = .ok lines)
    (ht : TimeNotGiven message) : Variant.slurm.limits lines = [] := by
  obtain ⟨wallTime, htime, hlimits⟩ := slurm_limits h
  rw [BssSlurm.timeOption, if_neg (Int.not_lt.mpr ht.extractNumber_nonpos)] at htime
  obtain rfl := Except.ok.inj htime
  exact hlimits

/-! ### Torque -/

theorem torque_limits (h : BssTorque.createSubmitScript config message = .ok lines) :
    Variant.torque.limits lines =
      optionValues "-l walltime=".toList
        (ifPositive (extractNumber message "TIME".toList) ("-l walltime=".toList ++ ·)) := by
  have hdistinct : Distinct "-l walltime=".toList torqueNames := by decide
  have hvalues := torque_values hdistinct h
  have harray : Apart "-l walltime=".toList "-t ".toList := by decide
  have hlack : ∀ arraySpec arrayLimit, Lacks (Variant.torque.directive "-l walltime=".toList)
      (BssTorque.arrayLines arraySpec arrayLimit) := fun arraySpec arrayLimit =>
    lacks_ite (((harray.append _).directive .torque).lacks_cons
      ((apart_taskId (v := .torque) (by decide) _).lacks_cons lacks_nil)) lacks_nil
  have hnodes : Apart "walltime=".toList "nodes=".toList := by decide
  have hnodesLack : Lacks "-l walltime=".toList (torqueNodes message config) :=
    lacks_ite ((((((hnodes.append _).append _).append_left "-l ".toList)).append _).lacks_cons lacks_nil) lacks_nil
  rw [(hlack _ _).optionValues_eq, hnodesLack.optionValues_eq, List.append_nil, List.nil_append] at hvalues
  exact hvalues

theorem torque_honours (h : BssTorque.createSubmitScript config message = .ok lines) :
    ScriptHonours .torque message lines := by
  have hlimits := torque_limits h
  constructor
  · intro t ht
    rw [ht.extractNumber_eq, ifPositive, if_pos ht.2.1, optionValues_tagged] at hlimits
    refine ⟨t.toNat, ?_, ?_⟩
    · rw [hlimits, ← intText_natCast, Int.toNat_of_nonneg ht.2.1.le]
    · have hpos := ht.2.1
      show t ≤ (t.toNat : ℤ) * (1 : ℕ) ∧ (t.toNat : ℤ) * (1 : ℕ) < t + 60
      omega
  · intro ht
    rw [ifPositive, if_neg (Int.not_lt.mpr ht.extractNumber_nonpos)] at hlimits
    exact hlimits

/-! ### LSF -/

/-- An LSF script always has one limit. -/
theorem lsf_limits (h : BssLsf.createSubmitScript config message = .ok lines) :
    ∃ minutes, truncQuotient (extractNumber message "TIME".toList) 60 = .ok minutes ∧
      Variant.lsf.limits lines = [intText minutes] := by
  have hdistinct : Distinct "-W ".toList lsfNames := by decide
  obtain ⟨minutes, htime, hvalues⟩ := lsf_values hdistinct h
  have hname : Apart "-W ".toList "-J ".toList := by decide
  have hquoted : Apart "-W ".toList "-J \"".toList := by decide
  have hlack : Lacks (Variant.lsf.directive "-W ".toList) (lsfNameLines message config) :=
    lacks_ite ((((hquoted.append _).append _).append _).directive .lsf |>.lacks_cons
      ((apart_taskId (v := .lsf) (by decide) _).lacks_cons lacks_nil))
        (((hname.append _).directive .lsf).lacks_cons lacks_nil)
  rw [hlack.optionValues_eq, optionValues_tagged, List.append_nil] at hvalues
  exact ⟨minutes, htime, hvalues⟩

theorem lsf_given (h : BssLsf.createSubmitScript config message = .ok lines) {t : ℤ}
    (ht : TimeGiven message t) :
    (∃ limit : ℕ, Variant.lsf.limits lines = [natText limit] ∧ t ≤ limit * Variant.lsf.limitUnit ∧
      limit * Variant.lsf.limitUnit < t + 60) ↔ 60 ∣ t := by
  obtain ⟨minutes, htime, hlimits⟩ := lsf_limits h
  have hquotient : truncQuotient t 60 = .ok ((t.toNat / 60 : ℕ) : ℤ) :=
    truncQuotient_of_small ht.2.1 ht.2.2 (by decide)
  rw [ht.extractNumber_eq, hquotient] at htime
  obtain rfl := Except.ok.inj htime
  rw [hlimits, intText_natCast, exists_natText_iff]
  have hpos := ht.2.1
  show t ≤ ((t.toNat / 60 : ℕ) : ℤ) * (60 : ℕ) ∧ ((t.toNat / 60 : ℕ) : ℤ) * (60 : ℕ) < t + 60 ↔ _
  omega

theorem lsf_notGiven (h : BssLsf.createSubmitScript config message = .ok lines) :
    Variant.lsf.limits lines ≠ [] := by
  obtain ⟨minutes, -, hlimits⟩ := lsf_limits h
  rw [hlimits]
  exact List.cons_ne_nil _ _

/-- Which scripts honour the time. -/
theorem scriptHonours_iff {v : Variant} (hv : v ≠ .nobatch)
    (h : v.hooks.createSubmitScript config message = .ok lines) :
    ScriptHonours v message lines ↔ TimeFits message v := by
  cases v with
  | nobatch => exact absurd rfl hv
  | slurm =>
      constructor
      · exact fun hhonours t ht => (slurm_given h ht).mp (hhonours.given t ht)
      · exact fun htime => ⟨fun t ht => (slurm_given h ht).mpr (htime t ht), slurm_notGiven h⟩
  | torque => exact iff_of_true (torque_honours h) trivial
  | lsf =>
      constructor
      · intro hhonours
        exact ⟨fun ht => lsf_notGiven h (hhonours.notGiven ht),
          fun t ht => (lsf_given h ht).mp (hhonours.given t ht)⟩
      · rintro ⟨hgiven, htime⟩
        exact ⟨fun t ht => (lsf_given h ht).mpr (htime t ht), fun ht => absurd ht hgiven⟩

end Scripts

/-! ## The command without a batch system -/

/-- What follows the first occurrence of a text. -/
def behind (pat : Str) : Str → Option Str
  | [] => if pat = [] then some [] else none
  | c :: cs => if pat.isPrefixOf (c :: cs) then some ((c :: cs).drop pat.length) else behind pat cs

/-- The words in front of what a job runs. -/
def niceness : Str := " ionice -c 3 nice -n 100 ".toList

/-- What a command runs as a job. -/
def jobPart (args : List Str) : Option Str := args.getLast?.bind (behind niceness)

/-- The command runs the job under `timeout` with the time in the message and a grace of at least a second,
and without `timeout` if the message has no time. -/
structure CommandHonours (message : Str) (args : List Str) : Prop where
  given : ∀ t, TimeGiven message t → ∃ (grace : ℕ) (job : Str), 1 ≤ grace ∧
    jobPart args = some ("timeout -k ".toList ++ natText grace ++ " ".toList ++ intText t ++
      " ./UNICORE_Job_".toList ++ job)
  notGiven : TimeNotGiven message → ∃ job, jobPart args = some (" ./UNICORE_Job_".toList ++ job)

theorem behind_cons_ne {c d : Char} (h : d ≠ c) (pat s : Str) : behind (c :: pat) (d :: s) = behind (c :: pat) s := by
  have hstarts : (c :: pat).isPrefixOf (d :: s) = false := by simp [List.isPrefixOf, Ne.symm h]
  rw [behind, hstarts, if_neg Bool.false_ne_true]

theorem behind_append {c : Char} {s : Str} (h : c ∉ s) (pat rest : Str) :
    behind (c :: pat) (s ++ rest) = behind (c :: pat) rest := by
  induction s with
  | nil => rfl
  | cons d ds ih =>
      have hd : d ≠ c := fun hd => h (by rw [hd]; exact List.mem_cons_self)
      rw [List.cons_append, behind_cons_ne hd, ih fun hds => h (List.mem_cons_of_mem d hds)]

/-- One symbol further on, where the pattern does not go on as the text does. -/
theorem behind_cons_cons_ne {c c' d : Char} (h : d ≠ c') (pat s : Str) :
    behind (c :: c' :: pat) (c :: d :: s) = behind (c :: c' :: pat) (d :: s) := by
  have hstarts : (c :: c' :: pat).isPrefixOf (c :: d :: s) = false := by simp [List.isPrefixOf, Ne.symm h]
  rw [behind, hstarts, if_neg Bool.false_ne_true]

theorem behind_self (pat rest : Str) (hne : pat ≠ []) : behind pat (pat ++ rest) = some rest := by
  cases pat with
  | nil => exact absurd rfl hne
  | cons c cs =>
      have hstarts : (c :: cs).isPrefixOf ((c :: cs) ++ rest) = true :=
        List.isPrefixOf_iff_prefix.mpr (List.prefix_append _ _)
      rw [List.cons_append] at hstarts
      rw [List.cons_append, behind, if_pos hstarts, ← List.cons_append, List.drop_left]

/-- The memory limit does not hide where the job starts. -/
theorem behind_ulimits (memory : ℤ) (rest : Str) :
    behind niceness (BssNobatch.ulimits memory ++ (niceness ++ rest)) = some rest := by
  have hstart : ∃ pat, niceness = ' ' :: 'i' :: pat := ⟨_, rfl⟩
  obtain ⟨pat, hpat⟩ := hstart
  have hself : behind niceness (niceness ++ rest) = some rest :=
    behind_self niceness rest (by rw [hpat]; exact List.cons_ne_nil _ _)
  rw [BssNobatch.ulimits]
  split
  · rename_i hpos
    obtain ⟨n, hn⟩ : ∃ n : ℕ, 1024 * memory = n := ⟨(1024 * memory).toNat, by omega⟩
    obtain ⟨d, ds, hdigits⟩ := List.exists_cons_of_ne_nil (natText_ne_nil n)
    have hspace : ' ' ∉ natText n := not_mem_natText (by decide) n
    have hhead : d ≠ 'i' := by
      rintro rfl
      have hmem : 'i' ∈ natText n := by
        rw [hdigits]
        exact List.mem_cons_self
      exact not_mem_natText (by decide) n hmem
    have hwords : "ulimit -v ".toList = "ulimit".toList ++ ' ' :: '-' :: "v".toList ++ [' '] := by decide
    have hsplit : "ulimit".toList ++ ' ' :: '-' :: "v".toList ++ [' '] ++ natText n ++ ";".toList ++
        (' ' :: 'i' :: pat ++ rest) =
          "ulimit".toList ++ (' ' :: '-' :: ("v".toList ++ (' ' :: d :: (ds ++ (";".toList ++
            (' ' :: 'i' :: pat ++ rest)))))) := by
      rw [hdigits]
      simp only [List.append_assoc, List.cons_append, List.nil_append]
    rw [hpat] at hself
    rw [hn, intText_natCast, hwords, hpat, hsplit, behind_append (by decide), behind_cons_cons_ne (by decide),
      behind_cons_ne (by decide), behind_append (by decide), behind_cons_cons_ne hhead, ← List.cons_append,
      ← hdigits, behind_append hspace, behind_append (by decide)]
    exact hself
  · exact hself

theorem redirected_job (jobId outcomeDir : Str) (stdout stderr : Option Str) :
    ∃ job, " ".toList ++ redirected ("UNICORE_Job_".toList ++ jobId) outcomeDir stdout stderr =
      " ./UNICORE_Job_".toList ++ job := by
  have hregroup : ∀ blank here name out slash out' err err' : Str, ∃ job,
      blank ++ (here ++ (name ++ jobId) ++ out ++ outcomeDir ++ slash ++ out' ++ err ++ outcomeDir ++ slash ++
        err') = blank ++ here ++ name ++ job := by
    intro blank here name out slash out' err err'
    exact ⟨jobId ++ (out ++ (outcomeDir ++ (slash ++ (out' ++ (err ++ (outcomeDir ++ (slash ++ err'))))))),
      by simp only [List.append_assoc]⟩
  obtain ⟨job, hjob⟩ := hregroup " ".toList "./".toList "UNICORE_Job_".toList " > ".toList "/".toList
    (optText stdout) " 2> ".toList (optText stderr)
  have hword : " ".toList ++ "./".toList ++ "UNICORE_Job_".toList = " ./UNICORE_Job_".toList := by decide
  rw [hword] at hjob
  exact ⟨job, hjob⟩

theorem jobPart_command (memory : ℤ) (timeoutcmd jobId outcomeDir : Str) (stdout stderr : Option Str) :
    ∃ job, jobPart ["/bin/sh".toList, "-c".toList,
      BssNobatch.ulimits memory ++ " ionice -c 3 nice -n 100 ".toList ++ timeoutcmd ++ " ".toList ++
        redirected ("UNICORE_Job_".toList ++ jobId) outcomeDir stdout stderr] =
      some (timeoutcmd ++ " ./UNICORE_Job_".toList ++ job) := by
  obtain ⟨job, hjob⟩ := redirected_job jobId outcomeDir stdout stderr
  refine ⟨job, ?_⟩
  show behind niceness (_ ++ niceness ++ _ ++ _ ++ _) = _
  rw [List.append_assoc, hjob, List.append_assoc, List.append_assoc, behind_ulimits, List.append_assoc]

/-- The command that a submission starts: the job runs under the text of `timeoutCmd`. -/
def StartsJob (message : Str) (args : List Str) : Prop :=
  ∃ timeoutcmd job, BssNobatch.timeoutCmd (extractNumber message "TIME".toList) = .ok timeoutcmd ∧
    jobPart args = some (timeoutcmd ++ " ./UNICORE_Job_".toList ++ job)

theorem nobatch_starts (raw : Str) (config : Settings) (r : HandlerCtx) (s : HandlerState) :
    Starts (StartsJob (expandVariables r.environ raw)) s (BssNobatch.submit raw config r s).2 := by
  generalize hmessage : expandVariables r.environ raw = message
  rw [BssNobatch.submit, bind_run_done ask_run, hmessage]
  refine starts_ofExcept_bind (fun timeoutcmd htimeout => ?_) r s
  refine starts_ofExcept_bind fun uspaceDir _ => ?_
  refine starts_bind_idle (sysCall_idle _) fun _ => ?_
  refine starts_ofExcept_bind fun outcomeDir _ => ?_
  refine starts_bind_idle (makeDir_idle _) fun _ => ?_
  refine starts_bind_idle (addperms_idle _ _) fun _ => ?_
  refine starts_bind_idle (consult_idle _) fun pid => ?_
  refine starts_bind_idle (consult_idle _) fun millis => ?_
  refine starts_bind_idle (writeText_idle _ _) fun _ => ?_
  refine starts_bind_idle (addperms_idle _ _) fun _ => ?_
  refine starts_idle_bind (starts_logCommand ?_) fun _ => ?_
  · obtain ⟨job, hjob⟩ := jobPart_command (extractNumber message "MEMORY".toList) timeoutcmd
      (intText pid ++ (natText millis).drop 5) outcomeDir (extractParameter message "STDOUT".toList)
      (extractParameter message "STDERR".toList)
    exact ⟨timeoutcmd, job, htimeout, hjob⟩
  · refine within_bind (attempt_idle _) fun child => ?_
    exact within_bind (within_modify fun _ => rfl) fun _ => send_idle _

theorem grace_eq {t : ℤ} {grace : ℕ} (h : BssNobatch.grace t = .ok grace) :
    truncDouble (5764607523034235 * t.toNat) (2 ^ 59) = some grace := by
  rw [BssNobatch.grace] at h
  split at h
  · rename_i n hn
    rw [hn, Except.ok.inj h]
  · cases h

/-- One percent of less than a hundred seconds is no second. -/
theorem truncDouble_grace : ∀ t < 100, truncDouble (5764607523034235 * t) (2 ^ 59) = some 0 := by decide +kernel

theorem grace_pos_iff {t : ℤ} {grace : ℕ} (h : BssNobatch.grace t = .ok grace) : 1 ≤ grace ↔ 100 ≤ t := by
  have hgrace := grace_eq h
  constructor
  · intro hpos
    by_contra hlt
    rw [truncDouble_grace t.toNat (by omega)] at hgrace
    obtain rfl := Option.some.inj hgrace
    exact absurd hpos (by decide)
  · intro ht
    exact truncDouble_pos (by decide) (by omega) hgrace

theorem StartsJob.given {message : Str} {args : List Str} (h : StartsJob message args) {t : ℤ}
    (ht : TimeGiven message t) :
    (∃ (grace : ℕ) (job : Str), 1 ≤ grace ∧ jobPart args = some ("timeout -k ".toList ++ natText grace ++
      " ".toList ++ intText t ++ " ./UNICORE_Job_".toList ++ job)) ↔ 100 ≤ t := by
  obtain ⟨timeoutcmd, job, htimeout, hjob⟩ := h
  rw [ht.extractNumber_eq, BssNobatch.timeoutCmd, if_pos ht.2.1] at htimeout
  cases hgrace : BssNobatch.grace t with
  | error e =>
      rw [hgrace] at htimeout
      cases htimeout
  | ok grace =>
      rw [hgrace] at htimeout
      obtain rfl := Except.ok.inj htimeout
      rw [hjob, ← grace_pos_iff hgrace]
      constructor
      · rintro ⟨grace', job', hpos, heq⟩
        -- the grace is what stands between the option and the next blank
        have hblank : ' '.isDigit = false := by decide
        have htext := Option.some.inj heq
        simp only [List.append_assoc] at htext
        have hgraces := append_cons_inj (not_mem_natText hblank _) (not_mem_natText hblank _)
          (List.append_cancel_left htext)
        rwa [natText_injective hgraces.1]
      · exact fun hpos => ⟨grace, job, hpos, rfl⟩

theorem StartsJob.notGiven {message : Str} {args : List Str} (h : StartsJob message args)
    (ht : TimeNotGiven message) : ∃ job, jobPart args = some (" ./UNICORE_Job_".toList ++ job) := by
  obtain ⟨timeoutcmd, job, htimeout, hjob⟩ := h
  rw [BssNobatch.timeoutCmd, if_neg (Int.not_lt.mpr ht.extractNumber_nonpos)] at htimeout
  obtain rfl := Except.ok.inj htimeout
  exact ⟨job, hjob⟩

theorem StartsJob.commandHonours_iff {message : Str} {args : List Str} (h : StartsJob message args) :
    CommandHonours message args ↔ TimeFits message .nobatch := by
  constructor
  · exact fun hhonours t ht => (h.given ht).mp (hhonours.given t ht)
  · exact fun hfits => ⟨fun t ht => (h.given ht).mpr (hfits t ht), h.notGiven⟩

/-- The times each variant honours, in every script and in every command it starts. -/
theorem wall_time_honoured_iff (config : Settings) (message : Str) :
    (∀ (v : Variant) (lines : List Str), v ≠ .nobatch → v.hooks.createSubmitScript config message = .ok lines →
      (ScriptHonours v message lines ↔ TimeFits message v)) ∧
    (∀ (raw : Str) (r : HandlerCtx) (s : HandlerState) (args : List Str),
      expandVariables r.environ raw = message →
      (BssNobatch.submit raw config r s).2.commands = s.commands ++ [args] →
      (CommandHonours message args ↔ TimeFits message .nobatch)) := by
  refine ⟨fun v lines hv h => scriptHonours_iff hv h, ?_⟩
  rintro raw r s args rfl hargs
  rcases nobatch_starts raw config r s with hnone | ⟨args', hargs', hjob⟩
  · rw [hnone] at hargs
    have hlength := congrArg List.length hargs
    simp at hlength
  · rw [hargs', List.append_cancel_left_eq, List.singleton_inj] at hargs
    rw [← hargs]
    exact hjob.commandHonours_iff

/-! ### A job of 200 seconds -/

def shortJob : Str := "#TSI_TIME 200\n#TSI_USPACE_DIR /u\n#TSI_OUTCOME_DIR /o\n".toList

def shortJobCtx : HandlerCtx :=
  { host := calmHost UserDb.empty.cache, environ := ⟨none, none, none⟩, fuel := 0 }

/-- The command that runs it without a batch system. -/
def shortJobCommand : List Str :=
  ["/bin/sh".toList, "-c".toList,
    " ionice -c 3 nice -n 100 timeout -k 2 200 ./UNICORE_Job_424200000000 > /o/None 2> /o/None".toList]

theorem wall_time_short_job :
    (∃ lines, Variant.torque.hooks.createSubmitScript {} shortJob = .ok lines ∧
      (ScriptHonours .torque shortJob lines ↔ TimeFits shortJob .torque)) ∧
    (BssNobatch.submit shortJob {} shortJobCtx .fresh).2.commands = [shortJobCommand] ∧
    (CommandHonours shortJob shortJobCommand ↔ TimeFits shortJob .nobatch) := by
  have hcommands : (BssNobatch.submit shortJob {} shortJobCtx .fresh).2.commands = [shortJobCommand] := by
    decide +kernel
  have hexpand : expandVariables shortJobCtx.environ shortJob = shortJob := by decide +kernel
  exact ⟨⟨_, rfl, (wall_time_honoured_iff {} shortJob).1 .torque _ (by decide) rfl⟩, hcommands,
    (wall_time_honoured_iff {} shortJob).2 shortJob shortJobCtx .fresh _ hexpand hcommands⟩

/-- A Slurm job of a minute and a half is killed after a minute. -/
theorem slurm_time_short :
    ¬ ∀ (v : Variant) (config : Settings) (message : Str) (lines : List Str), v ≠ .nobatch →
      v.hooks.createSubmitScript config message = .ok lines → ScriptHonours v message lines := by
  intro h
  obtain ⟨lines, hok, hlimits⟩ : ∃ lines,
      Variant.slurm.hooks.createSubmitScript {} "#TSI_TIME 90\n".toList = .ok lines ∧
        Variant.slurm.limits lines = [natText 1] := ⟨_, rfl, by decide +kernel⟩
  have hgiven : TimeGiven "#TSI_TIME 90\n".toList 90 :=
    ⟨⟨"90".toList, by decide +kernel, by decide +kernel⟩, by decide, by decide⟩
  obtain ⟨limit, htext, hlow, -⟩ := (h .slurm {} _ lines (by decide) hok).given 90 hgiven
  rw [hlimits] at htext
  obtain rfl := natText_injective (List.singleton_inj.mp htext)
  exact absurd hlow (by decide)

end UnicoreTsi.BssCommon
