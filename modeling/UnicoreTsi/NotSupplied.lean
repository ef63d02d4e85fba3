/-
# UnicoreTsi.NotSupplied — parameters that are not supplied.

A parameter is not supplied when the message has no line for it, a line with nothing after the tag, or one
with the value `NONE`.  The first two are the same to every function that reads it.  `NONE` is the same as
these for a number, and for a text that is read with the default `NONE` (`Blanked`); what is read with another
default takes it for a value.
-/
import UnicoreTsi.Numbers
import UnicoreTsi.ScriptOptions

set_option autoImplicit false

namespace UnicoreTsi.BssCommon

open UnicoreTsi.Text UnicoreTsi.Effects UnicoreTsi.Utils UnicoreTsi.BssScript

/-! ## Messages -/

/-- How a message does not supply a parameter. -/
inductive NotSupplied where
  | isNone | isEmpty | isAbsent
  deriving DecidableEq, Repr

/-- The line for the parameter, if there is one. -/
def NotSupplied.line (parameter : Str) : NotSupplied → List Str
  | isNone => [parameterTag parameter ++ noneText]
  | isEmpty => [parameterTag parameter]
  | isAbsent => []

/-- A message that does not supply the parameter. -/
def messageWith (before : List Str) (parameter : Str) (form : NotSupplied) (after : Str) : Str :=
  unlines (before ++ form.line parameter) ++ after

/-- No line of a name has a blank or a newline in it. -/
def IsName (parameter : Str) : Prop := ' ' ∉ parameter ∧ '\n' ∉ parameter

instance (parameter : Str) : Decidable (IsName parameter) := by
  unfold IsName
  infer_instance

section Messages

variable {before : List Str} {parameter after : Str}

/-- The lines around the line for the parameter. -/
structure Around (before : List Str) (parameter after : Str) : Prop where
  lines : ∀ l ∈ before, '\n' ∉ l
  before_none : ∀ l ∈ before, lineValue parameter l = none
  after_none : ∀ l ∈ completeLines after, lineValue parameter l = none

theorem completeLines_messageWith (hparameter : IsName parameter) (h : Around before parameter after)
    (form : NotSupplied) :
    completeLines (messageWith before parameter form after) =
      before ++ form.line parameter ++ completeLines after := by
  refine completeLines_unlines_append (fun l hl => ?_) after
  rcases List.mem_append.mp hl with hl | hl
  · exact h.lines l hl
  · have htag : '\n' ∉ parameterTag parameter := by
      rw [parameterTag]
      simp [hparameter.2]
    have hnone : '\n' ∉ noneText := by decide
    cases form with
    | isNone =>
        rw [List.mem_singleton.mp hl, List.mem_append, not_or]
        exact ⟨htag, hnone⟩
    | isEmpty => rwa [List.mem_singleton.mp hl]
    | isAbsent => cases hl

theorem givenValue_other (hparameter : IsName parameter) (h : Around before parameter after) {other : Str}
    (hother : IsName other) (hne : other ≠ parameter) (form : NotSupplied) :
    givenValue (messageWith before parameter form after) other =
      (before ++ completeLines after).findSome? (lineValue other) := by
  have hline : (form.line parameter).findSome? (lineValue other) = none := by
    have hnone := fun value => lineValue_other hparameter.1 hother.1 hne value
    cases form with
    | isNone => rw [NotSupplied.line, List.findSome?_cons, hnone]; rfl
    | isEmpty => rw [NotSupplied.line, List.findSome?_cons, ← List.append_nil (parameterTag _), hnone]; rfl
    | isAbsent => rfl
  rw [givenValue, completeLines_messageWith hparameter h, List.findSome?_append, List.findSome?_append, hline,
    List.findSome?_append, Option.or_none]

theorem givenValue_self (hparameter : IsName parameter) (h : Around before parameter after)
    (form : NotSupplied) :
    givenValue (messageWith before parameter form after) parameter =
      match form with
      | .isNone => some noneText
      | .isEmpty => some []
      | .isAbsent => none := by
  have hbefore : before.findSome? (lineValue parameter) = none := List.findSome?_eq_none_iff.mpr h.before_none
  have hafter : (completeLines after).findSome? (lineValue parameter) = none :=
    List.findSome?_eq_none_iff.mpr h.after_none
  rw [givenValue, completeLines_messageWith hparameter h, List.findSome?_append, List.findSome?_append, hbefore,
    hafter, Option.none_or, Option.or_none]
  cases form with
  | isNone => rw [NotSupplied.line, List.findSome?_cons, lineValue_eq_some.mpr rfl]
  | isEmpty => rw [NotSupplied.line, List.findSome?_cons, lineValue_eq_some.mpr (List.append_nil _).symm]
  | isAbsent => rfl

end Messages

/-! ## Reading a parameter -/

/-- The messages differ in the parameter only, which is `NONE` in the first and not there in the second. -/
structure Blanked (parameter m m' : Str) : Prop where
  other : ∀ other, IsName other → other ≠ parameter → extractParameter m other = extractParameter m' other
  isNone : extractParameter m parameter = some noneText
  isAbsent : extractParameter m' parameter = none

section Blanked

variable {parameter m m' : Str}

/-- `NONE` is no number. -/
theorem Blanked.number (h : Blanked parameter m m') (name : Str) (hname : IsName name) :
    extractNumber m name = extractNumber m' name := by
  by_cases hother : name = parameter
  · subst hother
    rw [extractNumber, extractNumber, h.isNone, h.isAbsent]
    decide
  · rw [extractNumber, extractNumber, h.other name hname hother]

theorem Blanked.text (h : Blanked parameter m m') (name : Str) (hname : IsName name) :
    parameterOrNone m name = parameterOrNone m' name := by
  by_cases hother : name = parameter
  · subst hother
    rw [parameterOrNone, parameterOrNone, parameterOr, parameterOr, h.isNone, h.isAbsent]
    rfl
  · rw [parameterOrNone, parameterOrNone, parameterOr, parameterOr, h.other name hname hother]

theorem Blanked.withDefault (h : Blanked parameter m m') (name : Str) (hname : IsName name)
    (hother : name ≠ parameter) (defaultValue : Str) :
    parameterOr m name defaultValue = parameterOr m' name defaultValue := by
  rw [parameterOr, parameterOr, h.other name hname hother]

/-- The value with a default is `NONE` in the first message and the default in the second. -/
theorem Blanked.withDefault_self (h : Blanked parameter m m') (defaultValue : Str) :
    parameterOr m parameter defaultValue = noneText ∧ parameterOr m' parameter defaultValue = defaultValue := by
  rw [parameterOr, parameterOr, h.isNone, h.isAbsent]
  exact ⟨rfl, rfl⟩

theorem Blanked.withDefault_ne (h : Blanked parameter m m') {defaultValue : Str} (hdefault : defaultValue ≠ noneText) :
    parameterOr m parameter defaultValue ≠ parameterOr m' parameter defaultValue := by
  rw [(h.withDefault_self defaultValue).1, (h.withDefault_self defaultValue).2]
  exact Ne.symm hdefault

end Blanked

/-! ## Parts of a script -/

/-- A script, cut around the lines for standard output and error. -/
structure Parts where
  front : List Str
  stdoutLine : Str
  stderrLine : Str
  last : List Str

def Parts.lines (p : Parts) : List Str := p.front ++ [p.stdoutLine, p.stderrLine] ++ p.last

section Parts

variable {p q : Parts}

theorem Parts.stdoutLine_eq (h : p.lines = q.lines) (hfront : p.front = q.front) :
    p.stdoutLine = q.stdoutLine := by
  rw [Parts.lines, Parts.lines, hfront, List.append_assoc, List.append_assoc] at h
  exact (List.cons.inj (List.append_cancel_left h)).1

theorem Parts.stderrLine_eq (h : p.lines = q.lines) (hfront : p.front = q.front) :
    p.stderrLine = q.stderrLine := by
  rw [Parts.lines, Parts.lines, hfront, List.append_assoc, List.append_assoc] at h
  exact (List.cons.inj (List.cons.inj (List.append_cancel_left h)).2).1

theorem Parts.last_eq (h : p.lines = q.lines) (hfront : p.front = q.front) : p.last = q.last := by
  rw [Parts.lines, Parts.lines, hfront, List.append_assoc, List.append_assoc] at h
  exact (List.cons.inj (List.cons.inj (List.append_cancel_left h)).2).2

theorem Parts.front_eq (h : p.lines = q.lines) (hout : p.stdoutLine = q.stdoutLine)
    (herr : p.stderrLine = q.stderrLine) (hlast : p.last = q.last) : p.front = q.front := by
  rw [Parts.lines, Parts.lines, hout, herr, hlast] at h
  exact List.append_cancel_right (List.append_cancel_right h)

theorem Parts.lines_eq (hfront : p.front = q.front) (hout : p.stdoutLine = q.stdoutLine)
    (herr : p.stderrLine = q.stderrLine) (hlast : p.last = q.last) : p.lines = q.lines := by
  rw [Parts.lines, Parts.lines, hfront, hout, herr, hlast]

end Parts

/-- The name of a file in a directive. -/
theorem fileLine_inj {word tag outcomeDir slash name name' suffix : Str}
    (h : word ++ (tag ++ outcomeDir ++ slash ++ (name ++ suffix)) =
      word ++ (tag ++ outcomeDir ++ slash ++ (name' ++ suffix))) : name = name' :=
  List.append_cancel_right (List.append_cancel_left (List.append_cancel_left h))

/-! ## Slurm -/

section Slurm

variable {parameter m m' : Str} (config : Settings)

/-- The conversion of a time to minutes does not fail. -/
theorem truncQuotient_minutes (message parameter : Str) :
    ∃ minutes, truncQuotient (extractNumber message parameter) 60 = .ok minutes := by
  obtain ⟨v, hv⟩ := truncDouble_isSome (n := (extractNumber message parameter).natAbs) (d := 60) (by decide)
    (log2_extractNumber_lt message parameter)
  have hunit : (60 : ℤ).natAbs = 60 := rfl
  rw [truncQuotient, if_neg (by decide), hunit, hv]
  exact ⟨_, rfl⟩

theorem slurm_timeOption_ok (message : Str) :
    ∃ wallTime, BssSlurm.timeOption (extractNumber message "TIME".toList) = .ok wallTime := by
  obtain ⟨minutes, hminutes⟩ := truncQuotient_minutes message "TIME".toList
  rw [BssSlurm.timeOption, BssSlurm.timeInMinutes, hminutes]
  split
  · exact ⟨_, rfl⟩
  · exact ⟨_, rfl⟩

/-- The options of Slurm: no step of their computation fails. -/
theorem slurm_parse_ok (message : Str) :
    ∃ wallTime, BssSlurm.timeOption (extractNumber message "TIME".toList) = .ok wallTime ∧
      BssSlurm.parseCommonOptions message config =
        .ok (BssSlurm.resourceOptions message config ++ wallTime ++ BssSlurm.accountOptions message) := by
  obtain ⟨wallTime, hwallTime⟩ := slurm_timeOption_ok message
  refine ⟨wallTime, hwallTime, ?_⟩
  rw [BssSlurm.parseCommonOptions, hwallTime]
  rfl

def slurmParts (options : List Str) (message : Str) : Parts where
  front := ["#!/bin/bash".toList] ++ options.map BssSlurm.directive ++
    BssSlurm.arrayLines (extractNumber message "ARRAY".toList) (extractNumber message "ARRAY_LIMIT".toList)
  stdoutLine := BssSlurm.directive ("--output=".toList ++ optText (extractParameter message "OUTCOME_DIR".toList) ++
    "/".toList ++ (parameterOr message "STDOUT".toList "stdout".toList ++
      BssSlurm.arraySuffix (extractNumber message "ARRAY".toList)))
  stderrLine := BssSlurm.directive ("--error=".toList ++ optText (extractParameter message "OUTCOME_DIR".toList) ++
    "/".toList ++ (parameterOr message "STDERR".toList "stderr".toList ++
      BssSlurm.arraySuffix (extractNumber message "ARRAY".toList)))
  last := BssSlurm.directive ("--chdir=".toList ++ optText (extractParameter message "USPACE_DIR".toList)) ::
    BssSlurm.umaskLines (extractParameter message "UMASK".toList)

theorem slurm_script {message : Str} {options : List Str}
    (h : BssSlurm.parseCommonOptions message config = .ok options) :
    BssSlurm.createSubmitScript config message = .ok (slurmParts options message).lines := by
  have hlast : ∀ (front last : List Str) (x y z : Str),
      front ++ [x, y, z] ++ last = front ++ [x, y] ++ z :: last := by
    intro front last x y z
    simp only [List.append_assoc, List.cons_append, List.nil_append]
  rw [BssSlurm.createSubmitScript, h]
  exact congrArg Except.ok (hlast _ _ _ _ _)

/-- The options are the same if the two readings with a default of their own are. -/
theorem slurm_options_congr (h : Blanked parameter m m')
    (hname : BssSlurm.checkedJobName (parameterOr m "JOBNAME".toList config.defaultJobName) =
      BssSlurm.checkedJobName (parameterOr m' "JOBNAME".toList config.defaultJobName))
    (hexclusive : BssSlurm.meansTrue (parameterOr m "SSR_EXCLUSIVE".toList (parameterOrNone m' "EXCLUSIVE".toList)) =
      BssSlurm.meansTrue (parameterOr m' "SSR_EXCLUSIVE".toList (parameterOrNone m' "EXCLUSIVE".toList))) :
    BssSlurm.parseCommonOptions m config = BssSlurm.parseCommonOptions m' config := by
  simp (disch := decide) only [BssSlurm.parseCommonOptions, BssSlurm.resourceOptions, BssSlurm.accountOptions,
    h.number, h.text, hname, hexclusive]

theorem slurm_front (h : Blanked parameter m m') (options : List Str) :
    (slurmParts options m).front = (slurmParts options m').front := by
  simp (disch := decide) only [slurmParts, h.number]

theorem slurm_stdoutLine (h : Blanked parameter m m') (hdir : "OUTCOME_DIR".toList ≠ parameter)
    (hother : "STDOUT".toList ≠ parameter) (options options' : List Str) :
    (slurmParts options m).stdoutLine = (slurmParts options' m').stdoutLine := by
  simp (disch := decide) only [slurmParts, h.number]
  rw [h.other _ (by decide) hdir, h.withDefault _ (by decide) hother]

theorem slurm_stderrLine (h : Blanked parameter m m') (hdir : "OUTCOME_DIR".toList ≠ parameter)
    (hother : "STDERR".toList ≠ parameter) (options options' : List Str) :
    (slurmParts options m).stderrLine = (slurmParts options' m').stderrLine := by
  simp (disch := decide) only [slurmParts, h.number]
  rw [h.other _ (by decide) hdir, h.withDefault _ (by decide) hother]

theorem slurm_last (h : Blanked parameter m m') (hdir : "USPACE_DIR".toList ≠ parameter)
    (hother : "UMASK".toList ≠ parameter) (options options' : List Str) :
    (slurmParts options m).last = (slurmParts options' m').last := by
  simp only [slurmParts]
  rw [h.other _ (by decide) hdir, h.other _ (by decide) hother]

/-- The options before and after the wall time can be told from all of them. -/
theorem slurm_resourceOptions_eq (h : Blanked parameter m m')
    (heq : BssSlurm.parseCommonOptions m config = BssSlurm.parseCommonOptions m' config) :
    BssSlurm.resourceOptions m config = BssSlurm.resourceOptions m' config := by
  obtain ⟨wallTime, htime, hparse⟩ := slurm_parse_ok config m
  obtain ⟨wallTime', htime', hparse'⟩ := slurm_parse_ok config m'
  rw [h.number _ (by decide), htime', Except.ok.injEq] at htime
  have haccount : BssSlurm.accountOptions m = BssSlurm.accountOptions m' := by
    simp (disch := decide) only [BssSlurm.accountOptions, h.text]
  rw [hparse, hparse', htime, haccount, Except.ok.injEq] at heq
  exact List.append_cancel_right (List.append_cancel_right heq)

theorem slurm_jobName_eq (h : Blanked "JOBNAME".toList m m')
    (heq : BssSlurm.parseCommonOptions m config = BssSlurm.parseCommonOptions m' config) :
    config.defaultJobName = noneText := by
  have hoptions := congrArg List.head? (slurm_resourceOptions_eq config h heq)
  obtain ⟨hm, hm'⟩ := h.withDefault_self config.defaultJobName
  have hhead : ∀ message, (BssSlurm.resourceOptions message config).head? = some ("--job-name=".toList ++
      BssSlurm.checkedJobName (parameterOr message "JOBNAME".toList config.defaultJobName)) := by
    intro message
    rfl
  rw [hhead, hhead, hm, hm', Option.some.injEq, List.append_cancel_left_eq] at hoptions
  have hnone : BssSlurm.checkedJobName noneText = noneText := by decide
  rw [hnone, BssSlurm.checkedJobName] at hoptions
  split at hoptions
  · exact absurd hoptions (by decide)
  · exact hoptions.symm

/-- The options differ if the wish for exclusive nodes does. -/
theorem slurm_exclusive_eq (h : Blanked "SSR_EXCLUSIVE".toList m m')
    (heq : BssSlurm.parseCommonOptions m config = BssSlurm.parseCommonOptions m' config) :
    BssSlurm.meansTrue (parameterOrNone m' "EXCLUSIVE".toList) = false := by
  have hoptions := slurm_resourceOptions_eq config h heq
  obtain ⟨hm, hm'⟩ := h.withDefault_self (parameterOrNone m' "EXCLUSIVE".toList)
  simp (disch := decide) only [BssSlurm.resourceOptions, h.number, h.text, h.withDefault, hm, hm',
    List.append_cancel_right_eq, List.append_cancel_left_eq] at hoptions
  rw [if_neg (by decide)] at hoptions
  by_contra hexclusive
  rw [Bool.not_eq_false] at hexclusive
  rw [if_pos hexclusive] at hoptions
  cases hoptions

/-- Equal scripts have equal options, unless the parameter is one of the files or the mask. -/
theorem slurm_parse_eq (h : Blanked parameter m m') (hdirs : "OUTCOME_DIR".toList ≠ parameter ∧
      "USPACE_DIR".toList ≠ parameter) (hfiles : "STDOUT".toList ≠ parameter ∧ "STDERR".toList ≠ parameter ∧
      "UMASK".toList ≠ parameter)
    (heq : BssSlurm.createSubmitScript config m = BssSlurm.createSubmitScript config m') :
    BssSlurm.parseCommonOptions m config = BssSlurm.parseCommonOptions m' config := by
  obtain ⟨_, -, hoptions⟩ := slurm_parse_ok config m
  obtain ⟨_, -, hoptions'⟩ := slurm_parse_ok config m'
  rw [slurm_script config hoptions, slurm_script config hoptions', Except.ok.injEq] at heq
  have hfront := Parts.front_eq heq (slurm_stdoutLine h hdirs.1 hfiles.1 _ _)
    (slurm_stderrLine h hdirs.1 hfiles.2.1 _ _) (slurm_last h hdirs.2 hfiles.2.2 _ _)
  rw [slurm_front h, slurmParts, slurmParts] at hfront
  have hmap := List.append_cancel_left (List.append_cancel_right hfront)
  have hinj : Function.Injective BssSlurm.directive := fun _ _ => List.append_cancel_left
  rw [hoptions, hoptions', hinj.list_map hmap]

/-- The options depend on the name and the wish for exclusive nodes only. -/
theorem slurm_parse_same (h : Blanked parameter m m') (hname : "JOBNAME".toList ≠ parameter)
    (hexclusive : "SSR_EXCLUSIVE".toList ≠ parameter) :
    BssSlurm.parseCommonOptions m config = BssSlurm.parseCommonOptions m' config := by
  refine slurm_options_congr config h ?_ ?_
  · rw [h.withDefault _ (by decide) hname]
  · rw [h.withDefault _ (by decide) hexclusive]

/-- The names of the files and the mask are passed on as they are. -/
theorem slurm_passed_on (h : Blanked parameter m m')
    (hmem : parameter ∈ ["STDOUT".toList, "STDERR".toList, "UMASK".toList]) :
    BssSlurm.createSubmitScript config m ≠ BssSlurm.createSubmitScript config m' := by
  intro heq
  have hname : "JOBNAME".toList ≠ parameter := by
    rintro rfl
    exact absurd hmem (by decide)
  have hexclusive : "SSR_EXCLUSIVE".toList ≠ parameter := by
    rintro rfl
    exact absurd hmem (by decide)
  obtain ⟨_, -, hoptions⟩ := slurm_parse_ok config m'
  have hparse := (slurm_parse_same config h hname hexclusive).trans hoptions
  rw [slurm_script config hparse, slurm_script config hoptions, Except.ok.injEq] at heq
  simp only [List.mem_cons, List.not_mem_nil, or_false] at hmem
  rcases hmem with rfl | rfl | rfl
  · have hline := Parts.stdoutLine_eq heq (slurm_front h _)
    simp (disch := decide) only [slurmParts, h.number, h.other] at hline
    exact h.withDefault_ne (by decide) (fileLine_inj hline)
  · have hline := Parts.stderrLine_eq heq (slurm_front h _)
    simp (disch := decide) only [slurmParts, h.number, h.other] at hline
    exact h.withDefault_ne (by decide) (fileLine_inj hline)
  · have hlast := congrArg List.length (Parts.last_eq heq (slurm_front h _))
    rw [slurmParts, slurmParts, h.isNone, h.isAbsent] at hlast
    cases hlast

theorem slurm_blanked_iff (h : Blanked parameter m m') (hdirs : "OUTCOME_DIR".toList ≠ parameter ∧
      "USPACE_DIR".toList ≠ parameter) :
    BssSlurm.createSubmitScript config m = BssSlurm.createSubmitScript config m' ↔
      parameter ∉ ["STDOUT".toList, "STDERR".toList, "UMASK".toList] ∧
        (parameter = "JOBNAME".toList → config.defaultJobName = noneText) ∧
        (parameter = "SSR_EXCLUSIVE".toList →
          BssSlurm.meansTrue (parameterOrNone m' "EXCLUSIVE".toList) = false) := by
  constructor
  · intro heq
    refine ⟨fun hmem => slurm_passed_on config h hmem heq, ?_, ?_⟩
    · rintro rfl
      exact slurm_jobName_eq config h (slurm_parse_eq config h hdirs (by decide) heq)
    · rintro rfl
      exact slurm_exclusive_eq config h (slurm_parse_eq config h hdirs (by decide) heq)
  · rintro ⟨hfiles, hname, hexclusive⟩
    simp only [List.mem_cons, List.not_mem_nil, or_false, not_or] at hfiles
    obtain ⟨hstdout, hstderr, humask⟩ := hfiles
    have hparse : BssSlurm.parseCommonOptions m config = BssSlurm.parseCommonOptions m' config := by
      refine slurm_options_congr config h ?_ ?_
      · by_cases hself : "JOBNAME".toList = parameter
        · subst hself
          rw [(h.withDefault_self _).1, (h.withDefault_self _).2, hname rfl]
        · rw [h.withDefault _ (by decide) hself]
      · by_cases hself : "SSR_EXCLUSIVE".toList = parameter
        · subst hself
          rw [(h.withDefault_self _).1, (h.withDefault_self _).2, hexclusive rfl]
          decide
        · rw [h.withDefault _ (by decide) hself]
    obtain ⟨_, -, hoptions⟩ := slurm_parse_ok config m'
    rw [slurm_script config (hparse.trans hoptions), slurm_script config hoptions]
    exact congrArg Except.ok (Parts.lines_eq (slurm_front h _) (slurm_stdoutLine h hdirs.1 (Ne.symm hstdout) _ _)
      (slurm_stderrLine h hdirs.1 (Ne.symm hstderr) _ _) (slurm_last h hdirs.2 (Ne.symm humask) _ _))

end Slurm

/-! ## Torque -/

open UnicoreTsi.Regex in
/-- A name that fits is taken as it is. -/
theorem fittingJobName_fits {c : Char} {rest : Str} (hc : isLetter c = true) (hrest : ∀ d ∈ rest, isSpace d = false)
    (hlength : rest.length ≤ 14) : fittingJobName (c :: rest) = c :: rest := by
  have hletter : runLength isLetter (some 1) ([c] ++ rest) = [c].length := by
    rw [runLength, List.singleton_append, List.takeWhile_cons_of_pos hc, List.length_cons]
    exact Nat.min_eq_left (Nat.le_add_left _ _)
  have hall : runLength (fun d => !isSpace d) (some 14) (rest ++ []) = rest.length := by
    have hrun : rest.takeWhile (fun d => !isSpace d) = rest :=
      List.takeWhile_eq_self_iff.mpr fun d hd => by rw [hrest d hd]; rfl
    rw [runLength, List.append_nil, hrun]
    exact Nat.min_eq_right hlength
  have hmatch : matchItems jobNameItems none ([c] ++ rest) = some [[c], rest] := by
    refine matchItems_rep_top hletter le_rfl ?_
    have hend : matchItems [.rep (fun d => !isSpace d) 0 (some 14)] (lastOr none [c]) (rest ++ []) = some [rest] :=
      matchItems_rep_top hall (Nat.zero_le _) rfl
    rwa [List.append_nil] at hend
  have hfound : search jobNameItems none (c :: rest) = some [[c], rest] := search_of_match hmatch
  rw [fittingJobName, hfound]
  rfl

theorem fittingJobName_none : fittingJobName noneText = noneText :=
  fittingJobName_fits (by decide) (by decide) (by decide)

section Torque

variable {parameter m m' : Str} (config : Settings)

def torqueParts (message : Str) : Parts where
  front := (BssTorque.resourceOptions message config).map BssTorque.directive ++
    BssTorque.arrayLines (extractNumber message "ARRAY".toList) (extractNumber message "ARRAY_LIMIT".toList)
  stdoutLine := BssTorque.directive ("-o ".toList ++ optText (extractParameter message "OUTCOME_DIR".toList) ++
    "/".toList ++ (parameterOr message "STDOUT".toList "stdout".toList ++
      BssTorque.arraySuffix (extractNumber message "ARRAY".toList)))
  stderrLine := BssTorque.directive ("-e ".toList ++ optText (extractParameter message "OUTCOME_DIR".toList) ++
    "/".toList ++ (parameterOr message "STDERR".toList "stderr".toList ++
      BssTorque.arraySuffix (extractNumber message "ARRAY".toList)))
  last := BssTorque.umaskLines (extractParameter message "UMASK".toList)

theorem torque_script (message : Str) :
    BssTorque.createSubmitScript config message = .ok (torqueParts config message).lines := rfl

theorem torque_options_congr (h : Blanked parameter m m')
    (hname : fittingJobName (parameterOr m "JOBNAME".toList config.defaultJobName) =
      fittingJobName (parameterOr m' "JOBNAME".toList config.defaultJobName)) :
    BssTorque.resourceOptions m config = BssTorque.resourceOptions m' config := by
  simp (disch := decide) only [BssTorque.resourceOptions, h.number, h.text, hname]

theorem torque_front (h : Blanked parameter m m')
    (hoptions : BssTorque.resourceOptions m config = BssTorque.resourceOptions m' config) :
    (torqueParts config m).front = (torqueParts config m').front := by
  simp (disch := decide) only [torqueParts, h.number, hoptions]

theorem torque_stdoutLine (h : Blanked parameter m m') (hdir : "OUTCOME_DIR".toList ≠ parameter)
    (hother : "STDOUT".toList ≠ parameter) :
    (torqueParts config m).stdoutLine = (torqueParts config m').stdoutLine := by
  simp (disch := decide) only [torqueParts, h.number]
  rw [h.other _ (by decide) hdir, h.withDefault _ (by decide) hother]

theorem torque_stderrLine (h : Blanked parameter m m') (hdir : "OUTCOME_DIR".toList ≠ parameter)
    (hother : "STDERR".toList ≠ parameter) :
    (torqueParts config m).stderrLine = (torqueParts config m').stderrLine := by
  simp (disch := decide) only [torqueParts, h.number]
  rw [h.other _ (by decide) hdir, h.withDefault _ (by decide) hother]

theorem torque_last (h : Blanked parameter m m') (hother : "UMASK".toList ≠ parameter) :
    (torqueParts config m).last = (torqueParts config m').last := by
  rw [torqueParts, torqueParts, h.other _ (by decide) hother]

theorem torque_jobName_eq (h : Blanked "JOBNAME".toList m m')
    (heq : (torqueParts config m).lines = (torqueParts config m').lines)
    (hdir : "OUTCOME_DIR".toList ≠ "JOBNAME".toList) : fittingJobName config.defaultJobName = noneText := by
  have hfront := Parts.front_eq heq (torque_stdoutLine config h hdir (by decide))
    (torque_stderrLine config h hdir (by decide)) (torque_last config h (by decide))
  have hhead : ∀ message, (torqueParts config message).front.head? = some (BssTorque.directive ("-N ".toList ++
      fittingJobName (parameterOr message "JOBNAME".toList config.defaultJobName))) := by
    intro message
    rfl
  have hnames := congrArg List.head? hfront
  rw [hhead, hhead, (h.withDefault_self _).1, (h.withDefault_self _).2, Option.some.injEq, fittingJobName_none] at hnames
  have hinj : Function.Injective BssTorque.directive := fun _ _ => List.append_cancel_left
  exact (List.append_cancel_left (hinj hnames)).symm

theorem torque_blanked_iff (h : Blanked parameter m m') (hdir : "OUTCOME_DIR".toList ≠ parameter) :
    BssTorque.createSubmitScript config m = BssTorque.createSubmitScript config m' ↔
      parameter ∉ ["STDOUT".toList, "STDERR".toList, "UMASK".toList] ∧
        (parameter = "JOBNAME".toList → fittingJobName config.defaultJobName = noneText) := by
  rw [torque_script, torque_script, Except.ok.injEq]
  constructor
  · intro heq
    refine ⟨fun hmem => ?_, ?_⟩
    · -- these three are passed on as they are
      have hname : "JOBNAME".toList ≠ parameter := by
        rintro rfl
        revert hmem
        decide
      have hfront := torque_front config h
        (torque_options_congr config h (by rw [h.withDefault _ (by decide) hname]))
      simp only [List.mem_cons, List.not_mem_nil, or_false] at hmem
      rcases hmem with rfl | rfl | rfl
      · have hline := Parts.stdoutLine_eq heq hfront
        simp (disch := decide) only [torqueParts, h.number, h.other] at hline
        exact h.withDefault_ne (by decide) (fileLine_inj hline)
      · have hline := Parts.stderrLine_eq heq hfront
        simp (disch := decide) only [torqueParts, h.number, h.other] at hline
        exact h.withDefault_ne (by decide) (fileLine_inj hline)
      · have hlast := congrArg List.length (Parts.last_eq heq hfront)
        rw [torqueParts, torqueParts, h.isNone, h.isAbsent] at hlast
        cases hlast
    · rintro rfl
      exact torque_jobName_eq config h heq hdir
  · rintro ⟨hfiles, hname⟩
    simp only [List.mem_cons, List.not_mem_nil, or_false, not_or] at hfiles
    obtain ⟨hstdout, hstderr, humask⟩ := hfiles
    have hoptions : BssTorque.resourceOptions m config = BssTorque.resourceOptions m' config := by
      refine torque_options_congr config h ?_
      by_cases hself : "JOBNAME".toList = parameter
      · subst hself
        rw [(h.withDefault_self _).1, (h.withDefault_self _).2, hname rfl, fittingJobName_none]
      · rw [h.withDefault _ (by decide) hself]
    exact Parts.lines_eq (torque_front config h hoptions) (torque_stdoutLine config h hdir (Ne.symm hstdout))
      (torque_stderrLine config h hdir (Ne.symm hstderr)) (torque_last config h (Ne.symm humask))

end Torque

/-! ## LSF -/

section Lsf

variable {parameter m m' : Str} (config : Settings)

def lsfParts (minutes : ℤ) (message : Str) : Parts where
  front := (BssLsf.resourceOptions message).map BssLsf.directive ++
    [BssLsf.directive ("-W ".toList ++ intText minutes)] ++
    unlessNone (parameterOrNone message "RESERVATION_REFERENCE".toList)
      (fun ref => BssLsf.directive ("-U ".toList ++ ref)) ++
    BssLsf.nameLines (fittingJobName (parameterOr message "JOBNAME".toList config.defaultJobName))
      (extractNumber message "ARRAY".toList) (extractNumber message "ARRAY_LIMIT".toList)
  stdoutLine := BssLsf.directive ("-o ".toList ++ optText (extractParameter message "OUTCOME_DIR".toList) ++
    "/".toList ++ (parameterOr message "STDOUT".toList "stdout".toList ++
      BssLsf.arraySuffix (extractNumber message "ARRAY".toList)))
  stderrLine := BssLsf.directive ("-e ".toList ++ optText (extractParameter message "OUTCOME_DIR".toList) ++
    "/".toList ++ (parameterOr message "STDERR".toList "stderr".toList ++
      BssLsf.arraySuffix (extractNumber message "ARRAY".toList)))
  last := ["umask ".toList ++ parameterOrNone message "UMASK".toList]

/-- The memory limit that is computed and not emitted. -/
def lsfMemory (message : Str) : Except PyExc ℤ :=
  BssLsf.memoryPerProcess (extractNumber message "MEMORY".toList)
    (extractNumber message "PROCESSORS_PER_NODE".toList) config.lsfMemoryConversionFactor

theorem lsf_script (message : Str) :
    ∃ minutes, truncQuotient (extractNumber message "TIME".toList) 60 = .ok minutes ∧
      BssLsf.createSubmitScript config message =
        (lsfMemory config message).map fun _ => (lsfParts config minutes message).lines := by
  obtain ⟨minutes, hminutes⟩ := truncQuotient_minutes message "TIME".toList
  refine ⟨minutes, hminutes, ?_⟩
  have hlast : ∀ (front : List Str) (x y z : Str), front ++ [x, y, z] = front ++ [x, y] ++ [z] := by
    intro front x y z
    rw [List.append_assoc]
    rfl
  rw [BssLsf.createSubmitScript, BssLsf.timeInMinutes, hminutes, ok_bind, lsfMemory]
  cases BssLsf.memoryPerProcess (extractNumber message "MEMORY".toList)
    (extractNumber message "PROCESSORS_PER_NODE".toList) config.lsfMemoryConversionFactor with
  | error e => rfl
  | ok limit => exact congrArg Except.ok (hlast _ _ _ _)

theorem lsf_front (h : Blanked parameter m m') (minutes : ℤ)
    (hname : fittingJobName (parameterOr m "JOBNAME".toList config.defaultJobName) =
      fittingJobName (parameterOr m' "JOBNAME".toList config.defaultJobName)) :
    (lsfParts config minutes m).front = (lsfParts config minutes m').front := by
  simp (disch := decide) only [lsfParts, BssLsf.resourceOptions, h.number, h.text, hname]

theorem lsf_stdoutLine (h : Blanked parameter m m') (hdir : "OUTCOME_DIR".toList ≠ parameter)
    (hother : "STDOUT".toList ≠ parameter) (minutes : ℤ) :
    (lsfParts config minutes m).stdoutLine = (lsfParts config minutes m').stdoutLine := by
  simp (disch := decide) only [lsfParts, h.number]
  rw [h.other _ (by decide) hdir, h.withDefault _ (by decide) hother]

theorem lsf_stderrLine (h : Blanked parameter m m') (hdir : "OUTCOME_DIR".toList ≠ parameter)
    (hother : "STDERR".toList ≠ parameter) (minutes : ℤ) :
    (lsfParts config minutes m).stderrLine = (lsfParts config minutes m').stderrLine := by
  simp (disch := decide) only [lsfParts, h.number]
  rw [h.other _ (by decide) hdir, h.withDefault _ (by decide) hother]

theorem lsf_last (h : Blanked parameter m m') (minutes : ℤ) :
    (lsfParts config minutes m).last = (lsfParts config minutes m').last := by
  simp (disch := decide) only [lsfParts, h.text]

theorem nameLines_inj {name name' : Str} {arraySpec arrayLimit : ℤ}
    (h : BssLsf.nameLines name arraySpec arrayLimit = BssLsf.nameLines name' arraySpec arrayLimit) :
    name = name' := by
  rw [BssLsf.nameLines, BssLsf.nameLines] at h
  split at h
  · have hline := List.append_cancel_left (List.cons.inj h).1
    exact List.append_cancel_left (List.append_cancel_right (List.append_cancel_right hline))
  · exact List.append_cancel_left (List.append_cancel_left (List.cons.inj h).1)

theorem lsf_jobName_eq (h : Blanked "JOBNAME".toList m m') (hdir : "OUTCOME_DIR".toList ≠ "JOBNAME".toList)
    {minutes : ℤ} (heq : (lsfParts config minutes m).lines = (lsfParts config minutes m').lines) :
    fittingJobName config.defaultJobName = noneText := by
  have hfront := Parts.front_eq heq (lsf_stdoutLine config h hdir (by decide) minutes)
    (lsf_stderrLine config h hdir (by decide) minutes) (lsf_last config h minutes)
  simp (disch := decide) only [lsfParts, BssLsf.resourceOptions, h.number, h.text] at hfront
  have hnames := nameLines_inj (List.append_cancel_left hfront)
  rw [(h.withDefault_self _).1, (h.withDefault_self _).2, fittingJobName_none] at hnames
  exact hnames.symm

theorem lsf_lines_iff (h : Blanked parameter m m') (hdir : "OUTCOME_DIR".toList ≠ parameter) (minutes : ℤ) :
    (lsfParts config minutes m).lines = (lsfParts config minutes m').lines ↔
      parameter ∉ ["STDOUT".toList, "STDERR".toList] ∧
        (parameter = "JOBNAME".toList → fittingJobName config.defaultJobName = noneText) := by
  constructor
  · intro heq
    refine ⟨fun hmem => ?_, ?_⟩
    · have hname : "JOBNAME".toList ≠ parameter := by
        rintro rfl
        revert hmem
        decide
      have hfront := lsf_front config h minutes (by rw [h.withDefault _ (by decide) hname])
      simp only [List.mem_cons, List.not_mem_nil, or_false] at hmem
      rcases hmem with rfl | rfl
      · have hline := Parts.stdoutLine_eq heq hfront
        simp (disch := decide) only [lsfParts, h.number, h.other] at hline
        exact h.withDefault_ne (by decide) (fileLine_inj hline)
      · have hline := Parts.stderrLine_eq heq hfront
        simp (disch := decide) only [lsfParts, h.number, h.other] at hline
        exact h.withDefault_ne (by decide) (fileLine_inj hline)
    · rintro rfl
      exact lsf_jobName_eq config h hdir heq
  · rintro ⟨hfiles, hname⟩
    simp only [List.mem_cons, List.not_mem_nil, or_false, not_or] at hfiles
    refine Parts.lines_eq (lsf_front config h minutes ?_) (lsf_stdoutLine config h hdir (Ne.symm hfiles.1) minutes)
      (lsf_stderrLine config h hdir (Ne.symm hfiles.2) minutes) (lsf_last config h minutes)
    by_cases hself : "JOBNAME".toList = parameter
    · subst hself
      rw [(h.withDefault_self _).1, (h.withDefault_self _).2, hname rfl, fittingJobName_none]
    · rw [h.withDefault _ (by decide) hself]

theorem lsf_blanked_iff (h : Blanked parameter m m') (hdir : "OUTCOME_DIR".toList ≠ parameter) :
    BssLsf.createSubmitScript config m = BssLsf.createSubmitScript config m' ↔
      (∃ e, lsfMemory config m' = .error e) ∨
        (parameter ∉ ["STDOUT".toList, "STDERR".toList] ∧
          (parameter = "JOBNAME".toList → fittingJobName config.defaultJobName = noneText)) := by
  obtain ⟨minutes, hminutes, hscript⟩ := lsf_script config m
  obtain ⟨minutes', hminutes', hscript'⟩ := lsf_script config m'
  rw [h.number _ (by decide), hminutes', Except.ok.injEq] at hminutes
  subst hminutes
  have hmemory : lsfMemory config m = lsfMemory config m' := by
    simp (disch := decide) only [lsfMemory, h.number]
  rw [hscript, hscript', hmemory, ← lsf_lines_iff config h hdir minutes']
  cases lsfMemory config m' with
  | error e =>
      show Except.error e = Except.error e ↔ _
      exact iff_of_true rfl (Or.inl ⟨e, rfl⟩)
  | ok limit =>
      show Except.ok _ = Except.ok _ ↔ _
      rw [Except.ok.injEq]
      exact ⟨Or.inr, fun hor => hor.resolve_left (fun ⟨_, herror⟩ => nomatch herror)⟩

end Lsf

/-! ## All forms -/

/-- The parameters a submit script is made from, other than the two directories. -/
def Variant.parameters : Variant → List Str
  | nobatch => []
  | slurm =>
      ["EMAIL".toList, "JOBNAME".toList, "PROJECT".toList, "MEMORY".toList, "NODES".toList,
        "PROCESSORS_PER_NODE".toList, "TOTAL_PROCESSORS".toList, "QUEUE".toList, "RESERVATION_REFERENCE".toList,
        "TIME".toList, "BSS_NODES_FILTER".toList, "GPUS_PER_NODE".toList, "QOS".toList, "EXCLUSIVE".toList,
        "SSR_EXCLUSIVE".toList, "SSR_COMMENT".toList, "STDERR".toList, "STDOUT".toList, "UMASK".toList,
        "ARRAY".toList, "ARRAY_LIMIT".toList]
  | torque =>
      ["EMAIL".toList, "JOBNAME".toList, "PROJECT".toList, "STDERR".toList, "STDOUT".toList, "UMASK".toList,
        "NODES".toList, "BSS_NODES_FILTER".toList, "PROCESSORS_PER_NODE".toList, "PROCESSORS".toList,
        "TOTAL_PROCESSORS".toList, "ARRAY".toList, "ARRAY_LIMIT".toList, "QUEUE".toList,
        "RESERVATION_REFERENCE".toList, "TIME".toList]
  | lsf =>
      ["EMAIL".toList, "JOBNAME".toList, "PROJECT".toList, "STDERR".toList, "STDOUT".toList, "UMASK".toList,
        "MEMORY".toList, "NODES".toList, "PROCESSORS_PER_NODE".toList, "TOTAL_PROCESSORS".toList,
        "GPUS_PER_NODE".toList, "ARRAY".toList, "ARRAY_LIMIT".toList, "QUEUE".toList,
        "RESERVATION_REFERENCE".toList, "TIME".toList]

/-- What makes `NONE` the same as no value, for a message without the parameter. -/
def Ignores (config : Settings) (message parameter : Str) : Variant → Prop
  | .nobatch => True
  | .slurm => parameter ∉ ["STDOUT".toList, "STDERR".toList, "UMASK".toList] ∧
      (parameter = "JOBNAME".toList → config.defaultJobName = noneText) ∧
      (parameter = "SSR_EXCLUSIVE".toList → BssSlurm.meansTrue (parameterOrNone message "EXCLUSIVE".toList) = false)
  | .torque => parameter ∉ ["STDOUT".toList, "STDERR".toList, "UMASK".toList] ∧
      (parameter = "JOBNAME".toList → fittingJobName config.defaultJobName = noneText)
  | .lsf => (∃ e, lsfMemory config message = .error e) ∨
      (parameter ∉ ["STDOUT".toList, "STDERR".toList] ∧
        (parameter = "JOBNAME".toList → fittingJobName config.defaultJobName = noneText))

theorem parameters_names (v : Variant) : ∀ parameter ∈ v.parameters, IsName parameter ∧
    "OUTCOME_DIR".toList ≠ parameter ∧ "USPACE_DIR".toList ≠ parameter := by
  cases v <;> decide

section Forms

variable {before : List Str} {parameter after : Str} (config : Settings)

theorem blanked_messages (hparameter : IsName parameter) (h : Around before parameter after) :
    Blanked parameter (messageWith before parameter .isNone after)
      (messageWith before parameter .isAbsent after) where
  other other hother hne := by
    rw [extractParameter_eq hother.2, extractParameter_eq hother.2, givenValue_other hparameter h hother hne,
      givenValue_other hparameter h hother hne]
  isNone := by
    rw [extractParameter_eq hparameter.2, givenValue_self hparameter h]
    decide
  isAbsent := by
    rw [extractParameter_eq hparameter.2, givenValue_self hparameter h]

/-- A line with nothing after the tag is as good as none. -/
theorem extractParameter_empty (hparameter : IsName parameter) (h : Around before parameter after) (name : Str)
    (hname : IsName name) :
    extractParameter (messageWith before parameter .isEmpty after) name =
      extractParameter (messageWith before parameter .isAbsent after) name := by
  rw [extractParameter_eq hname.2, extractParameter_eq hname.2]
  by_cases hself : name = parameter
  · subst hself
    rw [givenValue_self hparameter h, givenValue_self hparameter h]
    exact if_pos rfl
  · rw [givenValue_other hparameter h hname hself, givenValue_other hparameter h hname hself]

theorem script_congr {m m' : Str} (v : Variant)
    (hread : ∀ name, IsName name → extractParameter m name = extractParameter m' name) :
    v.hooks.createSubmitScript config m = v.hooks.createSubmitScript config m' := by
  have hnumber : ∀ name, IsName name → extractNumber m name = extractNumber m' name := by
    intro name hname
    rw [extractNumber, extractNumber, hread name hname]
  have htext : ∀ name, IsName name → ∀ d, parameterOr m name d = parameterOr m' name d := by
    intro name hname d
    rw [parameterOr, parameterOr, hread name hname]
  have hnone : ∀ name, IsName name → parameterOrNone m name = parameterOrNone m' name :=
    fun name hname => htext name hname noneText
  cases v with
  | nobatch => rfl
  | slurm =>
      show BssSlurm.createSubmitScript config m = BssSlurm.createSubmitScript config m'
      have hoptions : BssSlurm.parseCommonOptions m config = BssSlurm.parseCommonOptions m' config := by
        simp (disch := decide) only [BssSlurm.parseCommonOptions, BssSlurm.resourceOptions,
          BssSlurm.accountOptions, hnone, hnumber, htext]
      simp (disch := decide) only [BssSlurm.createSubmitScript, hoptions, hread, hnumber, htext]
  | torque =>
      show BssTorque.createSubmitScript config m = BssTorque.createSubmitScript config m'
      simp (disch := decide) only [BssTorque.createSubmitScript, BssTorque.resourceOptions, hnone, hread, hnumber,
        htext]
  | lsf =>
      show BssLsf.createSubmitScript config m = BssLsf.createSubmitScript config m'
      simp (disch := decide) only [BssLsf.createSubmitScript, BssLsf.resourceOptions, hnone, hread, hnumber, htext]

theorem blanked_iff {m m' : Str} {v : Variant} (hparameter : parameter ∈ v.parameters)
    (h : Blanked parameter m m') :
    v.hooks.createSubmitScript config m = v.hooks.createSubmitScript config m' ↔ Ignores config m' parameter v := by
  obtain ⟨-, hdirs⟩ := parameters_names v parameter hparameter
  cases v with
  | nobatch => cases hparameter
  | slurm => exact slurm_blanked_iff config h hdirs
  | torque => exact torque_blanked_iff config h hdirs.1
  | lsf => exact lsf_blanked_iff config h hdirs.1

/-- When the forms of not supplying a parameter give the same script. -/
theorem not_supplied_same_iff {v : Variant} (hparameter : parameter ∈ v.parameters)
    (h : Around before parameter after) :
    (∀ form form', v.hooks.createSubmitScript config (messageWith before parameter form after) =
      v.hooks.createSubmitScript config (messageWith before parameter form' after)) ↔
        Ignores config (messageWith before parameter .isAbsent after) parameter v := by
  obtain ⟨hname, -⟩ := parameters_names v parameter hparameter
  have hempty := script_congr config v (extractParameter_empty hname h)
  rw [← blanked_iff config hparameter (blanked_messages hname h)]
  refine ⟨fun hall => hall _ _, fun heq => ?_⟩
  have habsent : ∀ form, v.hooks.createSubmitScript config (messageWith before parameter form after) =
      v.hooks.createSubmitScript config (messageWith before parameter .isAbsent after) := by
    intro form
    cases form with
    | isNone => exact heq
    | isEmpty => exact hempty
    | isAbsent => rfl
  exact fun form form' => (habsent form).trans (habsent form').symm

end Forms

/-! ### A queue, and a name -/

theorem around_nothing (parameter : Str) : Around [] parameter [] :=
  ⟨nofun, nofun, fun l hl => absurd hl (by simp [completeLines_of_not_mem])⟩

theorem not_supplied_queue :
    (∀ form form', Variant.torque.hooks.createSubmitScript {} (messageWith [] "QUEUE".toList form []) =
      Variant.torque.hooks.createSubmitScript {} (messageWith [] "QUEUE".toList form' [])) ↔
        Ignores {} (messageWith [] "QUEUE".toList .isAbsent []) "QUEUE".toList .torque :=
  not_supplied_same_iff {} (by decide) (around_nothing _)

/-- A job without a name is called `NONE` by Slurm if the message says so. -/
theorem job_named_none :
    ¬ ∀ (v : Variant) (config : Settings) (parameter : Str) (before : List Str) (after : Str),
      parameter ∈ v.parameters → Around before parameter after →
        ∀ form form', v.hooks.createSubmitScript config (messageWith before parameter form after) =
          v.hooks.createSubmitScript config (messageWith before parameter form' after) := by
  intro h
  have heq := h .slurm {} "JOBNAME".toList [] [] (by decide) (around_nothing _) .isNone .isAbsent
  have hblanked := blanked_messages (by decide) (around_nothing "JOBNAME".toList)
  obtain ⟨-, hname, -⟩ := (blanked_iff {} (by decide) hblanked).mp heq
  exact absurd (hname rfl) (by decide)

end UnicoreTsi.BssCommon
