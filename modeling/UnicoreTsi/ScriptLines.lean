/-
# UnicoreTsi.ScriptLines — no parameter adds a line to a script.

Whatever a message passes as a parameter stands on one line of it, so a value has no newline in it
(`newline_extractParameter`).  The generators put values, numbers and fixed texts next to each other, and so each
element of the list they return is one line.  `no_parameter_adds_line` is this for the three variants, and for the
file that is submitted.
-/
import UnicoreTsi.Numbers
import UnicoreTsi.Submission

set_option autoImplicit false

namespace UnicoreTsi.BssCommon

open UnicoreTsi.Text UnicoreTsi.Effects UnicoreTsi.Regex UnicoreTsi.Utils UnicoreTsi.BssScript UnicoreTsi.Connector

/-! ## Texts on one line -/

/-- Every one of these texts is on one line. -/
def LineFree (ls : List Str) : Prop := ∀ l ∈ ls, '\n' ∉ l

section LineFree

variable {l front v : Str} {ls ms : List Str} {entry : Str → Str}

@[simp] theorem lineFree_nil : LineFree [] := nofun

@[simp] theorem lineFree_cons : LineFree (l :: ls) ↔ '\n' ∉ l ∧ LineFree ls := List.forall_mem_cons

@[simp] theorem lineFree_append : LineFree (ls ++ ms) ↔ LineFree ls ∧ LineFree ms := List.forall_mem_append

theorem lineFree_singleton : LineFree [l] ↔ '\n' ∉ l := List.forall_mem_singleton

theorem newline_append (hfront : '\n' ∉ front) (hv : '\n' ∉ v) : '\n' ∉ front ++ v := by
  rw [List.mem_append, not_or]
  exact ⟨hfront, hv⟩

theorem lineFree_map (h : LineFree ls) (hentry : ∀ t, '\n' ∉ t → '\n' ∉ entry t) : LineFree (ls.map entry) := by
  intro l hl
  obtain ⟨t, ht, rfl⟩ := List.mem_map.mp hl
  exact hentry t (h t ht)

theorem newline_flatMap (h : LineFree ls) (hentry : ∀ t, '\n' ∉ t → '\n' ∉ entry t) : '\n' ∉ ls.flatMap entry := by
  intro hmem
  obtain ⟨t, ht, hin⟩ := List.mem_flatMap.mp hmem
  exact hentry t (h t ht) hin

/-- The lines of a file made of such texts are these texts. -/
theorem splitOn_unlines (h : LineFree ls) : (unlines ls).splitOn '\n' = ls ++ [[]] := by
  induction ls with
  | nil => rfl
  | cons l ls ih =>
      obtain ⟨hl, hls⟩ := lineFree_cons.mp h
      rw [unlines_cons, List.splitOn_append_cons_self_of_not_mem hl, ih hls, List.cons_append]

end LineFree

/-! ## Values -/

section Values

variable {message parameter d : Str}

theorem newline_lineValue {l v : Str} (hl : '\n' ∉ l) (h : lineValue parameter l = some v) : '\n' ∉ v := by
  obtain rfl := lineValue_eq_some.mp h
  exact fun hmem => hl (List.mem_append_right _ hmem)

theorem newline_givenValue {v : Str} (h : givenValue message parameter = some v) : '\n' ∉ v := by
  obtain ⟨l, hl, hvalue⟩ := List.exists_of_findSome?_eq_some h
  exact newline_lineValue (not_mem_of_mem_completeLines message l hl) hvalue

/-- What is extracted stands on one line of the message, whatever the message is. -/
theorem newline_extractParameter (hparameter : '\n' ∉ parameter) {v : Str}
    (h : extractParameter message parameter = some v) : '\n' ∉ v := by
  rw [extractParameter_eq hparameter] at h
  cases hgiven : givenValue message parameter with
  | none =>
      rw [hgiven] at h
      cases h
  | some w =>
      rw [hgiven] at h
      dsimp only at h
      split at h
      · cases h
      · exact Option.some.inj h ▸ newline_givenValue hgiven

theorem newline_parameterOr (hparameter : '\n' ∉ parameter) (hd : '\n' ∉ d) : '\n' ∉ parameterOr message parameter d := by
  unfold parameterOr
  cases hvalue : extractParameter message parameter with
  | none => exact hd
  | some v => exact newline_extractParameter hparameter hvalue

theorem newline_parameterOrNone (hparameter : '\n' ∉ parameter) : '\n' ∉ parameterOrNone message parameter :=
  newline_parameterOr hparameter (by decide)

theorem newline_optText (hparameter : '\n' ∉ parameter) : '\n' ∉ optText (extractParameter message parameter) := by
  cases hvalue : extractParameter message parameter with
  | none => decide
  | some v => exact newline_extractParameter hparameter hvalue

theorem newline_intText (n : Int) : '\n' ∉ intText n := not_mem_intText isSpace_newline n

theorem newline_limited {spec : Str} (hspec : '\n' ∉ spec) (arrayLimit : Int) : '\n' ∉ limited spec arrayLimit := by
  unfold limited
  split
  · exact newline_append (newline_append hspec (by decide)) (newline_intText _)
  · exact hspec

theorem lineFree_unlessNone {value : Str} {entry : Str → Str} (h : '\n' ∉ entry value) :
    LineFree (unlessNone value entry) := by
  unfold unlessNone
  split
  · exact lineFree_singleton.mpr h
  · exact lineFree_nil

theorem lineFree_ifPositive {n : Int} {entry : Str → Str} (h : '\n' ∉ entry (intText n)) :
    LineFree (ifPositive n entry) := by
  unfold ifPositive
  split
  · exact lineFree_singleton.mpr h
  · exact lineFree_nil

theorem lineFree_ite {p : Prop} [Decidable p] {ls ms : List Str} (hls : LineFree ls) (hms : LineFree ms) :
    LineFree (if p then ls else ms) := by
  split
  · exact hls
  · exact hms

theorem newline_ite {p : Prop} [Decidable p] {t : Str} (h : '\n' ∉ t) : '\n' ∉ if p then t else [] := by
  split
  · exact h
  · exact List.not_mem_nil

/-- The path of an output file, after the option that names it. -/
theorem newline_outputFile {option suffix : Str} (hoption : '\n' ∉ option) (hparameter : '\n' ∉ parameter)
    (hd : '\n' ∉ d) (hsuffix : '\n' ∉ suffix) :
    '\n' ∉ option ++ optText (extractParameter message "OUTCOME_DIR".toList) ++ "/".toList ++
      (parameterOr message parameter d ++ suffix) := by
  refine newline_append (newline_append (newline_append hoption ?_) (by decide)) (newline_append ?_ hsuffix)
  · exact newline_optText (by decide)
  · exact newline_parameterOr hparameter hd

/-- A job name that fits has no blanks in it. -/
theorem newline_fittingJobName (jobName : Str) : '\n' ∉ fittingJobName jobName := by
  unfold fittingJobName
  split
  · rename_i first rest hsearch
    obtain ⟨_, ⟨_, _, ⟨hletters, -⟩, ⟨hplain, -⟩, -⟩, -⟩ := search_eq_some hsearch
    refine newline_append (fun hmem => ?_) (fun hmem => ?_)
    · exact absurd (hletters '\n' hmem) (by decide)
    · exact absurd (hplain '\n' hmem) (by decide)
  · decide

end Values

/-! ## The generators -/

/-- The settings the generators put into a script are on one line each. -/
structure OneLineConfig (config : Settings) : Prop where
  defaultJobName : '\n' ∉ config.defaultJobName
  nodesFilter : '\n' ∉ config.nodesFilter
  allocCmd : ∀ cmd, config.allocCmd = some cmd → '\n' ∉ cmd

theorem newline_userFilter (message : Str) : '\n' ∉ parameterOrNone message "BSS_NODES_FILTER".toList :=
  newline_parameterOrNone (by decide)

section Slurm

variable {config : Settings} {message : Str} {cmds : List Str}

theorem newline_checkedJobName {jobName : Str} (h : '\n' ∉ jobName) : '\n' ∉ BssSlurm.checkedJobName jobName := by
  unfold BssSlurm.checkedJobName
  split
  · decide
  · exact h

theorem newline_slurmFilter {siteFilter userFilter : Str} (hsite : '\n' ∉ siteFilter) (huser : '\n' ∉ userFilter) :
    '\n' ∉ BssSlurm.joinedFilter siteFilter userFilter := by
  unfold BssSlurm.joinedFilter
  split
  · split
    · exact newline_append (newline_append hsite (by decide)) huser
    · exact huser
  · exact hsite

theorem lineFree_slurmResources (h : OneLineConfig config) : LineFree (BssSlurm.resourceOptions message config) := by
  have hname : '\n' ∉ parameterOr message "JOBNAME".toList config.defaultJobName :=
    newline_parameterOr (by decide) h.defaultJobName
  have hfilter := newline_slurmFilter h.nodesFilter
    (newline_userFilter message)
  unfold BssSlurm.resourceOptions
  simp only [lineFree_append]
  refine ⟨⟨⟨⟨⟨⟨⟨⟨⟨?_, ?_⟩, ?_⟩, ?_⟩, ?_⟩, ?_⟩, ?_⟩, ?_⟩, ?_⟩, ?_⟩
  · exact lineFree_singleton.mpr (newline_append (by decide) (newline_checkedJobName hname))
  · exact lineFree_unlessNone (newline_append (by decide) (newline_parameterOrNone (by decide)))
  · exact lineFree_ite (lineFree_singleton.mpr (by decide)) lineFree_nil
  · exact lineFree_unlessNone
      (newline_append (newline_append (by decide) (newline_parameterOrNone (by decide))) (by decide))
  · exact lineFree_unlessNone (newline_append (by decide) (newline_parameterOrNone (by decide)))
  · refine lineFree_ite (lineFree_append.mpr ⟨?_, ?_⟩) ?_
    · exact lineFree_singleton.mpr (newline_append (by decide) (newline_intText _))
    · exact lineFree_ifPositive (newline_append (by decide) (newline_intText _))
    · exact lineFree_ifPositive (newline_append (by decide) (newline_intText _))
  · exact lineFree_ifPositive (newline_append (by decide) (newline_intText _))
  · exact lineFree_ite (lineFree_singleton.mpr (newline_append (by decide) hfilter)) lineFree_nil
  · exact lineFree_unlessNone (newline_append (by decide) (newline_parameterOrNone (by decide)))
  · exact lineFree_ite (lineFree_singleton.mpr (newline_append (by decide) (newline_intText _))) lineFree_nil

theorem lineFree_slurmAccount : LineFree (BssSlurm.accountOptions message) := by
  refine lineFree_append.mpr ⟨lineFree_ite (lineFree_cons.mpr ⟨?_, ?_⟩) lineFree_nil, ?_⟩
  · exact newline_append (by decide) (newline_parameterOrNone (by decide))
  · exact lineFree_singleton.mpr (by decide)
  · exact lineFree_unlessNone (newline_append (by decide) (newline_parameterOrNone (by decide)))

theorem lineFree_timeOption {reqTime : Int} {options : List Str} (h : BssSlurm.timeOption reqTime = .ok options) :
    LineFree options := by
  unfold BssSlurm.timeOption at h
  split at h
  · cases hminutes : BssSlurm.timeInMinutes reqTime with
    | error e =>
        rw [hminutes] at h
        cases h
    | ok minutes =>
        rw [hminutes] at h
        obtain rfl := Except.ok.inj h
        exact lineFree_singleton.mpr (newline_append (by decide) (newline_intText _))
  · obtain rfl := Except.ok.inj h
    exact lineFree_nil

theorem lineFree_parseCommonOptions (h : OneLineConfig config) {options : List Str}
    (hoptions : BssSlurm.parseCommonOptions message config = .ok options) : LineFree options := by
  obtain ⟨wallTime, htime, hrest⟩ := except_bind_eq_ok.mp hoptions
  obtain rfl := Except.ok.inj hrest
  exact lineFree_append.mpr
    ⟨lineFree_append.mpr ⟨lineFree_slurmResources h, lineFree_timeOption htime⟩, lineFree_slurmAccount⟩

theorem lineFree_slurmScript (h : OneLineConfig config) (hcmds : BssSlurm.createSubmitScript config message = .ok cmds) :
    LineFree cmds := by
  obtain ⟨options, hoptions, hrest⟩ := except_bind_eq_ok.mp hcmds
  obtain rfl := Except.ok.inj hrest
  have hdirective : ∀ t, '\n' ∉ t → '\n' ∉ BssSlurm.directive t := fun t ht => newline_append (by decide) ht
  have hsuffix : '\n' ∉ BssSlurm.arraySuffix (extractNumber message "ARRAY".toList) := newline_ite (by decide)
  simp only [lineFree_append]
  refine ⟨⟨⟨⟨?_, ?_⟩, ?_⟩, ?_⟩, ?_⟩
  · exact lineFree_singleton.mpr (by decide)
  · exact lineFree_map (lineFree_parseCommonOptions h hoptions) hdirective
  · refine lineFree_ite (lineFree_cons.mpr ⟨?_, lineFree_singleton.mpr (by decide)⟩) lineFree_nil
    exact hdirective _ (newline_append (by decide) (newline_limited (newline_intText _) _))
  · simp only [lineFree_cons]
    refine ⟨?_, ?_, ?_, lineFree_nil⟩
    · exact hdirective _ (newline_outputFile (by decide) (by decide) (by decide) hsuffix)
    · exact hdirective _ (newline_outputFile (by decide) (by decide) (by decide) hsuffix)
    · exact hdirective _ (newline_append (by decide) (newline_optText (by decide)))
  · unfold BssSlurm.umaskLines
    split
    · rename_i mask hmask
      exact lineFree_singleton.mpr (newline_append (by decide) (newline_extractParameter (by decide) hmask))
    · exact lineFree_nil

theorem lineFree_slurmAlloc (h : OneLineConfig config) (hcmds : BssSlurm.createAllocScript config message = .ok cmds) :
    LineFree cmds := by
  obtain ⟨options, hoptions, hrest⟩ := except_bind_eq_ok.mp hcmds
  obtain ⟨allocCmd, hcmd, hrest⟩ := except_bind_eq_ok.mp hrest
  obtain rfl := Except.ok.inj hrest
  have hconfigured : '\n' ∉ allocCmd := h.allocCmd allocCmd (configured_eq_ok.mp hcmd)
  have hoptions' : '\n' ∉ options.flatMap fun t => " ".toList ++ t :=
    newline_flatMap (lineFree_parseCommonOptions h hoptions) fun t ht => newline_append (by decide) ht
  have hfile : ∀ parameter d : Str, '\n' ∉ parameter → '\n' ∉ d → '\n' ∉ parameterOr message parameter d :=
    fun _ _ hparameter hd => newline_parameterOr hparameter hd
  simp only [lineFree_cons]
  refine ⟨?_, ?_, lineFree_nil⟩
  · refine newline_append (newline_append (newline_append (newline_append ?_ (by decide)) ?_) (by decide)) ?_
    · exact newline_append hconfigured hoptions'
    · exact hfile _ _ (by decide) (by decide)
    · exact hfile _ _ (by decide) (by decide)
  · refine newline_append (newline_append (newline_append (newline_append (newline_append ?_ ?_) ?_) ?_) ?_) ?_
    · decide
    · exact newline_optText (by decide)
    · decide
    · exact hfile _ _ (by decide) (by decide)
    · decide
    · exact hfile _ _ (by decide) (by decide)

end Slurm

section Torque

variable {config : Settings} {message : Str} {cmds : List Str}

theorem newline_torqueFilter {siteFilter userFilter : Str} (hsite : '\n' ∉ siteFilter) (huser : '\n' ∉ userFilter) :
    '\n' ∉ BssTorque.joinedFilter siteFilter userFilter := by
  unfold BssTorque.joinedFilter
  split
  · exact newline_append (newline_append (by decide) hsite) (newline_ite (newline_append (by decide) huser))
  · exact hsite

theorem newline_nodesSpec (nodes processorsPerNode : Int) : '\n' ∉ BssTorque.nodesSpec nodes processorsPerNode := by
  refine newline_append (newline_append (by decide) (newline_intText _)) (newline_ite ?_)
  exact newline_append (by decide) (newline_intText _)

theorem lineFree_torqueResources (h : OneLineConfig config) : LineFree (BssTorque.resourceOptions message config) := by
  have hfilter := newline_torqueFilter h.nodesFilter
    (newline_userFilter message)
  unfold BssTorque.resourceOptions
  simp only [lineFree_append]
  refine ⟨⟨⟨⟨⟨⟨?_, ?_⟩, ?_⟩, ?_⟩, ?_⟩, ?_⟩, ?_⟩
  · exact lineFree_singleton.mpr (newline_append (by decide) (newline_fittingJobName _))
  · exact lineFree_unlessNone (newline_append (by decide) (newline_parameterOrNone (by decide)))
  · exact lineFree_unlessNone (newline_append (by decide) (newline_parameterOrNone (by decide)))
  · refine lineFree_ite (lineFree_singleton.mpr ?_) lineFree_nil
    exact newline_append (newline_append (by decide) (newline_nodesSpec _ _)) hfilter
  · exact lineFree_ifPositive (newline_append (by decide) (newline_intText _))
  · refine lineFree_singleton.mpr (newline_append (by decide) ?_)
    split
    · decide
    · exact newline_append (by decide) (newline_parameterOrNone (by decide))
  · exact lineFree_unlessNone (newline_append (by decide) (newline_parameterOrNone (by decide)))

theorem lineFree_torqueScript (h : OneLineConfig config)
    (hcmds : BssTorque.createSubmitScript config message = .ok cmds) : LineFree cmds := by
  obtain rfl := Except.ok.inj hcmds
  have hdirective : ∀ t, '\n' ∉ t → '\n' ∉ BssTorque.directive t := fun t ht => newline_append (by decide) ht
  have hsuffix : '\n' ∉ BssTorque.arraySuffix (extractNumber message "ARRAY".toList) := newline_ite (by decide)
  simp only [lineFree_append]
  refine ⟨⟨⟨?_, ?_⟩, ?_⟩, ?_⟩
  · exact lineFree_map (lineFree_torqueResources h) hdirective
  · refine lineFree_ite (lineFree_cons.mpr ⟨?_, lineFree_singleton.mpr (by decide)⟩) lineFree_nil
    exact hdirective _ (newline_append (by decide) (newline_limited (newline_intText _) _))
  · simp only [lineFree_cons]
    refine ⟨?_, ?_, lineFree_nil⟩
    · exact hdirective _ (newline_outputFile (by decide) (by decide) (by decide) hsuffix)
    · exact hdirective _ (newline_outputFile (by decide) (by decide) (by decide) hsuffix)
  · unfold BssTorque.umaskLines
    split
    · rename_i mask hmask
      refine lineFree_singleton.mpr (hdirective _ (newline_append (by decide) ?_))
      exact newline_extractParameter (by decide) hmask
    · exact lineFree_nil

end Torque

section Lsf

variable {config : Settings} {message : Str} {cmds : List Str}

theorem lineFree_slotOptions (totalProcessors nodes processorsPerNode : Int) :
    LineFree (BssLsf.slotOptions totalProcessors nodes processorsPerNode) := by
  refine lineFree_ite (lineFree_singleton.mpr ?_) (lineFree_ite (lineFree_cons.mpr ⟨?_, lineFree_singleton.mpr ?_⟩) ?_)
  · exact newline_append (by decide) (newline_intText _)
  · exact newline_append (newline_append (by decide) (newline_intText _)) (by decide)
  · exact newline_append (by decide) (newline_intText _)
  · exact lineFree_nil

theorem lineFree_lsfResources : LineFree (BssLsf.resourceOptions message) := by
  unfold BssLsf.resourceOptions
  simp only [lineFree_append]
  refine ⟨⟨⟨⟨?_, ?_⟩, ?_⟩, lineFree_slotOptions _ _ _⟩, ?_⟩
  · exact lineFree_unlessNone (newline_append (by decide) (newline_parameterOrNone (by decide)))
  · exact lineFree_unlessNone (newline_append (by decide) (newline_parameterOrNone (by decide)))
  · exact lineFree_unlessNone (newline_append (by decide) (newline_parameterOrNone (by decide)))
  · exact lineFree_ifPositive (newline_append (newline_append (by decide) (newline_intText _)) (by decide))

theorem lineFree_nameLines {jobName : Str} (hname : '\n' ∉ jobName) (arraySpec arrayLimit : Int) :
    LineFree (BssLsf.nameLines jobName arraySpec arrayLimit) := by
  have hdirective : ∀ t, '\n' ∉ t → '\n' ∉ BssLsf.directive t := fun t ht => newline_append (by decide) ht
  refine lineFree_ite (lineFree_cons.mpr ⟨?_, lineFree_singleton.mpr (by decide)⟩) (lineFree_singleton.mpr ?_)
  · have hspec : '\n' ∉ "[".toList ++ intText arraySpec ++ "]".toList :=
      newline_append (newline_append (by decide) (newline_intText _)) (by decide)
    exact hdirective _
      (newline_append (newline_append (newline_append (by decide) hname) (newline_limited hspec _)) (by decide))
  · exact hdirective _ (newline_append (by decide) hname)

theorem lineFree_lsfScript (hcmds : BssLsf.createSubmitScript config message = .ok cmds) : LineFree cmds := by
  obtain ⟨minutes, -, hrest⟩ := except_bind_eq_ok.mp hcmds
  obtain ⟨_, -, hrest⟩ := except_bind_eq_ok.mp hrest
  obtain rfl := Except.ok.inj hrest
  have hdirective : ∀ t, '\n' ∉ t → '\n' ∉ BssLsf.directive t := fun t ht => newline_append (by decide) ht
  have hsuffix : '\n' ∉ BssLsf.arraySuffix (extractNumber message "ARRAY".toList) := newline_ite (by decide)
  simp only [lineFree_append]
  refine ⟨⟨⟨⟨?_, ?_⟩, ?_⟩, ?_⟩, ?_⟩
  · exact lineFree_map lineFree_lsfResources hdirective
  · exact lineFree_singleton.mpr (hdirective _ (newline_append (by decide) (newline_intText _)))
  · exact lineFree_unlessNone (hdirective _ (newline_append (by decide) (newline_parameterOrNone (by decide))))
  · exact lineFree_nameLines (newline_fittingJobName _) _ _
  · simp only [lineFree_cons]
    refine ⟨?_, ?_, ?_, lineFree_nil⟩
    · exact hdirective _ (newline_outputFile (by decide) (by decide) (by decide) hsuffix)
    · exact hdirective _ (newline_outputFile (by decide) (by decide) (by decide) hsuffix)
    · exact newline_append (by decide) (newline_parameterOrNone (by decide))

end Lsf

theorem lineFree_submitScript {v : Variant} (hv : v ≠ .nobatch) {config : Settings} (h : OneLineConfig config)
    {message : Str} {cmds : List Str} (hcmds : v.hooks.createSubmitScript config message = .ok cmds) :
    LineFree cmds := by
  cases v with
  | nobatch => exact absurd rfl hv
  | slurm => exact lineFree_slurmScript h hcmds
  | torque => exact lineFree_torqueScript h hcmds
  | lsf => exact lineFree_lsfScript hcmds

/-! ## The files of a submission -/

/-- The run from this state writes these text files, one after the other, and all of them unless it stops before. -/
def WritesFrom {α : Type} (r : HandlerCtx) (s : HandlerState) (files : List (Str × Str)) (x : Handler α) : Prop :=
  ∃ new, (x r s).2.scripts = s.scripts ++ new ∧ new <+: files ∧ ∀ a, (x r s).1 = .done a → new = files

/-- Every run writes these files. -/
def Writes {α : Type} (r : HandlerCtx) (files : List (Str × Str)) (x : Handler α) : Prop :=
  ∀ s, WritesFrom r s files x

section Files

variable {α β : Type} {r : HandlerCtx} {s : HandlerState} {files more : List (Str × Str)}

theorem writes_of_kept {x : Handler α} (h : Within (fun s s' => s'.scripts = s.scripts) x) : Writes r [] x := by
  intro s
  exact ⟨[], (h r s).trans (List.append_nil _).symm, List.prefix_rfl, fun _ _ => rfl⟩

theorem writes_of_ticks {x : Handler α} (h : Within Ticks x) : Writes r [] x := by
  refine writes_of_kept fun r s => ?_
  obtain ⟨n, hn⟩ := h r s
  rw [hn]

theorem writesFrom_bind {x : Handler α} {f : α → Handler β} (hx : WritesFrom r s files x)
    (hf : ∀ a, Writes r more (f a)) : WritesFrom r s (files ++ more) (x >>= f) := by
  obtain ⟨new, hnew, hbegins, hall⟩ := hx
  unfold WritesFrom
  have hstop : new <+: files ++ more := hbegins.trans (List.prefix_append files more)
  rcases hrun : x r s with ⟨a | e | _, s₁⟩
  · rw [hrun] at hnew hall
    obtain rfl := hall a rfl
    obtain ⟨rest, hrest, hbegins', hall'⟩ := hf a s₁
    rw [bind_run_done hrun]
    refine ⟨new ++ rest, ?_, List.prefix_append_right_inj new |>.mpr hbegins', fun b hb => ?_⟩
    · rw [hrest, hnew, List.append_assoc]
    · rw [hall' b hb]
  · rw [hrun] at hnew
    rw [bind_run_raised hrun]
    exact ⟨new, hnew, hstop, nofun⟩
  · rw [hrun] at hnew
    rw [bind_run, hrun]
    exact ⟨new, hnew, hstop, nofun⟩

theorem writes_bind {x : Handler α} {f : α → Handler β} (hx : Writes r files x) (hf : ∀ a, Writes r more (f a)) :
    Writes r (files ++ more) (x >>= f) := fun s => writesFrom_bind (hx s) hf

theorem writes_writeText (path content : Str) : Writes r [(path, content)] (Io.writeText path content) := by
  have hbody : Writes r [(path, content)] (handle
      (modify fun s => { s with scripts := s.scripts ++ [(path, content)] }) fun e => do
        sysCall (.close path)
        raise e : Handler Unit) := by
    intro s
    exact ⟨_, rfl, List.prefix_rfl, fun _ _ => rfl⟩
  have hclose : ∀ a : Unit, Writes r [] (sysCall (.close path) >>= fun _ => pure a) := by
    intro a
    exact writes_bind (writes_of_ticks (sysCall_ticks _)) fun _ => writes_of_ticks (within_pure a)
  exact writes_bind (writes_of_ticks (sysCall_ticks _)) fun _ => writes_bind hbody hclose

theorem send_writes (c : ConnCall) : Writes r [] (send c) := by
  refine writes_of_kept fun r s => ?_
  rw [send_run]
  split
  · rfl
  · unfold acknowledge
    split <;> rfl

/-- The commands are logged, and the files are not touched. -/
theorem runCommand_writes (cmd : Str) (discard keepPid loginShell : Bool) :
    Writes r [] (runCommand cmd discard keepPid loginShell) := by
  have hlogged : Writes r [] (logCommand (shellArgs cmd loginShell)) := writes_of_kept fun _ _ => rfl
  have hpure : ∀ result : Bool × Str, Writes r [] (pure result : Handler (Bool × Str)) := fun result =>
    writes_of_ticks (within_pure result)
  refine writes_bind hlogged fun _ => ?_
  split
  · refine writes_bind (writes_of_ticks (attempt_ticks _)) fun pid => ?_
    split
    · have hremembered : Writes r [] (modify fun s : HandlerState => { s with childPids := s.childPids ++ [pid] }) :=
        writes_of_kept fun _ _ => rfl
      exact writes_bind hremembered fun _ => hpure _
    · exact writes_bind (writes_of_ticks (within_pure ())) fun _ => hpure _
  · refine writes_bind (writes_of_ticks (attempt_ticks _)) fun answer => ?_
    refine writes_bind (writes_of_ticks (within_ofExcept _)) fun output => ?_
    split
    · exact hpure _
    · exact hpure _

/-- The files of a submission in the normal mode: the job, and the script that is submitted. -/
def submissionFiles (message uspaceDir submitId : Str) (cmds : List Str) : List (Str × Str) :=
  [("UNICORE_Job_".toList ++ submitId, message),
    ("bss_submit_".toList ++ submitId,
      unlines (cmds ++ [uspaceDir ++ "/".toList ++ ("UNICORE_Job_".toList ++ submitId)]))]

theorem runSubmission_writes (message uspaceDir : Str) (cmds : List Str) (config : Settings) (s : HandlerState) :
    WritesFrom r s (submissionFiles message uspaceDir (r.host.randomString s.tick) cmds)
      (runSubmission message uspaceDir false cmds config) := by
  have haddperms : ∀ path mode, Writes r [] (addperms path mode) := fun path mode =>
    writes_bind (writes_of_ticks (attempt_ticks _)) fun _ => writes_of_ticks (sysCall_ticks _)
  unfold WritesFrom
  rw [runSubmission, bind_run_done (consult_run _ _ _), if_neg Bool.false_ne_true]
  have hwrites := writes_bind (writes_writeText (r := r) ("UNICORE_Job_".toList ++ r.host.randomString s.tick) message) fun _ =>
    writes_bind (haddperms ("UNICORE_Job_".toList ++ r.host.randomString s.tick) 0o770) fun _ =>
    writes_bind (writes_writeText ("bss_submit_".toList ++ r.host.randomString s.tick)
      (unlines (cmds ++ [uspaceDir ++ "/".toList ++ ("UNICORE_Job_".toList ++ r.host.randomString s.tick)]))) fun _ =>
    writes_bind (haddperms ("bss_submit_".toList ++ r.host.randomString s.tick) 0o770) fun _ =>
    writes_bind (writes_of_ticks (within_ofExcept (configured "tsi.submit_cmd" config.submitCmd))) fun submitCmd =>
    runCommand_writes (submitCmd ++ " ./".toList ++ ("bss_submit_".toList ++ r.host.randomString s.tick)) false false
      config.useLoginShell
  exact hwrites { s with tick := s.tick + 1 }

/-- A submission that raises before it writes a file. -/
theorem submit_raised {hooks : BssHooks} {message : Str} {config : Settings} {s s₁ : HandlerState} {e : PyExc}
    (hraised : submission hooks message config r s = (.raised e, s₁)) (hscripts : s₁.scripts = s.scripts) :
    ∃ new, ((submission hooks message config >>= send) r s).2.scripts = s.scripts ++ new ∧
      new = [] ∧ ((submission hooks message config >>= send) r s).1 ≠ .done () := by
  rw [bind_run_raised hraised]
  exact ⟨[], hscripts.trans (List.append_nil _).symm, rfl, nofun⟩

/-- A submission in the normal mode goes as far as its script, or writes no file. -/
theorem submission_normal (hooks : BssHooks) {message : Str} (hmode : jobMode message = "normal".toList)
    (config : Settings) (s : HandlerState) :
    (∃ e s₁, submission hooks message config r s = (.raised e, s₁) ∧ s₁.scripts = s.scripts) ∨
    ∃ cmds uspaceDir, hooks.createSubmitScript config message = .ok cmds ∧
      extractParameter message "USPACE_DIR".toList = some uspaceDir ∧
      submission hooks message config r s =
        (runSubmission message uspaceDir false cmds config >>= fun result =>
          pure (verdict hooks false result)) r { s with tick := s.tick + 1 } := by
  have hnotAlloc : isAlloc message = false := by
    rw [isAlloc, hmode]
    decide
  cases hdir : extractParameter message "USPACE_DIR".toList with
  | none =>
      have hpath : (ofExcept (pathArg (extractParameter message "USPACE_DIR".toList)) : Handler Str) r s =
          (.raised (typeError "expected str, bytes or os.PathLike object, not NoneType"), s) := by
        rw [hdir]
        rfl
      exact Or.inl ⟨_, s, bind_run_raised hpath, rfl⟩
  | some uspaceDir =>
      have hpath : (ofExcept (pathArg (extractParameter message "USPACE_DIR".toList)) : Handler Str) r s =
          (.done uspaceDir, s) := by
        rw [hdir]
        rfl
      cases hchdir : r.host.sysCall s.tick (.chdir uspaceDir) with
      | some e =>
          refine Or.inl ⟨e, { s with tick := s.tick + 1 }, ?_, rfl⟩
          rw [submission, bind_run_done hpath]
          apply bind_run_raised
          rw [sysCall, attempt_run, hchdir]
      | none =>
          have hchanged : sysCall (.chdir uspaceDir) r s = (.done (), { s with tick := s.tick + 1 }) :=
            sysCall_eq_done.mpr ⟨hchdir, rfl⟩
          cases hscript : hooks.createSubmitScript config message with
          | error e =>
              refine Or.inl ⟨e, { s with tick := s.tick + 1 }, ?_, rfl⟩
              rw [submission, bind_run_done hpath, bind_run_done hchanged]
              apply bind_run_raised
              rw [scriptOrRefusal, if_pos hmode, hscript]
              rfl
          | ok cmds =>
              have hcmds : scriptOrRefusal hooks message (jobMode message) config r { s with tick := s.tick + 1 } =
                  (.done (.ok cmds), { s with tick := s.tick + 1 }) := by
                rw [scriptOrRefusal, if_pos hmode, hscript]
                rfl
              refine Or.inr ⟨cmds, uspaceDir, rfl, rfl, ?_⟩
              rw [submission, bind_run_done hpath, bind_run_done hchanged, bind_run_done hcmds, hnotAlloc]

/-- What `submit` writes in the normal mode: nothing if there is no script, else the files of the submission. -/
theorem submit_writes (hooks : BssHooks) {raw message : Str} (hmessage : expandVariables r.environ raw = message)
    (hmode : jobMode message = "normal".toList) (config : Settings) (s : HandlerState) :
    ∃ new, (submit hooks raw config r s).2.scripts = s.scripts ++ new ∧
      ((new = [] ∧ (submit hooks raw config r s).1 ≠ .done ()) ∨
        ∃ cmds uspaceDir t, hooks.createSubmitScript config message = .ok cmds ∧
          extractParameter message "USPACE_DIR".toList = some uspaceDir ∧
          new <+: submissionFiles message uspaceDir (r.host.randomString t) cmds ∧
          ((submit hooks raw config r s).1 = .done () →
            new = submissionFiles message uspaceDir (r.host.randomString t) cmds)) := by
  rw [submit_eq, hmessage]
  rcases submission_normal (r := r) hooks hmode config s with
    ⟨e, s₁, hraised, hscripts⟩ | ⟨cmds, uspaceDir, hscript, hdir, hnormal⟩
  · obtain ⟨new, hnew, hempty, hends⟩ := submit_raised hraised hscripts
    exact ⟨new, hnew, Or.inl ⟨hempty, hends⟩⟩
  · have hrun : (submission hooks message config >>= send) r s =
        ((runSubmission message uspaceDir false cmds config >>= fun result =>
          pure (verdict hooks false result)) >>= send) r { s with tick := s.tick + 1 } := by
      rw [bind_run, hnormal]
      rfl
    have hverdict : ∀ result, Writes r [] (pure (verdict hooks false result) : Handler ConnCall) := fun result =>
      writes_of_ticks (within_pure _)
    obtain ⟨new, hnew, hbegins, hall⟩ := writesFrom_bind
      (writesFrom_bind (runSubmission_writes (r := r) message uspaceDir cmds config { s with tick := s.tick + 1 })
        hverdict) send_writes
    rw [hrun]
    rw [List.append_nil, List.append_nil] at hbegins hall
    exact ⟨new, hnew, Or.inr ⟨cmds, uspaceDir, s.tick + 1, hscript, hdir, hbegins, hall ()⟩⟩

end Files

/-- What a random name consists of. -/
def RandomNames (host : Host) : Prop := ∀ t, ∀ c ∈ host.randomString t, c.isUpper = true ∨ c.isDigit = true

/-- The file is the job, or the script with these lines, the last of which is the path of the job. -/
def SubmissionFile (v : Variant) (config : Settings) (message : Str) (file : Str × Str) : Prop :=
  ∃ submitId, file = ("UNICORE_Job_".toList ++ submitId, message) ∨
    ∃ cmds uspaceDir lines, v.hooks.createSubmitScript config message = .ok cmds ∧
      extractParameter message "USPACE_DIR".toList = some uspaceDir ∧
      lines = cmds ++ [uspaceDir ++ "/".toList ++ ("UNICORE_Job_".toList ++ submitId)] ∧
      file.1 = "bss_submit_".toList ++ submitId ∧ file.2 = unlines lines ∧ file.2.splitOn '\n' = lines ++ [[]]

end UnicoreTsi.BssCommon
