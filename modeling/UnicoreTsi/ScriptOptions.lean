/-
# UnicoreTsi.ScriptOptions — what a submit script has for an option.

`optionValues tag` reads a script for the lines that start with a tag.  The generators write their options in
a fixed order under fixed names, so for a tag that is apart from all the other names (`Distinct`) only the
parts of a script that can have the option are left to read: `slurm_values`, `torque_values` and `lsf_values`
say this once for each variant.
-/
import UnicoreTsi.Variants

set_option autoImplicit false

namespace UnicoreTsi.BssCommon

open UnicoreTsi.Text UnicoreTsi.Effects UnicoreTsi.Utils UnicoreTsi.BssScript

/-! ## Texts that differ -/

/-- The two texts differ at a place that both have. -/
def Apart (tag s : Str) : Prop := ¬ tag <+: s ∧ ¬ s <+: tag

instance (tag s : Str) : Decidable (Apart tag s) := by
  unfold Apart
  infer_instance

section Apart

variable {tag s : Str}

theorem Apart.append (h : Apart tag s) (rest : Str) : Apart tag (s ++ rest) := by
  constructor
  · intro htag
    rcases List.prefix_or_prefix_of_prefix htag (List.prefix_append s rest) with hstarts | hstarts
    · exact h.1 hstarts
    · exact h.2 hstarts
  · intro hs
    exact h.2 ((List.prefix_append s rest).trans hs)

theorem Apart.append_left (h : Apart tag s) (word : Str) : Apart (word ++ tag) (word ++ s) :=
  ⟨fun htag => h.1 ((List.prefix_append_right_inj word).mp htag),
    fun hs => h.2 ((List.prefix_append_right_inj word).mp hs)⟩

theorem Apart.symm (h : Apart tag s) : Apart s tag := ⟨h.2, h.1⟩

theorem apart_of_head {c d : Char} (h : c ≠ d) (tag s : Str) : Apart (c :: tag) (d :: s) :=
  ⟨fun htag => h (List.cons_prefix_cons.mp htag).1, fun hs => h (List.cons_prefix_cons.mp hs).1.symm⟩

theorem Apart.isPrefixOf_eq (h : Apart tag s) : tag.isPrefixOf s = false := by
  rw [Bool.eq_false_iff]
  exact fun hstarts => h.1 (List.isPrefixOf_iff_prefix.mp hstarts)

end Apart

/-! ## The values of an option -/

/-- What follows the tag in the lines that start with it. -/
def optionValues (tag : Str) (script : List Str) : List Str :=
  script.filterMap fun line => if tag.isPrefixOf line then some (line.drop tag.length) else none

/-- Every line differs from the tag. -/
def Lacks (tag : Str) (script : List Str) : Prop := ∀ line ∈ script, Apart tag line

section Lacks

variable {tag : Str} {script script' : List Str}

theorem Lacks.optionValues_eq (h : Lacks tag script) : optionValues tag script = [] := by
  rw [optionValues, List.filterMap_eq_nil_iff]
  intro line hline
  rw [(h line hline).isPrefixOf_eq, if_neg Bool.false_ne_true]

theorem optionValues_append : optionValues tag (script ++ script') =
    optionValues tag script ++ optionValues tag script' := List.filterMap_append

theorem mem_optionValues {value : Str} : value ∈ optionValues tag script ↔ tag ++ value ∈ script := by
  rw [optionValues, List.mem_filterMap]
  constructor
  · rintro ⟨line, hline, hvalue⟩
    split at hvalue
    · rename_i hstarts
      obtain ⟨rest, rfl⟩ := List.isPrefixOf_iff_prefix.mp hstarts
      rw [List.drop_left, Option.some.injEq] at hvalue
      rwa [← hvalue]
    · cases hvalue
  · intro hline
    refine ⟨tag ++ value, hline, ?_⟩
    rw [if_pos (List.isPrefixOf_iff_prefix.mpr (List.prefix_append _ _)), List.drop_left]

theorem optionValues_tagged (value : Str) : optionValues tag [tag ++ value] = [value] := by
  rw [optionValues, List.filterMap_cons, if_pos (List.isPrefixOf_iff_prefix.mpr (List.prefix_append _ _)),
    List.drop_left, List.filterMap_nil]

theorem lacks_nil : Lacks tag [] := nofun

theorem Apart.lacks_cons {line : Str} (h : Apart tag line) (hscript : Lacks tag script) :
    Lacks tag (line :: script) := List.forall_mem_cons.mpr ⟨h, hscript⟩

theorem lacks_append (h : Lacks tag script) (h' : Lacks tag script') : Lacks tag (script ++ script') :=
  List.forall_mem_append.mpr ⟨h, h'⟩

theorem lacks_unlessNone {value : Str} {entry : Str → Str} (h : ∀ text, Apart tag (entry text)) :
    Lacks tag (unlessNone value entry) := by
  rw [unlessNone]
  split
  · exact (h value).lacks_cons lacks_nil
  · exact lacks_nil

theorem lacks_ifPositive {n : Int} {entry : Str → Str} (h : ∀ text, Apart tag (entry text)) :
    Lacks tag (ifPositive n entry) := by
  rw [ifPositive]
  split
  · exact (h _).lacks_cons lacks_nil
  · exact lacks_nil

theorem lacks_ite {c : Prop} [Decidable c] (h : Lacks tag script) (h' : Lacks tag script') :
    Lacks tag (if c then script else script') := by
  split
  · exact h
  · exact h'

end Lacks

/-! ## Directives -/

/-- How the variant writes an option as a directive. -/
def Variant.directive : Variant → Str → Str
  | nobatch => id
  | slurm => BssSlurm.directive
  | torque => BssTorque.directive
  | lsf => BssLsf.directive

section Directives

variable {tag : Str}

theorem Apart.directive {s : Str} (h : Apart tag s) (v : Variant) : Apart (v.directive tag) (v.directive s) := by
  cases v with
  | nobatch => exact h
  | slurm => exact h.append_left "#SBATCH ".toList
  | torque => exact h.append_left "#PBS ".toList
  | lsf => exact h.append_left "#BSUB ".toList

theorem directive_append (v : Variant) (tag value : Str) : v.directive (tag ++ value) = v.directive tag ++ value := by
  cases v with
  | nobatch => rfl
  | slurm => exact (List.append_assoc _ _ _).symm
  | torque => exact (List.append_assoc _ _ _).symm
  | lsf => exact (List.append_assoc _ _ _).symm

theorem value_directive (v : Variant) (tag option : Str) :
    (if (v.directive tag).isPrefixOf (v.directive option) then
        some ((v.directive option).drop (v.directive tag).length) else none) =
      if tag.isPrefixOf option then some (option.drop tag.length) else none := by
  have hword : ∀ word : Str, (if (word ++ tag).isPrefixOf (word ++ option) then
        some ((word ++ option).drop (word ++ tag).length) else none) =
      if tag.isPrefixOf option then some (option.drop tag.length) else none := by
    intro word
    have hstarts : (word ++ tag).isPrefixOf (word ++ option) = tag.isPrefixOf option := by
      rw [Bool.eq_iff_iff]
      simp only [List.isPrefixOf_iff_prefix, List.prefix_append_right_inj]
    rw [hstarts, List.length_append, List.drop_length_add_append]
  cases v with
  | nobatch => rfl
  | slurm => exact hword "#SBATCH ".toList
  | torque => exact hword "#PBS ".toList
  | lsf => exact hword "#BSUB ".toList

/-- An option keeps its value when it is written as a directive. -/
theorem optionValues_directives (v : Variant) (tag : Str) (options : List Str) :
    optionValues (v.directive tag) (options.map v.directive) = optionValues tag options := by
  rw [optionValues, List.filterMap_map]
  exact congrArg (fun value => options.filterMap value) (funext fun option => value_directive v tag option)

/-- The command for the index of a task is no directive. -/
theorem apart_taskId {v : Variant} (hv : v ≠ .nobatch) (indexName : String) :
    Apart (v.directive tag) (taskIdCommand indexName) := by
  have hhash : '#' ≠ 'U' := by decide
  cases v with
  | nobatch => exact absurd rfl hv
  | slurm => exact apart_of_head hhash _ _
  | torque => exact apart_of_head hhash _ _
  | lsf => exact apart_of_head hhash _ _

theorem apart_umask {v : Variant} (hv : v ≠ .nobatch) (mask : Str) :
    Apart (v.directive tag) ("umask ".toList ++ mask) := by
  have hhash : '#' ≠ 'u' := by decide
  cases v with
  | nobatch => exact absurd rfl hv
  | slurm => exact apart_of_head hhash _ _
  | torque => exact apart_of_head hhash _ _
  | lsf => exact apart_of_head hhash _ _

/-- The lines of an array specification. -/
theorem optionValues_array {v : Variant} (hv : v ≠ .nobatch) (value : Str) (indexName : String) :
    optionValues (v.directive tag) [v.directive (tag ++ value), taskIdCommand indexName] = [value] := by
  have hlack : Lacks (v.directive tag) [taskIdCommand indexName] := (apart_taskId hv indexName).lacks_cons lacks_nil
  rw [← List.singleton_append, optionValues_append, directive_append, optionValues_tagged, hlack.optionValues_eq,
    List.append_nil]

end Directives

/-! ## The scripts of the variants -/

/-- The tag is none of the names. -/
def Distinct (tag : Str) (names : List Str) : Prop := ∀ name ∈ names, Apart tag name

instance (tag : Str) (names : List Str) : Decidable (Distinct tag names) := by
  unfold Distinct
  infer_instance

/-- The options of a Slurm script other than the wall time and the array. -/
def slurmNames : List Str :=
  ["--job-name=".toList, "--partition=".toList, "--exclusive".toList, "--comment=\"".toList,
    "--account=".toList, "--nodes=".toList, "--ntasks-per-node=".toList, "--ntasks=".toList,
    "--gpus-per-node=".toList, "--constraint=".toList, "--qos=".toList, "--mem=".toList, "--mail-user=".toList,
    "--mail-type=ALL".toList, "--reservation=".toList, "--output=".toList, "--error=".toList,
    "--chdir=".toList]

/-- The options of a Torque script other than the nodes, the wall time and the array. -/
def torqueNames : List Str :=
  ["-N ".toList, "-q ".toList, "-A ".toList, "-m ".toList, "-W x=FLAGS:ADVRES:".toList, "-o ".toList,
    "-e ".toList, "-W umask=".toList]

/-- The options of an LSF script other than the wall time and the name. -/
def lsfNames : List Str :=
  ["-B -N -u ".toList, "-q ".toList, "-P ".toList, "-n ".toList, "-R \"span[ptile=".toList,
    "-gpu \"num=".toList, "-U ".toList, "-o ".toList, "-e ".toList]

section Scripts

variable {config : Settings} {message : Str} {lines : List Str} {tag : Str}

theorem slurm_resourceOptions_lack (h : Distinct tag slurmNames) :
    Lacks tag (BssSlurm.resourceOptions message config) := by
  simp only [Distinct, slurmNames, List.forall_mem_cons] at h
  obtain ⟨hname, hqueue, hexclusive, hcomment, hproject, hnodes, hppn, htotal, hgpus, hfilter, hqos, hmem, -⟩ := h
  unfold BssSlurm.resourceOptions
  refine lacks_append ?_ (lacks_ite ((hmem.append _).lacks_cons lacks_nil) lacks_nil)
  refine lacks_append ?_ (lacks_unlessNone hqos.append)
  refine lacks_append ?_ (lacks_ite ((hfilter.append _).lacks_cons lacks_nil) lacks_nil)
  refine lacks_append ?_ (lacks_ifPositive hgpus.append)
  refine lacks_append ?_ (lacks_ite (lacks_append ((hnodes.append _).lacks_cons lacks_nil)
    (lacks_ifPositive hppn.append)) (lacks_ifPositive htotal.append))
  refine lacks_append ?_ (lacks_unlessNone hproject.append)
  refine lacks_append ?_ (lacks_unlessNone fun text => (hcomment.append text).append _)
  refine lacks_append ?_ (lacks_ite (hexclusive.lacks_cons lacks_nil) lacks_nil)
  exact lacks_append ((hname.append _).lacks_cons lacks_nil) (lacks_unlessNone hqueue.append)

theorem slurm_accountOptions_lack (h : Distinct tag slurmNames) :
    Lacks tag (BssSlurm.accountOptions message) := by
  simp only [Distinct, slurmNames, List.forall_mem_cons] at h
  obtain ⟨-, -, -, -, -, -, -, -, -, -, -, -, huser, htype, hreservation, -⟩ := h
  exact lacks_append (lacks_ite ((huser.append _).lacks_cons (htype.lacks_cons lacks_nil)) lacks_nil)
    (lacks_unlessNone hreservation.append)

theorem slurm_fileLines_lack (h : Distinct tag slurmNames) (outcomeDir stdout stderr uspaceDir : Str) :
    Lacks (Variant.slurm.directive tag)
      [BssSlurm.directive ("--output=".toList ++ outcomeDir ++ "/".toList ++ stdout),
        BssSlurm.directive ("--error=".toList ++ outcomeDir ++ "/".toList ++ stderr),
        BssSlurm.directive ("--chdir=".toList ++ uspaceDir)] := by
  simp only [Distinct, slurmNames, List.forall_mem_cons] at h
  obtain ⟨-, -, -, -, -, -, -, -, -, -, -, -, -, -, -, houtput, herror, hchdir, -⟩ := h
  refine ((((houtput.append _).append _).append _).directive .slurm).lacks_cons ?_
  refine ((((herror.append _).append _).append _).directive .slurm).lacks_cons ?_
  exact ((hchdir.append _).directive .slurm).lacks_cons lacks_nil

theorem slurm_umaskLines_lack (umask : Option Str) :
    Lacks (Variant.slurm.directive tag) (BssSlurm.umaskLines umask) := by
  cases umask with
  | none => exact lacks_nil
  | some mask => exact (apart_umask (v := .slurm) (by decide) mask).lacks_cons lacks_nil

/-- What a Slurm script has for an option that is not among its names. -/
theorem slurm_values (h : Distinct tag slurmNames) (hlines : BssSlurm.createSubmitScript config message = .ok lines) :
    ∃ wallTime, BssSlurm.timeOption (extractNumber message "TIME".toList) = .ok wallTime ∧
      optionValues (Variant.slurm.directive tag) lines = optionValues tag wallTime ++
        optionValues (Variant.slurm.directive tag) (BssSlurm.arrayLines (extractNumber message "ARRAY".toList)
          (extractNumber message "ARRAY_LIMIT".toList)) := by
  obtain ⟨options, hoptions, hlines⟩ := except_bind_eq_ok.mp hlines
  obtain ⟨wallTime, htime, hoptions⟩ := except_bind_eq_ok.mp hoptions
  obtain rfl := Except.ok.inj hlines
  obtain rfl := Except.ok.inj hoptions
  refine ⟨wallTime, htime, ?_⟩
  have hvalues := optionValues_directives .slurm tag
    (BssSlurm.resourceOptions message config ++ wallTime ++ BssSlurm.accountOptions message)
  have hfirst : Lacks (Variant.slurm.directive tag) ["#!/bin/bash".toList] := by
    have happart : Apart "#SBATCH ".toList "#!/bin/bash".toList := by decide
    exact (happart.symm.append tag).symm.lacks_cons lacks_nil
  show optionValues (Variant.slurm.directive tag)
    (_ ++ List.map Variant.slurm.directive _ ++ _ ++ _ ++ _) = _
  simp only [optionValues_append] at hvalues ⊢
  rw [hvalues, (slurm_resourceOptions_lack h).optionValues_eq, (slurm_accountOptions_lack h).optionValues_eq,
    hfirst.optionValues_eq, (slurm_fileLines_lack h _ _ _ _).optionValues_eq,
    (slurm_umaskLines_lack _).optionValues_eq]
  simp only [List.nil_append, List.append_nil]

/-! ### Torque -/

/-- The option for the nodes. -/
def torqueNodes (message : Str) (config : Settings) : List Str :=
  if 0 < extractNumber message "NODES".toList then
    ["-l ".toList ++ BssTorque.nodesSpec (extractNumber message "NODES".toList)
      (extractNumber message "PROCESSORS_PER_NODE".toList) ++
        BssTorque.joinedFilter config.nodesFilter (parameterOrNone message "BSS_NODES_FILTER".toList)]
  else []

theorem torque_resourceOptions_values (h : Distinct tag torqueNames) :
    optionValues tag (BssTorque.resourceOptions message config) =
      optionValues tag (torqueNodes message config) ++
        optionValues tag (ifPositive (extractNumber message "TIME".toList) ("-l walltime=".toList ++ ·)) := by
  simp only [Distinct, torqueNames, List.forall_mem_cons] at h
  obtain ⟨hname, hqueue, hproject, hmail, hreservation, -⟩ := h
  have hnameLine : ∀ name : Str, Lacks tag ["-N ".toList ++ name] :=
    fun name => (hname.append name).lacks_cons lacks_nil
  have hmailLine : ∀ flags : Str, Lacks tag ["-m ".toList ++ flags] :=
    fun flags => (hmail.append flags).lacks_cons lacks_nil
  have hnone : ∀ {entry : Str → Str} (value : Str), (∀ text, Apart tag (entry text)) →
      optionValues tag (unlessNone value entry) = [] :=
    fun value hentry => (lacks_unlessNone hentry).optionValues_eq
  simp only [BssTorque.resourceOptions, optionValues_append]
  rw [(hnameLine _).optionValues_eq, hnone _ hqueue.append, hnone _ hproject.append,
    (hmailLine _).optionValues_eq, hnone _ hreservation.append]
  simp only [List.nil_append, List.append_nil]
  rfl

theorem torque_fileLines_lack (h : Distinct tag torqueNames) (outcomeDir stdout stderr : Str) :
    Lacks (Variant.torque.directive tag)
      [BssTorque.directive ("-o ".toList ++ outcomeDir ++ "/".toList ++ stdout),
        BssTorque.directive ("-e ".toList ++ outcomeDir ++ "/".toList ++ stderr)] := by
  simp only [Distinct, torqueNames, List.forall_mem_cons] at h
  obtain ⟨-, -, -, -, -, houtput, herror, -⟩ := h
  refine ((((houtput.append _).append _).append _).directive .torque).lacks_cons ?_
  exact ((((herror.append _).append _).append _).directive .torque).lacks_cons lacks_nil

theorem torque_umaskLines_lack (h : Distinct tag torqueNames) (umask : Option Str) :
    Lacks (Variant.torque.directive tag) (BssTorque.umaskLines umask) := by
  simp only [Distinct, torqueNames, List.forall_mem_cons] at h
  obtain ⟨-, -, -, -, -, -, -, humask, -⟩ := h
  cases umask with
  | none => exact lacks_nil
  | some mask => exact ((humask.append mask).directive .torque).lacks_cons lacks_nil

theorem torque_values (h : Distinct tag torqueNames)
    (hlines : BssTorque.createSubmitScript config message = .ok lines) :
    optionValues (Variant.torque.directive tag) lines =
      optionValues tag (torqueNodes message config) ++
        optionValues tag (ifPositive (extractNumber message "TIME".toList) ("-l walltime=".toList ++ ·)) ++
          optionValues (Variant.torque.directive tag) (BssTorque.arrayLines (extractNumber message "ARRAY".toList)
            (extractNumber message "ARRAY_LIMIT".toList)) := by
  obtain rfl := Except.ok.inj hlines
  have hvalues := optionValues_directives .torque tag (BssTorque.resourceOptions message config)
  show optionValues (Variant.torque.directive tag) (List.map Variant.torque.directive _ ++ _ ++ _ ++ _) = _
  simp only [optionValues_append]
  rw [hvalues, torque_resourceOptions_values h, (torque_fileLines_lack h _ _ _).optionValues_eq,
    (torque_umaskLines_lack h _).optionValues_eq]
  simp only [List.append_nil]

/-! ### LSF -/

theorem lsf_resourceOptions_lack (h : Distinct tag lsfNames) : Lacks tag (BssLsf.resourceOptions message) := by
  simp only [Distinct, lsfNames, List.forall_mem_cons] at h
  obtain ⟨hemail, hqueue, hproject, hslots, hspan, hgpu, -⟩ := h
  unfold BssLsf.resourceOptions BssLsf.slotOptions
  refine lacks_append ?_ (lacks_ifPositive fun count => (hgpu.append count).append _)
  refine lacks_append ?_ (lacks_ite ((hslots.append _).lacks_cons lacks_nil)
    (lacks_ite (((hspan.append _).append _).lacks_cons ((hslots.append _).lacks_cons lacks_nil)) lacks_nil))
  refine lacks_append ?_ (lacks_unlessNone hproject.append)
  exact lacks_append (lacks_unlessNone hemail.append) (lacks_unlessNone hqueue.append)

theorem lsf_reservation_lack (h : Distinct tag lsfNames) (reservationId : Str) :
    Lacks (Variant.lsf.directive tag)
      (unlessNone reservationId fun ref => BssLsf.directive ("-U ".toList ++ ref)) := by
  simp only [Distinct, lsfNames, List.forall_mem_cons] at h
  obtain ⟨-, -, -, -, -, -, hreservation, -⟩ := h
  exact lacks_unlessNone fun ref => (hreservation.append ref).directive .lsf

theorem lsf_fileLines_lack (h : Distinct tag lsfNames) (outcomeDir stdout stderr umask : Str) :
    Lacks (Variant.lsf.directive tag)
      [BssLsf.directive ("-o ".toList ++ outcomeDir ++ "/".toList ++ stdout),
        BssLsf.directive ("-e ".toList ++ outcomeDir ++ "/".toList ++ stderr), "umask ".toList ++ umask] := by
  simp only [Distinct, lsfNames, List.forall_mem_cons] at h
  obtain ⟨-, -, -, -, -, -, -, houtput, herror, -⟩ := h
  refine ((((houtput.append _).append _).append _).directive .lsf).lacks_cons ?_
  refine ((((herror.append _).append _).append _).directive .lsf).lacks_cons ?_
  exact (apart_umask (v := .lsf) (by decide) umask).lacks_cons lacks_nil

/-- The lines with the name of the job. -/
def lsfNameLines (message : Str) (config : Settings) : List Str :=
  BssLsf.nameLines (fittingJobName (parameterOr message "JOBNAME".toList config.defaultJobName))
    (extractNumber message "ARRAY".toList) (extractNumber message "ARRAY_LIMIT".toList)

theorem lsf_values (h : Distinct tag lsfNames) (hlines : BssLsf.createSubmitScript config message = .ok lines) :
    ∃ minutes, truncQuotient (extractNumber message "TIME".toList) 60 = .ok minutes ∧
      optionValues (Variant.lsf.directive tag) lines = optionValues tag ["-W ".toList ++ intText minutes] ++
        optionValues (Variant.lsf.directive tag) (lsfNameLines message config) := by
  obtain ⟨minutes, htime, hlines⟩ := except_bind_eq_ok.mp hlines
  obtain ⟨limit, -, hlines⟩ := except_bind_eq_ok.mp hlines
  obtain rfl := Except.ok.inj hlines
  refine ⟨minutes, htime, ?_⟩
  have hvalues := optionValues_directives .lsf tag (BssLsf.resourceOptions message)
  have htime := optionValues_directives .lsf tag ["-W ".toList ++ intText minutes]
  rw [(lsf_resourceOptions_lack h).optionValues_eq] at hvalues
  show optionValues (Variant.lsf.directive tag) (List.map Variant.lsf.directive _ ++
    List.map Variant.lsf.directive ["-W ".toList ++ _] ++ _ ++ lsfNameLines message config ++ _) = _
  simp only [optionValues_append]
  rw [hvalues, htime, (lsf_reservation_lack h _).optionValues_eq, (lsf_fileLines_lack h _ _ _ _).optionValues_eq]
  simp only [List.nil_append, List.append_nil]

end Scripts

end UnicoreTsi.BssCommon
