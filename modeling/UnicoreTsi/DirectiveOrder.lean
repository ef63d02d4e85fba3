/-
# UnicoreTsi.DirectiveOrder — directives and commands in a submit script.

A batch system reads its directives up to the first line that is a command, and what a directive after that
line asks for is dropped.  All generators lay out a script in the same way (`Layout`): the directives for the
resources and the array, for an array of jobs the command that renames the index of a task, then the output
files and what belongs with them, and last the `umask` command if the system has no directive for it.  The
command for the index is the one that can come too early.
-/
import UnicoreTsi.Variants

set_option autoImplicit false

namespace UnicoreTsi.BssCommon

open UnicoreTsi.Text UnicoreTsi.Effects UnicoreTsi.Utils UnicoreTsi.BssScript

/-! ## Lines of a script -/

/-- A line that starts with one of the words by which the batch systems know their directives. -/
def isDirective (line : Str) : Bool :=
  ["#SBATCH ".toList, "#PBS ".toList, "#BSUB ".toList].any fun word => word.isPrefixOf line

/-- A line that the shell runs: it is neither blank nor starts with `#`. -/
def isCommand (line : Str) : Bool := strip line ≠ [] && !"#".toList.isPrefixOf line

/-- The directives that the batch system honours. -/
def honoured (script : List Str) : List Str := (script.takeWhile fun line => !isCommand line).filter isDirective

/-- No directive stands after the first command. -/
def DirectivesFirst (script : List Str) : Prop :=
  ∀ line ∈ script.dropWhile fun line => !isCommand line, isDirective line = false

instance (script : List Str) : Decidable (DirectivesFirst script) := by
  unfold DirectivesFirst
  infer_instance

theorem directivesFirst_iff {script : List Str} :
    DirectivesFirst script ↔ honoured script = script.filter isDirective := by
  have hsplit : script.filter isDirective =
      honoured script ++ (script.dropWhile fun line => !isCommand line).filter isDirective := by
    rw [honoured, ← List.filter_append, List.takeWhile_append_dropWhile]
  rw [hsplit, eq_comm, List.append_right_eq_self, List.filter_eq_nil_iff]
  simp only [DirectivesFirst, Bool.not_eq_true]

/-- Lines that start with `#` are no commands. -/
theorem isCommand_hash (rest : Str) : isCommand ('#' :: rest) = false := by
  simp [isCommand, List.isPrefixOf]

theorem strip_ne_nil {c : Char} {rest : Str} (hc : isSpace c = false) : strip (c :: rest) ≠ [] := by
  intro hnil
  have hlstrip : lstrip (c :: rest) = c :: rest := by simp [lstrip, hc]
  rw [strip, hlstrip, List.rdropWhile_eq_nil_iff] at hnil
  have hspace := hnil c List.mem_cons_self
  rw [hc] at hspace
  cases hspace

theorem isCommand_of_head {c : Char} {rest : Str} (hc : isSpace c = false) (hhash : c ≠ '#') :
    isCommand (c :: rest) = true := by
  have hne : strip (c :: rest) ≠ [] := strip_ne_nil hc
  simp [isCommand, hne, List.isPrefixOf, Ne.symm hhash]

/-! ## The layout of a script -/

structure Layout where
  front : List Str
  task : Option Str
  outputs : List Str
  last : List Str
  front_quiet : ∀ line ∈ front, isCommand line = false
  task_runs : ∀ line ∈ task, isCommand line = true
  outputs_ne : outputs ≠ []
  outputs_directive : ∀ line ∈ outputs, isCommand line = false ∧ isDirective line = true
  last_plain : ∀ line ∈ last, isDirective line = false

namespace Layout

def lines (l : Layout) : List Str := l.front ++ l.task.toList ++ l.outputs ++ l.last

/-- The lines from the first command on. -/
theorem after_front (l : Layout) :
    l.lines.dropWhile (fun line => !isCommand line) =
      (l.task.toList ++ l.outputs ++ l.last).dropWhile fun line => !isCommand line := by
  have hfront : ∀ line ∈ l.front, (!isCommand line) = true := by
    intro line hline
    rw [l.front_quiet line hline]
    rfl
  rw [lines, List.append_assoc, List.append_assoc, List.dropWhile_append_of_pos hfront, List.append_assoc]

/-- The output files are what comes too late when there is a command for the index. -/
theorem directivesFirst_iff (l : Layout) : DirectivesFirst l.lines ↔ l.task = none := by
  rw [DirectivesFirst, l.after_front]
  cases htask : l.task with
  | none =>
      have hquiet : ∀ line ∈ l.outputs, (!isCommand line) = true := by
        intro line hline
        rw [(l.outputs_directive line hline).1]
        rfl
      rw [Option.toList_none, List.nil_append, List.dropWhile_append_of_pos hquiet]
      refine iff_of_true (fun line hline => ?_) rfl
      exact l.last_plain line ((List.dropWhile_suffix _).subset hline)
  | some command =>
      have hcommand := l.task_runs command htask
      refine iff_of_false (fun hfirst => ?_) (Option.some_ne_none command)
      obtain ⟨output, houtput⟩ := List.exists_mem_of_ne_nil _ l.outputs_ne
      have hmem : output ∈ ((some command).toList ++ l.outputs ++ l.last).dropWhile
          fun line => !isCommand line := by
        rw [Option.toList_some, List.append_assoc, List.singleton_append,
          List.dropWhile_cons_of_neg (by simp [hcommand])]
        simp [houtput]
      have hplain := hfirst output hmem
      rw [(l.outputs_directive output houtput).2] at hplain
      cases hplain

end Layout

/-! ## The variants -/

theorem isCommand_taskId (indexName : String) : isCommand (taskIdCommand indexName) = true := by
  obtain ⟨rest, hrest⟩ : ∃ rest, taskIdCommand indexName = 'U' :: rest := ⟨_, rfl⟩
  rw [hrest]
  exact isCommand_of_head (by decide) (by decide)

theorem slurm_directive (option : Str) :
    isCommand (BssSlurm.directive option) = false ∧ isDirective (BssSlurm.directive option) = true :=
  ⟨isCommand_hash _, rfl⟩

theorem torque_directive (option : Str) :
    isCommand (BssTorque.directive option) = false ∧ isDirective (BssTorque.directive option) = true :=
  ⟨isCommand_hash _, rfl⟩

theorem lsf_directive (option : Str) :
    isCommand (BssLsf.directive option) = false ∧ isDirective (BssLsf.directive option) = true :=
  ⟨isCommand_hash _, rfl⟩

theorem isDirective_umask (mask : Str) : isDirective ("umask ".toList ++ mask) = false := rfl

/-- The command of an array job that renames the index of a task. -/
def taskLine (message : Str) (indexName : String) : Option Str :=
  if 0 < extractNumber message "ARRAY".toList then some (taskIdCommand indexName) else none

section Scripts

variable {config : Settings} {message : Str} {lines : List Str}

theorem taskLine_runs (indexName : String) : ∀ line ∈ taskLine message indexName, isCommand line = true := by
  intro line hline
  rw [taskLine] at hline
  split at hline
  · obtain rfl := Option.some.inj hline
    exact isCommand_taskId indexName
  · cases hline

theorem taskLine_eq_none {indexName : String} :
    taskLine message indexName = none ↔ extractNumber message "ARRAY".toList ≤ 0 := by
  rw [taskLine]
  split
  · rename_i hpos
    exact iff_of_false (Option.some_ne_none _) (Int.not_le.mpr hpos)
  · rename_i hpos
    exact iff_of_true rfl (Int.not_lt.mp hpos)

/-- A script in four parts, of which the second is the command for the index of a task. -/
theorem directivesFirst_of_parts {indexName : String} {front outputs last : List Str}
    (hfront : ∀ line ∈ front, isCommand line = false) (hne : outputs ≠ [])
    (houtputs : ∀ line ∈ outputs, isCommand line = false ∧ isDirective line = true)
    (hlast : ∀ line ∈ last, isDirective line = false) :
    DirectivesFirst (front ++ (taskLine message indexName).toList ++ outputs ++ last) ↔
      extractNumber message "ARRAY".toList ≤ 0 := by
  have hnone : taskLine message indexName = none ↔ extractNumber message "ARRAY".toList ≤ 0 := taskLine_eq_none
  rw [← hnone]
  exact Layout.directivesFirst_iff
    { front := front, task := taskLine message indexName, outputs := outputs, last := last,
      front_quiet := hfront, task_runs := taskLine_runs indexName, outputs_ne := hne,
      outputs_directive := houtputs, last_plain := hlast }

/-- The lines of the array specification: a directive, and the command. -/
theorem slurm_arrayLines (message : Str) (limit : Int) :
    ∃ front : List Str, (∀ line ∈ front, isCommand line = false) ∧
      BssSlurm.arrayLines (extractNumber message "ARRAY".toList) limit =
        front ++ (taskLine message "SLURM_ARRAY_TASK_ID").toList := by
  rw [BssSlurm.arrayLines, taskLine]
  split
  · exact ⟨[_], List.forall_mem_singleton.mpr (slurm_directive _).1, rfl⟩
  · exact ⟨[], nofun, rfl⟩

theorem torque_arrayLines (message : Str) (limit : Int) :
    ∃ front : List Str, (∀ line ∈ front, isCommand line = false) ∧
      BssTorque.arrayLines (extractNumber message "ARRAY".toList) limit =
        front ++ (taskLine message "PBS_ARRAYID").toList := by
  rw [BssTorque.arrayLines, taskLine]
  split
  · exact ⟨[_], List.forall_mem_singleton.mpr (torque_directive _).1, rfl⟩
  · exact ⟨[], nofun, rfl⟩

theorem lsf_nameLines (message jobName : Str) (limit : Int) :
    ∃ front : List Str, (∀ line ∈ front, isCommand line = false) ∧
      BssLsf.nameLines jobName (extractNumber message "ARRAY".toList) limit =
        front ++ (taskLine message "LSB_JOB_INDEX").toList := by
  rw [BssLsf.nameLines, taskLine]
  split
  · exact ⟨[_], List.forall_mem_singleton.mpr (lsf_directive _).1, rfl⟩
  · exact ⟨[_], List.forall_mem_singleton.mpr (lsf_directive _).1, rfl⟩

theorem slurm_umaskLines (umask : Option Str) : ∀ line ∈ BssSlurm.umaskLines umask, isDirective line = false := by
  cases umask with
  | none => exact nofun
  | some mask => exact List.forall_mem_singleton.mpr (isDirective_umask mask)

theorem torque_umaskLines (umask : Option Str) :
    ∀ line ∈ BssTorque.umaskLines umask, isCommand line = false ∧ isDirective line = true := by
  cases umask with
  | none => exact nofun
  | some mask => exact List.forall_mem_singleton.mpr (torque_directive _)

theorem slurm_directivesFirst (h : BssSlurm.createSubmitScript config message = .ok lines) :
    DirectivesFirst lines ↔ extractNumber message "ARRAY".toList ≤ 0 := by
  obtain ⟨options, -, hlines⟩ := except_bind_eq_ok.mp h
  obtain rfl := Except.ok.inj hlines
  obtain ⟨front, hfront, harray⟩ := slurm_arrayLines message
    (extractNumber message "ARRAY_LIMIT".toList)
  rw [harray, ← List.append_assoc]
  refine directivesFirst_of_parts ?_ (List.cons_ne_nil _ _) ?_ (slurm_umaskLines _)
  · intro line hline
    rcases List.mem_append.mp hline with hline | hline
    · rcases List.mem_append.mp hline with hline | hline
      · rw [List.mem_singleton.mp hline]
        exact isCommand_hash _
      · obtain ⟨option, -, rfl⟩ := List.mem_map.mp hline
        exact (slurm_directive option).1
    · exact hfront line hline
  · simp only [List.forall_mem_cons, List.not_mem_nil, false_imp_iff, implies_true, and_true]
    exact ⟨slurm_directive _, slurm_directive _, slurm_directive _⟩

theorem torque_directivesFirst (h : BssTorque.createSubmitScript config message = .ok lines) :
    DirectivesFirst lines ↔ extractNumber message "ARRAY".toList ≤ 0 := by
  obtain rfl := Except.ok.inj h
  obtain ⟨front, hfront, harray⟩ := torque_arrayLines message
    (extractNumber message "ARRAY_LIMIT".toList)
  rw [harray, ← List.append_assoc, List.append_assoc _ _ (BssTorque.umaskLines _), ← List.append_nil (_ ++ _)]
  refine directivesFirst_of_parts ?_ ?_ ?_ nofun
  · intro line hline
    rcases List.mem_append.mp hline with hline | hline
    · obtain ⟨option, -, rfl⟩ := List.mem_map.mp hline
      exact (torque_directive option).1
    · exact hfront line hline
  · simp
  · intro line hline
    rcases List.mem_append.mp hline with hline | hline
    · rcases List.mem_pair.mp hline with rfl | rfl
      · exact torque_directive _
      · exact torque_directive _
    · exact torque_umaskLines _ line hline

theorem lsf_options {minutes : Int} {line : Str}
    (hline : line ∈ (BssLsf.resourceOptions message).map BssLsf.directive ++
      [BssLsf.directive ("-W ".toList ++ intText minutes)] ++
      unlessNone (parameterOrNone message "RESERVATION_REFERENCE".toList)
        (fun ref => BssLsf.directive ("-U ".toList ++ ref))) : ∃ option, line = BssLsf.directive option := by
  rcases List.mem_append.mp hline with hline | hline
  · rcases List.mem_append.mp hline with hline | hline
    · obtain ⟨option, -, rfl⟩ := List.mem_map.mp hline
      exact ⟨option, rfl⟩
    · exact ⟨_, List.mem_singleton.mp hline⟩
  · rw [unlessNone] at hline
    split at hline
    · exact ⟨_, List.mem_singleton.mp hline⟩
    · cases hline

theorem lsf_directivesFirst (h : BssLsf.createSubmitScript config message = .ok lines) :
    DirectivesFirst lines ↔ extractNumber message "ARRAY".toList ≤ 0 := by
  obtain ⟨minutes, -, hlines⟩ := except_bind_eq_ok.mp h
  obtain ⟨limit, -, hlines⟩ := except_bind_eq_ok.mp hlines
  obtain rfl := Except.ok.inj hlines
  obtain ⟨front, hfront, harray⟩ := lsf_nameLines message
    (fittingJobName (parameterOr message "JOBNAME".toList config.defaultJobName))
    (extractNumber message "ARRAY_LIMIT".toList)
  rw [harray, ← List.append_assoc]
  change DirectivesFirst (_ ++ (taskLine message "LSB_JOB_INDEX").toList ++ ([_, _] ++ [_])) ↔ _
  rw [← List.append_assoc]
  refine directivesFirst_of_parts ?_ (List.cons_ne_nil _ _) ?_ ?_
  · intro line hline
    rcases List.mem_append.mp hline with hline | hline
    · obtain ⟨option, rfl⟩ := lsf_options hline
      exact (lsf_directive option).1
    · exact hfront line hline
  · intro line hline
    rcases List.mem_pair.mp hline with rfl | rfl
    · exact lsf_directive _
    · exact lsf_directive _
  · exact List.forall_mem_singleton.mpr (isDirective_umask _)

theorem script_directivesFirst {v : Variant} (hv : v ≠ .nobatch)
    (h : v.hooks.createSubmitScript config message = .ok lines) :
    DirectivesFirst lines ↔ extractNumber message "ARRAY".toList ≤ 0 := by
  cases v with
  | nobatch => exact absurd rfl hv
  | slurm => exact slurm_directivesFirst h
  | torque => exact torque_directivesFirst h
  | lsf => exact lsf_directivesFirst h

/-- The directives of a script come before its commands, and all of them are honoured, exactly if it is no
script for an array of jobs. -/
theorem directives_first_iff {v : Variant} (hv : v ≠ .nobatch)
    (h : v.hooks.createSubmitScript config message = .ok lines) :
    (DirectivesFirst lines ↔ extractNumber message "ARRAY".toList ≤ 0) ∧
      (honoured lines = lines.filter isDirective ↔ extractNumber message "ARRAY".toList ≤ 0) :=
  ⟨script_directivesFirst hv h, directivesFirst_iff.symm.trans (script_directivesFirst hv h)⟩

end Scripts

theorem directives_first_torque :
    ∃ lines, Variant.torque.hooks.createSubmitScript {} [] = .ok lines ∧
      ((DirectivesFirst lines ↔ extractNumber [] "ARRAY".toList ≤ 0) ∧
        (honoured lines = lines.filter isDirective ↔ extractNumber [] "ARRAY".toList ≤ 0)) :=
  ⟨_, rfl, directives_first_iff (v := .torque) (by decide) rfl⟩

/-- In the script for an array of jobs, Slurm does not see where to write the output. -/
theorem array_output_ignored :
    ¬ ∀ (v : Variant) (config : Settings) (message : Str) (lines : List Str), v ≠ .nobatch →
      v.hooks.createSubmitScript config message = .ok lines → DirectivesFirst lines := by
  intro h
  have hlines : ∃ lines, Variant.slurm.hooks.createSubmitScript {} "#TSI_ARRAY 10\n".toList = .ok lines ∧
      ¬ DirectivesFirst lines := ⟨_, rfl, by decide +kernel⟩
  obtain ⟨lines, hok, hnot⟩ := hlines
  exact hnot (h .slurm _ _ lines (by decide) hok)

end UnicoreTsi.BssCommon
