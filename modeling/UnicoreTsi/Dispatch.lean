/-
# UnicoreTsi.Dispatch — which function of the table a message is given to.

A message contains a command when one of its lines ends with the command's tag (`hasCommand_iff`), and the
first entry of the table that it contains wins, wherever in the message its tag stands.  So the tag of
the request itself decides exactly when no later line ends with a tag that comes earlier in the table.
-/
import UnicoreTsi.Tsi

set_option autoImplicit false

namespace UnicoreTsi.Tsi

open UnicoreTsi.Text UnicoreTsi.Regex UnicoreTsi.Utils UnicoreTsi.BssCommon

/-- The line ends with the tag of the command. -/
def EndsWithTag (cmd l : Str) : Prop := '#' :: cmd <:+ l

instance (cmd l : Str) : Decidable (EndsWithTag cmd l) := by
  unfold EndsWithTag
  infer_instance

/-! ## Searching for one tag -/

theorem match_command_iff {cmd l : Str} (prev : Option Char) (rest : Str) (hcmd : '\n' ∉ cmd)
    (hl : '\n' ∉ l) :
    (matchItems (commandItems cmd) prev (l ++ '\n' :: rest)).isSome ↔ EndsWithTag cmd l := by
  rw [matchItems_isSome_iff]
  constructor
  · rintro ⟨ps, hfit, hflat⟩
    match ps, hfit, hflat with
    | [p, tag, nl], ⟨⟨hp, _, _⟩, htag, hnl, _⟩, hflat =>
      obtain rfl : tag = '#' :: cmd := htag
      obtain rfl : nl = "\n".toList := hnl
      have hp' : '\n' ∉ p := fun hmem => absurd (hp '\n' hmem) (by decide)
      have hbody : '\n' ∉ p ++ '#' :: cmd := by simp [hp', hcmd]
      have hprefix : (p ++ '#' :: cmd) ++ '\n' :: [] <+: l ++ '\n' :: rest := by
        simpa using hflat
      exact ⟨p, eq_of_prefix_line hbody hl hprefix⟩
  · rintro ⟨p, rfl⟩
    have hp : ∀ c ∈ p, decide (c ≠ '\n') = true := by
      intro c hc
      simp only [decide_eq_true_eq]
      rintro rfl
      exact hl (by simp [hc])
    refine ⟨[p, '#' :: cmd, "\n".toList], ⟨⟨hp, by simp, by simp⟩, rfl, rfl, rfl⟩, ?_⟩
    simp

theorem search_command_iff {cmd : Str} (hcmd : '\n' ∉ cmd) (prev : Option Char) (m : Str) :
    (search (commandItems cmd) prev m).isSome ↔ ∃ l ∈ completeLines m, EndsWithTag cmd l := by
  induction m using lineInduction generalizing prev with
  | tail t ht =>
      have hsearch : search (commandItems cmd) prev t = matchItems (commandItems cmd) prev t :=
        search_tail _ '\n' prev ht
      rw [completeLines_of_not_mem ht, hsearch, matchItems_isSome_iff]
      constructor
      · rintro ⟨ps, hfit, hflat⟩
        match ps, hfit, hflat with
        | [p, tag, nl], ⟨_, _, hnl, _⟩, hflat =>
          obtain rfl : nl = "\n".toList := hnl
          exact absurd (hflat.subset (by simp : '\n' ∈ _)) ht
      · rintro ⟨l, hl, -⟩
        cases hl
  | line l rest hl ih =>
      have hsearch : search (commandItems cmd) prev (l ++ '\n' :: rest) =
          (matchItems (commandItems cmd) prev (l ++ '\n' :: rest)).or
            (search (commandItems cmd) (some '\n') rest) := search_line _ '\n' prev hl rest
      rw [completeLines_line hl, hsearch, Option.isSome_or, Bool.or_eq_true, ih,
        match_command_iff prev rest hcmd hl]
      simp only [List.mem_cons, exists_eq_or_imp]

/-- A message contains a command when one of its complete lines ends with the command's tag. -/
theorem hasCommand_iff {cmd : Str} (hcmd : '\n' ∉ cmd) (m : Str) :
    hasCommand m cmd = true ↔ ∃ l ∈ completeLines m, EndsWithTag cmd l :=
  search_command_iff hcmd none m

/-! ## The first entry that is found -/

/-- The names that are looked for before `cmd`. -/
def namesBefore (cmd : Str) : List Str := commandNames.takeWhile fun name => decide (name ≠ cmd)

theorem newline_not_mem_name : ∀ name ∈ commandNames, '\n' ∉ name := by decide

theorem hash_not_mem_name : ∀ name ∈ commandNames, '#' ∉ name := by decide

theorem findCommand_iff {functions : List (Str × Function)} {m cmd : Str} {function : Function}
    (hmem : (cmd, function) ∈ functions) (hnodup : (functions.map Prod.fst).Nodup)
    (hcmd : hasCommand m cmd = true) :
    findCommand functions m = some (cmd, function) ↔
      ∀ name ∈ (functions.map Prod.fst).takeWhile (fun name => decide (name ≠ cmd)),
        hasCommand m name = false := by
  induction functions with
  | nil => cases hmem
  | cons entry functions ih =>
      obtain ⟨name, f⟩ := entry
      rw [List.map_cons, List.nodup_cons] at hnodup
      rw [findCommand, List.find?_cons, List.map_cons, List.takeWhile_cons]
      by_cases hname : name = cmd
      · subst hname
        -- the entry itself is the first one: the names are distinct
        have hentry : (name, function) = (name, f) := by
          rcases List.mem_cons.mp hmem with h | h
          · exact h
          · exact absurd (List.mem_map_of_mem (f := Prod.fst) h) hnodup.1
        simp [hcmd, hentry]
      · have hmem' : (cmd, function) ∈ functions := by
          rcases List.mem_cons.mp hmem with h | h
          · exact absurd (congrArg Prod.fst h).symm hname
          · exact h
        have ih := ih hmem' hnodup.2
        rw [findCommand] at ih
        cases hhas : hasCommand m name with
        | true =>
            simp only [hname, ne_eq, not_false_eq_true, decide_true, if_true, List.forall_mem_cons, hhas,
              Bool.true_eq_false, false_and, iff_false]
            intro h
            exact hname (congrArg Prod.fst (Option.some.inj h))
        | false =>
            simp only [hname, ne_eq, not_false_eq_true, decide_true, if_true, List.forall_mem_cons, hhas,
              true_and]
            exact ih

/-- A command one of whose lines is in the message is found exactly when no line has the tag of a command
that comes earlier in the table. -/
theorem findCommand_iff_lines (bss : Bss) {m cmd : Str} {function : Function}
    (hmem : (cmd, function) ∈ initFunctions bss) (hown : ∃ l ∈ completeLines m, EndsWithTag cmd l) :
    findCommand (initFunctions bss) m = some (cmd, function) ↔
      ∀ name ∈ namesBefore cmd, ∀ l ∈ completeLines m, ¬EndsWithTag name l := by
  have hcmd : cmd ∈ commandNames := by
    rw [← initFunctions_names bss]
    exact List.mem_map_of_mem (f := Prod.fst) hmem
  have hhas : hasCommand m cmd = true := (hasCommand_iff (newline_not_mem_name cmd hcmd) m).mpr hown
  have hnodup : ((initFunctions bss).map Prod.fst).Nodup := by
    rw [initFunctions_names]
    decide
  rw [findCommand_iff hmem hnodup hhas, initFunctions_names]
  show (∀ name ∈ namesBefore cmd, _) ↔ _
  refine forall₂_congr fun name hname => ?_
  have hname' : name ∈ commandNames := (List.takeWhile_sublist _).subset hname
  rw [← Bool.not_eq_true, hasCommand_iff (newline_not_mem_name name hname')]
  push Not
  rfl

/-- The request's own tag decides the command exactly when no line after it ends with a tag that comes
earlier in the table. -/
theorem dispatch_iff (bss : Bss) {m cmd : Str} {function : Function} {pre post : List Str}
    (hmem : (cmd, function) ∈ initFunctions bss)
    (hlines : completeLines m = pre ++ ('#' :: cmd) :: post)
    (hpre : ∀ l ∈ pre, ∀ name ∈ commandNames, ¬EndsWithTag name l) :
    findCommand (initFunctions bss) m = some (cmd, function) ↔
      ∀ name ∈ namesBefore cmd, ∀ l ∈ post, ¬EndsWithTag name l := by
  have hown : ∃ l ∈ completeLines m, EndsWithTag cmd l :=
    ⟨'#' :: cmd, by rw [hlines]; simp, List.suffix_refl _⟩
  rw [findCommand_iff_lines bss hmem hown, hlines]
  refine forall₂_congr fun name hname => ?_
  have hname' : name ∈ commandNames := (List.takeWhile_sublist _).subset hname
  have hne : name ≠ cmd := by simpa using List.mem_takeWhile_imp hname
  constructor
  · exact fun h l hl => h l (by simp [hl])
  · intro h l hl
    rcases List.mem_append.mp hl with hl | hl
    · exact hpre l hl name hname'
    · rcases List.mem_cons.mp hl with rfl | hl
      · -- the line `#cmd` ends with no other tag: `#` occurs in it only once
        intro hends
        have hcmd : cmd ∈ commandNames := by
          rw [← initFunctions_names bss]
          exact List.mem_map_of_mem (f := Prod.fst) hmem
        rcases List.suffix_cons_iff.mp hends with h | h
        · exact hne (List.cons.inj h).2
        · exact hash_not_mem_name cmd hcmd (h.subset List.mem_cons_self)
      · exact h l hl

/-- A request to list a file that mentions no other command. -/
def listRequest : Str := "#TSI_LS\n#TSI_IDENTITY alice NONE\n#TSI_LS_MODE A\n#TSI_FILE /tmp/x\n".toList

theorem dispatch_listRequest :
    findCommand (initFunctions BssNobatch.nobatch) listRequest = some ("TSI_LS".toList, Io.ls) ↔
      ∀ name ∈ namesBefore "TSI_LS".toList, ∀ l ∈ (completeLines listRequest).tail,
        ¬EndsWithTag name l := by
  have hmem : ("TSI_LS".toList, Io.ls) ∈ initFunctions BssNobatch.nobatch := by simp [initFunctions]
  have hlines : completeLines listRequest =
      [] ++ ('#' :: "TSI_LS".toList) :: (completeLines listRequest).tail := by decide
  exact dispatch_iff BssNobatch.nobatch hmem hlines (by simp)

/-- A job whose script has a comment that ends with the tag of another command. -/
def hijackedRequest : Str :=
  ("#TSI_SUBMIT\n#TSI_IDENTITY alice NONE\n" ++ "# when done use #TSI_EXECUTESCRIPT\n./run\n").toList

/-- The job is not submitted: its message is run as a script. -/
theorem hijackedRequest_not_submitted :
    (completeLines hijackedRequest).head? = some "#TSI_SUBMIT".toList ∧
      findCommand (initFunctions BssNobatch.nobatch) hijackedRequest ≠
        some ("TSI_SUBMIT".toList, BssNobatch.submit) := by
  refine ⟨by decide, ?_⟩
  have hfound : (findCommand (initFunctions BssNobatch.nobatch) hijackedRequest).map Prod.fst =
      some "TSI_EXECUTESCRIPT".toList := by
    rfl
  intro h
  rw [h] at hfound
  exact absurd hfound (by decide)

end UnicoreTsi.Tsi
