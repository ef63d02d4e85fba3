/-
# UnicoreTsi.QstatLines — the state letters of `qstat`.

`extract_info` of the Torque variant wants one of the letters `CEHQRTWS` in the tenth field of a line, and
`convert_status` has a state of UNICORE for each of these and for `F`.  `torque_states_iff`: a line with a letter of
the table is read, and its job is listed, if and only if the letter is not `F`.
-/
import UnicoreTsi.JobIds
import UnicoreTsi.StatusListing

set_option autoImplicit false

namespace UnicoreTsi.BssCommon

open UnicoreTsi.Text UnicoreTsi.Utils UnicoreTsi.Words UnicoreTsi.KeyedMax

/-! ## Lines and letters -/

/-- A line of `qstat -a` with eleven fields, the first of them a number, a dot and the name of a server. -/
structure JobLine (line number server queue : Str) (letter : Char) : Prop where
  number_ne : number ≠ []
  number_digits : ∀ c ∈ number, isDigitChar c = true
  server_ne : server ≠ []
  fields : ∃ others, words isSpace line = (number ++ ".".toList ++ server) :: others ∧ others.length = 10 ∧
    others[1]? = some queue ∧ others[8]? = some [letter]

/-- `convert_status` has a state of UNICORE for the letter. -/
def Mapped (letter : Char) : Prop := BssTorque.convertStatus [letter] ≠ "UNKNOWN".toList

theorem mem_of_mapped {letter : Char} (h : Mapped letter) : letter ∈ "QTWERSHCF".toList := by
  by_contra hmem
  have hnone : letter ≠ 'Q' ∧ letter ≠ 'T' ∧ letter ≠ 'W' ∧ letter ≠ 'E' ∧ letter ≠ 'R' ∧ letter ≠ 'S' ∧ letter ≠ 'H' ∧
      letter ≠ 'C' ∧ letter ≠ 'F' := by simpa using hmem
  apply h
  simp [BssTorque.convertStatus, hnone]

/-- The class of the expression has every letter of the table but one. -/
theorem isStateLetter_iff {letter : Char} (h : Mapped letter) : BssTorque.isStateLetter letter = true ↔ letter ≠ 'F' := by
  have hletters : ∀ c ∈ "QTWERSHCF".toList, BssTorque.isStateLetter c = true ↔ c ≠ 'F' := by decide
  exact hletters letter (mem_of_mapped h)

section Line

variable {line number server queue : Str} {letter : Char}

theorem JobLine.info_iff (h : JobLine line number server queue letter) {n state queue' : Str} :
    BssTorque.extractInfo line = some (n, state, queue') ↔
      (n, state, queue') = (number, [letter], queue) ∧ BssTorque.isStateLetter letter = true := by
  obtain ⟨others, hwords, hten, hqueue, hstate⟩ := h.fields
  obtain ⟨pad, rest, hq⟩ := qstatLine_of_words hwords hten
  have hfirst := firstDotted_plain h.number_ne h.number_digits h.server_ne
  rw [torque_info_eq_some hq]
  constructor
  · rintro ⟨hdot, ⟨hstate', hletters⟩, hqueue'⟩
    obtain rfl := hdot.unique hfirst
    obtain rfl : state = [letter] := Option.some.inj (hstate'.symm.trans hstate)
    obtain rfl : queue' = queue := Option.some.inj (hqueue'.symm.trans hqueue)
    exact ⟨rfl, hletters letter List.mem_cons_self⟩
  · rintro ⟨heq, hletter⟩
    cases heq
    exact ⟨hfirst, ⟨hstate, by simpa using hletter⟩, hqueue⟩

/-- The status listing of the output has this entry for the job. -/
def Listed (host : Host) (output number : Str) (entry : StatusEntry) : Prop :=
  ∃ states, mergeStates BssTorque.torqueHooks host (splitlines output) [] = .ok states ∧
    parseStatusListing BssTorque.torqueHooks host output = .ok ("QSTAT\n".toList ++ states.flatMap statusLine) ∧
    states.lookup number = some entry

/-- No other line of the output is for this job. -/
def OnlyLine (output line number : Str) : Prop :=
  line ∈ splitlines output ∧ ∀ other ∈ splitlines output, other ≠ line →
    ∀ state queue, BssTorque.extractInfo other ≠ some (number, state, queue)

/-- A job with one line is listed with what is read of that line. -/
theorem listed_iff (host : Host) {output number : Str} (honly : OnlyLine output line number) {state queue : Str} :
    Listed host output number (BssTorque.convertStatus state, queue, state) ↔
      BssTorque.extractInfo line = some (number, state, queue) := by
  obtain ⟨states, hmerge, hparse, hmerges, -⟩ := status_listing .torque host output
  -- every line for the job is this one
  have hsame : ∀ other ∈ splitlines output, ∀ state queue, Variant.torque.Names host other number state queue →
      BssTorque.extractInfo line = some (number, state, queue) := by
    intro other hother state queue hnames
    have hinfo : BssTorque.extractInfo other = some (number, state, queue) := Except.ok.inj hnames
    by_cases heq : other = line
    · rwa [heq] at hinfo
    · exact absurd hinfo (honly.2 other hother heq state queue)
  constructor
  · rintro ⟨states', hmerge', -, hlookup⟩
    obtain rfl : states' = states := Except.ok.inj (hmerge'.symm.trans hmerge)
    obtain ⟨other, hother, hnames, -⟩ := hmerges.line _ _ _ _ (mem_of_lookup hlookup)
    exact hsame other hother state queue hnames
  · intro hinfo
    refine ⟨states, hmerge, hparse, ?_⟩
    have hid : number ∈ states.map Prod.fst :=
      (hmerges.ids number).mpr ⟨line, honly.1, state, queue, congrArg Except.ok hinfo⟩
    obtain ⟨⟨ustate, queue', state'⟩, hlookup⟩ := Option.isSome_iff_exists.mp (mem_keys_iff_lookup.mp hid)
    obtain ⟨other, hother, hnames, hconvert⟩ := hmerges.line _ _ _ _ (mem_of_lookup hlookup)
    have hinfo' := hsame other hother _ _ hnames
    rw [hinfo] at hinfo'
    cases hinfo'
    obtain rfl : BssTorque.convertStatus state = ustate := Except.ok.inj hconvert
    exact hlookup

/-! ## Letters that are read -/

/-- **States of `qstat`.**  A line with a letter that `convert_status` knows is read, and its job is listed in the
state of that letter, if and only if the letter is not `F`. -/
theorem torque_states_iff (host : Host) (hline : JobLine line number server queue letter) (hmapped : Mapped letter) :
    (BssTorque.extractInfo line = some (number, [letter], queue) ↔ letter ≠ 'F') ∧
      ∀ output, OnlyLine output line number →
        (Listed host output number (BssTorque.convertStatus [letter], queue, [letter]) ↔ letter ≠ 'F') := by
  have hread : BssTorque.extractInfo line = some (number, [letter], queue) ↔ letter ≠ 'F' := by
    rw [hline.info_iff, ← isStateLetter_iff hmapped]
    exact and_iff_right rfl
  exact ⟨hread, fun output honly => (listed_iff host honly).trans hread⟩

end Line

/-- A completed job. -/
theorem torque_states_iff_completed :
    (BssTorque.extractInfo " 4711.host jdoe batch Job 16522 1 -- 1000mb 00:00 C 00:00".toList =
        some ("4711".toList, ['C'], "batch".toList) ↔ 'C' ≠ 'F') ∧
      ∀ output, OnlyLine output " 4711.host jdoe batch Job 16522 1 -- 1000mb 00:00 C 00:00".toList "4711".toList →
        (Listed (calmHost UserDb.empty.cache) output "4711".toList
          (BssTorque.convertStatus ['C'], "batch".toList, ['C']) ↔ 'C' ≠ 'F') := by
  have hline : JobLine " 4711.host jdoe batch Job 16522 1 -- 1000mb 00:00 C 00:00".toList "4711".toList "host".toList
      "batch".toList 'C' :=
    ⟨by decide, by decide, by decide, ["jdoe".toList, "batch".toList, "Job".toList, "16522".toList, "1".toList,
      "--".toList, "1000mb".toList, "00:00".toList, "C".toList, "00:00".toList], by decide +kernel, rfl, rfl, rfl⟩
  exact torque_states_iff _ hline (by unfold Mapped; decide)

/-- A finished job is dropped from the listing. -/
theorem finished_job_dropped :
    ¬∀ (line number server queue : Str) (letter : Char), JobLine line number server queue letter → Mapped letter →
      BssTorque.extractInfo line = some (number, [letter], queue) := by
  intro h
  have hread := h "4711.host jdoe batch Job 16522 1 -- 1000mb 00:00 F 00:00".toList "4711".toList "host".toList
    "batch".toList 'F'
    ⟨by decide, by decide, by decide, ["jdoe".toList, "batch".toList, "Job".toList, "16522".toList, "1".toList,
      "--".toList, "1000mb".toList, "00:00".toList, "F".toList, "00:00".toList], by decide +kernel, rfl, rfl, rfl⟩
    (by unfold Mapped; decide)
  have hnone : BssTorque.extractInfo "4711.host jdoe batch Job 16522 1 -- 1000mb 00:00 F 00:00".toList = none := by
    decide +kernel
  cases hnone.symm.trans hread

end UnicoreTsi.BssCommon
