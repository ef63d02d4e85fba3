/-
# UnicoreTsi.JobIds — the id of a job in the reply to its submission and in the status listing.

The id UNICORE/X gets is the first number of the reply (`extract_job_id`), and it asks for the job under that
id, so the status listing must name the job by the same number (`extract_info`).  The expression of the Torque
variant wants a dot directly after the number, which the ids of array jobs do not have; there the listing is
searched for the first number that has one.
-/
import UnicoreTsi.Lib.Words
import UnicoreTsi.Numbers
import UnicoreTsi.UserCache
import UnicoreTsi.Variants

set_option autoImplicit false

namespace UnicoreTsi.BssCommon

open UnicoreTsi.Text UnicoreTsi.Regex UnicoreTsi.Words UnicoreTsi.Utils

/-! ## The first number of a reply -/

theorem stops_natText {n : ℕ} (x : Str) : Stops (fun c => (digitValue c).isNone) (natText n ++ x) := by
  refine stops_append_left (natText_ne_nil n) (fun c hc => ?_) x
  have hdigit : (digitValue c).isSome = true := isDigitChar_of_mem_natText c hc
  simpa using hdigit

/-- `\\D*(\\d+)\\D*` in front of a text with a number. -/
theorem match_firstNumber {front rest : Str} {n : ℕ} (prev : Option Char)
    (hfront : ∀ c ∈ front, (digitValue c).isNone = true) (hrest : Stops isDigitChar rest) :
    ∃ after, matchItems [nonDigits, digits, nonDigits] prev (front ++ (natText n ++ rest)) =
      some [front, natText n, after] := by
  have hlast : ∀ prev', ∃ after, matchItems [nonDigits] prev' rest = some [after] := by
    intro prev'
    have hfit : Fits [nonDigits] prev' [[]] := ⟨⟨by simp, by simp, by simp⟩, rfl⟩
    have hflat : ([[]] : List Str).flatten <+: rest := by simp
    obtain ⟨ps, hps⟩ := Option.isSome_iff_exists.mp (matchItems_complete hfit hflat)
    match ps, (matchItems_sound hps).1 with
    | [after], _ => exact ⟨after, hps⟩
  obtain ⟨after, hafter⟩ := hlast (lastOr (lastOr prev front) (natText n))
  refine ⟨after, matchItems_rep_run (takeWhile_run hfront (stops_natText rest)) (Nat.zero_le _) ?_⟩
  have hpos : 1 ≤ (natText n).length := List.length_pos_iff.mpr (natText_ne_nil n)
  exact matchItems_rep_run (takeWhile_run isDigitChar_of_mem_natText hrest) hpos hafter

theorem extractJobId_firstNumber {front rest : Str} {n : ℕ}
    (hfront : ∀ c ∈ front, (digitValue c).isNone = true) (hrest : Stops isDigitChar rest) :
    extractJobId (front ++ (natText n ++ rest)) = some (natText n) := by
  obtain ⟨after, hmatch⟩ := match_firstNumber none hfront hrest
  rw [extractJobId, search_of_match hmatch]

theorem slurm_extractJobId {front rest : Str} {n : ℕ} (hfront : ∀ c ∈ front, (digitValue c).isNone = true)
    (hrest : Stops isDigitChar rest) :
    BssSlurm.extractJobId ("Submitted".toList ++ (front ++ (natText n ++ rest))) = some (natText n) := by
  obtain ⟨after, hmatch⟩ := match_firstNumber (n := n) (lastOr none "Submitted".toList) hfront hrest
  have hsearch : search [literal "Submitted", nonDigits, digits, nonDigits] none
      ("Submitted".toList ++ (front ++ (natText n ++ rest))) =
        some ["Submitted".toList, front, natText n, after] := search_of_match (matchItems_lit hmatch)
  rw [BssSlurm.extractJobId, hsearch]

/-! ## A job and its status lines -/

/-- What the ids of array jobs have after the number. -/
def brackets (array : Bool) : Str := if array then "[]".toList else []

/-- The reply of the batch system to the submission of job `n`, and the first field of a status line of that
job.  The server name of a Torque id may be cut short in the listing. -/
inductive NamedBy : Variant → ℕ → Str → Str → Prop
  | slurm (n : ℕ) (rest suffix : Str) (hrest : Stops isDigitChar rest)
      (hsuffix : suffix = [] ∨ ∃ task, suffix = '_' :: task) :
      NamedBy .slurm n ("Submitted batch job ".toList ++ natText n ++ rest) (natText n ++ suffix)
  | lsf (n : ℕ) (queue rest : Str) :
      NamedBy .lsf n ("Job <".toList ++ natText n ++ "> is submitted to queue <".toList ++ queue ++
        ">.".toList ++ rest) (natText n)
  | torque (n : ℕ) (array : Bool) (server shown rest : Str) (hshown : shown <+: server) (hne : shown ≠ []) :
      NamedBy .torque n (natText n ++ brackets array ++ ".".toList ++ server ++ rest)
        (natText n ++ brackets array ++ ".".toList ++ shown)

/-- A line of the status listing with these fields: a line of `squeue` starts with the first of them, and one
of `qstat` has eleven. -/
structure StatusLine (v : Variant) (line : Str) (fields : List Str) : Prop where
  fields_eq : words isSpace line = fields
  flush : v = .slurm → Stops isSpace line
  eleven : v = .torque → fields.length = 11

theorem lsf_extractJobId {submitResult : Str} :
    Variant.lsf.hooks.extractJobId submitResult = extractJobId submitResult := rfl

theorem torque_extractJobId {submitResult : Str} :
    Variant.torque.hooks.extractJobId submitResult = extractJobId submitResult := rfl

theorem slurm_extractJobId_eq {submitResult : Str} :
    Variant.slurm.hooks.extractJobId submitResult = BssSlurm.extractJobId submitResult := rfl

theorem NamedBy.reply {v : Variant} {n : ℕ} {reply first : Str} (h : NamedBy v n reply first) :
    v.hooks.extractJobId reply = some (natText n) := by
  cases h with
  | slurm n rest suffix hrest hsuffix =>
      have hsplit : "Submitted batch job ".toList = "Submitted".toList ++ " batch job ".toList := by decide
      rw [slurm_extractJobId_eq, hsplit, List.append_assoc, List.append_assoc]
      exact slurm_extractJobId (by decide) hrest
  | lsf n queue rest =>
      have hstop : Stops isDigitChar ("> is submitted to queue <".toList ++ (queue ++ (">.".toList ++ rest))) :=
        stops_append_left (by decide) (by decide) _
      rw [lsf_extractJobId, List.append_assoc, List.append_assoc, List.append_assoc, List.append_assoc]
      exact extractJobId_firstNumber (by decide) hstop
  | torque n array server shown rest hshown hne =>
      have hstop : Stops isDigitChar (brackets array ++ (".".toList ++ (server ++ rest))) := by
        cases array
        · exact stops_append_left (s := ".".toList) (by decide) (by decide) _
        · exact stops_append_left (s := "[]".toList) (by decide) (by decide) _
      rw [torque_extractJobId, List.append_assoc, List.append_assoc, List.append_assoc, ← List.nil_append (natText n ++ _)]
      exact extractJobId_firstNumber nofun hstop

/-! ## Lines of `squeue` and `bjobs` -/

/-- What is known of letters and digits: none of them is white space. -/
def NoBlankLetters (host : Host) : Prop := ∀ c, isSpace c = true → host.isAlnum c = false

/-- The fields that tell state and queue: the first is a word of letters, digits and underscores, the second
starts with one of these. -/
def Tells (host : Host) (fields : List Str) : Prop :=
  ∃ state queue more, fields = state :: queue :: more ∧ (∀ c ∈ state, isWord host c = true) ∧
    ∃ c ∈ queue.head?, isWord host c = true

section Lines

variable {host : Host}

theorem isSpace_of_isWord (hhost : NoBlankLetters host) {c : Char} (h : isWord host c = true) :
    isSpace c = false := by
  by_contra hc
  rw [Bool.not_eq_false] at hc
  have hrange := isSpace_range hc
  have halnum : c.isAlphanum = false := by
    rw [← Bool.not_eq_true]
    intro h
    have hletter := isAlphanum_range h
    omega
  have hunderscore : c ≠ '_' := by
    rintro rfl
    exact absurd hc (by decide)
  simp [isWord, halnum, hunderscore, hhost c hc] at h

theorem length_pos {w : Str} (h : w ≠ []) : 1 ≤ w.length := List.length_pos_iff.mpr h

theorem length_pos_ne_nil {w : Str} (h : 1 ≤ w.length) : w ≠ [] := List.length_pos_iff.mp h

/-- A line that does not start with white space starts with its first field. -/
theorem words_flush {line first : Str} {others : List Str} (hwords : words isSpace line = first :: others)
    (hflush : Stops isSpace line) :
    ∃ rest, line = first ++ rest ∧ (∀ c ∈ first, isSpace c = false) ∧ Stops (fun c => !isSpace c) rest ∧
      words isSpace rest = others := by
  obtain ⟨pad, rest, rfl, hpad, hne, hrun, hstop, hrest⟩ := words_eq_cons hwords
  cases pad with
  | nil => exact ⟨rest, rfl, hrun, hstop, hrest⟩
  | cons c pad =>
      have hc : isSpace c = false := hflush c rfl
      rw [hpad c (List.mem_cons_self ..)] at hc
      cases hc

/-- Two more fields that tell state and queue, in front of whatever comes next. -/
theorem tells_of_words (hhost : NoBlankLetters host) {s₁ state s₂ queue rest : Str}
    (hs₁ : ∀ c ∈ s₁, isSpace c = true) (hstate : ∀ c ∈ state, isWord host c = true) (hstate' : state ≠ [])
    (hs₂ : ∀ c ∈ s₂, isSpace c = true) (hs₂' : s₂ ≠ []) (hqueue : ∀ c ∈ queue, isWord host c = true)
    (hqueue' : queue ≠ []) : Tells host (words isSpace (s₁ ++ (state ++ (s₂ ++ (queue ++ rest))))) := by
  have hblank : ∀ w : Str, (∀ c ∈ w, isWord host c = true) → ∀ c ∈ w, isSpace c = false :=
    fun w hw c hc => isSpace_of_isWord hhost (hw c hc)
  obtain ⟨tail, more, hmore⟩ := words_run_front hqueue' (hblank queue hqueue) rest
  rw [words_pad_run hs₁ hstate' (hblank state hstate) (stops_seps hs₂' hs₂ _), words_pad hs₂, hmore]
  obtain ⟨c, t, rfl⟩ := List.exists_cons_of_ne_nil hqueue'
  exact ⟨state, _, more, rfl, hstate, c, rfl, hqueue c (List.mem_cons_self ..)⟩

/-- A text whose fields tell state and queue, taken apart for the expressions. -/
theorem Tells.split {s : Str} (h : Tells host (words isSpace s)) :
    ∃ s₁ state s₂ c rest, s = s₁ ++ (state ++ (s₂ ++ ([c] ++ rest))) ∧ (∀ c ∈ s₁, isSpace c = true) ∧
      (∀ c ∈ state, isWord host c = true) ∧ state ≠ [] ∧ (∀ c ∈ s₂, isSpace c = true) ∧ s₂ ≠ [] ∧
      isWord host c = true := by
  obtain ⟨state, queue, more, hwords, hstate, c, hc, hword⟩ := h
  obtain ⟨s₁, rest, rfl, hs₁, hne, hrun, hstop, hrest⟩ := words_eq_cons hwords
  obtain ⟨s₂, rest', rfl, hs₂, hne₂, hrun₂, -, -⟩ := words_eq_cons hrest
  obtain ⟨c', t, rfl⟩ := List.exists_cons_of_ne_nil hne₂
  obtain rfl : c' = c := Option.some.inj hc
  refine ⟨s₁, state, s₂, c', t ++ rest', rfl, hs₁, hstate, hne, hs₂, ?_, hword⟩
  -- the state ends where white space starts
  rintro rfl
  have hblank : (!isSpace c') = false := hstop c' rfl
  rw [hrun₂ c' (List.mem_cons_self ..)] at hblank
  cases hblank

/-- What follows the number in a line of `squeue` is no digit. -/
theorem stops_suffix {rest suffix : Str} (hstop : Stops (fun c => !isSpace c) rest)
    (hsuffix : suffix = [] ∨ ∃ task, suffix = '_' :: task) : Stops isDigitChar (suffix ++ rest) := by
  rcases hsuffix with rfl | ⟨task, rfl⟩
  · intro c hc
    have hblank : isSpace c = true := by simpa using hstop c hc
    rw [← Bool.not_eq_true]
    intro hdigit
    rw [isSpace_of_digit hdigit] at hblank
    cases hblank
  · exact stops_cons (by decide)

/-- The expression after its number matches what follows the number. -/
theorem slurm_rest_match (hhost : NoBlankLetters host) {rest suffix : Str}
    (hblank : ∀ c ∈ suffix, isSpace c = false) (hstop : Stops (fun c => !isSpace c) rest)
    (htells : Tells host (words isSpace rest)) (hsuffix : suffix = [] ∨ ∃ task, suffix = '_' :: task)
    (prev : Option Char) :
    ∃ ps, matchItems (BssSlurm.infoItems host).tail prev (suffix ++ rest) = some ps := by
  obtain ⟨s₁, state, s₂, c, after, rfl, hs₁, hstate, hstate', hs₂, hs₂', hc⟩ := htells.split
  have hs₁' : s₁ ≠ [] := seps_ne_nil hstate' (fun a ha => isSpace_of_isWord hhost (hstate a ha)) hstop
  -- the suffix is an underscore and the rest of the field, or nothing
  obtain ⟨u, ns, rfl, hu, hul, hns⟩ : ∃ u ns : Str, suffix = u ++ ns ∧ (∀ a ∈ u, decide (a = '_') = true) ∧
      u.length ≤ 1 ∧ ∀ a ∈ ns, (!isSpace a) = true := by
    rcases hsuffix with rfl | ⟨task, rfl⟩
    · exact ⟨[], [], rfl, nofun, by simp, nofun⟩
    · refine ⟨['_'], task, rfl, by simp, le_rfl, fun a ha => ?_⟩
      rw [hblank a (List.mem_cons_of_mem _ ha)]
      rfl
  have hfit : Fits (BssSlurm.infoItems host).tail prev [u, ns, s₁, state, s₂, [c]] :=
    ⟨⟨hu, Nat.zero_le _, by simpa using hul⟩, ⟨hns, Nat.zero_le _, by simp⟩, ⟨hs₁, length_pos hs₁', by simp⟩,
      ⟨hstate, length_pos hstate', by simp⟩, ⟨hs₂, length_pos hs₂', by simp⟩,
      ⟨by simpa using hc, le_rfl, by simp⟩, rfl⟩
  exact Option.isSome_iff_exists.mp (matchItems_complete hfit ⟨after, by simp⟩)

theorem slurm_info_iff (hhost : NoBlankLetters host) {line suffix : Str} {others : List Str} {n : ℕ}
    (hwords : words isSpace line = (natText n ++ suffix) :: others) (hflush : Stops isSpace line)
    (hsuffix : suffix = [] ∨ ∃ task, suffix = '_' :: task) :
    (∃ state queue, BssSlurm.extractInfo host line = some (natText n, state, queue)) ↔ Tells host others := by
  constructor
  · rintro ⟨state, queue, h⟩
    unfold BssSlurm.extractInfo at h
    split at h
    · rename_i d u ns s₁ w₁ s₂ w₂ hmatch
      obtain ⟨⟨⟨hd, hd', -⟩, ⟨hu, -, -⟩, ⟨hns, -, -⟩, ⟨hs₁, hs₁', -⟩, ⟨hw₁, hw₁', -⟩, ⟨hs₂, hs₂', -⟩,
        ⟨hw₂, hw₂', -⟩, -⟩, rest, rfl⟩ := matchItems_sound hmatch
      have hfirst : ∀ c ∈ d ++ (u ++ ns), isSpace c = false := by
        intro c hc
        rcases List.mem_append.mp hc with hc | hc
        · exact isSpace_of_digit (hd c hc)
        · rcases List.mem_append.mp hc with hc | hc
          · have hunder : c = '_' := by simpa using hu c hc
            rw [hunder]
            rfl
          · simpa using hns c hc
      have hne : d ++ (u ++ ns) ≠ [] := fun h => length_pos_ne_nil hd' (List.append_eq_nil_iff.mp h).1
      have hsplit : words isSpace ((d ++ (u ++ ns)) ++ (s₁ ++ (w₁ ++ (s₂ ++ (w₂ ++ rest))))) =
          (natText n ++ suffix) :: others := by
        rw [← hwords]
        simp
      rw [words_run_append hne hfirst (stops_seps (length_pos_ne_nil hs₁') hs₁ _)] at hsplit
      rw [← (List.cons.inj hsplit).2]
      exact tells_of_words hhost hs₁ hw₁ (length_pos_ne_nil hw₁') hs₂ (length_pos_ne_nil hs₂') hw₂
        (length_pos_ne_nil hw₂')
    · cases h
  · intro htells
    obtain ⟨rest, hline, hrun, hstop, hrest⟩ := words_flush hwords hflush
    rw [← hrest] at htells
    obtain ⟨ps, hps⟩ := slurm_rest_match hhost (fun c hc => hrun c (List.mem_append_right _ hc)) hstop htells
      hsuffix (lastOr none (natText n))
    have hpos : 1 ≤ (natText n).length := length_pos (natText_ne_nil n)
    have hmatch : matchItems (BssSlurm.infoItems host) none line = some (natText n :: ps) := by
      rw [hline, List.append_assoc]
      exact matchItems_rep_run (takeWhile_run isDigitChar_of_mem_natText (stops_suffix hstop hsuffix)) hpos hps
    match ps, (matchItems_sound hps).1 with
    | [_, _, _, state, _, queue], _ => exact ⟨state, queue, by rw [BssSlurm.extractInfo, hmatch]⟩

/-- The fields of a line that the expression of the LSF variant matches. -/
theorem lsf_occurs (hhost : NoBlankLetters host) {line before : Str} {ps : List Str}
    (h : Occurs (BssLsf.infoItems host) none line before ps) :
    ∃ a blank d s₁ user s₂ state s₃ queue dots, ps = [a, blank, d, s₁, user, s₂, state, s₃, queue, dots] ∧
      ∃ more, words isSpace line = d :: user :: more ∧ Tells host more := by
  obtain ⟨rest, rfl, hfit⟩ := h
  match ps, hfit with
  | [a, blank, d, s₁, user, s₂, state, s₃, queue, dots],
    ⟨⟨ha, hlook⟩, ⟨hblank, _, _⟩, ⟨hd, hd', _⟩, ⟨hs₁, hs₁', _⟩, ⟨huser, huser', _⟩, ⟨hs₂, hs₂', _⟩,
      ⟨hstate, hstate', _⟩, ⟨hs₃, hs₃', _⟩, ⟨hqueue, hqueue', _⟩, _⟩ =>
    refine ⟨a, blank, d, s₁, user, s₂, state, s₃, queue, dots, rfl,
      words isSpace (s₂ ++ (state ++ (s₃ ++ (queue ++ (dots ++ rest))))), ?_, ?_⟩
    · -- the expression is anchored, so nothing comes before it
      have hbefore : before = [] := by
        rcases List.eq_nil_or_concat before with hnil | ⟨front, c, rfl⟩
        · exact hnil
        · simp [lastOr] at hlook
      obtain rfl : a = [] := ha
      subst hbefore
      have hduser : ∀ c ∈ user, isSpace c = false := fun c hc => by simpa using huser c hc
      have hflat : [] ++ ([[], blank, d, s₁, user, s₂, state, s₃, queue, dots].flatten ++ rest) =
          blank ++ (d ++ (s₁ ++ (user ++ (s₂ ++ (state ++ (s₃ ++ (queue ++ (dots ++ rest)))))))) := by simp
      rw [hflat, words_pad_run hblank (length_pos_ne_nil hd') (fun c hc => isSpace_of_digit (hd c hc))
        (stops_seps (length_pos_ne_nil hs₁') hs₁ _), words_pad_run hs₁ (length_pos_ne_nil huser') hduser
        (stops_seps (length_pos_ne_nil hs₂') hs₂ _)]
    · exact tells_of_words hhost hs₂ hstate (length_pos_ne_nil hstate') hs₃ (length_pos_ne_nil hs₃') hqueue
        (length_pos_ne_nil hqueue')

theorem lsf_info_iff (hhost : NoBlankLetters host) {line : Str} {others : List Str} {n : ℕ}
    (hwords : words isSpace line = natText n :: others) :
    (∃ state queue, BssLsf.extractInfo host line = some (natText n, state, queue)) ↔
      ∃ user more, others = user :: more ∧ Tells host more := by
  constructor
  · rintro ⟨state, queue, h⟩
    unfold BssLsf.extractInfo at h
    split at h
    · rename_i hsearch
      obtain ⟨before, hocc, -⟩ := search_eq_some hsearch
      obtain ⟨_, _, _, _, user, _, _, _, _, _, -, more, hfields, htells⟩ := lsf_occurs hhost hocc
      rw [hwords] at hfields
      exact ⟨user, more, (List.cons.inj hfields).2, htells⟩
    · cases h
  · rintro ⟨user, more, rfl, htells⟩
    obtain ⟨blank, rest, rfl, hblank, hne, hrun, hstop, hrest⟩ := words_eq_cons hwords
    obtain ⟨s₁, rest', rfl, hs₁, hne', hrun', hstop', hrest'⟩ := words_eq_cons hrest
    rw [← hrest'] at htells
    obtain ⟨s₂, state, s₃, c, after, rfl, hs₂, hstate, hstate', hs₃, hs₃', hc⟩ := htells.split
    have hs₁' : s₁ ≠ [] := seps_ne_nil hne' hrun' hstop
    have hs₂' : s₂ ≠ [] := seps_ne_nil hstate' (fun a ha => isSpace_of_isWord hhost (hstate a ha)) hstop'
    have huser : ∀ a ∈ user, (!isSpace a) = true := by
      intro a ha
      rw [hrun' a ha]
      rfl
    have hfit : Fits (BssLsf.infoItems host) none [[], blank, natText n, s₁, user, s₂, state, s₃, [c], []] :=
      ⟨⟨rfl, rfl⟩, ⟨hblank, Nat.zero_le _, by simp⟩,
        ⟨isDigitChar_of_mem_natText, length_pos (natText_ne_nil n), by simp⟩, ⟨hs₁, length_pos hs₁', by simp⟩,
        ⟨huser, length_pos hne', by simp⟩, ⟨hs₂, length_pos hs₂', by simp⟩, ⟨hstate, length_pos hstate', by simp⟩,
        ⟨hs₃, length_pos hs₃', by simp⟩, ⟨by simpa using hc, le_rfl, by simp⟩, ⟨nofun, le_rfl, by simp⟩, rfl⟩
    have hline : blank ++ (natText n ++ (s₁ ++ (user ++ (s₂ ++ (state ++ (s₃ ++ ([c] ++ after))))))) =
        [] ++ ([[], blank, natText n, s₁, user, s₂, state, s₃, [c], []].flatten ++ after) := by simp
    obtain ⟨ps, hsearch⟩ := Option.isSome_iff_exists.mp (search_isSome ⟨after, hline, hfit⟩)
    obtain ⟨before, hfound, -⟩ := search_eq_some hsearch
    obtain ⟨_, _, d, _, _, _, st, _, queue, _, rfl, _, hfields, -⟩ := lsf_occurs hhost hfound
    rw [hwords] at hfields
    exact ⟨st, queue, by rw [BssLsf.extractInfo, hsearch, (List.cons.inj hfields).1]⟩

end Lines

/-! ## Lines of `qstat` -/

/-- A number with a dot and something more directly after it. -/
def DottedNumber (before number after s : Str) : Prop :=
  s = before ++ (number ++ '.' :: after) ∧ number ≠ [] ∧ (∀ c ∈ number, isDigitChar c = true) ∧ after ≠ []

/-- The first number with a dot and something more directly after it. -/
def FirstDotted (number s : Str) : Prop :=
  ∃ before after, DottedNumber before number after s ∧
    ∀ before' number' after', DottedNumber before' number' after' s → before.length ≤ before'.length

theorem FirstDotted.unique {d d' s : Str} (h : FirstDotted d s) (h' : FirstDotted d' s) : d = d' := by
  obtain ⟨a, b, hdot, hmin⟩ := h
  obtain ⟨a', b', hdot', hmin'⟩ := h'
  have hlength : a.length = a'.length := Nat.le_antisymm (hmin _ _ _ hdot') (hmin' _ _ _ hdot)
  obtain ⟨hs, -, hdigits, -⟩ := hdot
  obtain ⟨hs', -, hdigits', -⟩ := hdot'
  have hrest := (List.append_inj (hs.symm.trans hs') hlength).2
  have hdotStops : ∀ x, Stops isDigitChar ('.' :: x) := fun x => stops_cons (by decide)
  exact (run_unique hdigits hdigits' (hdotStops b) (hdotStops b') hrest).1

/-- The state letters a line of `qstat` is to have. -/
def HasState (others : List Str) (state : Str) : Prop :=
  others[8]? = some state ∧ ∀ c ∈ state, BssTorque.isStateLetter c = true

section Qstat

variable {line pad first rest : Str} {others : List Str}

/-- A line whose first field is `first`, with ten more. -/
structure QstatLine (line pad first rest : Str) (others : List Str) : Prop where
  line_eq : line = pad ++ (first ++ rest)
  pad_blank : ∀ c ∈ pad, isSpace c = true
  first_ne : first ≠ []
  first_run : ∀ c ∈ first, isSpace c = false
  stops : Stops (fun c => !isSpace c) rest
  words_eq : words isSpace rest = others
  ten : others.length = 10

theorem qstatLine_of_words (h : words isSpace line = first :: others) (hten : others.length = 10) :
    ∃ pad rest, QstatLine line pad first rest others := by
  obtain ⟨pad, rest, hline, hpad, hne, hrun, hstop, hrest⟩ := words_eq_cons h
  exact ⟨pad, rest, hline, hpad, hne, hrun, hstop, hrest, hten⟩

theorem isSpace_of_isStateLetter {c : Char} (h : BssTorque.isStateLetter c = true) : isSpace c = false := by
  have hall : ∀ c ∈ "CEHQRTWS".toList, isSpace c = false := by decide
  exact hall c (by simpa [BssTorque.isStateLetter] using h)

theorem field_of_fits {prev prev' : Option Char} {s f : Str} (hs : Item.Fits prev s spaces)
    (hf : Item.Fits prev' f nonSpaces) : IsField isSpace (s, f) ∧ s ≠ [] := by
  obtain ⟨hspace, hpos, -⟩ := hs
  obtain ⟨hword, hpos', -⟩ := hf
  exact ⟨⟨hspace, length_pos_ne_nil hpos', fun c hc => by simpa using hword c hc⟩, length_pos_ne_nil hpos⟩

/-- A text that ends with a word and has no other one is that word with white space before it. -/
theorem eq_pad_of_words_eq {x y w : Str} (h : words isSpace (x ++ y) = [w]) (hne : y ≠ [])
    (hy : ∀ c ∈ y, isSpace c = false) : ∃ pad, x ++ y = pad ++ w ∧ ∀ c ∈ pad, isSpace c = true := by
  obtain ⟨pad, trail, hsplit, hpad, -, -, htrail⟩ := words_eq_singleton h
  rcases List.eq_nil_or_concat trail with rfl | ⟨front, c, rfl⟩
  · exact ⟨pad, by simpa using hsplit, hpad⟩
  · obtain ⟨front', c', rfl⟩ := (List.eq_nil_or_concat y).resolve_left hne
    have hlast := congrArg List.getLast? hsplit
    simp only [List.concat_eq_append, ← List.append_assoc, List.getLast?_concat, Option.some.injEq] at hlast
    have hc := htrail c (by simp)
    rw [← hlast, hy c' (by simp)] at hc
    cases hc

/-- A text that starts outside white space begins after the white space it is put behind. -/
theorem split_after_pad {x y pad first : Str} (h : x ++ y = pad ++ first) (hpad : ∀ c ∈ pad, isSpace c = true)
    (hne : y ≠ []) (hy : Stops isSpace y) : ∃ a, x = pad ++ a ∧ first = a ++ y := by
  rcases List.append_eq_append_iff.mp h with ⟨a, rfl, rfl⟩ | ⟨a, rfl, rfl⟩
  · cases a with
    | nil => exact ⟨[], by simp, rfl⟩
    | cons c a =>
        have hc : isSpace c = false := hy c rfl
        rw [hpad c (by simp)] at hc
        cases hc
  · exact ⟨a, rfl, rfl⟩

/-- A dotted number in front of which the line has no other word is in the first field. -/
theorem dotted_in_first (hq : QstatLine line pad first rest others) {front d b tail : Str}
    (hd : ∀ c ∈ d, isDigitChar c = true) (hb : ∀ c ∈ b, isSpace c = false) (hsplit : line = (front ++ (d ++ '.' :: b)) ++ tail)
    (hx : words isSpace (front ++ (d ++ '.' :: b)) = [first]) : ∃ a, front = pad ++ a ∧ first = a ++ (d ++ '.' :: b) := by
  have hbody : ∀ c ∈ d ++ '.' :: b, isSpace c = false := by
    intro c hc
    rcases List.mem_append.mp hc with hc | hc
    · exact isSpace_of_digit (hd c hc)
    · rcases List.mem_cons.mp hc with rfl | hc
      · decide
      · exact hb c hc
  have hbodyNe : d ++ '.' :: b ≠ [] := by simp
  obtain ⟨pad', hpad', hblank'⟩ := eq_pad_of_words_eq hx hbodyNe hbody
  -- the white space in front of it is that of the line
  have hsame : pad' = pad := by
    have hboth : pad' ++ (first ++ tail) = pad ++ (first ++ rest) := by
      rw [← List.append_assoc, ← hpad', ← hsplit, hq.line_eq]
    exact (run_unique hblank' hq.pad_blank (stops_append_left hq.first_ne hq.first_run _)
      (stops_append_left hq.first_ne hq.first_run _) hboth).1
  subst hsame
  have hstopBody : Stops isSpace (d ++ '.' :: b) := by
    have hstop := stops_append_left hbodyNe hbody []
    rwa [List.append_nil] at hstop
  exact split_after_pad hpad' hblank' hbodyNe hstopBody

/-- Where the expression of the Torque variant can match a line of eleven fields. -/
theorem torque_occurs (hq : QstatLine line pad first rest others) {before : Str} {ps : List Str}
    (h : Occurs BssTorque.infoItems none line before ps) :
    ∃ a blank d b state queue, BssTorque.infoOf ps = some (d, state, queue) ∧ before ++ blank = pad ++ a ∧
      (∀ c ∈ blank, isSpace c = true) ∧ DottedNumber a d b first ∧ HasState others state ∧
      others[1]? = some queue := by
  obtain ⟨after, hline, hfit⟩ := h
  match ps, hfit with
  | [w, d, dot, b, s₁, f₁, s₂, f₂, s₃, f₃, s₄, f₄, s₅, f₅, s₆, f₆, s₇, f₇, s₈, f₈, s₉, state, s₁₀, last],
    ⟨⟨hw, _, _⟩, ⟨hd, hd', _⟩, hdot, ⟨hb, hb', _⟩, h₁, g₁, h₂, g₂, h₃, g₃, h₄, g₄, h₅, g₅, h₆, g₆, h₇, g₇, h₈, g₈,
      h₉, ⟨hstate, hstate', _⟩, ⟨hs₁₀, hs₁₀', _⟩, ⟨hlast, hlast', _⟩, _⟩ =>
    obtain rfl : dot = ['.'] := hdot
    have hb'' : ∀ c ∈ b, isSpace c = false := fun c hc => by simpa using hb c hc
    have hlast'' : ∀ c ∈ last, isSpace c = false := fun c hc => by simpa using hlast c hc
    have hstate'' : IsField isSpace (s₉, state) ∧ s₉ ≠ [] :=
      ⟨⟨h₉.1, length_pos_ne_nil hstate', fun c hc => isSpace_of_isStateLetter (hstate c hc)⟩,
        length_pos_ne_nil h₉.2.1⟩
    -- the nine fields between the first and the last
    let l : List (Str × Str) := [(s₁, f₁), (s₂, f₂), (s₃, f₃), (s₄, f₄), (s₅, f₅), (s₆, f₆), (s₇, f₇), (s₈, f₈),
      (s₉, state)]
    have hl : ∀ e ∈ l, IsField isSpace e ∧ e.1 ≠ [] := by
      simp only [l, List.forall_mem_cons]
      exact ⟨field_of_fits h₁ g₁, field_of_fits h₂ g₂, field_of_fits h₃ g₃, field_of_fits h₄ g₄,
        field_of_fits h₅ g₅, field_of_fits h₆ g₆, field_of_fits h₇ g₇, field_of_fits h₈ g₈, hstate'', nofun⟩
    have hsplit : line = ((before ++ w) ++ (d ++ '.' :: b)) ++ (joined l ++ (s₁₀ ++ (last ++ after))) := by
      rw [hline]
      simp [l, joined]
    obtain ⟨tail, more, hmore⟩ := words_run_front (length_pos_ne_nil hlast') hlast'' after
    have hwords := words_joined hl (stops_seps (length_pos_ne_nil hs₁₀') hs₁₀ (last ++ after))
      ((before ++ w) ++ (d ++ '.' :: b))
    rw [← hsplit, hq.line_eq, words_pad_run hq.pad_blank hq.first_ne hq.first_run hq.stops, hq.words_eq,
      words_pad hs₁₀, hmore] at hwords
    have hne : words isSpace ((before ++ w) ++ (d ++ '.' :: b)) ≠ [] := by
      intro hnil
      have hdotBlank := words_eq_nil.mp hnil '.' (by simp)
      exact absurd hdotBlank (by decide)
    obtain ⟨x, xs, hx⟩ := List.exists_cons_of_ne_nil hne
    rw [hx, List.cons_append] at hwords
    obtain ⟨rfl, hothers⟩ := List.cons.inj hwords
    -- eleven fields leave no room for more before or after
    have hcount := congrArg List.length hothers
    have hten := hq.ten
    simp only [l, List.length_append, List.length_map, List.length_cons, List.length_nil] at hcount
    have hxs : xs = [] := List.length_eq_zero_iff.mp (by omega)
    subst hxs
    obtain ⟨a, hfront, hfirst⟩ := dotted_in_first hq hd hb'' hsplit hx
    refine ⟨a, w, d, b, state, f₂, rfl, hfront, hw, ⟨hfirst, length_pos_ne_nil hd', hd, length_pos_ne_nil hb'⟩,
      ⟨?_, hstate⟩, ?_⟩
    · rw [hothers]
      rfl
    · rw [hothers]
      rfl

theorem fits_field {e : Str × Str} (h : IsField isSpace e ∧ e.1 ≠ []) (prev prev' : Option Char) :
    Item.Fits prev e.1 spaces ∧ Item.Fits prev' e.2 nonSpaces := by
  obtain ⟨⟨hspace, hne', hword⟩, hne⟩ := h
  exact ⟨⟨hspace, length_pos hne, by simp⟩, ⟨fun c hc => by simp [hword c hc], length_pos hne', by simp⟩⟩

/-- The pieces a match consists of: white space, the number, the dot, the rest of the field, and the other
fields, each with the white space before it. -/
def piecesOf (w d b : Str) (l : List (Str × Str)) : List Str := w :: d :: ['.'] :: b :: l.flatMap fun e => [e.1, e.2]

theorem flatten_piecesOf (w d b : Str) (l : List (Str × Str)) :
    (piecesOf w d b l).flatten = w ++ (d ++ '.' :: (b ++ joined l)) := by
  have hjoined : (l.flatMap fun e => [e.1, e.2]).flatten = joined l := by
    induction l with
    | nil => rfl
    | cons e l ih =>
        rw [List.flatMap_cons, List.flatten_append, ih]
        simp [joined]
  simp [piecesOf, hjoined]

theorem ten_fields {α : Type} : ∀ {l : List α}, l.length = 10 → ∃ e₁ e₂ e₃ e₄ e₅ e₆ e₇ e₈ e₉ e₁₀,
    l = [e₁, e₂, e₃, e₄, e₅, e₆, e₇, e₈, e₉, e₁₀]
  | [e₁, e₂, e₃, e₄, e₅, e₆, e₇, e₈, e₉, e₁₀], _ => ⟨e₁, e₂, e₃, e₄, e₅, e₆, e₇, e₈, e₉, e₁₀, rfl⟩

/-- The expression matches at every dotted number of the first field, and at the first of them, if the field
starts with it, with the white space before. -/
theorem torque_occurs_of (hq : QstatLine line pad first rest others) {a d b state : Str}
    (hdot : DottedNumber a d b first) (hstate : HasState others state) :
    ∃ ps, Occurs BssTorque.infoItems none line (if a = [] then [] else pad ++ a) ps := by
  obtain ⟨hfirst, hd, hdigits, hb⟩ := hdot
  have hbrun : ∀ c ∈ b, (!isSpace c) = true := by
    intro c hc
    rw [hq.first_run c (by rw [hfirst]; simp [hc])]
    rfl
  obtain ⟨l, trail, hrest, hmap, hfield, hsep, -⟩ := words_eq_joined hq.words_eq
  have hlength : l.length = 10 := by
    have hten := congrArg List.length hmap
    rw [List.length_map, hq.ten] at hten
    exact hten
  obtain ⟨e₁, e₂, e₃, e₄, e₅, e₆, e₇, e₈, e₉, e₁₀, rfl⟩ := ten_fields hlength
  have hfirstSep : e₁.1 ≠ [] := by
    obtain ⟨-, hne, hword⟩ := hfield e₁ (List.mem_cons_self ..)
    refine seps_ne_nil hne hword (y := joined [e₂, e₃, e₄, e₅, e₆, e₇, e₈, e₉, e₁₀] ++ trail) ?_
    have hstop := hq.stops
    rw [hrest] at hstop
    simpa [joined] using hstop
  have hall : ∀ e ∈ [e₁, e₂, e₃, e₄, e₅, e₆, e₇, e₈, e₉, e₁₀], IsField isSpace e ∧ e.1 ≠ [] := by
    intro e he
    refine ⟨hfield e he, ?_⟩
    rcases List.mem_cons.mp he with rfl | he
    · exact hfirstSep
    · exact hsep e he
  simp only [List.forall_mem_cons] at hall
  obtain ⟨g₁, g₂, g₃, g₄, g₅, g₆, g₇, g₈, g₉, g₁₀, -⟩ := hall
  obtain ⟨hat, hletters⟩ := hstate
  obtain rfl : e₉.2 = state := by
    rw [← hmap] at hat
    exact Option.some.inj hat
  have hfit : ∀ w : Str, (∀ c ∈ w, isSpace c = true) → ∀ prev, Fits BssTorque.infoItems prev
      (piecesOf w d b [e₁, e₂, e₃, e₄, e₅, e₆, e₇, e₈, e₉, e₁₀]) := by
    intro w hw prev
    exact ⟨⟨hw, Nat.zero_le _, by simp⟩, ⟨hdigits, length_pos hd, by simp⟩, rfl, ⟨hbrun, length_pos hb, by simp⟩,
      (fits_field g₁ _ none).1, (fits_field g₁ none _).2, (fits_field g₂ _ none).1, (fits_field g₂ none _).2,
      (fits_field g₃ _ none).1, (fits_field g₃ none _).2, (fits_field g₄ _ none).1, (fits_field g₄ none _).2,
      (fits_field g₅ _ none).1, (fits_field g₅ none _).2, (fits_field g₆ _ none).1, (fits_field g₆ none _).2,
      (fits_field g₇ _ none).1, (fits_field g₇ none _).2, (fits_field g₈ _ none).1, (fits_field g₈ none _).2,
      (fits_field g₉ _ none).1, ⟨hletters, length_pos g₉.1.2.1, by simp⟩, (fits_field g₁₀ _ none).1,
      (fits_field g₁₀ none _).2, rfl⟩
  by_cases ha : a = []
  · refine ⟨_, trail, ?_, hfit pad hq.pad_blank _⟩
    rw [flatten_piecesOf, hq.line_eq, hfirst, hrest, if_pos ha, ha]
    simp
  · refine ⟨_, trail, ?_, hfit [] (List.forall_mem_nil _) _⟩
    rw [flatten_piecesOf, hq.line_eq, hfirst, hrest, if_neg ha]
    simp

/-- What a search in a line of eleven fields finds is the first dotted number of the first field. -/
theorem torque_found (hq : QstatLine line pad first rest others) {ps : List Str}
    (h : search BssTorque.infoItems none line = some ps) :
    ∃ d state queue, BssTorque.infoOf ps = some (d, state, queue) ∧ FirstDotted d first ∧ HasState others state ∧
      others[1]? = some queue := by
  obtain ⟨before, hocc, hmin⟩ := search_eq_some h
  obtain ⟨a, blank, d, b, state, queue, hinfo, hfront, hblank, hdot, hstate, hqueue⟩ := torque_occurs hq hocc
  refine ⟨d, state, queue, hinfo, ⟨a, b, hdot, fun a' d' b' hdot' => ?_⟩, hstate, hqueue⟩
  by_contra hlt
  obtain ⟨ps', hocc'⟩ := torque_occurs_of hq hdot' hstate
  have hle := hmin _ _ hocc'
  have ha : a ≠ [] := by
    rintro rfl
    exact hlt (Nat.zero_le _)
  -- the number is not at the start of the field, so there is no white space before it
  have hnoblank : blank = [] := by
    rcases List.eq_nil_or_concat blank with hnil | ⟨front, c, rfl⟩
    · exact hnil
    · obtain ⟨front', c', rfl⟩ := (List.eq_nil_or_concat a).resolve_left ha
      have hlast := congrArg List.getLast? hfront
      simp only [List.concat_eq_append, ← List.append_assoc, List.getLast?_concat, Option.some.injEq] at hlast
      have hc := hblank c (by simp)
      rw [hlast, hq.first_run c' (by rw [hdot.1]; simp)] at hc
      cases hc
  rw [hnoblank, List.append_nil] at hfront
  have hpos : 0 < a.length := List.length_pos_iff.mpr ha
  split at hle
  · rw [hfront, List.length_append, List.length_nil] at hle
    omega
  · rw [hfront, List.length_append, List.length_append] at hle
    omega

/-- What is read of a line of eleven fields: a dotted number of the first field, the ninth of the others and the
second of them. -/
theorem torque_info_eq_some (hq : QstatLine line pad first rest others) {n state queue : Str} :
    BssTorque.extractInfo line = some (n, state, queue) ↔
      FirstDotted n first ∧ HasState others state ∧ others[1]? = some queue := by
  unfold BssTorque.extractInfo
  constructor
  · intro h
    obtain ⟨ps, hsearch, hinfo⟩ := Option.bind_eq_some_iff.mp h
    obtain ⟨d, state', queue', hinfo', hdot, hstate, hqueue⟩ := torque_found hq hsearch
    rw [hinfo] at hinfo'
    cases hinfo'
    exact ⟨hdot, hstate, hqueue⟩
  · rintro ⟨⟨a, b, hat, hmin⟩, hstate, hqueue⟩
    obtain ⟨_, hocc⟩ := torque_occurs_of hq hat hstate
    obtain ⟨ps, hsearch⟩ := Option.isSome_iff_exists.mp (search_isSome hocc)
    obtain ⟨d, state', queue', hinfo, hdot', hstate', hqueue'⟩ := torque_found hq hsearch
    obtain rfl := hdot'.unique ⟨a, b, hat, hmin⟩
    obtain rfl : state' = state := Option.some.inj (hstate'.1.symm.trans hstate.1)
    obtain rfl : queue' = queue := Option.some.inj (hqueue'.symm.trans hqueue)
    rw [hsearch]
    exact hinfo

theorem torque_info_iff (hq : QstatLine line pad first rest others) (n : Str) :
    (∃ state queue, BssTorque.extractInfo line = some (n, state, queue)) ↔
      FirstDotted n first ∧ ∃ state, HasState others state := by
  simp only [torque_info_eq_some hq]
  constructor
  · rintro ⟨state, -, hdot, hstate, -⟩
    exact ⟨hdot, state, hstate⟩
  · rintro ⟨hdot, state, hstate⟩
    -- a line with a ninth field has a second one
    have hlength : 1 < others.length := by
      have hten := hq.ten
      omega
    exact ⟨state, others[1], hdot, hstate, List.getElem?_eq_getElem hlength⟩

end Qstat

/-- The id of a job that is not an array starts with its number. -/
theorem firstDotted_plain {number shown : Str} (hnumber : number ≠ []) (hdigits : ∀ c ∈ number, isDigitChar c = true)
    (hne : shown ≠ []) : FirstDotted number (number ++ ".".toList ++ shown) :=
  ⟨[], shown, ⟨by simp, hnumber, hdigits, hne⟩, fun _ _ _ _ => Nat.zero_le _⟩

/-- In the id of an array job only the server name can have a dotted number. -/
theorem dottedNumber_array {n : ℕ} {shown a d b : Str} :
    DottedNumber a d b (natText n ++ "[].".toList ++ shown) ↔
      ∃ a', a = natText n ++ "[].".toList ++ a' ∧ DottedNumber a' d b shown := by
  constructor
  · rintro ⟨heq, hd, hdigits, hb⟩
    have hdotStops : Stops isDigitChar ('.' :: b) := stops_cons (by decide)
    rcases List.append_eq_append_iff.mp heq with ⟨a', ha, hshown⟩ | ⟨p, hp, hrest⟩
    · exact ⟨a', ha, hshown, hd, hdigits, hb⟩
    · -- the number would have to start before the server name
      rcases List.append_eq_append_iff.mp hp with ⟨q, rfl, hq⟩ | ⟨m, hm, rfl⟩
      · cases p with
        | nil => exact ⟨[], by rw [hq]; simp, hrest.symm, hd, hdigits, hb⟩
        | cons c p =>
            have hc : ∀ c ∈ "[].".toList, isDigitChar c = false := by decide
            obtain ⟨e, t, rfl⟩ := List.exists_cons_of_ne_nil hd
            obtain rfl : e = c := (List.cons.inj hrest).1
            have hdigit := hdigits e (List.mem_cons_self ..)
            rw [hc e (by rw [hq]; simp)] at hdigit
            cases hdigit
      · have hmdigits : ∀ c ∈ m, isDigitChar c = true :=
          fun c hc => isDigitChar_of_mem_natText c (by rw [hm]; exact List.mem_append_right _ hc)
        rw [List.append_assoc] at hrest
        have hbracket : Stops isDigitChar ("[].".toList ++ shown) := stops_append_left (by decide) (by decide) _
        have htail := (run_unique hdigits hmdigits hdotStops hbracket hrest).2
        cases htail
  · rintro ⟨a', rfl, rfl, hd, hdigits, hb⟩
    exact ⟨by simp, hd, hdigits, hb⟩

theorem firstDotted_array {n : ℕ} {shown d : Str} :
    FirstDotted d (natText n ++ "[].".toList ++ shown) ↔ FirstDotted d shown := by
  constructor
  · rintro ⟨a, b, hdot, hmin⟩
    obtain ⟨a', rfl, hdot'⟩ := dottedNumber_array.mp hdot
    refine ⟨a', b, hdot', fun c e f hother => ?_⟩
    have hle := hmin _ _ _ (dottedNumber_array.mpr ⟨c, rfl, hother⟩)
    simp only [List.length_append] at hle
    omega
  · rintro ⟨a', b, hdot', hmin⟩
    refine ⟨_, b, dottedNumber_array.mpr ⟨a', rfl, hdot'⟩, fun c e f hother => ?_⟩
    obtain ⟨c', rfl, hother'⟩ := dottedNumber_array.mp hother
    have hle := hmin _ _ _ hother'
    simp only [List.length_append]
    omega

/-! ## The two names of a job -/

/-- The fields of a status line by which `extract_info` finds the number of the job. -/
def Recognized (v : Variant) (host : Host) (n : ℕ) (first : Str) (others : List Str) : Prop :=
  match v with
  | .slurm => Tells host others
  | .lsf => ∃ user more, others = user :: more ∧ Tells host more
  | .torque => (∃ state, HasState others state) ∧
      ((∃ shown, first = natText n ++ ".".toList ++ shown) ∨
        ∃ shown, first = natText n ++ "[].".toList ++ shown ∧ FirstDotted (natText n) shown)
  | .nobatch => False

/-- The id of the submission is the id of the status line exactly where the line has the fields its
expression wants and, under Torque, the job is no array. -/
theorem same_id_iff {host : Host} (hhost : NoBlankLetters host) {v : Variant} {n : ℕ} {reply line first : Str}
    {others : List Str} (hnamed : NamedBy v n reply first) (hline : StatusLine v line (first :: others)) :
    (∃ jobId state queue, v.hooks.extractJobId reply = some jobId ∧
      v.hooks.extractInfo host line = .ok (some (jobId, state, queue))) ↔ Recognized v host n first others := by
  have hid : (∃ jobId state queue, v.hooks.extractJobId reply = some jobId ∧
      v.hooks.extractInfo host line = .ok (some (jobId, state, queue))) ↔
        ∃ state queue, v.info host line = some (natText n, state, queue) := by
    simp only [hnamed.reply, v.extractInfo_eq, Option.some.injEq, Except.ok.injEq]
    constructor
    · rintro ⟨_, state, queue, rfl, h⟩
      exact ⟨state, queue, h⟩
    · rintro ⟨state, queue, h⟩
      exact ⟨_, state, queue, rfl, h⟩
  rw [hid]
  cases hnamed with
  | slurm n rest suffix hrest hsuffix =>
      exact slurm_info_iff hhost hline.fields_eq (hline.flush rfl) hsuffix
  | lsf n queue rest => exact lsf_info_iff hhost hline.fields_eq
  | torque n array server shown rest hshown hne =>
      have hten : others.length = 10 := by simpa using hline.eleven rfl
      obtain ⟨pad, after, hq⟩ := qstatLine_of_words hline.fields_eq hten
      refine (torque_info_iff hq (natText n)).trans ?_
      rw [and_comm]
      refine and_congr_right fun _ => ?_
      cases array with
      | false =>
          refine ⟨fun _ => Or.inl ⟨shown, by simp [brackets]⟩, fun _ => ?_⟩
          have hplain := firstDotted_plain (natText_ne_nil n) isDigitChar_of_mem_natText hne
          simpa [brackets] using hplain
      | true =>
          have hid : natText n ++ brackets true ++ ".".toList ++ shown = natText n ++ "[].".toList ++ shown := by
            simp [brackets]
          rw [hid, firstDotted_array]
          refine ⟨fun hdot => Or.inr ⟨shown, rfl, hdot⟩, ?_⟩
          rintro (⟨shown', hplain⟩ | ⟨shown', hsame, hdot⟩)
          · rw [List.append_assoc, List.append_assoc] at hplain
            cases List.append_cancel_left hplain
          · rw [List.append_cancel_left hsame]
            exact hdot

theorem noBlankLetters_calm (cache : UserCache) : NoBlankLetters (calmHost cache) := fun _ _ => rfl

/-- A task of an array job of Slurm is listed under the id of the submission. -/
theorem same_id_iff_slurm_task :
    ∃ jobId state queue, Variant.slurm.hooks.extractJobId "Submitted batch job 177070\n".toList = some jobId ∧
      Variant.slurm.hooks.extractInfo (calmHost UserDb.empty.cache) "177070_1 RUNNING large".toList =
        .ok (some (jobId, state, queue)) := by
  have hnamed : NamedBy .slurm 177070 ("Submitted batch job ".toList ++ natText 177070 ++ "\n".toList)
      (natText 177070 ++ "_1".toList) := .slurm 177070 _ _ (stops_cons (c := '\n') (s := []) (by decide)) (Or.inr ⟨"1".toList, rfl⟩)
  have hline : StatusLine .slurm "177070_1 RUNNING large".toList
      ((natText 177070 ++ "_1".toList) :: ["RUNNING".toList, "large".toList]) :=
    ⟨by decide +kernel, fun _ => stops_cons (c := '1') (s := "77070_1 RUNNING large".toList) (by decide), nofun⟩
  have htells : Tells (calmHost UserDb.empty.cache) ["RUNNING".toList, "large".toList] :=
    ⟨"RUNNING".toList, "large".toList, [], rfl, by decide, 'l', rfl, rfl⟩
  exact (same_id_iff (noBlankLetters_calm _) hnamed hline).mpr htells

/-- Array job 123 of Torque is submitted under the id 123, and its status line has none. -/
theorem array_job_unlisted :
    ¬ ∀ (host : Host), NoBlankLetters host → ∀ (v : Variant) (n : ℕ) (reply line first : Str) (others : List Str),
      NamedBy v n reply first → StatusLine v line (first :: others) →
        ∃ jobId state queue, v.hooks.extractJobId reply = some jobId ∧
          v.hooks.extractInfo host line = .ok (some (jobId, state, queue)) := by
  intro h
  have hnamed : NamedBy .torque 123
      (natText 123 ++ brackets true ++ ".".toList ++ "juelich".toList ++ "\n".toList)
      (natText 123 ++ brackets true ++ ".".toList ++ "jue".toList) :=
    .torque 123 true "juelich".toList "jue".toList "\n".toList ⟨"lich".toList, by decide⟩ (by decide)
  have hline : StatusLine .torque "123[].jue jdoe batch Job 16522 1 -- 1000mb 00:00 R 00:10".toList
      ((natText 123 ++ brackets true ++ ".".toList ++ "jue".toList) :: ["jdoe".toList, "batch".toList,
        "Job".toList, "16522".toList, "1".toList, "--".toList, "1000mb".toList, "00:00".toList, "R".toList,
        "00:10".toList]) := ⟨by decide +kernel, nofun, fun _ => rfl⟩
  obtain ⟨jobId, state, queue, -, hinfo⟩ := h _ (noBlankLetters_calm UserDb.empty.cache) _ _ _ _ _ _ hnamed hline
  have hnone : BssTorque.extractInfo "123[].jue jdoe batch Job 16522 1 -- 1000mb 00:00 R 00:10".toList = none := by
    decide +kernel
  rw [Variant.extractInfo_eq, Except.ok.injEq] at hinfo
  cases hnone.symm.trans hinfo

end UnicoreTsi.BssCommon
