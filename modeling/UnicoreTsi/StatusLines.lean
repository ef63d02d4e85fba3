/-
# UnicoreTsi.StatusLines — what is read back from a line of `squeue` or `bjobs`.

Both expressions want the name of the queue to be of the class `\w`, and neither wants anything after it, so
they take the part of the name before the first other character (`slurm_reads`, `lsf_reads`), and find nothing
if that part is empty.  A line is read back as it was printed exactly if the name has no other character
(`status_lines_iff`).
-/
import UnicoreTsi.JobIds

set_option autoImplicit false

namespace UnicoreTsi.BssCommon

open UnicoreTsi.Text UnicoreTsi.Regex UnicoreTsi.Words UnicoreTsi.Utils

/-! ## The lines -/

/-- A field of a line: not empty, and without white space. -/
def Solid (s : Str) : Prop := s ≠ [] ∧ ∀ c ∈ s, isSpace c = false

/-- A word of letters, digits and underscores. -/
def WordOf (host : Host) (s : Str) : Prop := s ≠ [] ∧ ∀ c ∈ s, isWord host c = true

/-- What the id of a task has after the number: nothing, or an underscore and characters that are not blank. -/
def TaskSuffix (suffix : Str) : Prop :=
  suffix = [] ∨ ∃ task, suffix = '_' :: task ∧ ∀ c ∈ task, isSpace c = false

/-- A line of `squeue -h -o "%i %T %P"`. -/
def squeueLine (n : ℕ) (suffix state partition : Str) : Str :=
  natText n ++ suffix ++ " ".toList ++ state ++ " ".toList ++ partition

/-- A line of `bjobs -w`. -/
def bjobsLine (n : ℕ) (user state queue rest : Str) : Str :=
  natText n ++ " ".toList ++ user ++ " ".toList ++ state ++ " ".toList ++ queue ++ " ".toList ++ rest

section Read

variable {host : Host} {state queue : Str}

theorem isWord_blank (host : Host) : isWord host ' ' = false := by
  have hascii : decide (128 ≤ ' '.toNat) = false := by decide
  rw [isWord, hascii, Bool.false_and]
  decide

theorem stops_word_blank (host : Host) (rest : Str) : Stops (isWord host) (" ".toList ++ rest) :=
  stops_cons (isWord_blank host)

theorem stops_nonSpace_blank (rest : Str) : Stops (fun c => !isSpace c) (" ".toList ++ rest) :=
  stops_cons (by decide)

/-- One blank in front of something else is all that `\s+` takes. -/
theorem match_blank {is : List (Item Char)} {prev : Option Char} {rest : Str} {ps : List Str}
    (hrest : Stops isSpace rest) (h : matchItems is (lastOr prev " ".toList) rest = some ps) :
    matchItems (spaces :: is) prev (" ".toList ++ rest) = some (" ".toList :: ps) :=
  matchItems_rep_run (takeWhile_run (by decide) hrest) (by decide) h

theorem match_word {is : List (Item Char)} {prev : Option Char} {w rest : Str} {ps : List Str}
    (hw : WordOf host w) (hrest : Stops (isWord host) rest) (h : matchItems is (lastOr prev w) rest = some ps) :
    matchItems (.rep (isWord host) 1 none :: is) prev (w ++ rest) = some (w :: ps) :=
  matchItems_rep_run (takeWhile_run hw.2 hrest) (length_pos hw.1) h

/-- `\s+(\w+)\s+(\w+)` on a state and a word. -/
theorem match_stateQueue (hhost : NoBlankLetters host) (hstate : WordOf host state) {w after : Str}
    (hw : WordOf host w) (hafter : Stops (isWord host) after) (is : List (Item Char)) {ps : List Str}
    (h : ∀ prev, matchItems is prev after = some ps) (prev : Option Char) :
    matchItems (spaces :: .rep (isWord host) 1 none :: spaces :: .rep (isWord host) 1 none :: is) prev
      (" ".toList ++ (state ++ (" ".toList ++ (w ++ after)))) =
        some (" ".toList :: state :: " ".toList :: w :: ps) := by
  have hsolid : ∀ {v : Str}, WordOf host v → ∀ rest, Stops isSpace (v ++ rest) := fun hv rest =>
    stops_append_left hv.1 (fun c hc => isSpace_of_isWord hhost (hv.2 c hc)) rest
  apply match_blank (hsolid hstate _)
  apply match_word hstate (stops_word_blank host _)
  apply match_blank (hsolid hw _)
  exact match_word hw hafter (h _)

/-- The part of a queue name that `\w+` takes, and what comes after it. -/
theorem queue_split (host : Host) (queue rest : Str) (hrest : Stops (isWord host) rest) :
    ∃ after, queue ++ rest = queue.takeWhile (isWord host) ++ after ∧ Stops (isWord host) after := by
  refine ⟨queue.dropWhile (isWord host) ++ rest, ?_, ?_⟩
  · rw [← List.append_assoc, List.takeWhile_append_dropWhile]
  · refine Stops.append (fun c hc => ?_) hrest
    have hnot := List.head?_dropWhile_not (isWord host) queue
    rw [hc] at hnot
    simpa using hnot

/-- `_?\S*` takes the suffix of a task. -/
theorem match_suffix {suffix : Str} (hsuffix : TaskSuffix suffix) (is : List (Item Char)) {rest : Str}
    {ps : List Str} (h : ∀ prev, matchItems is prev (" ".toList ++ rest) = some ps) (prev : Option Char) :
    ∃ u ns, matchItems (.rep (· = '_') 0 (some 1) :: .rep (fun c => !isSpace c) 0 none :: is) prev
      (suffix ++ (" ".toList ++ rest)) = some (u :: ns :: ps) := by
  have hfield : ∀ (task : Str) (prev : Option Char), (∀ c ∈ task, isSpace c = false) →
      matchItems (.rep (fun c => !isSpace c) 0 none :: is) prev (task ++ (" ".toList ++ rest)) =
        some (task :: ps) := by
    intro task prev htask
    have hrun : ∀ c ∈ task, (!isSpace c) = true := fun c hc => by rw [htask c hc]; rfl
    exact matchItems_rep_run (takeWhile_run hrun (stops_nonSpace_blank rest)) (Nat.zero_le _) (h _)
  rcases hsuffix with rfl | ⟨task, rfl, htask⟩
  · refine ⟨[], [], matchItems_rep_top ?_ (Nat.zero_le _) (hfield [] _ nofun)⟩
    simp [runLength]
  · refine ⟨['_'], task, matchItems_rep_top (a := ['_']) ?_ (Nat.zero_le _) (hfield task _ htask)⟩
    simp [runLength]

theorem slurm_reads (hhost : NoBlankLetters host) (n : ℕ) {suffix : Str} (hsuffix : TaskSuffix suffix)
    (hstate : WordOf host state) (hword : queue.takeWhile (isWord host) ≠ []) :
    BssSlurm.extractInfo host (squeueLine n suffix state queue) =
      some (natText n, state, queue.takeWhile (isWord host)) := by
  obtain ⟨after, hsplit, hafter⟩ := queue_split host queue [] stops_nil
  rw [List.append_nil] at hsplit
  have hline : squeueLine n suffix state queue = natText n ++ (suffix ++ (" ".toList ++ (state ++
      (" ".toList ++ (queue.takeWhile (isWord host) ++ after))))) := by
    rw [← hsplit, squeueLine]
    simp only [List.append_assoc]
  have hw : WordOf host (queue.takeWhile (isWord host)) := ⟨hword, fun c hc => List.mem_takeWhile_imp hc⟩
  obtain ⟨u, ns, htail⟩ := match_suffix hsuffix _ (match_stateQueue hhost hstate hw hafter [] fun _ => rfl)
    (lastOr none (natText n))
  have hdigits : Stops isDigitChar (suffix ++ (" ".toList ++ (state ++
      (" ".toList ++ (queue.takeWhile (isWord host) ++ after))))) := by
    apply stops_suffix (stops_nonSpace_blank _)
    exact hsuffix.imp_right fun ⟨task, htask, _⟩ => ⟨task, htask⟩
  have hmatch : matchItems (BssSlurm.infoItems host) none (squeueLine n suffix state queue) =
      some (natText n :: u :: ns :: " ".toList :: state :: " ".toList :: [queue.takeWhile (isWord host)]) := by
    rw [hline]
    exact matchItems_rep_run (takeWhile_run isDigitChar_of_mem_natText hdigits) (length_pos (natText_ne_nil n))
      htail
  rw [BssSlurm.extractInfo, hmatch]

theorem lsf_reads (hhost : NoBlankLetters host) (n : ℕ) {user : Str} (huser : Solid user)
    (hstate : WordOf host state) (hword : queue.takeWhile (isWord host) ≠ []) (rest : Str) :
    BssLsf.extractInfo host (bjobsLine n user state queue rest) =
      some (natText n, state, queue.takeWhile (isWord host)) := by
  obtain ⟨after, hsplit, hafter⟩ := queue_split host queue _ (stops_word_blank host rest)
  have hline : bjobsLine n user state queue rest = [] ++ (natText n ++ (" ".toList ++ (user ++ (" ".toList ++
      (state ++ (" ".toList ++ (queue.takeWhile (isWord host) ++ after))))))) := by
    rw [← hsplit, bjobsLine]
    simp only [List.append_assoc, List.nil_append]
  have hw : WordOf host (queue.takeWhile (isWord host)) := ⟨hword, fun c hc => List.mem_takeWhile_imp hc⟩
  -- the dots after the name are not part of any group
  have hdots : ∀ prev, matchItems [.rep (· = '.') 0 none] prev after =
      some [after.takeWhile (· = '.')] := by
    intro prev
    have hboth : after.takeWhile (· = '.') ++ after.dropWhile (· = '.') = after :=
      List.takeWhile_append_dropWhile
    have hrun : matchItems [.rep (· = '.') 0 none] prev (after.takeWhile (· = '.') ++
        after.dropWhile (· = '.')) = some [after.takeWhile (· = '.')] :=
      matchItems_rep_run (by rw [hboth]) (Nat.zero_le _) rfl
    rwa [hboth] at hrun
  have huser' : ∀ c ∈ user, (!isSpace c) = true := fun c hc => by rw [huser.2 c hc]; rfl
  have hnumber : ∀ c ∈ natText n, isSpace c = false :=
    fun c hc => isSpace_of_digit (isDigitChar_of_mem_natText c hc)
  have hmatch : matchItems (BssLsf.infoItems host) none (bjobsLine n user state queue rest) =
      some ([] :: [] :: natText n :: " ".toList :: user :: " ".toList :: state :: " ".toList ::
        queue.takeWhile (isWord host) :: [after.takeWhile (· = '.')]) := by
    rw [hline]
    unfold BssLsf.infoItems
    apply matchItems_look rfl
    apply matchItems_rep_run (takeWhile_run (a := []) nofun (stops_append_left (natText_ne_nil n) hnumber _)) (Nat.zero_le _)
    apply matchItems_rep_run (takeWhile_run isDigitChar_of_mem_natText (stops_cons (by decide)))
      (length_pos (natText_ne_nil n))
    apply match_blank (stops_append_left huser.1 huser.2 _)
    apply matchItems_rep_run (takeWhile_run huser' (stops_nonSpace_blank _)) (length_pos huser.1)
    exact match_stateQueue hhost hstate hw hafter _ hdots _
  rw [BssLsf.extractInfo, search_of_match hmatch]

/-! ## What is not read -/

theorem words_field {w : Str} (hw : Solid w) (rest : Str) :
    words isSpace (w ++ (" ".toList ++ rest)) = w :: words isSpace rest := by
  rw [words_run_append hw.1 hw.2 (stops_nonSpace_blank rest), words_pad (by decide)]

theorem solid_of_word (hhost : NoBlankLetters host) {w : Str} (hw : WordOf host w) : Solid w :=
  ⟨hw.1, fun c hc => isSpace_of_isWord hhost (hw.2 c hc)⟩

theorem solid_natText (n : ℕ) : Solid (natText n) :=
  ⟨natText_ne_nil n, fun c hc => isSpace_of_digit (isDigitChar_of_mem_natText c hc)⟩

theorem words_squeueLine (hhost : NoBlankLetters host) (n : ℕ) {suffix : Str} (hsuffix : TaskSuffix suffix)
    (hstate : WordOf host state) (hqueue : Solid queue) :
    words isSpace (squeueLine n suffix state queue) = (natText n ++ suffix) :: [state, queue] := by
  have hid : Solid (natText n ++ suffix) := by
    refine ⟨fun h => natText_ne_nil n (List.append_eq_nil_iff.mp h).1, fun c hc => ?_⟩
    rcases List.mem_append.mp hc with hc | hc
    · exact (solid_natText n).2 c hc
    · rcases hsuffix with rfl | ⟨task, rfl, htask⟩
      · cases hc
      · rcases List.mem_cons.mp hc with rfl | hc
        · decide
        · exact htask c hc
  have hline : squeueLine n suffix state queue =
      (natText n ++ suffix) ++ (" ".toList ++ (state ++ (" ".toList ++ queue))) := by
    rw [squeueLine]
    simp only [List.append_assoc]
  rw [hline, words_field hid, words_field (solid_of_word hhost hstate), words_of_run hqueue.1 hqueue.2]

theorem words_bjobsLine (hhost : NoBlankLetters host) (n : ℕ) {user : Str} (huser : Solid user)
    (hstate : WordOf host state) (hqueue : Solid queue) (rest : Str) :
    words isSpace (bjobsLine n user state queue rest) =
      natText n :: user :: state :: queue :: words isSpace rest := by
  have hline : bjobsLine n user state queue rest = natText n ++ (" ".toList ++ (user ++ (" ".toList ++
      (state ++ (" ".toList ++ (queue ++ (" ".toList ++ rest))))))) := by
    rw [bjobsLine]
    simp only [List.append_assoc]
  rw [hline, words_field (solid_natText n), words_field huser, words_field (solid_of_word hhost hstate),
    words_field hqueue]

/-- A name that starts with none of the characters `\w+` takes is not found. -/
theorem word_of_tells {more : List Str} (h : Tells host (state :: queue :: more)) :
    queue.takeWhile (isWord host) ≠ [] := by
  obtain ⟨_, _, _, heq, -, c, hc, hword⟩ := h
  cases heq
  cases queue with
  | nil => cases hc
  | cons d queue =>
      obtain rfl : d = c := Option.some.inj hc
      rw [List.takeWhile_cons_of_pos hword]
      exact List.cons_ne_nil _ _

end Read

/-! ## Reading back what was printed -/

/-- **Status lines.**  `extract_info` gets back job number, state and queue if and only if the name of the queue
has only letters, digits and underscores. -/
theorem status_lines_iff {host : Host} (hhost : NoBlankLetters host) (n : ℕ) {suffix user state queue : Str}
    (hsuffix : TaskSuffix suffix) (huser : Solid user) (hstate : WordOf host state) (hqueue : Solid queue)
    (rest : Str) :
    (BssSlurm.extractInfo host (squeueLine n suffix state queue) = some (natText n, state, queue) ↔
        ∀ c ∈ queue, isWord host c = true) ∧
      (BssLsf.extractInfo host (bjobsLine n user state queue rest) = some (natText n, state, queue) ↔
        ∀ c ∈ queue, isWord host c = true) := by
  have hwhole : queue.takeWhile (isWord host) = queue ↔ ∀ c ∈ queue, isWord host c = true :=
    List.takeWhile_eq_self_iff
  have hnonempty : (∀ c ∈ queue, isWord host c = true) → queue.takeWhile (isWord host) ≠ [] := by
    intro hall
    rw [hwhole.mpr hall]
    exact hqueue.1
  constructor
  · constructor
    · intro h
      have hflush : Stops isSpace (squeueLine n suffix state queue) := by
        rw [squeueLine, List.append_assoc, List.append_assoc, List.append_assoc, List.append_assoc]
        exact stops_append_left (solid_natText n).1 (solid_natText n).2 _
      have htells := (slurm_info_iff hhost (words_squeueLine hhost n hsuffix hstate hqueue) hflush
        (hsuffix.imp_right fun ⟨task, htask, _⟩ => ⟨task, htask⟩)).mp ⟨state, queue, h⟩
      rw [slurm_reads hhost n hsuffix hstate (word_of_tells htells)] at h
      simp only [Option.some.injEq, Prod.mk.injEq, true_and] at h
      exact hwhole.mp h
    · intro hall
      rw [slurm_reads hhost n hsuffix hstate (hnonempty hall), hwhole.mpr hall]
  · constructor
    · intro h
      obtain ⟨_, _, heq, htells⟩ := (lsf_info_iff hhost
        (words_bjobsLine hhost n huser hstate hqueue rest)).mp ⟨state, queue, h⟩
      cases heq
      rw [lsf_reads hhost n huser hstate (word_of_tells htells)] at h
      simp only [Option.some.injEq, Prod.mk.injEq, true_and] at h
      exact hwhole.mp h
    · intro hall
      rw [lsf_reads hhost n huser hstate (hnonempty hall), hwhole.mpr hall]

theorem status_lines_iff_gpu :
    (BssSlurm.extractInfo (calmHost UserDb.empty.cache)
        (squeueLine 4711 "_3".toList "RUNNING".toList "gpu-large".toList) =
          some (natText 4711, "RUNNING".toList, "gpu-large".toList) ↔
        ∀ c ∈ "gpu-large".toList, isWord (calmHost UserDb.empty.cache) c = true) ∧
      (BssLsf.extractInfo (calmHost UserDb.empty.cache)
          (bjobsLine 4711 "jdoe".toList "RUNNING".toList "gpu-large".toList "node1".toList) =
          some (natText 4711, "RUNNING".toList, "gpu-large".toList) ↔
        ∀ c ∈ "gpu-large".toList, isWord (calmHost UserDb.empty.cache) c = true) :=
  status_lines_iff (noBlankLetters_calm _) 4711 (Or.inr ⟨"3".toList, rfl, by decide⟩)
    ⟨by decide, by decide⟩ ⟨by decide, by decide⟩ ⟨by decide, by decide⟩ "node1".toList

/-- A partition with a hyphen in its name is reported under the first part of it. -/
theorem queue_cut_at_hyphen :
    ¬∀ (host : Host), NoBlankLetters host → ∀ (n : ℕ) (suffix user state queue rest : Str), TaskSuffix suffix →
      Solid user → WordOf host state → Solid queue →
      BssSlurm.extractInfo host (squeueLine n suffix state queue) = some (natText n, state, queue) ∧
        BssLsf.extractInfo host (bjobsLine n user state queue rest) = some (natText n, state, queue) := by
  intro h
  have hread := (h _ (noBlankLetters_calm UserDb.empty.cache) 4711 [] "jdoe".toList "RUNNING".toList
    "gpu-large".toList [] (Or.inl rfl) ⟨by decide, by decide⟩ ⟨by decide, by decide⟩ ⟨by decide, by decide⟩).1
  have hcut : BssSlurm.extractInfo (calmHost UserDb.empty.cache)
      (squeueLine 4711 [] "RUNNING".toList "gpu-large".toList) =
        some (natText 4711, "RUNNING".toList, "gpu".toList) := by decide +kernel
  rw [hcut] at hread
  exact absurd hread (by decide)

end UnicoreTsi.BssCommon
