/-
# UnicoreTsi.Lib.Words — the fields of a line.

The words of a list are its maximal runs without a separator.  Everything about them follows from one fact: at
a separator the words of what is before it and of what is after it are put together (`words_append_sep`).
`words_eq_cons` takes a list apart at its first word.
-/
import Mathlib.Data.List.TakeWhile

set_option autoImplicit false

namespace UnicoreTsi.Words

variable {α : Type} {p : α → Bool}

/-! ## Maximal runs -/

/-- The next symbol, if there is one, does not continue a run of `p`. -/
def Stops (p : α → Bool) (s : List α) : Prop := ∀ c ∈ s.head?, p c = false

theorem stops_nil : Stops p [] := nofun

theorem stops_cons {c : α} {s : List α} (h : p c = false) : Stops p (c :: s) := by
  intro d hd
  obtain rfl := Option.some.inj hd
  exact h

theorem Stops.append {s t : List α} (hs : Stops p s) (ht : Stops p t) : Stops p (s ++ t) := by
  cases s with
  | nil => exact ht
  | cons c s => exact stops_cons (hs c rfl)

/-- A nonempty list of which no symbol is in `p` stops a run of `p`, whatever follows. -/
theorem stops_append_left {s : List α} (hne : s ≠ []) (h : ∀ c ∈ s, p c = false) (t : List α) :
    Stops p (s ++ t) := by
  cases s with
  | nil => exact absurd rfl hne
  | cons c s => exact stops_cons (h c (List.mem_cons_self ..))

theorem takeWhile_run {a x : List α} (ha : ∀ c ∈ a, p c = true) (hx : Stops p x) :
    (a ++ x).takeWhile p = a := by
  rw [List.takeWhile_append_of_pos ha]
  cases x with
  | nil => simp
  | cons c x => simp [hx c rfl]

/-- A run and what follows it are determined by the list. -/
theorem run_unique {a b x y : List α} (ha : ∀ c ∈ a, p c = true) (hb : ∀ c ∈ b, p c = true)
    (hx : Stops p x) (hy : Stops p y) (h : a ++ x = b ++ y) : a = b ∧ x = y := by
  have hab : a = b := by rw [← takeWhile_run ha hx, h, takeWhile_run hb hy]
  subst hab
  exact ⟨rfl, List.append_cancel_left h⟩

/-! ## Words -/

/-- The maximal nonempty runs of symbols outside `p`. -/
def words (p : α → Bool) (s : List α) : List (List α) := (s.splitOnP p).filter fun w => !w.isEmpty

theorem words_nil : words p [] = [] := rfl

theorem words_append_sep {c : α} (hc : p c = true) (x y : List α) :
    words p (x ++ c :: y) = words p x ++ words p y := by
  rw [words, List.splitOnP_append_cons x y hc, List.filter_append]
  rfl

/-- Separators at the front belong to no word. -/
theorem words_pad {a : List α} (ha : ∀ c ∈ a, p c = true) (y : List α) : words p (a ++ y) = words p y := by
  induction a with
  | nil => rfl
  | cons c a ih =>
      have hstep := words_append_sep (ha c (List.mem_cons_self ..)) [] (a ++ y)
      rw [words_nil, List.nil_append] at hstep
      rw [List.cons_append, ← ih fun d hd => ha d (List.mem_cons_of_mem c hd)]
      exact hstep

theorem words_of_seps {a : List α} (ha : ∀ c ∈ a, p c = true) : words p a = [] := by
  have h := words_pad ha []
  rwa [List.append_nil, words_nil] at h

theorem words_append_seps {s : List α} (hne : s ≠ []) (hs : ∀ c ∈ s, p c = true) (x y : List α) :
    words p (x ++ (s ++ y)) = words p x ++ words p y := by
  cases s with
  | nil => exact absurd rfl hne
  | cons c s =>
      rw [List.cons_append, words_append_sep (hs c (List.mem_cons_self ..)),
        words_pad fun d hd => hs d (List.mem_cons_of_mem c hd)]

theorem words_of_run {w : List α} (hne : w ≠ []) (hw : ∀ c ∈ w, p c = false) : words p w = [w] := by
  rw [words, List.splitOnP_eq_singleton hw]
  cases w with
  | nil => exact absurd rfl hne
  | cons c w => rfl

/-- What follows a run starts with a separator if it does not stop one. -/
theorem words_run_append {w : List α} (hne : w ≠ []) (hw : ∀ c ∈ w, p c = false) {y : List α}
    (hy : Stops (fun c => !p c) y) : words p (w ++ y) = w :: words p y := by
  cases y with
  | nil => rw [List.append_nil, words_of_run hne hw, words_nil]
  | cons c y =>
      have hc : p c = true := by simpa using hy c rfl
      have htail : words p (c :: y) = words p y := words_pad (a := [c]) (by simpa using hc) y
      rw [words_append_sep hc, words_of_run hne hw, htail]
      rfl

theorem stops_dropWhile_not (s : List α) : Stops (fun d => !p d) (s.dropWhile fun d => !p d) := by
  intro d hd
  have hnot := List.head?_dropWhile_not (fun d => !p d) s
  rw [hd] at hnot
  simpa using hnot

/-- A list that starts outside `p` has a run there, and then stops. -/
theorem exists_run {c : α} (hc : p c = false) (t : List α) :
    ∃ w rest, c :: t = w ++ rest ∧ w ≠ [] ∧ (∀ d ∈ w, p d = false) ∧ Stops (fun d => !p d) rest := by
  refine ⟨c :: t.takeWhile fun d => !p d, t.dropWhile fun d => !p d, by simp, List.cons_ne_nil _ _, ?_,
    stops_dropWhile_not t⟩
  intro d hd
  rcases List.mem_cons.mp hd with rfl | hd
  · exact hc
  · simpa using List.mem_takeWhile_imp hd

/-- Separators and a word at the front. -/
theorem words_pad_run {s w : List α} (hs : ∀ c ∈ s, p c = true) (hne : w ≠ [])
    (hw : ∀ c ∈ w, p c = false) {y : List α} (hy : Stops (fun c => !p c) y) :
    words p (s ++ (w ++ y)) = w :: words p y := by
  rw [words_pad hs, words_run_append hne hw hy]

/-- A nonempty run of separators stops a word. -/
theorem stops_seps {s : List α} (hne : s ≠ []) (hs : ∀ c ∈ s, p c = true) (y : List α) :
    Stops (fun c => !p c) (s ++ y) := by
  refine stops_append_left hne (fun c hc => ?_) y
  rw [hs c hc]
  rfl

/-- Where a word has just ended, there are separators before the next one. -/
theorem seps_ne_nil {s w y : List α} (hne : w ≠ []) (hw : ∀ c ∈ w, p c = false)
    (hstop : Stops (fun c => !p c) (s ++ (w ++ y))) : s ≠ [] := by
  rintro rfl
  obtain ⟨c, t, rfl⟩ := List.exists_cons_of_ne_nil hne
  have hc : (!p c) = false := hstop c rfl
  rw [hw c (List.mem_cons_self ..)] at hc
  cases hc

/-- The first word of a list that starts with a run continues that run. -/
theorem words_run_front {w : List α} (hne : w ≠ []) (hw : ∀ c ∈ w, p c = false) (rest : List α) :
    ∃ tail more, words p (w ++ rest) = (w ++ tail) :: more := by
  refine ⟨rest.takeWhile fun d => !p d, words p (rest.dropWhile fun d => !p d), ?_⟩
  have hrun : ∀ d ∈ w ++ rest.takeWhile fun d => !p d, p d = false := by
    intro d hd
    rcases List.mem_append.mp hd with hd | hd
    · exact hw d hd
    · simpa using List.mem_takeWhile_imp hd
  have hne' : (w ++ rest.takeWhile fun d => !p d) ≠ [] := by
    intro h
    exact hne (List.append_eq_nil_iff.mp h).1
  rw [← words_run_append hne' hrun (stops_dropWhile_not rest), List.append_assoc,
    List.takeWhile_append_dropWhile]

theorem words_eq_nil {s : List α} : words p s = [] ↔ ∀ c ∈ s, p c = true := by
  refine ⟨?_, words_of_seps⟩
  induction s with
  | nil => exact fun _ => nofun
  | cons c s ih =>
      intro h
      have hc : p c = true := by
        by_contra hc
        obtain ⟨w, rest, hsplit, hne, hw, hstop⟩ := exists_run (by simpa using hc) s
        rw [hsplit, words_run_append hne hw hstop] at h
        cases h
      have hs := words_pad (p := p) (a := [c]) (by simpa using hc) s
      intro d hd
      rcases List.mem_cons.mp hd with rfl | hd
      · exact hc
      · exact ih (hs.symm.trans h) d hd

/-- The first word with what is before and after it. -/
theorem words_eq_cons {s w : List α} {ws : List (List α)} (h : words p s = w :: ws) :
    ∃ pad rest, s = pad ++ (w ++ rest) ∧ (∀ c ∈ pad, p c = true) ∧ w ≠ [] ∧ (∀ c ∈ w, p c = false) ∧
      Stops (fun c => !p c) rest ∧ words p rest = ws := by
  have hpad : ∀ c ∈ s.takeWhile p, p c = true := fun c hc => List.mem_takeWhile_imp hc
  have hfront : s = s.takeWhile p ++ s.dropWhile p := by simp
  rw [hfront, words_pad hpad] at h
  have hhead := List.head?_dropWhile_not p s
  cases ht : s.dropWhile p with
  | nil => rw [ht, words_nil] at h; cases h
  | cons c t =>
      rw [ht] at h hhead hfront
      obtain ⟨w', rest, hsplit, hne, hw, hstop⟩ := exists_run (by simpa using hhead) t
      rw [hsplit, words_run_append hne hw hstop] at h
      obtain ⟨rfl, hws⟩ := List.cons.inj h
      exact ⟨s.takeWhile p, rest, by rw [← hsplit]; exact hfront, hpad, hne, hw, hstop, hws⟩

/-- A list with one word is that word with separators around it. -/
theorem words_eq_singleton {s w : List α} (h : words p s = [w]) :
    ∃ pad trail, s = pad ++ (w ++ trail) ∧ (∀ c ∈ pad, p c = true) ∧ w ≠ [] ∧ (∀ c ∈ w, p c = false) ∧
      ∀ c ∈ trail, p c = true := by
  obtain ⟨pad, rest, hs, hpad, hne, hw, -, hrest⟩ := words_eq_cons h
  exact ⟨pad, rest, hs, hpad, hne, hw, words_eq_nil.mp hrest⟩

/-! ## Words with the separators before them -/

/-- The text of words, each with the separators before it. -/
def joined (l : List (List α × List α)) : List α := l.flatMap fun e => e.1 ++ e.2

/-- Separators and a nonempty word. -/
def IsField (p : α → Bool) (e : List α × List α) : Prop :=
  (∀ c ∈ e.1, p c = true) ∧ e.2 ≠ [] ∧ ∀ c ∈ e.2, p c = false

theorem stops_joined {l : List (List α × List α)} (hl : ∀ e ∈ l, IsField p e ∧ e.1 ≠ []) {y : List α}
    (hy : Stops (fun c => !p c) y) : Stops (fun c => !p c) (joined l ++ y) := by
  cases l with
  | nil => exact hy
  | cons e l =>
      obtain ⟨⟨hsep, -, -⟩, hne⟩ := hl e (List.mem_cons_self ..)
      show Stops (fun c => !p c) ((e.1 ++ e.2) ++ joined l ++ y)
      rw [List.append_assoc, List.append_assoc]
      exact stops_seps hne hsep _

theorem words_joined {l : List (List α × List α)} (hl : ∀ e ∈ l, IsField p e ∧ e.1 ≠ []) {y : List α}
    (hy : Stops (fun c => !p c) y) (x : List α) :
    words p (x ++ (joined l ++ y)) = words p x ++ (l.map Prod.snd ++ words p y) := by
  induction l generalizing x with
  | nil =>
      show words p (x ++ y) = words p x ++ words p y
      cases y with
      | nil => rw [List.append_nil, words_nil, List.append_nil]
      | cons c y =>
          have hc : p c = true := by simpa using hy c rfl
          have htail := words_append_seps (List.cons_ne_nil c []) (by simpa using hc) x y
          have hcons : words p (c :: y) = words p y := words_pad (a := [c]) (by simpa using hc) y
          rw [hcons]
          exact htail
  | cons e l ih =>
      obtain ⟨⟨hsep, hne, hword⟩, hnonempty⟩ := hl e (List.mem_cons_self ..)
      have hrest : ∀ e ∈ l, IsField p e ∧ e.1 ≠ [] := fun e he => hl e (List.mem_cons_of_mem _ he)
      have hih := ih hrest []
      rw [List.nil_append, words_nil, List.nil_append] at hih
      show words p (x ++ ((e.1 ++ e.2) ++ joined l ++ y)) = _
      rw [List.append_assoc, List.append_assoc, words_append_seps hnonempty hsep,
        words_run_append hne hword (stops_joined hrest hy), hih]
      rfl

/-- Every list is its words with the separators before them, and separators at its end. -/
theorem words_eq_joined {s : List α} {ws : List (List α)} (h : words p s = ws) :
    ∃ l trail, s = joined l ++ trail ∧ l.map Prod.snd = ws ∧ (∀ e ∈ l, IsField p e) ∧
      (∀ e ∈ l.tail, e.1 ≠ []) ∧ ∀ c ∈ trail, p c = true := by
  induction ws generalizing s with
  | nil => exact ⟨[], s, rfl, rfl, nofun, nofun, words_eq_nil.mp h⟩
  | cons w ws ih =>
      obtain ⟨pad, rest, rfl, hpad, hne, hw, hstop, hrest⟩ := words_eq_cons h
      obtain ⟨l, trail, rfl, hl, hfield, hsep, htrail⟩ := ih hrest
      refine ⟨(pad, w) :: l, trail, by simp [joined], by rw [List.map_cons, hl], ?_, ?_, htrail⟩
      · intro e he
        rcases List.mem_cons.mp he with rfl | he
        · exact ⟨hpad, hne, hw⟩
        · exact hfield e he
      · -- the first of the others has separators before it because the word stops there
        cases l with
        | nil => exact nofun
        | cons e l =>
            intro e' he'
            rcases List.mem_cons.mp he' with rfl | he'
            · obtain ⟨-, hne', hword⟩ := hfield e' (List.mem_cons_self ..)
              have hhead : joined (e' :: l) ++ trail = e'.1 ++ (e'.2 ++ (joined l ++ trail)) := by simp [joined]
              rw [hhead] at hstop
              exact seps_ne_nil hne' hword hstop
            · exact hsep e' he'

end UnicoreTsi.Words
