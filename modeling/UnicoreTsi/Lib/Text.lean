/-
# UnicoreTsi.Lib.Text — Python text as lists of code points, and induction by lines.

A Python `str` is modelled by the list of its characters.  The module fixes the handful of `str`
operations the rest of the development uses, and the one structural fact about texts that carries
most line-oriented proofs: a text is either free of newlines, or a newline-free line, a newline, and
a shorter text (`lineInduction`).  `completeLines` lists the newline-terminated lines of a text.
-/
import UnicoreTsi.Lib.Framing

set_option autoImplicit false

namespace UnicoreTsi.Text

open UnicoreTsi.Framing

/-- A Python `str`. -/
abbrev Str := List Char

/-- What holds of all characters of a text is decided by going through the text, not through all characters. -/
instance decidableForallMem (p : Char → Prop) [DecidablePred p] (s : Str) : Decidable (∀ c ∈ s, p c) :=
  List.decidableBAll p s

instance lawfulBEqStr : LawfulBEq Str := List.instLawfulBEq

/-! ## Characters and trimming -/

/-- `str.isspace` on one character, which is also the class `\s` of a `str` pattern. -/
def isSpace (c : Char) : Bool :=
  let n := c.toNat
  (9 ≤ n && n ≤ 13) || (28 ≤ n && n ≤ 32) || n == 0x85 || n == 0xa0 || n == 0x1680 ||
    (0x2000 ≤ n && n ≤ 0x200a) || n == 0x2028 || n == 0x2029 || n == 0x202f || n == 0x205f ||
    n == 0x3000

theorem isSpace_newline : isSpace '\n' = true := by decide

/-- White space is below the printable characters of ASCII or beyond them. -/
theorem isSpace_range {c : Char} (h : isSpace c = true) : c.toNat ≤ 32 ∨ 133 ≤ c.toNat := by
  simp only [isSpace, Bool.or_eq_true, Bool.and_eq_true, decide_eq_true_eq, beq_iff_eq] at h
  omega

/-- The letters and digits of ASCII are printable characters. -/
theorem isAlphanum_range {c : Char} (h : c.isAlphanum = true) : 33 ≤ c.toNat ∧ c.toNat ≤ 126 := by
  have hclass : c.isAlphanum = (decide ('A'.val ≤ c.val ∧ c.val ≤ 'Z'.val) ||
      (decide ('a'.val ≤ c.val) && decide (c.val ≤ 'z'.val)) || c.isDigit) := rfl
  rw [hclass, Bool.or_eq_true, Bool.or_eq_true, Bool.and_eq_true, decide_eq_true_iff, decide_eq_true_iff,
    decide_eq_true_iff, Char.isDigit_iff_toNat] at h
  have htoNat {a b : Char} (hab : a.val ≤ b.val) : a.toNat ≤ b.toNat := UInt32.le_iff_toNat_le.mp hab
  rcases h with (⟨hlow, hhigh⟩ | ⟨hlow, hhigh⟩) | ⟨hlow, hhigh⟩
  · exact ⟨le_trans (by decide) (htoNat hlow), le_trans (htoNat hhigh) (by decide)⟩
  · exact ⟨le_trans (by decide) (htoNat hlow), le_trans (htoNat hhigh) (by decide)⟩
  · exact ⟨le_trans (by decide) hlow, le_trans hhigh (by decide)⟩

/-- `s.lstrip()`. -/
def lstrip (s : Str) : Str := s.dropWhile isSpace

/-- `s.strip()`. -/
def strip (s : Str) : Str := (lstrip s).rdropWhile isSpace

/-- `s.split(sep, 1)`: `none` when the separator does not occur. -/
def splitOnce (sep : Char) : Str → Option (Str × Str)
  | [] => none
  | c :: cs => if c = sep then some ([], cs) else (splitOnce sep cs).map fun p => (c :: p.1, p.2)

/-- `s.replace(c, t)` for a one-character pattern. -/
def replaceChar (c : Char) (t : Str) (s : Str) : Str := s.flatMap fun d => if d = c then t else [d]

/-- `sub in s`. -/
def contains (sub : Str) : Str → Bool
  | [] => sub.isEmpty
  | c :: cs => sub.isPrefixOf (c :: cs) || contains sub cs

theorem not_mem_replaceChar {c : Char} {t : Str} (ht : c ∉ t) (s : Str) :
    c ∉ replaceChar c t s := by
  simp only [replaceChar, List.mem_flatMap, not_exists, not_and]
  intro d _
  split
  · exact ht
  · rename_i hd
    simpa using fun h => hd h.symm

theorem splitOnce_eq_none {sep : Char} {s : Str} : splitOnce sep s = none ↔ sep ∉ s := by
  induction s with
  | nil => simp [splitOnce]
  | cons c cs ih =>
      by_cases h : c = sep
      · simp [splitOnce, h]
      · simp [splitOnce, h, ih, Ne.symm h]

theorem splitOnce_append {sep : Char} {a : Str} (ha : sep ∉ a) (b : Str) :
    splitOnce sep (a ++ sep :: b) = some (a, b) := by
  induction a with
  | nil => simp [splitOnce]
  | cons c cs ih =>
      have hc : c ≠ sep := fun h => ha (by simp [h])
      have hcs : sep ∉ cs := fun h => ha (by simp [h])
      simp [splitOnce, hc, ih hcs]

theorem append_of_splitOnce {sep : Char} {s a b : Str} (h : splitOnce sep s = some (a, b)) : a ++ sep :: b = s := by
  induction s generalizing a with
  | nil => cases h
  | cons c cs ih =>
      rw [splitOnce] at h
      split at h
      · rename_i hc
        cases h
        rw [hc]
        rfl
      · obtain ⟨⟨a', b'⟩, hsplit, heq⟩ := Option.map_eq_some_iff.mp h
        cases heq
        rw [List.cons_append, ih hsplit]

/-- The part before the first separator is determined by the text. -/
theorem append_cons_inj {sep : Char} {a a' b b' : Str} (ha : sep ∉ a) (ha' : sep ∉ a')
    (h : a ++ sep :: b = a' ++ sep :: b') : a = a' ∧ b = b' := by
  have hsplit := splitOnce_append ha b
  rw [h, splitOnce_append ha' b', Option.some.injEq, Prod.mk.injEq] at hsplit
  exact ⟨hsplit.1.symm, hsplit.2.symm⟩

/-- The part after the last separator is determined by the text. -/
theorem append_cons_inj_last {sep : Char} {a a' b b' : Str} (hb : sep ∉ b) (hb' : sep ∉ b')
    (h : a ++ sep :: b = a' ++ sep :: b') : a = a' ∧ b = b' := by
  have hrev := congrArg List.reverse h
  simp only [List.reverse_append, List.reverse_cons, List.append_assoc, List.singleton_append] at hrev
  obtain ⟨hb, ha⟩ := append_cons_inj (by simpa using hb) (by simpa using hb') hrev
  exact ⟨List.reverse_injective ha, List.reverse_injective hb⟩

/-- A separator-free text that ends where a line does is that line. -/
theorem eq_of_prefix_line {sep : Char} {x y l rest : Str} (hx : sep ∉ x) (hl : sep ∉ l)
    (h : x ++ sep :: y <+: l ++ sep :: rest) : x = l := by
  obtain ⟨z, hz⟩ := h
  rw [List.append_assoc, List.cons_append] at hz
  exact (append_cons_inj hx hl hz).1

/-! ## What trimming leaves -/

theorem lstrip_eq_self {s : Str} : lstrip s = s ↔ ∀ c ∈ s.head?, isSpace c = false := by
  cases s with
  | nil => simp [lstrip]
  | cons c cs =>
      rw [lstrip, List.dropWhile_eq_self_iff]
      simp

theorem rdropWhile_append_of_pos {p : Char → Bool} (s : Str) {b : Str} (hb : ∀ c ∈ b, p c = true) :
    (s ++ b).rdropWhile p = s.rdropWhile p := by
  rw [List.rdropWhile, List.reverse_append, List.dropWhile_append_of_pos (by simpa using hb), List.rdropWhile]

theorem strip_blank_append {b : Str} (hb : ∀ c ∈ b, isSpace c = true) (s : Str) : strip (b ++ s) = strip s := by
  rw [strip, lstrip, List.dropWhile_append_of_pos hb, strip, lstrip]

theorem strip_append_blank (s : Str) {b : Str} (hb : ∀ c ∈ b, isSpace c = true) : strip (s ++ b) = strip s := by
  rw [strip, strip, lstrip, lstrip, List.dropWhile_append]
  split
  · rename_i hempty
    rw [List.isEmpty_iff.mp hempty, List.dropWhile_eq_nil_iff.mpr hb]
  · exact rdropWhile_append_of_pos _ hb

/-- A text is its own trimming exactly if neither end of it is white space. -/
theorem strip_eq_self {s : Str} :
    strip s = s ↔ (∀ c ∈ s.head?, isSpace c = false) ∧ ∀ c ∈ s.getLast?, isSpace c = false := by
  constructor
  · intro h
    have hlength := (List.rdropWhile_prefix isSpace (lstrip s)).length_le
    have hsuffix : lstrip s <:+ s := List.dropWhile_suffix isSpace
    rw [strip] at h
    have hlstrip : lstrip s = s := by
      apply hsuffix.eq_of_length_le
      rwa [h] at hlength
    refine ⟨lstrip_eq_self.mp hlstrip, ?_⟩
    intro c hc
    rw [hlstrip, List.rdropWhile_eq_self_iff] at h
    obtain ⟨hne, rfl⟩ := List.mem_getLast?_eq_getLast hc
    simpa using h hne
  · rintro ⟨hhead, hlast⟩
    rw [strip, lstrip_eq_self.mpr hhead, List.rdropWhile_eq_self_iff]
    intro hne hspace
    rw [hlast _ (List.getLast_mem_getLast? hne)] at hspace
    cases hspace

theorem strip_strip (s : Str) : strip (strip s) = strip s := by
  rw [strip_eq_self]
  constructor
  · intro c hc
    -- what is trimmed at the end leaves the first character
    obtain ⟨t, ht⟩ := List.rdropWhile_prefix isSpace (lstrip s)
    have hhead : ∀ c ∈ (lstrip s).head?, isSpace c = false :=
      lstrip_eq_self.mp (List.dropWhile_idempotent isSpace s)
    apply hhead
    rw [← ht]
    exact List.mem_head?_append_of_mem_head? hc
  · intro c hc
    obtain ⟨hne, rfl⟩ := List.mem_getLast?_eq_getLast hc
    exact (Bool.not_eq_true _).mp (List.rdropWhile_last_not isSpace (lstrip s) hne)

theorem strip_sublist (s : Str) : (strip s).Sublist s :=
  (List.rdropWhile_prefix isSpace _).sublist.trans (List.dropWhile_sublist isSpace)

/-! ## Lines -/

/-- The newline-terminated lines of a text, without their newlines. -/
def completeLines (s : Str) : List Str := frames '\n' s

/-- The text made of the given lines, each terminated by a newline. -/
def unlines (ls : List Str) : Str := stream '\n' ls

/-- Induction over a text line by line: the unterminated rest first, then one more line in front. -/
theorem lineInduction {motive : Str → Prop} (tail : ∀ t, '\n' ∉ t → motive t)
    (line : ∀ l rest, '\n' ∉ l → motive rest → motive (l ++ '\n' :: rest)) (s : Str) : motive s :=
  frameInduction '\n' tail line s

@[simp] theorem completeLines_of_not_mem {t : Str} (ht : '\n' ∉ t) : completeLines t = [] :=
  frames_of_not_mem ht

@[simp] theorem completeLines_line {l : Str} (hl : '\n' ∉ l) (rest : Str) :
    completeLines (l ++ '\n' :: rest) = l :: completeLines rest := frames_append_mark hl rest

@[simp] theorem unlines_nil : unlines [] = [] := rfl

@[simp] theorem unlines_cons (l : Str) (ls : List Str) :
    unlines (l :: ls) = l ++ '\n' :: unlines ls := stream_cons l ls

@[simp] theorem unlines_append (ls ms : List Str) : unlines (ls ++ ms) = unlines ls ++ unlines ms :=
  stream_append ls ms

theorem completeLines_unlines {ls : List Str} (h : ∀ l ∈ ls, '\n' ∉ l) :
    completeLines (unlines ls) = ls := frames_stream h

theorem completeLines_unlines_append {ls : List Str} (h : ∀ l ∈ ls, '\n' ∉ l) (rest : Str) :
    completeLines (unlines ls ++ rest) = ls ++ completeLines rest := by
  induction ls with
  | nil => rfl
  | cons l ls ih =>
      obtain ⟨hl, hls⟩ := List.forall_mem_cons.mp h
      rw [unlines_cons, List.append_assoc, List.cons_append, completeLines_line hl, ih hls, List.cons_append]

theorem not_mem_of_mem_completeLines (s : Str) : ∀ l ∈ completeLines s, '\n' ∉ l :=
  not_mem_of_mem_frames s

end UnicoreTsi.Text
