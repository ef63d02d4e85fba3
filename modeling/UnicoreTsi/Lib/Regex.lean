/-
# UnicoreTsi.Lib.Regex — backtracking search for linear patterns.

A *linear* pattern is a sequence of items, each a literal, a greedy repetition of one character class,
or a look-behind of one symbol (which is what an anchor is).  `matchItems` is the leftmost-greedy
backtracking matcher: a repetition first takes as many symbols as it may and gives them back one at a
time.  A successful match is reported as the list of the pieces the items consumed, so a capture group
is a piece (or several) of the result.

`Fits` says declaratively when a list of pieces realizes a pattern; `matchItems_isSome_iff` is the
exact connection: the matcher succeeds precisely when some realization is a prefix of the input.
`search` scans for the leftmost match, and `search_line` reduces the search with a pattern that starts
with "anything on this line" to one attempt at every start of a line.
-/
import Mathlib.Data.List.Basic
import Mathlib.Data.List.Infix
import Mathlib.Data.List.TakeWhile

set_option autoImplicit false

namespace UnicoreTsi.Regex

variable {α : Type}

/-! ## Patterns and their realizations -/

/-- One item of a linear pattern. -/
inductive Item (α : Type) where
  | lit (s : List α)
  | rep (p : α → Bool) (lo : Nat) (hi : Option Nat)
  | look (q : Option α → Bool)

/-- The symbol before the position reached after consuming `piece`. -/
def lastOr (prev : Option α) (piece : List α) : Option α := piece.getLast?.or prev

@[simp] theorem lastOr_nil (prev : Option α) : lastOr prev [] = prev := rfl

theorem lastOr_cons (prev : Option α) (a : α) (piece : List α) :
    lastOr prev (a :: piece) = lastOr (some a) piece := by
  cases piece <;> simp [lastOr, List.getLast?_cons]

/-- `piece` is something the item may consume at a position whose previous symbol is `prev`. -/
def Item.Fits (prev : Option α) (piece : List α) : Item α → Prop
  | .lit s => piece = s
  | .rep p lo hi => (∀ a ∈ piece, p a = true) ∧ lo ≤ piece.length ∧ ∀ h ∈ hi, piece.length ≤ h
  | .look q => piece = [] ∧ q prev = true

/-- The pieces realize the items one by one. -/
def Fits : List (Item α) → Option α → List (List α) → Prop
  | [], _, ps => ps = []
  | _ :: _, _, [] => False
  | i :: is, prev, p :: ps => i.Fits prev p ∧ Fits is (lastOr prev p) ps

/-- The pieces realize the pattern after the first `pre` of the input. -/
def Occurs (is : List (Item α)) (prev : Option α) (inp pre : List α) (ps : List (List α)) : Prop :=
  ∃ rest, inp = pre ++ (ps.flatten ++ rest) ∧ Fits is (lastOr prev pre) ps

theorem Occurs.cons {is : List (Item α)} {prev : Option α} {a : α} {inp pre : List α}
    {ps : List (List α)} (h : Occurs is (some a) inp pre ps) : Occurs is prev (a :: inp) (a :: pre) ps := by
  obtain ⟨rest, rfl, hfit⟩ := h
  exact ⟨rest, rfl, by rwa [lastOr_cons]⟩

theorem Occurs.tail {is : List (Item α)} {prev : Option α} {a b : α} {inp pre : List α}
    {ps : List (List α)} (h : Occurs is prev (a :: inp) (b :: pre) ps) : Occurs is (some a) inp pre ps := by
  obtain ⟨rest, heq, hfit⟩ := h
  obtain ⟨rfl, hinp⟩ := List.cons.inj heq
  exact ⟨rest, hinp, by rwa [lastOr_cons] at hfit⟩

theorem occurs_nil_iff {is : List (Item α)} {prev : Option α} {inp : List α} {ps : List (List α)} :
    Occurs is prev inp [] ps ↔ Fits is prev ps ∧ ps.flatten <+: inp := by
  constructor
  · rintro ⟨rest, rfl, hfit⟩
    exact ⟨hfit, List.prefix_append _ _⟩
  · rintro ⟨hfit, rest, rfl⟩
    exact ⟨rest, rfl, hfit⟩

/-! ## The matcher -/

section Matcher

variable [DecidableEq α]

/-- The first success of `f` on `n, n-1, …, lo`. -/
def firstDown {β : Type} (f : Nat → Option β) (lo : Nat) : Nat → Option β
  | 0 => if lo = 0 then f 0 else none
  | n + 1 => if lo ≤ n + 1 then (f (n + 1)).or (firstDown f lo n) else none

/-- How many symbols a greedy repetition takes at first. -/
def runLength (p : α → Bool) (hi : Option Nat) (inp : List α) : Nat :=
  match hi with
  | none => (inp.takeWhile p).length
  | some h => min h (inp.takeWhile p).length

/-- Match the items at the front of `inp`; `prev` is the symbol before it. -/
def matchItems : List (Item α) → Option α → List α → Option (List (List α))
  | [], _, _ => some []
  | .lit s :: is, prev, inp =>
      if s.isPrefixOf inp then
        (matchItems is (lastOr prev s) (inp.drop s.length)).map (s :: ·)
      else none
  | .rep p lo hi :: is, prev, inp =>
      firstDown (fun k =>
        (matchItems is (lastOr prev (inp.take k)) (inp.drop k)).map (inp.take k :: ·))
        lo (runLength p hi inp)
  | .look q :: is, prev, inp =>
      if q prev then (matchItems is prev inp).map ([] :: ·) else none

/-- The leftmost match in `inp`. -/
def search (is : List (Item α)) : Option α → List α → Option (List (List α))
  | prev, [] => matchItems is prev []
  | prev, a :: as => (matchItems is prev (a :: as)).or (search is (some a) as)

end Matcher

/-! ## Soundness and completeness of one attempt -/

theorem firstDown_eq_some {β : Type} {f : Nat → Option β} {lo n : Nat} {b : β}
    (h : firstDown f lo n = some b) : ∃ k, lo ≤ k ∧ k ≤ n ∧ f k = some b := by
  induction n with
  | zero =>
      simp only [firstDown] at h
      split at h
      · exact ⟨0, by omega, le_rfl, h⟩
      · simp at h
  | succ n ih =>
      simp only [firstDown] at h
      split at h
      · rename_i hlo
        rcases Option.or_eq_some_iff.mp h with hf | ⟨_, hr⟩
        · exact ⟨n + 1, hlo, le_rfl, hf⟩
        · obtain ⟨k, h1, h2, h3⟩ := ih hr
          exact ⟨k, h1, by omega, h3⟩
      · simp at h

theorem firstDown_isSome {β : Type} {f : Nat → Option β} {lo n k : Nat}
    (hlo : lo ≤ k) (hk : k ≤ n) (hf : (f k).isSome) : (firstDown f lo n).isSome := by
  induction n with
  | zero =>
      obtain rfl : k = 0 := by omega
      obtain rfl : lo = 0 := by omega
      simpa [firstDown] using hf
  | succ n ih =>
      have hlo' : lo ≤ n + 1 := by omega
      simp only [firstDown, hlo', if_true, Option.isSome_or, Bool.or_eq_true]
      rcases Nat.lt_succ_iff_lt_or_eq.mp (Nat.lt_succ_of_le hk) with hlt | rfl
      · exact Or.inr (ih (by omega))
      · exact Or.inl hf

theorem take_all_of_le_takeWhile {p : α → Bool} {inp : List α} {k : Nat}
    (hk : k ≤ (inp.takeWhile p).length) : ∀ a ∈ inp.take k, p a = true := by
  intro a ha
  have hpre : inp.take k <+: inp.takeWhile p := by
    have h := List.prefix_of_prefix_length_le (List.take_prefix k inp) (List.takeWhile_prefix p)
    refine h ?_
    rw [List.length_take]
    omega
  exact List.mem_takeWhile_imp (hpre.subset ha)

theorem length_le_takeWhile {p : α → Bool} {piece inp : List α} (hpre : piece <+: inp)
    (hall : ∀ a ∈ piece, p a = true) : piece.length ≤ (inp.takeWhile p).length := by
  obtain ⟨rest, rfl⟩ := hpre
  rw [List.takeWhile_append_of_pos hall, List.length_append]
  omega

variable [DecidableEq α]

/-- What the matcher reports realizes the pattern and stands at the front of the input. -/
theorem matchItems_sound {is : List (Item α)} {prev : Option α} {inp : List α}
    {ps : List (List α)} (h : matchItems is prev inp = some ps) :
    Fits is prev ps ∧ ps.flatten <+: inp := by
  induction is generalizing prev inp ps with
  | nil =>
      simp only [matchItems, Option.some.injEq] at h
      subst h
      exact ⟨rfl, by simp⟩
  | cons i is ih =>
      cases i with
      | lit s =>
          simp only [matchItems] at h
          split at h
          · rename_i hpre
            obtain ⟨qs, hqs, rfl⟩ := Option.map_eq_some_iff.mp h
            obtain ⟨hfit, hflat⟩ := ih hqs
            obtain ⟨rest, rfl⟩ := List.isPrefixOf_iff_prefix.mp hpre
            refine ⟨⟨rfl, hfit⟩, ?_⟩
            simpa using hflat
          · simp at h
      | rep p lo hi =>
          obtain ⟨k, hlo, hk, hf⟩ := firstDown_eq_some h
          obtain ⟨qs, hqs, rfl⟩ := Option.map_eq_some_iff.mp hf
          obtain ⟨hfit, hflat⟩ := ih hqs
          have hkw : k ≤ (inp.takeWhile p).length := by
            cases hi <;> simp only [runLength] at hk <;> omega
          have hkl : k ≤ inp.length := hkw.trans (List.takeWhile_prefix p).length_le
          refine ⟨⟨⟨take_all_of_le_takeWhile hkw, by simp; omega, ?_⟩, hfit⟩, ?_⟩
          · intro b hb
            obtain rfl := Option.mem_def.mp hb
            simp only [runLength] at hk
            rw [List.length_take]
            omega
          · have := (List.prefix_append_right_inj (inp.take k)).mpr hflat
            rwa [List.take_append_drop] at this
      | look q =>
          simp only [matchItems] at h
          split at h
          · rename_i hq
            obtain ⟨qs, hqs, rfl⟩ := Option.map_eq_some_iff.mp h
            obtain ⟨hfit, hflat⟩ := ih hqs
            exact ⟨⟨⟨rfl, hq⟩, hfit⟩, by simpa using hflat⟩
          · simp at h

/-- The matcher finds a match whenever some realization is a prefix of the input. -/
theorem matchItems_complete {is : List (Item α)} {prev : Option α} {inp : List α}
    {ps : List (List α)} (hfit : Fits is prev ps) (hflat : ps.flatten <+: inp) :
    (matchItems is prev inp).isSome := by
  induction is generalizing prev inp ps with
  | nil => simp [matchItems]
  | cons i is ih =>
      cases ps with
      | nil => exact absurd hfit id
      | cons piece ps =>
          obtain ⟨hi, hrest⟩ := hfit
          obtain ⟨rest, rfl⟩ := hflat
          simp only [List.flatten_cons, List.append_assoc]
          have hnext := ih hrest (List.prefix_append ps.flatten rest)
          cases i with
          | lit s =>
              obtain rfl : piece = s := hi
              simpa [matchItems] using hnext
          | rep p lo hi' =>
              obtain ⟨hall, hlo, hhi⟩ := hi
              have hle := length_le_takeWhile
                (List.prefix_append piece (ps.flatten ++ rest)) hall
              refine firstDown_isSome (k := piece.length) hlo ?_ ?_
              · cases hi' with
                | none => exact hle
                | some b => exact le_min (hhi b rfl) hle
              · simpa using hnext
          | look q =>
              obtain ⟨rfl, hq⟩ := hi
              simpa [matchItems, hq] using hnext

theorem matchItems_isSome_iff (is : List (Item α)) (prev : Option α) (inp : List α) :
    (matchItems is prev inp).isSome ↔ ∃ ps, Fits is prev ps ∧ ps.flatten <+: inp := by
  constructor
  · intro h
    obtain ⟨ps, hps⟩ := Option.isSome_iff_exists.mp h
    exact ⟨ps, matchItems_sound hps⟩
  · rintro ⟨ps, hfit, hflat⟩
    exact matchItems_complete hfit hflat

/-! ## Greedy runs -/

/-- A repetition that takes as much as it may, if the rest of the pattern follows there. -/
theorem matchItems_rep_top {p : α → Bool} {lo : ℕ} {hi : Option ℕ} {is : List (Item α)} {prev : Option α}
    {a x : List α} {ps : List (List α)} (hrun : runLength p hi (a ++ x) = a.length) (hlo : lo ≤ a.length)
    (h : matchItems is (lastOr prev a) x = some ps) :
    matchItems (.rep p lo hi :: is) prev (a ++ x) = some (a :: ps) := by
  have htop : ∀ {β : Type} (f : ℕ → Option β) (n : ℕ) {b : β}, lo ≤ n → f n = some b →
      firstDown f lo n = some b := by
    intro β f n b hn hf
    cases n with
    | zero => rw [firstDown, if_pos (by omega), hf]
    | succ n => rw [firstDown, if_pos hn, hf, Option.some_or]
  rw [matchItems, hrun]
  refine htop _ _ hlo ?_
  rw [List.take_left, List.drop_left, h]
  rfl

/-- Without an upper bound that is the whole run. -/
theorem matchItems_rep_run {p : α → Bool} {lo : ℕ} {is : List (Item α)} {prev : Option α}
    {a x : List α} {ps : List (List α)} (hrun : (a ++ x).takeWhile p = a) (hlo : lo ≤ a.length)
    (h : matchItems is (lastOr prev a) x = some ps) :
    matchItems (.rep p lo none :: is) prev (a ++ x) = some (a :: ps) :=
  matchItems_rep_top (congrArg List.length hrun) hlo h

theorem matchItems_look {q : Option α → Bool} {is : List (Item α)} {prev : Option α} {inp : List α}
    {ps : List (List α)} (hq : q prev = true) (h : matchItems is prev inp = some ps) :
    matchItems (.look q :: is) prev inp = some ([] :: ps) := by
  rw [matchItems, if_pos hq, h]
  rfl

theorem matchItems_lit {s inp : List α} {is : List (Item α)} {prev : Option α} {ps : List (List α)}
    (h : matchItems is (lastOr prev s) inp = some ps) :
    matchItems (.lit s :: is) prev (s ++ inp) = some (s :: ps) := by
  have hpre : s.isPrefixOf (s ++ inp) = true := List.isPrefixOf_iff_prefix.mpr (List.prefix_append _ _)
  rw [matchItems, if_pos hpre, List.drop_left, h]
  rfl

/-- A match at the front is the one a search finds. -/
theorem search_of_match {is : List (Item α)} {prev : Option α} {inp : List α} {ps : List (List α)}
    (h : matchItems is prev inp = some ps) : search is prev inp = some ps := by
  cases inp with
  | nil => exact h
  | cons a inp => rw [search, h, Option.some_or]

/-! ## Where a search finds its match -/

/-- A search fails only if the pattern occurs nowhere. -/
theorem search_isSome {is : List (Item α)} {prev : Option α} {inp pre : List α} {ps : List (List α)}
    (h : Occurs is prev inp pre ps) : (search is prev inp).isSome := by
  induction inp generalizing prev pre with
  | nil =>
      obtain ⟨rest, heq, hfit⟩ := h
      obtain ⟨rfl, hflat⟩ := List.append_eq_nil_iff.mp heq.symm
      exact matchItems_complete hfit ⟨rest, hflat⟩
  | cons a inp ih =>
      rw [search, Option.isSome_or, Bool.or_eq_true]
      cases pre with
      | nil =>
          obtain ⟨hfit, hflat⟩ := occurs_nil_iff.mp h
          exact Or.inl (matchItems_complete hfit hflat)
      | cons b pre => exact Or.inr (ih h.tail)

/-- What a search finds is the first occurrence of the pattern. -/
theorem search_eq_some {is : List (Item α)} {prev : Option α} {inp : List α} {ps : List (List α)}
    (h : search is prev inp = some ps) :
    ∃ pre, Occurs is prev inp pre ps ∧
      ∀ pre' ps', Occurs is prev inp pre' ps' → pre.length ≤ pre'.length := by
  induction inp generalizing prev with
  | nil =>
      obtain ⟨hfit, hflat⟩ := matchItems_sound h
      exact ⟨[], occurs_nil_iff.mpr ⟨hfit, hflat⟩, fun _ _ _ => Nat.zero_le _⟩
  | cons a inp ih =>
      rcases Option.or_eq_some_iff.mp h with hm | ⟨hm, hr⟩
      · obtain ⟨hfit, hflat⟩ := matchItems_sound hm
        exact ⟨[], occurs_nil_iff.mpr ⟨hfit, hflat⟩, fun _ _ _ => Nat.zero_le _⟩
      · obtain ⟨pre, hocc, hfirst⟩ := ih hr
        refine ⟨a :: pre, hocc.cons, fun pre' ps' hocc' => ?_⟩
        cases pre' with
        | nil =>
            -- the attempt at the front would have succeeded
            obtain ⟨hfit, hflat⟩ := occurs_nil_iff.mp hocc'
            have hsome := matchItems_complete hfit hflat
            rw [hm] at hsome
            cases hsome
        | cons b pre' => exact Nat.succ_le_succ (hfirst pre' ps' hocc'.tail)

/-- A group of a match is a part of the text. -/
theorem search_group {is : List (Item α)} {prev : Option α} {inp group : List α} {ps : List (List α)}
    (h : search is prev inp = some ps) (hgroup : group ∈ ps) : group <:+: inp := by
  obtain ⟨pre, ⟨rest, hinp, -⟩, -⟩ := search_eq_some h
  have hpart : group <:+: ps.flatten := List.infix_of_mem_flatten hgroup
  rw [hinp, ← List.append_assoc]
  exact hpart.trans (List.infix_append pre ps.flatten rest)

/-! ## Searching line by line -/

/-- `.*`: anything but the line separator. -/
def dots (nl : α) : Item α := .rep (fun a => decide (a ≠ nl)) 0 none

/-- A match that starts inside a line can be extended to the start of the line. -/
theorem matchItems_dots_cons {is : List (Item α)} {prev : Option α} {nl c : α} {inp : List α}
    (hc : c ≠ nl) (h : (matchItems (dots nl :: is) (some c) inp).isSome) :
    (matchItems (dots nl :: is) prev (c :: inp)).isSome := by
  obtain ⟨ps, hfit, hflat⟩ := (matchItems_isSome_iff _ _ _).mp h
  cases ps with
  | nil => exact absurd hfit id
  | cons piece ps =>
      obtain ⟨⟨hall, -, -⟩, hrest⟩ := hfit
      have hfit' : Fits (dots nl :: is) prev ((c :: piece) :: ps) := by
        refine ⟨⟨?_, by simp, by simp⟩, ?_⟩
        · intro a ha
          rcases List.mem_cons.mp ha with rfl | ha
          · simpa using hc
          · exact hall a ha
        · rwa [lastOr_cons]
      apply matchItems_complete hfit'
      simpa using hflat

/-- A pattern that starts with `.*` is tried once at the start of a line; if it fails there it fails
everywhere on that line. -/
theorem search_line (is : List (Item α)) (nl : α) (prev : Option α) {l : List α} (hl : nl ∉ l)
    (rest : List α) :
    search (dots nl :: is) prev (l ++ nl :: rest) =
      (matchItems (dots nl :: is) prev (l ++ nl :: rest)).or
        (search (dots nl :: is) (some nl) rest) := by
  induction l generalizing prev with
  | nil => rfl
  | cons c l ih =>
      have hc : c ≠ nl := fun h => hl (by simp [h])
      rw [List.cons_append, search, ih (some c) fun h => hl (List.mem_cons_of_mem c h)]
      cases hm : matchItems (dots nl :: is) (some c) (l ++ nl :: rest) with
      | none => simp
      | some ps =>
          have hstart : (matchItems (dots nl :: is) prev (c :: (l ++ nl :: rest))).isSome :=
            matchItems_dots_cons hc (Option.isSome_of_mem hm)
          obtain ⟨qs, hqs⟩ := Option.isSome_iff_exists.mp hstart
          simp [hqs]

/-- The same on an unterminated last line. -/
theorem search_tail (is : List (Item α)) (nl : α) (prev : Option α) {t : List α} (ht : nl ∉ t) :
    search (dots nl :: is) prev t = matchItems (dots nl :: is) prev t := by
  induction t generalizing prev with
  | nil => rfl
  | cons c t ih =>
      have hc : c ≠ nl := fun h => ht (by simp [h])
      rw [search, ih (some c) fun h => ht (List.mem_cons_of_mem c h)]
      cases hm : matchItems (dots nl :: is) (some c) t with
      | none => simp
      | some ps =>
          have hstart : (matchItems (dots nl :: is) prev (c :: t)).isSome :=
            matchItems_dots_cons hc (Option.isSome_of_mem hm)
          obtain ⟨qs, hqs⟩ := Option.isSome_iff_exists.mp hstart
          simp [hqs]

end UnicoreTsi.Regex
