/-
# UnicoreTsi.Lib.Shell — how a POSIX shell reads a line: words, quoting, separators, output redirections.

`step` reads one character: the mode says whether the shell is between two words, in a word or in a quotation.
`tokens` reads a line, `commands` makes simple commands of its tokens.  Both give `none` for what they do not
follow: a line that leaves a quotation open, command substitution, pipes, subshells, input redirections, and
separators without a command.  Tilde, brace, pathname and parameter expansion are not carried out.

The two results are about a word that is followed by a text (`lex_plain`, `lex_size_lt`): a text without special
characters becomes part of the word as it is, and with any other text the words of the line are together shorter
than what they were read from.
-/
import Mathlib.Algebra.GroupWithZero.Nat
import UnicoreTsi.Lib.Text

set_option autoImplicit false

namespace UnicoreTsi.Shell

open UnicoreTsi.Text

/-! ## Tokens -/

inductive Token where
  | word (text : Str)
  | separator
  | redirect (fd : Option Str) (append : Bool)
  deriving DecidableEq, Repr

/-- Where the shell is in the line, with what the word it is reading has so far.  A word is bare as long as
nothing in it has been quoted. -/
inductive Mode where
  | outside
  | comment
  | word (text : Str) (bare : Bool)
  | single (text : Str)
  | double (text : Str)
  | escape (text : Str)
  | escapeDouble (text : Str)
  | greater (fd : Option Str)
  deriving DecidableEq, Repr

def isBlank (c : Char) : Bool := c = ' ' || c = '\t'

/-- The characters that are not taken as they are outside of a quotation. -/
def isSpecial (c : Char) : Bool :=
  isBlank c || ['\'', '"', '\\', '`', ';', '&', '|', '<', '>', '(', ')', '\n'].contains c

def isNumber (text : Str) : Bool := decide (text ≠ []) && text.all Char.isDigit

/-- A character outside of a quotation; `done` is the word that it may end. -/
def unquoted (done : List Token) (text : Str) (bare : Bool) (c : Char) : Option (List Token × Mode) :=
  if isBlank c then some (done, .outside)
  else if c = ';' ∨ c = '&' then some (done ++ [.separator], .outside)
  else if c = '>' then some (done, .greater none)
  else if c = '\'' then some ([], .single text)
  else if c = '"' then some ([], .double text)
  else if c = '\\' then some ([], .escape text)
  else if isSpecial c then none
  else some ([], .word (text ++ [c]) bare)

/-- A character between two words. -/
def between (c : Char) : Option (List Token × Mode) :=
  if c = '#' then some ([], .comment) else unquoted [] [] true c

/-- A number that stands directly before `>` is the file descriptor. -/
def inWord (text : Str) (bare : Bool) (c : Char) : Option (List Token × Mode) :=
  if c = '>' ∧ bare = true ∧ isNumber text = true then some ([], .greater (some text))
  else unquoted [.word text] text bare c

def step : Mode → Char → Option (List Token × Mode)
  | .outside, c => between c
  | .comment, _ => some ([], .comment)
  | .word text bare, c => inWord text bare c
  | .single text, c => if c = '\'' then some ([], .word text false) else some ([], .single (text ++ [c]))
  | .double text, c =>
      if c = '"' then some ([], .word text false)
      else if c = '\\' then some ([], .escapeDouble text)
      else if c = '`' then none
      else some ([], .double (text ++ [c]))
  | .escape text, c => some ([], .word (text ++ [c]) false)
  | .escapeDouble text, c =>
      if ['$', '`', '"', '\\'].contains c then some ([], .double (text ++ [c]))
      else some ([], .double (text ++ ['\\', c]))
  | .greater fd, c =>
      if c = '>' then some ([.redirect fd true], .outside)
      else if c = '&' ∨ c = '|' then none
      else (between c).map fun (ts, m) => (.redirect fd false :: ts, m)

/-- The end of the line. -/
def finish : Mode → Option (List Token)
  | .outside | .comment => some []
  | .word text _ => some [.word text]
  | _ => none

def lex : Mode → Str → Option (List Token)
  | m, [] => finish m
  | m, c :: s =>
      match step m c with
      | none => none
      | some (ts, m') => (lex m' s).map (ts ++ ·)

theorem lex_step {m m' : Mode} {c : Char} {ts : List Token} (h : step m c = some (ts, m')) (s : Str) :
    lex m (c :: s) = (lex m' s).map (ts ++ ·) := by
  rw [lex, h]

/-- A character that ends no token. -/
theorem lex_silent {m m' : Mode} {c : Char} (h : step m c = some ([], m')) (s : Str) :
    lex m (c :: s) = lex m' s := by
  rw [lex_step h]
  show Option.map id _ = _
  rw [Option.map_id, id]

def tokens (line : Str) : Option (List Token) := lex .outside line

/-! ## Commands -/

structure Redirect where
  fd : Option Str
  append : Bool
  target : Str
  deriving DecidableEq, Repr

structure Simple where
  words : List Str
  redirects : List Redirect
  deriving DecidableEq, Repr

def Simple.empty : Simple := ⟨[], []⟩

/-- Collect the current command up to its separator. -/
def parse : Simple → List Token → Option (List Simple)
  | current, [] => some (if current = .empty then [] else [current])
  | current, .separator :: ts => if current = .empty then none else (parse .empty ts).map (current :: ·)
  | current, .word w :: ts => parse { current with words := current.words ++ [w] } ts
  | current, .redirect fd append :: .word target :: ts =>
      parse { current with redirects := current.redirects ++ [⟨fd, append, target⟩] } ts
  | _, .redirect _ _ :: _ => none

def commands (line : Str) : Option (List Simple) := tokens line >>= parse .empty

/-! ## Words of a line -/

def Token.size : Token → Nat
  | .word text => text.length
  | _ => 0

/-- The length of the words of a line. -/
def size (ts : List Token) : Nat := (ts.map Token.size).sum

@[simp] theorem size_nil : size [] = 0 := rfl

@[simp] theorem size_cons (t : Token) (ts : List Token) : size (t :: ts) = t.size + size ts := by
  simp [size]

@[simp] theorem size_append (ts us : List Token) : size (ts ++ us) = size ts + size us := by
  simp [size]

theorem length_le_size {w : Str} {ts : List Token} (h : .word w ∈ ts) : w.length ≤ size ts := by
  induction ts with
  | nil => cases h
  | cons t ts ih =>
      rw [size_cons]
      rcases List.mem_cons.mp h with rfl | hmem
      · exact Nat.le_add_right _ _
      · exact (ih hmem).trans (Nat.le_add_left _ _)

/-- What a mode has read and not emitted. -/
def Mode.held : Mode → Nat
  | .word text _ | .single text | .double text | .escape text => text.length
  | .escapeDouble text => text.length + 1
  | _ => 0

/-- No character makes more than one character of a word; a special one makes none. -/
theorem unquoted_size {done : List Token} {text : Str} {bare : Bool} {c : Char} {ts : List Token} {m : Mode}
    (h : unquoted done text bare c = some (ts, m)) (hdone : size done ≤ text.length) :
    size ts + m.held ≤ text.length + 1 ∧ (isSpecial c = true → size ts + m.held ≤ text.length) := by
  unfold unquoted at h
  split_ifs at h with hblank hseparator hgreater hsingle hdouble hescape hspecial
  · obtain ⟨rfl, rfl⟩ := Prod.mk.inj (Option.some.inj h)
    exact ⟨Nat.le_succ_of_le hdone, fun _ => hdone⟩
  · obtain ⟨rfl, rfl⟩ := Prod.mk.inj (Option.some.inj h)
    have hsize : size (done ++ [.separator]) = size done := by simp [Token.size]
    rw [hsize]
    exact ⟨Nat.le_succ_of_le hdone, fun _ => hdone⟩
  · obtain ⟨rfl, rfl⟩ := Prod.mk.inj (Option.some.inj h)
    exact ⟨Nat.le_succ_of_le hdone, fun _ => hdone⟩
  · obtain ⟨rfl, rfl⟩ := Prod.mk.inj (Option.some.inj h)
    simp [Mode.held]
  · obtain ⟨rfl, rfl⟩ := Prod.mk.inj (Option.some.inj h)
    simp [Mode.held]
  · obtain ⟨rfl, rfl⟩ := Prod.mk.inj (Option.some.inj h)
    simp [Mode.held]
  · obtain ⟨rfl, rfl⟩ := Prod.mk.inj (Option.some.inj h)
    exact ⟨by simp [Mode.held], fun hs => absurd hs hspecial⟩

theorem between_size {c : Char} {ts : List Token} {m : Mode} (h : between c = some (ts, m)) :
    size ts + m.held ≤ 1 := by
  unfold between at h
  split at h
  · obtain ⟨rfl, rfl⟩ := Prod.mk.inj (Option.some.inj h)
    exact Nat.zero_le 1
  · exact (unquoted_size h (Nat.zero_le _)).1

theorem inWord_size {text : Str} {bare : Bool} {c : Char} {ts : List Token} {m : Mode}
    (h : inWord text bare c = some (ts, m)) :
    size ts + m.held ≤ text.length + 1 ∧ (isSpecial c = true → size ts + m.held ≤ text.length) := by
  unfold inWord at h
  split at h
  · obtain ⟨rfl, rfl⟩ := Prod.mk.inj (Option.some.inj h)
    exact ⟨Nat.zero_le _, fun _ => Nat.zero_le _⟩
  · exact unquoted_size h (by simp [Token.size])

theorem step_size {m m' : Mode} {c : Char} {ts : List Token} (h : step m c = some (ts, m')) :
    size ts + m'.held ≤ m.held + 1 := by
  cases m with
  | outside => exact between_size h
  | comment =>
      obtain ⟨rfl, rfl⟩ := Prod.mk.inj (Option.some.inj h)
      exact Nat.zero_le 1
  | word text bare => exact (inWord_size h).1
  | single text =>
      rw [step] at h
      split at h
      · obtain ⟨rfl, rfl⟩ := Prod.mk.inj (Option.some.inj h)
        simp [Mode.held]
      · obtain ⟨rfl, rfl⟩ := Prod.mk.inj (Option.some.inj h)
        simp [Mode.held]
  | double text =>
      rw [step] at h
      split_ifs at h
      · obtain ⟨rfl, rfl⟩ := Prod.mk.inj (Option.some.inj h)
        simp [Mode.held]
      · obtain ⟨rfl, rfl⟩ := Prod.mk.inj (Option.some.inj h)
        simp [Mode.held]
      · obtain ⟨rfl, rfl⟩ := Prod.mk.inj (Option.some.inj h)
        simp [Mode.held]
  | escape text =>
      obtain ⟨rfl, rfl⟩ := Prod.mk.inj (Option.some.inj h)
      simp [Mode.held]
  | escapeDouble text =>
      rw [step] at h
      split at h
      · obtain ⟨rfl, rfl⟩ := Prod.mk.inj (Option.some.inj h)
        simp [Mode.held]
      · obtain ⟨rfl, rfl⟩ := Prod.mk.inj (Option.some.inj h)
        simp [Mode.held]
  | greater fd =>
      rw [step] at h
      split_ifs at h
      · obtain ⟨rfl, rfl⟩ := Prod.mk.inj (Option.some.inj h)
        exact Nat.zero_le 1
      · obtain ⟨⟨us, m₁⟩, hbetween, hpair⟩ := Option.map_eq_some_iff.mp h
        obtain ⟨rfl, rfl⟩ := Prod.mk.inj hpair
        have hsize := between_size hbetween
        rw [size_cons]
        exact (Nat.zero_add (size us)).symm ▸ hsize

theorem finish_size {m : Mode} {ts : List Token} (h : finish m = some ts) : size ts ≤ m.held := by
  cases m with
  | outside => exact Option.some.inj h ▸ Nat.zero_le _
  | comment => exact Option.some.inj h ▸ Nat.zero_le _
  | word text bare =>
      obtain rfl := Option.some.inj h
      simp [Token.size, Mode.held]
  | _ => cases h

theorem lex_size {m : Mode} {s : Str} {ts : List Token} (h : lex m s = some ts) : size ts ≤ m.held + s.length := by
  induction s generalizing m ts with
  | nil => exact finish_size h
  | cons c s ih =>
      rw [lex] at h
      split at h
      · cases h
      · rename_i us m' hstep
        obtain ⟨vs, hvs, rfl⟩ := Option.map_eq_some_iff.mp h
        have hlater := ih hvs
        have hfirst := step_size hstep
        rw [size_append, List.length_cons]
        omega

/-! ## A word and what follows it -/

/-- No character of the text is special. -/
def Plain (s : Str) : Prop := ∀ c ∈ s, isSpecial c = false

instance (s : Str) : Decidable (Plain s) := inferInstanceAs (Decidable (∀ c ∈ s, isSpecial c = false))

theorem unquoted_plain {c : Char} (hc : isSpecial c = false) (done : List Token) (text : Str) (bare : Bool) :
    unquoted done text bare c = some ([], .word (text ++ [c]) bare) := by
  have hne : ∀ d, isSpecial d = true → c ≠ d := by
    rintro d hd rfl
    rw [hd] at hc
    cases hc
  have hblank : isBlank c = false := by
    cases hb : isBlank c with
    | false => rfl
    | true =>
        rw [isSpecial, hb] at hc
        cases hc
  rw [unquoted, hblank, if_neg Bool.false_ne_true, if_neg (not_or.mpr ⟨hne ';' rfl, hne '&' rfl⟩),
    if_neg (hne '>' rfl), if_neg (hne '\'' rfl), if_neg (hne '"' rfl), if_neg (hne '\\' rfl), hc,
    if_neg Bool.false_ne_true]

theorem lex_plain_append {v : Str} (hv : Plain v) (text : Str) (bare : Bool) (s : Str) :
    lex (.word text bare) (v ++ s) = lex (.word (text ++ v) bare) s := by
  induction v generalizing text with
  | nil => rw [List.append_nil, List.nil_append]
  | cons c v ih =>
      have hc : isSpecial c = false := hv c List.mem_cons_self
      have hgreater : c ≠ '>' := by
        rintro rfl
        cases hc
      have hstep : step (.word text bare) c = some ([], .word (text ++ [c]) bare) := by
        rw [step, inWord, if_neg fun h => hgreater h.1, unquoted_plain hc]
      have hrest := ih (fun d hd => hv d (List.mem_cons_of_mem c hd)) (text ++ [c])
      rw [List.cons_append, lex_silent hstep, hrest, List.append_assoc, List.singleton_append]

/-- A plain text becomes part of the word. -/
theorem lex_plain {v : Str} (hv : Plain v) (text : Str) (bare : Bool) :
    lex (.word text bare) v = some [.word (text ++ v)] := by
  have h := lex_plain_append hv text bare []
  rw [List.append_nil] at h
  rw [h]
  rfl

theorem exists_special {v : Str} (hv : ¬ Plain v) : ∃ p c r, v = p ++ c :: r ∧ Plain p ∧ isSpecial c = true := by
  induction v with
  | nil => exact absurd nofun hv
  | cons c v ih =>
      cases hc : isSpecial c with
      | true => exact ⟨[], c, v, rfl, nofun, hc⟩
      | false =>
          have hrest : ¬ Plain v := by
            intro h
            apply hv
            rintro d hd
            rcases List.mem_cons.mp hd with rfl | hmem
            · exact hc
            · exact h d hmem
          obtain ⟨p, d, r, rfl, hp, hd⟩ := ih hrest
          refine ⟨c :: p, d, r, rfl, ?_, hd⟩
          intro e he
          rcases List.mem_cons.mp he with rfl | hmem
          · exact hc
          · exact hp e hmem

/-- With any other text the words are together shorter than what they are read from. -/
theorem lex_size_lt {v : Str} (hv : ¬ Plain v) {text : Str} {bare : Bool} {ts : List Token}
    (h : lex (.word text bare) v = some ts) : size ts < text.length + v.length := by
  obtain ⟨p, c, r, rfl, hp, hc⟩ := exists_special hv
  rw [lex_plain_append hp, lex] at h
  split at h
  · cases h
  · rename_i us m hstep
    obtain ⟨vs, hvs, rfl⟩ := Option.map_eq_some_iff.mp h
    have hlater := lex_size hvs
    have hfirst : size us + m.held ≤ (text ++ p).length := (inWord_size hstep).2 hc
    rw [List.length_append] at hfirst
    rw [size_append, List.length_append, List.length_cons]
    omega

/-- The mode is in a word, or in a quotation of it, that begins with `text`. -/
def Mode.In (text : Str) : Mode → Prop
  | .word t _ | .single t | .double t | .escape t | .escapeDouble t => text <+: t
  | _ => False

theorem isNumber_eq_false {text t : Str} (h : ∃ c ∈ text, c.isDigit = false) (ht : text <+: t) :
    isNumber t = false := by
  obtain ⟨c, hc, hdigit⟩ := h
  have hall : t.all Char.isDigit = false := by
    rw [List.all_eq_false]
    exact ⟨c, ht.subset hc, by simp [hdigit]⟩
  rw [isNumber, hall, Bool.and_false]

theorem unquoted_in {text t : Str} (ht : text <+: t) {bare : Bool} {c : Char} {ts : List Token} {m : Mode}
    (h : unquoted [.word t] t bare c = some (ts, m)) : (ts = [] ∧ m.In text) ∨ ∃ us, ts = .word t :: us := by
  unfold unquoted at h
  split_ifs at h with hblank hseparator hgreater hsingle hdouble hescape hspecial
  · obtain ⟨rfl, rfl⟩ := Prod.mk.inj (Option.some.inj h)
    exact Or.inr ⟨[], rfl⟩
  · obtain ⟨rfl, rfl⟩ := Prod.mk.inj (Option.some.inj h)
    exact Or.inr ⟨[.separator], rfl⟩
  · obtain ⟨rfl, rfl⟩ := Prod.mk.inj (Option.some.inj h)
    exact Or.inr ⟨[], rfl⟩
  · obtain ⟨rfl, rfl⟩ := Prod.mk.inj (Option.some.inj h)
    exact Or.inl ⟨rfl, ht⟩
  · obtain ⟨rfl, rfl⟩ := Prod.mk.inj (Option.some.inj h)
    exact Or.inl ⟨rfl, ht⟩
  · obtain ⟨rfl, rfl⟩ := Prod.mk.inj (Option.some.inj h)
    exact Or.inl ⟨rfl, ht⟩
  · obtain ⟨rfl, rfl⟩ := Prod.mk.inj (Option.some.inj h)
    exact Or.inl ⟨rfl, ht.trans (List.prefix_append _ _)⟩

/-- A step inside a word stays in it, or ends it. -/
theorem step_in {text : Str} (htext : ∃ c ∈ text, c.isDigit = false) {m m' : Mode} (hm : m.In text) {c : Char}
    {ts : List Token} (h : step m c = some (ts, m')) :
    (ts = [] ∧ m'.In text) ∨ ∃ t us, text <+: t ∧ ts = .word t :: us := by
  have happend : ∀ {t : Str} (x : Str), text <+: t → text <+: t ++ x := fun x ht =>
    ht.trans (List.prefix_append _ x)
  cases m with
  | outside => exact hm.elim
  | comment => exact hm.elim
  | greater fd => exact hm.elim
  | word t bare =>
      rw [step, inWord, isNumber_eq_false htext hm, if_neg (by simp)] at h
      rcases unquoted_in hm h with hin | ⟨us, rfl⟩
      · exact Or.inl hin
      · exact Or.inr ⟨t, us, hm, rfl⟩
  | single t =>
      rw [step] at h
      split at h
      · obtain ⟨rfl, rfl⟩ := Prod.mk.inj (Option.some.inj h)
        exact Or.inl ⟨rfl, hm⟩
      · obtain ⟨rfl, rfl⟩ := Prod.mk.inj (Option.some.inj h)
        exact Or.inl ⟨rfl, happend _ hm⟩
  | double t =>
      rw [step] at h
      split_ifs at h
      · obtain ⟨rfl, rfl⟩ := Prod.mk.inj (Option.some.inj h)
        exact Or.inl ⟨rfl, hm⟩
      · obtain ⟨rfl, rfl⟩ := Prod.mk.inj (Option.some.inj h)
        exact Or.inl ⟨rfl, hm⟩
      · obtain ⟨rfl, rfl⟩ := Prod.mk.inj (Option.some.inj h)
        exact Or.inl ⟨rfl, happend _ hm⟩
  | escape t =>
      obtain ⟨rfl, rfl⟩ := Prod.mk.inj (Option.some.inj h)
      exact Or.inl ⟨rfl, happend _ hm⟩
  | escapeDouble t =>
      rw [step] at h
      split at h
      · obtain ⟨rfl, rfl⟩ := Prod.mk.inj (Option.some.inj h)
        exact Or.inl ⟨rfl, happend _ hm⟩
      · obtain ⟨rfl, rfl⟩ := Prod.mk.inj (Option.some.inj h)
        exact Or.inl ⟨rfl, happend _ hm⟩

/-- The first token is the word that has been begun. -/
theorem lex_in {text : Str} (htext : ∃ c ∈ text, c.isDigit = false) {m : Mode} (hm : m.In text) {s : Str}
    {ts : List Token} (h : lex m s = some ts) : ∃ t us, text <+: t ∧ ts = .word t :: us := by
  induction s generalizing m ts with
  | nil =>
      cases m with
      | word t bare =>
          obtain rfl := Option.some.inj h
          exact ⟨t, [], hm, rfl⟩
      | outside => exact hm.elim
      | comment => exact hm.elim
      | greater fd => exact hm.elim
      | _ => cases h
  | cons c s ih =>
      rw [lex] at h
      split at h
      · cases h
      · rename_i us m' hstep
        obtain ⟨vs, hvs, rfl⟩ := Option.map_eq_some_iff.mp h
        rcases step_in htext hm hstep with ⟨rfl, hin⟩ | ⟨t, us', ht, rfl⟩
        · exact ih hin hvs
        · exact ⟨t, us' ++ vs, ht, rfl⟩

/-! ## Plain words on a line -/

/-- A word that is read as it stands. -/
structure PlainWord (w : Str) : Prop where
  ne_nil : w ≠ []
  no_comment : w.head? ≠ some '#'
  plain : Plain w

theorem lex_outside_word {w : Str} (hw : PlainWord w) (s : Str) : lex .outside (w ++ s) = lex (.word w true) s := by
  obtain ⟨hne, hcomment, hplain⟩ := hw
  cases w with
  | nil => exact absurd rfl hne
  | cons c w =>
      have hhash : c ≠ '#' := by
        rintro rfl
        exact hcomment rfl
      have hstep : step .outside c = some ([], .word [c] true) := by
        rw [step, between, if_neg hhash, unquoted_plain (hplain c List.mem_cons_self)]
        rfl
      rw [List.cons_append, lex_silent hstep, lex_plain_append fun d hd => hplain d (List.mem_cons_of_mem c hd)]
      rfl

theorem lex_word_blank (w : Str) (bare : Bool) (s : Str) :
    lex (.word w bare) (' ' :: s) = (lex .outside s).map (.word w :: ·) := by
  have hstep : step (.word w bare) ' ' = some ([.word w], .outside) := by
    rw [step, inWord, if_neg fun h => absurd h.1 (by decide), unquoted, if_pos (by decide)]
  rw [lex_step hstep]
  rfl

theorem lex_word_end (w : Str) (bare : Bool) : lex (.word w bare) [] = some [.word w] := rfl

/-- A plain word and a blank. -/
theorem lex_plainWord {w : Str} (hw : PlainWord w) (s : Str) :
    lex .outside (w ++ ' ' :: s) = (lex .outside s).map (.word w :: ·) := by
  rw [lex_outside_word hw, lex_word_blank]

/-- A redirection, with a blank before its target. -/
theorem lex_redirect (s : Str) :
    lex .outside ('>' :: ' ' :: s) = (lex .outside s).map (.redirect none false :: ·) := by
  have hblank : step (.greater none) ' ' = some ([.redirect none false], .outside) := rfl
  rw [lex_silent rfl, lex_step hblank]
  rfl

theorem lex_append (s : Str) :
    lex .outside ('>' :: '>' :: ' ' :: s) = (lex .outside s).map (.redirect none true :: ·) := by
  have hagain : step (.greater none) '>' = some ([.redirect none true], .outside) := rfl
  rw [lex_silent rfl, lex_step hagain, lex_silent rfl]
  rfl

theorem lex_separator {c : Char} (hc : c = ';' ∨ c = '&') (s : Str) :
    lex .outside (c :: ' ' :: s) = (lex .outside s).map (.separator :: ·) := by
  have hseparator : step .outside c = some ([.separator], .outside) := by
    rcases hc with rfl | rfl
    · rfl
    · rfl
  rw [lex_step hseparator, lex_silent rfl]
  rfl

/-! ## Commands of a line -/

/-- The first command of a line begins with the words that have been collected; the other words of the commands
are words of the line. -/
theorem parse_some {current : Simple} {ts : List Token} {cs : List Simple} (h : parse current ts = some cs) :
    (cs = [] ∧ current = .empty) ∨ ∃ args redirects more, cs = ⟨current.words ++ args, redirects⟩ :: more ∧
      (∀ w ∈ args, .word w ∈ ts) ∧ ∀ c ∈ more, ∀ w ∈ c.words, .word w ∈ ts := by
  induction current, ts using parse.induct generalizing cs with
  | case1 current =>
      rw [parse] at h
      split at h
      · rename_i hempty
        exact Or.inl ⟨(Option.some.inj h).symm, hempty⟩
      · obtain rfl := Option.some.inj h
        exact Or.inr ⟨[], current.redirects, [], by rw [List.append_nil], nofun, nofun⟩
  | case2 ts => cases h
  | case3 current ts hcommand ih =>
      rw [parse, if_neg hcommand] at h
      obtain ⟨later, hlater, rfl⟩ := Option.map_eq_some_iff.mp h
      refine Or.inr ⟨[], current.redirects, later, by rw [List.append_nil], nofun, fun c hc w hw => ?_⟩
      rcases ih hlater with ⟨rfl, -⟩ | ⟨args, redirects, more, rfl, hargs, hmore⟩
      · cases hc
      · rcases List.mem_cons.mp hc with rfl | hmem
        · exact List.mem_cons_of_mem _ (hargs w hw)
        · exact List.mem_cons_of_mem _ (hmore c hmem w hw)
  | case4 current w ts ih =>
      rw [parse] at h
      rcases ih h with ⟨-, hempty⟩ | ⟨args, redirects, more, rfl, hargs, hmore⟩
      · have hwords : current.words ++ [w] = [] := congrArg Simple.words hempty
        simp at hwords
      · refine Or.inr ⟨w :: args, redirects, more, by simp, ?_, ?_⟩
        · intro w' hw'
          rcases List.mem_cons.mp hw' with rfl | hmem
          · exact List.mem_cons_self
          · exact List.mem_cons_of_mem _ (hargs w' hmem)
        · exact fun c hc w' hw' => List.mem_cons_of_mem _ (hmore c hc w' hw')
  | case5 current fd append target ts ih =>
      rw [parse] at h
      rcases ih h with ⟨-, hempty⟩ | ⟨args, redirects, more, rfl, hargs, hmore⟩
      · have hredirects : current.redirects ++ [⟨fd, append, target⟩] = [] := congrArg Simple.redirects hempty
        simp at hredirects
      · refine Or.inr ⟨args, redirects, more, rfl, ?_, ?_⟩
        · exact fun w hw => List.mem_cons_of_mem _ (List.mem_cons_of_mem _ (hargs w hw))
        · exact fun c hc w hw => List.mem_cons_of_mem _ (List.mem_cons_of_mem _ (hmore c hc w hw))
  | case6 current fd append ts hno => simp [parse] at h

/-! ## Variables -/

/-- The variables of the environment. -/
abbrev Vars := Str → Option Str

/-- An argument of `export`: `name=value` gives the variable a value. -/
def export1 (vars : Vars) (arg : Str) : Vars :=
  match splitOnce '=' arg with
  | some (name, value) => Function.update vars name (some value)
  | none => vars

def exports (vars : Vars) (args : List Str) : Vars := args.foldl export1 vars

/-- The variable has a value that is shorter than `n`. -/
def Below (vars : Vars) (name : Str) (n : Nat) : Prop := ∃ value, vars name = some value ∧ value.length < n

theorem export1_assignment {name : Str} (hname : '=' ∉ name) (vars : Vars) (value : Str) :
    export1 vars (name ++ '=' :: value) = Function.update vars name (some value) := by
  rw [export1, splitOnce_append hname]

theorem splitOnce_length {sep : Char} {s a b : Str} (h : splitOnce sep s = some (a, b)) : b.length < s.length := by
  rw [← append_of_splitOnce h, List.length_append, List.length_cons]
  omega

theorem exports_below {vars : Vars} {name : Str} {n : Nat} {args : List Str} (h : Below vars name n)
    (hargs : ∀ arg ∈ args, arg.length ≤ n) : Below (exports vars args) name n := by
  induction args generalizing vars with
  | nil => exact h
  | cons arg args ih =>
      refine ih ?_ fun later hlater => hargs later (List.mem_cons_of_mem _ hlater)
      unfold export1
      split
      · rename_i name' value hsplit
        by_cases hname : name = name'
        · refine ⟨value, by rw [hname, Function.update_self], ?_⟩
          exact lt_of_lt_of_le (splitOnce_length hsplit) (hargs arg List.mem_cons_self)
        · obtain ⟨old, hold, hlt⟩ := h
          exact ⟨old, by rw [Function.update_of_ne hname, hold], hlt⟩
      · exact h

end UnicoreTsi.Shell
