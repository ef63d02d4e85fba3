/-
# UnicoreTsi.Numbers — the decimal text of a number, and reading it back.

`digitValue` knows the decimal digits of every script; the text `str(n)` consists of ASCII digits, which are
among them, and of no white space.
-/
import Mathlib.Tactic.Ring
import Mathlib.Tactic.Linarith
import UnicoreTsi.Parameters

set_option autoImplicit false

namespace UnicoreTsi.Utils

open UnicoreTsi.Text

/-! ## Digits -/

/-- `\d` -/
def isDigitChar (c : Char) : Bool := (digitValue c).isSome

theorem digitValue_eq_some {c : Char} {d : ℕ} (h : digitValue c = some d) :
    ∃ z ∈ decimalZeros, c.toNat = z + d ∧ d < 10 := by
  obtain ⟨z, hfind, rfl⟩ := Option.map_eq_some_iff.mp h
  have hrange := List.find?_some hfind
  simp only [Bool.and_eq_true, decide_eq_true_eq] at hrange
  exact ⟨z, List.mem_of_find?_eq_some hfind, by omega, by omega⟩

theorem digitValue_of_isDigit {c : Char} (h : c.isDigit = true) : digitValue c = some (c.toNat - 48) := by
  have hrange : 48 ≤ c.toNat ∧ c.toNat ≤ 57 := Char.isDigit_iff_toNat.mp h
  have hzeros : decimalZeros = 48 :: decimalZeros.tail := rfl
  have hfirst : (fun z => decide (z ≤ c.toNat) && decide (c.toNat ≤ z + 9)) 48 = true := by
    simp only [Bool.and_eq_true, decide_eq_true_eq]
    omega
  have hfind : decimalZeros.find? (fun z => decide (z ≤ c.toNat) && decide (c.toNat ≤ z + 9)) = some 48 := by
    rw [hzeros]
    exact List.find?_cons_of_pos hfirst
  rw [digitValue, hfind]
  rfl

/-- No decimal digit is white space. -/
theorem isSpace_of_digit {c : Char} (h : isDigitChar c = true) : isSpace c = false := by
  obtain ⟨d, hd⟩ := Option.isSome_iff_exists.mp h
  obtain ⟨z, hz, hc, hlt⟩ := digitValue_eq_some hd
  have hall : ∀ z ∈ decimalZeros, ∀ d < 10, ∀ n, n = z + d →
      ((9 ≤ n && n ≤ 13) || (28 ≤ n && n ≤ 32) || n == 0x85 || n == 0xa0 || n == 0x1680 ||
        (0x2000 ≤ n && n ≤ 0x200a) || n == 0x2028 || n == 0x2029 || n == 0x202f || n == 0x205f ||
        n == 0x3000) = false := by
    intro z hz d hd n hn
    subst hn
    revert z d
    decide
  exact hall z hz d hlt c.toNat hc

/-! ## The text of a natural number -/

theorem natText_eq (n : ℕ) : natText n = Nat.toDigits 10 n := Nat.toList_repr

theorem natText_ne_nil (n : ℕ) : natText n ≠ [] := by
  rw [natText_eq]
  exact Nat.toDigits_ne_nil

/-- What `str` prints for an integer that is not negative. -/
theorem intText_natCast (n : ℕ) : intText n = natText n := rfl

theorem natText_injective : Function.Injective natText := by
  intro m n h
  rw [natText_eq, natText_eq] at h
  rw [← Nat.ofDigitChars_ten_toDigits (n := m), h, Nat.ofDigitChars_ten_toDigits]

theorem isDigit_of_mem_natText {n : ℕ} {c : Char} (h : c ∈ natText n) : c.isDigit = true := by
  rw [natText_eq] at h
  exact Nat.isDigit_of_mem_toDigits (by decide) (by decide) h

theorem not_mem_natText {c : Char} (h : c.isDigit = false) (n : ℕ) : c ∉ natText n := by
  intro hc
  rw [isDigit_of_mem_natText hc] at h
  cases h

theorem isDigitChar_of_mem_natText {n : ℕ} : ∀ c ∈ natText n, isDigitChar c = true := by
  intro c hc
  rw [isDigitChar, digitValue_of_isDigit (isDigit_of_mem_natText hc)]
  rfl

theorem isSpace_of_mem_natText {n : ℕ} : ∀ c ∈ natText n, isSpace c = false :=
  fun c hc => isSpace_of_digit (isDigitChar_of_mem_natText c hc)

/-! ## Quotients as doubles -/

theorem floor_le_roundDiv (n d : ℕ) : n / d ≤ roundDiv n d := by
  simp only [roundDiv]
  split <;> omega

theorem roundDiv_le (n d : ℕ) : roundDiv n d ≤ n / d + 1 := by
  simp only [roundDiv]
  split <;> omega

/-- Rounding up goes at most half of a unit up. -/
theorem roundDiv_mul_le (n d : ℕ) : roundDiv n d * (2 * d) ≤ 2 * n + d := by
  have hdiv : d * (n / d) + n % d = n := Nat.div_add_mod n d
  have hunfold : roundDiv n d * (2 * d) = if 2 * (n % d) < d ∨ (2 * (n % d) = d ∧ n / d % 2 = 0)
      then 2 * (d * (n / d)) else 2 * (d * (n / d)) + 2 * d := by
    simp only [roundDiv]
    split <;> ring
  rw [hunfold]
  split <;> omega

/-- A quotient is rounded to a mantissa times a power of two, with the exponent `e - k` at least 52 below
that of the quotient. -/
theorem truncDouble_eq {n d : ℕ} (hn : n ≠ 0) :
    ∃ e k : ℕ, (e = 0 ∨ k = 0) ∧ e + Nat.log2 d + 52 ≤ Nat.log2 n + k ∧
      truncDouble n d =
        if Nat.log2 (roundDiv (n * 2 ^ k) (d * 2 ^ e) * 2 ^ e / 2 ^ k) < 1024 then
          some (roundDiv (n * 2 ^ k) (d * 2 ^ e) * 2 ^ e / 2 ^ k)
        else none := by
  simp only [truncDouble, if_neg hn]
  split
  · exact ⟨_, _, by omega, by omega, rfl⟩
  · exact ⟨_, _, by omega, by omega, rfl⟩

theorem lt_pow_of_log2_lt {n k : ℕ} (h : Nat.log2 n < k) : n < 2 ^ k := by
  rcases Nat.eq_zero_or_pos n with rfl | hpos
  · exact Nat.two_pow_pos k
  · exact (Nat.log2_lt (by omega)).mp h

theorem log2_lt_of_lt {n k : ℕ} (hk : 0 < k) (h : n < 2 ^ k) : Nat.log2 n < k := by
  rcases Nat.eq_zero_or_pos n with rfl | hpos
  · exact hk
  · exact (Nat.log2_lt (by omega)).mpr h

/-- A unit of the mantissa is less than the quotient. -/
theorem unit_lt {n d e : ℕ} (hn : n ≠ 0) (h : e + Nat.log2 d + 52 ≤ Nat.log2 n) : d * 2 ^ e < n := by
  have hd : d < 2 ^ (Nat.log2 d + 1) := Nat.lt_log2_self
  have hle : 2 ^ Nat.log2 n ≤ n := Nat.log2_self_le hn
  calc d * 2 ^ e < 2 ^ (Nat.log2 d + 1) * 2 ^ e := Nat.mul_lt_mul_of_pos_right hd (Nat.two_pow_pos e)
    _ = 2 ^ (Nat.log2 d + 1 + e) := (Nat.pow_add 2 _ _).symm
    _ ≤ 2 ^ Nat.log2 n := Nat.pow_le_pow_right (by decide) (by omega)
    _ ≤ n := hle

/-- Below `2 ^ 53` the integer part of a quotient is not changed by the rounding. -/
theorem truncDouble_floor {n d : ℕ} (hn : n < 2 ^ 53) (hd : 0 < d) : truncDouble n d = some (n / d) := by
  rcases Nat.eq_zero_or_pos n with rfl | hpos
  · rw [truncDouble, if_pos rfl, Nat.zero_div]
  obtain ⟨e, k, hek, hexp, heq⟩ := truncDouble_eq (n := n) (d := d) (by omega)
  have hlog : Nat.log2 n < 53 := (Nat.log2_lt (by omega)).mpr hn
  have he : e = 0 := by omega
  subst he
  rw [Nat.pow_zero, Nat.mul_one, Nat.mul_one] at heq
  -- half a unit of the mantissa is less than the distance to the next integer
  have hunit : d < 2 ^ k * 2 := by
    calc d < 2 ^ (Nat.log2 d + 1) := Nat.lt_log2_self
      _ ≤ 2 ^ (k + 1) := Nat.pow_le_pow_right (by decide) (by omega)
      _ = 2 ^ k * 2 := Nat.pow_succ 2 k
  have hk : 0 < 2 ^ k := Nat.two_pow_pos k
  have hlow : n / d * 2 ^ k ≤ roundDiv (n * 2 ^ k) d := by
    refine le_trans ?_ (floor_le_roundDiv _ _)
    rw [Nat.le_div_iff_mul_le hd]
    calc n / d * 2 ^ k * d = n / d * d * 2 ^ k := by ring
      _ ≤ n * 2 ^ k := Nat.mul_le_mul_right _ (Nat.div_mul_le_self n d)
  have hhigh : roundDiv (n * 2 ^ k) d < (n / d + 1) * 2 ^ k := by
    by_contra hge
    rw [not_lt] at hge
    have hround := roundDiv_mul_le (n * 2 ^ k) d
    have hnext : n + 1 ≤ (n / d + 1) * d := by
      have hlt := Nat.lt_mul_div_succ n hd
      rw [Nat.mul_comm] at hlt
      exact hlt
    have hmul := Nat.mul_le_mul_right (2 * d) hge
    have hscaled := Nat.mul_le_mul_right (2 * 2 ^ k) hnext
    nlinarith
  have hfloor : roundDiv (n * 2 ^ k) d / 2 ^ k = n / d := by
    rw [Nat.div_eq_iff hk]
    constructor
    · omega
    · have hlt : roundDiv (n * 2 ^ k) d < n / d * 2 ^ k + 2 ^ k := by
        rw [← Nat.succ_mul]
        exact hhigh
      omega
  rw [heq, hfloor, if_pos]
  exact lt_trans (log2_lt_of_lt (by decide) ((Nat.div_le_self n d).trans_lt hn)) (by decide)

/-- A quotient of at least one stays at least one. -/
theorem truncDouble_pos {n d v : ℕ} (hd : 0 < d) (hle : d ≤ n) (h : truncDouble n d = some v) : 1 ≤ v := by
  have hn : n ≠ 0 := by omega
  obtain ⟨e, k, hek, hexp, heq⟩ := truncDouble_eq (n := n) (d := d) hn
  rw [heq] at h
  split at h
  · obtain rfl := Option.some.inj h
    rcases hek with rfl | rfl
    · rw [Nat.pow_zero, Nat.mul_one, Nat.mul_one, Nat.one_le_div_iff (Nat.two_pow_pos k)]
      refine le_trans ?_ (floor_le_roundDiv _ _)
      rw [Nat.le_div_iff_mul_le hd, Nat.mul_comm]
      exact Nat.mul_le_mul_right _ hle
    · rw [Nat.pow_zero, Nat.mul_one, Nat.div_one]
      have hunit : d * 2 ^ e < n := unit_lt hn (by omega)
      have hround : 1 ≤ roundDiv n (d * 2 ^ e) := by
        refine le_trans ?_ (floor_le_roundDiv _ _)
        rw [Nat.one_le_div_iff (Nat.mul_pos hd (Nat.two_pow_pos e))]
        exact hunit.le
      exact Nat.mul_le_mul hround Nat.one_le_two_pow
  · cases h

/-- The quotient by two or more of a number that a double can hold is one that a double can hold. -/
theorem truncDouble_isSome {n d : ℕ} (hd : 2 ≤ d) (hn : Nat.log2 n < 1024) :
    ∃ v, truncDouble n d = some v := by
  rcases Nat.eq_zero_or_pos n with rfl | hpos
  · exact ⟨0, if_pos rfl⟩
  obtain ⟨e, k, hek, hexp, heq⟩ := truncDouble_eq (n := n) (d := d) (by omega)
  have hbound : roundDiv (n * 2 ^ k) (d * 2 ^ e) * 2 ^ e / 2 ^ k ≤ n := by
    rcases hek with rfl | rfl
    · rw [Nat.pow_zero, Nat.mul_one, Nat.mul_one]
      have hk : 0 < 2 ^ k := Nat.two_pow_pos k
      have hhalf : n * 2 ^ k / d ≤ n * 2 ^ k / 2 := Nat.div_le_div_left hd (by decide)
      have hup := roundDiv_le (n * 2 ^ k) d
      have hroom : n * 2 ^ k / 2 + 1 ≤ n * 2 ^ k + 1 := by omega
      have hlt : roundDiv (n * 2 ^ k) d < (n + 1) * 2 ^ k := by
        have hnk : 1 ≤ n * 2 ^ k := Nat.mul_pos hpos hk
        rw [Nat.succ_mul]
        omega
      exact Nat.le_of_lt_succ ((Nat.div_lt_iff_lt_mul hk).mpr hlt)
    · rw [Nat.pow_zero, Nat.mul_one, Nat.div_one]
      have hunit : d * 2 ^ e < n := unit_lt (by omega) (by omega)
      have hup := Nat.mul_le_mul_right (2 ^ e) (roundDiv_le n (d * 2 ^ e))
      have hdiv : n / (d * 2 ^ e) * (d * 2 ^ e) ≤ n := Nat.div_mul_le_self _ _
      nlinarith [Nat.zero_le (n / (d * 2 ^ e) * 2 ^ e), Nat.two_pow_pos e]
  have hlog := log2_lt_of_lt (by decide) (hbound.trans_lt (lt_pow_of_log2_lt hn))
  exact ⟨_, by rw [heq, if_pos hlog]⟩

theorem log2_lt_of_truncDouble {n d v : ℕ} (h : truncDouble n d = some v) : Nat.log2 v < 1024 := by
  rcases Nat.eq_zero_or_pos n with rfl | hpos
  · rw [truncDouble, if_pos rfl] at h
    obtain rfl := Option.some.inj h
    decide
  · obtain ⟨e, k, -, -, heq⟩ := truncDouble_eq (n := n) (d := d) (by omega)
    rw [heq] at h
    split at h
    · rename_i hlog
      obtain rfl := Option.some.inj h
      exact hlog
    · cases h

theorem roundDiv_of_dvd {n d : ℕ} (hd : 0 < d) (h : d ∣ n) : roundDiv n d = n / d := by
  have hmod : n % d = 0 := Nat.mod_eq_zero_of_dvd h
  simp only [roundDiv, hmod]
  rw [if_pos (Or.inl (by omega))]

/-- Halving the divisor, or doubling the dividend, doubles the quotient at most and adds one. -/
theorem scaled_lt {n d : ℕ} (hd : 0 < d) {e : ℤ} {b : ℕ}
    (h : n * 2 ^ (-e).toNat / (d * 2 ^ e.toNat) < b) :
    n * 2 ^ (-(e - 1)).toNat / (d * 2 ^ (e - 1).toNat) < 2 * b := by
  rw [Nat.div_lt_iff_lt_mul (Nat.mul_pos hd (Nat.two_pow_pos _))] at h ⊢
  rcases le_or_gt 1 e with hpos | hneg
  · have hexp : e.toNat = (e - 1).toNat + 1 := by omega
    have hzero : (-e).toNat = 0 ∧ (-(e - 1)).toNat = 0 := by omega
    rw [hexp, hzero.1, Nat.pow_zero, Nat.pow_succ] at h
    rw [hzero.2, Nat.pow_zero]
    nlinarith
  · have hexp : (-(e - 1)).toNat = (-e).toNat + 1 := by omega
    have hzero : e.toNat = 0 ∧ (e - 1).toNat = 0 := by omega
    rw [hzero.1, Nat.pow_zero] at h
    rw [hexp, hzero.2, Nat.pow_zero, Nat.pow_succ]
    nlinarith

theorem scaled_lt_of_log {n d : ℕ} (hd : 0 < d) {e : ℤ} (he : e = (Nat.log2 n : ℤ) - Nat.log2 d - 52) :
    n * 2 ^ (-e).toNat / (d * 2 ^ e.toNat) < 2 ^ 53 := by
  rw [Nat.div_lt_iff_lt_mul (Nat.mul_pos hd (Nat.two_pow_pos _))]
  have hn : n < 2 ^ (Nat.log2 n + 1) := Nat.lt_log2_self
  have hle : 2 ^ Nat.log2 d ≤ d := Nat.log2_self_le (by omega)
  calc n * 2 ^ (-e).toNat < 2 ^ (Nat.log2 n + 1) * 2 ^ (-e).toNat :=
        Nat.mul_lt_mul_of_pos_right hn (Nat.two_pow_pos _)
    _ = 2 ^ 53 * (2 ^ Nat.log2 d * 2 ^ e.toNat) := by
        rw [← Nat.pow_add, ← Nat.pow_add, ← Nat.pow_add]
        congr 1
        omega
    _ ≤ 2 ^ 53 * (d * 2 ^ e.toNat) := Nat.mul_le_mul_left _ (Nat.mul_le_mul_right _ hle)

/-- What a double holds of a quotient is a mantissa of 53 bits times a power of two. -/
theorem exists_mantissa {n d v : ℕ} (hd : 0 < d) (h : truncDouble n d = some v) :
    ∃ m e, m ≤ 2 ^ 53 ∧ v = m * 2 ^ e := by
  rcases Nat.eq_zero_or_pos n with rfl | hn
  · rw [truncDouble, if_pos rfl] at h
    exact ⟨0, 0, by omega, by rw [← Option.some.inj h, Nat.zero_mul]⟩
  have hround : ∀ e : ℤ, n * 2 ^ (-e).toNat / (d * 2 ^ e.toNat) < 2 ^ 53 →
      ∃ m e', m ≤ 2 ^ 53 ∧
        roundDiv (n * 2 ^ (-e).toNat) (d * 2 ^ e.toNat) * 2 ^ e.toNat / 2 ^ (-e).toNat = m * 2 ^ e' := by
    intro e hlt
    have hle : roundDiv (n * 2 ^ (-e).toNat) (d * 2 ^ e.toNat) ≤ 2 ^ 53 :=
      (roundDiv_le _ _).trans (Nat.succ_le_of_lt hlt)
    rcases le_or_gt 0 e with hpos | hneg
    · have hzero : (-e).toNat = 0 := by omega
      refine ⟨_, e.toNat, hle, ?_⟩
      rw [hzero, Nat.pow_zero, Nat.div_one]
    · have hzero : e.toNat = 0 := by omega
      refine ⟨_, 0, ?_, (Nat.mul_one _).symm⟩
      rw [hzero, Nat.pow_zero, Nat.mul_one] at hle ⊢
      rw [Nat.mul_one]
      exact (Nat.div_le_self _ _).trans hle
  simp only [truncDouble, if_neg (show ¬ n = 0 by omega)] at h
  have hfirst := scaled_lt_of_log hd (n := n) (e := (Nat.log2 n : ℤ) - Nat.log2 d - 52) rfl
  split at h
  · rename_i hsmall
    obtain ⟨m, e', hm, heq⟩ := hround _ (scaled_lt hd hsmall)
    rw [heq] at h
    split at h
    · exact ⟨m, e', hm, (Option.some.inj h).symm⟩
    · cases h
  · obtain ⟨m, e', hm, heq⟩ := hround _ hfirst
    rw [heq] at h
    split at h
    · exact ⟨m, e', hm, (Option.some.inj h).symm⟩
    · cases h

theorem truncDouble_of_mantissa {m e : ℕ} (hm : m ≤ 2 ^ 53) (hlog : Nat.log2 (m * 2 ^ e) < 1024) :
    truncDouble (m * 2 ^ e) 1 = some (m * 2 ^ e) := by
  rcases Nat.eq_zero_or_pos m with rfl | hpos
  · rw [Nat.zero_mul]
    exact if_pos rfl
  have hv : m * 2 ^ e ≠ 0 := (Nat.mul_pos hpos (Nat.two_pow_pos e)).ne'
  obtain ⟨e', k, hek, hexp, heq⟩ := truncDouble_eq (n := m * 2 ^ e) (d := 1) hv
  have hone : Nat.log2 1 = 0 := rfl
  have hexact : roundDiv (m * 2 ^ e * 2 ^ k) (1 * 2 ^ e') * 2 ^ e' / 2 ^ k = m * 2 ^ e := by
    have hdvd : 2 ^ e' ∣ m * 2 ^ e * 2 ^ k := by
      rcases hek with rfl | rfl
      · exact one_dvd _
      · rw [Nat.pow_zero, Nat.mul_one]
        -- the unit of the mantissa divides the number
        have hle : 2 ^ (e' + 52) ≤ m * 2 ^ e := by
          refine le_trans (Nat.pow_le_pow_right (by decide) ?_) (Nat.log2_self_le hv)
          omega
        rcases Nat.lt_or_ge e e' with hlt | hge
        · have htop : 2 ^ (e + 1 + 52) ≤ m * 2 ^ e :=
            le_trans (Nat.pow_le_pow_right (by decide) (by omega)) hle
          have hfull : m = 2 ^ 53 := by
            have h53 : 2 ^ 53 * 2 ^ e ≤ m * 2 ^ e := by
              rw [← Nat.pow_add]
              exact le_trans (Nat.pow_le_pow_right (by decide) (by omega)) htop
            exact le_antisymm hm (Nat.le_of_mul_le_mul_right h53 (Nat.two_pow_pos e))
          rw [hfull, ← Nat.pow_add] at hle ⊢
          have hexps := (Nat.pow_le_pow_iff_right (by decide)).mp hle
          exact Nat.pow_dvd_pow 2 (by omega)
        · exact Dvd.dvd.mul_left (Nat.pow_dvd_pow 2 hge) m
    rw [Nat.one_mul, roundDiv_of_dvd (Nat.two_pow_pos e') hdvd, Nat.div_mul_cancel hdvd]
    exact Nat.mul_div_cancel _ (Nat.two_pow_pos k)
  rw [heq, hexact, if_pos hlog]

/-- A number that has been rounded to a double is not changed by rounding it again. -/
theorem truncDouble_idem {n d v : ℕ} (hd : 0 < d) (h : truncDouble n d = some v) : truncDouble v 1 = some v := by
  obtain ⟨m, e, hm, rfl⟩ := exists_mantissa hd h
  exact truncDouble_of_mantissa hm (log2_lt_of_truncDouble h)

/-! ## Numbers in a message -/

theorem digitList_chars {s : Str} {ds : List ℕ} (h : digitList s = some ds) :
    ∀ c ∈ s, c = '_' ∨ isDigitChar c = true := by
  fun_induction digitList s generalizing ds with
  | case1 => exact nofun
  | case2 c cs ih =>
      obtain ⟨d, hd, h⟩ := Option.bind_eq_some_iff.mp h
      obtain ⟨ds', hds', -⟩ := Option.bind_eq_some_iff.mp h
      intro c' hc'
      rcases List.mem_cons.mp hc' with rfl | hc'
      · exact Or.inl rfl
      · rcases List.mem_cons.mp hc' with rfl | hc'
        · exact Or.inr (by rw [isDigitChar, hd]; rfl)
        · exact ih hds' c' hc'
  | case3 c cs _ ih =>
      obtain ⟨d, hd, h⟩ := Option.bind_eq_some_iff.mp h
      obtain ⟨ds', hds', -⟩ := Option.bind_eq_some_iff.mp h
      intro c' hc'
      rcases List.mem_cons.mp hc' with rfl | hc'
      · exact Or.inr (by rw [isDigitChar, hd]; rfl)
      · exact ih hds' c' hc'

theorem digitList_of_numeral {s : Str} {ds : List ℕ} (h : numeral s = some ds) :
    s ≠ [] ∧ digitList s = some ds := by
  unfold numeral at h
  split at h
  · cases h
  · cases h
  · rename_i hne _
    exact ⟨fun hnil => hne hnil, h⟩

/-- An integer is a float without a fraction and without an exponent. -/
theorem floatLiteral_of_numeral {s : Str} {ds : List ℕ} (h : numeral s = some ds) :
    floatLiteral s = some (ofDigits 10 ds, 0) := by
  have hchars := digitList_chars (digitList_of_numeral h).2
  have hnone : ∀ c : Char, c ≠ '_' → isDigitChar c = false → c ∉ s := by
    intro c hunder hdigit hc
    rcases hchars c hc with rfl | hyes
    · exact hunder rfl
    · rw [hdigit] at hyes
      cases hyes
  have hmap : s.map (fun c => if c = 'E' then 'e' else c) = s := by
    have hsame : ∀ c ∈ s, (if c = 'E' then 'e' else c) = id c := by
      intro c hc
      have hE : c ≠ 'E' := by
        rintro rfl
        exact hnone 'E' (by decide) (by decide) hc
      exact if_neg hE
    rw [List.map_congr_left hsame, List.map_id]
  have hexp : splitOnce 'e' (s.map fun c => if c = 'E' then 'e' else c) = none := by
    rw [hmap]
    exact splitOnce_eq_none.mpr (hnone 'e' (by decide) (by decide))
  have hpoint : splitOnce '.' s = none := splitOnce_eq_none.mpr (hnone '.' (by decide) (by decide))
  simp only [floatLiteral, hexp, hpoint, h, Option.bind_eq_bind, Option.bind_some]
  rfl

/-- `int(float(s))` for a text that `int` accepts: the integer, rounded to a double. -/
theorem intOfFloat_of_pyInt {s : Str} {t : ℤ} (h : pyInt 10 s = .ok t) :
    ∃ (neg : Bool) (n : ℕ), t = (if neg then -(n : ℤ) else n) ∧
      intOfFloat s = (truncDouble n 1).map fun v : ℕ => if neg then -(v : ℤ) else (v : ℤ) := by
  unfold pyInt at h
  cases hsign : splitSign (strip s) with
  | mk neg body =>
      simp only [hsign, show ¬ (10 = 8) by decide, if_false] at h
      cases hnumeral : numeral body with
      | none => simp [hnumeral] at h
      | some ds =>
          simp only [hnumeral] at h
          split at h
          · refine ⟨neg, ofDigits 10 ds, (Except.ok.inj h).symm, ?_⟩
            simp only [intOfFloat, hsign, floatLiteral_of_numeral hnumeral, Option.bind_eq_bind, Option.bind_some]
            show ((truncDouble (ofDigits 10 ds * 10 ^ 0) (10 ^ 0)).bind _) = _
            rw [Nat.pow_zero, Nat.mul_one, Option.map_eq_bind]
            rfl
          · cases h

theorem pyInt_nil : pyInt 10 [] = .error (valueError "invalid literal for int()") := rfl

/-! ### Reading a number back -/

theorem digitList_of_digits {s : Str} (h : ∀ c ∈ s, c.isDigit = true) :
    digitList s = some (s.map fun c => c.toNat - 48) := by
  induction s with
  | nil => rfl
  | cons c cs ih =>
      have hc : c ≠ '_' := by
        rintro rfl
        exact absurd (h '_' List.mem_cons_self) (by decide)
      have htail := ih fun d hd => h d (List.mem_cons_of_mem c hd)
      rw [digitList.eq_3 c cs (fun _ _ hunder _ => hc hunder), digitValue_of_isDigit (h c List.mem_cons_self), htail]
      rfl

theorem strip_of_mem {s : Str} (h : ∀ c ∈ s, isSpace c = false) : strip s = s :=
  strip_eq_self.mpr ⟨fun c hc => h c (List.mem_of_mem_head? hc), fun c hc => h c (List.mem_of_getLast? hc)⟩

theorem splitSign_of_digit {c : Char} (h : c.isDigit = true) (cs : Str) : splitSign (c :: cs) = (false, c :: cs) := by
  unfold splitSign
  split
  · rename_i heq
    rw [(List.cons.inj heq).1] at h
    exact absurd h (by decide)
  · rename_i heq
    rw [(List.cons.inj heq).1] at h
    exact absurd h (by decide)
  · rfl

/-- The digits of a printed number. -/
theorem numeral_natText (n : ℕ) :
    ∃ ds, numeral (natText n) = some ds ∧ ds.all (· < 10) = true ∧ ofDigits 10 ds = n := by
  have hdigits : ∀ c ∈ natText n, c.isDigit = true := fun c hc => isDigit_of_mem_natText hc
  have hvalue : ofDigits 10 ((natText n).map fun c => c.toNat - 48) = n := by
    have hfold : ofDigits 10 ((natText n).map fun c => c.toNat - 48) = Nat.ofDigitChars 10 (natText n) 0 := by
      rw [ofDigits, List.foldl_map, Nat.ofDigitChars_eq_foldl]
      simp only [Nat.mul_comm 10]
      rfl
    rw [hfold, natText_eq, Nat.ofDigitChars_ten_toDigits]
  have hsmall : ((natText n).map fun c => c.toNat - 48).all (· < 10) = true := by
    rw [List.all_map, List.all_eq_true]
    intro c hc
    have hrange : 48 ≤ c.toNat ∧ c.toNat ≤ 57 := Char.isDigit_iff_toNat.mp (hdigits c hc)
    show decide (c.toNat - 48 < 10) = true
    rw [decide_eq_true_eq]
    omega
  refine ⟨_, ?_, hsmall, hvalue⟩
  obtain ⟨c, cs, htext⟩ := List.exists_cons_of_ne_nil (natText_ne_nil n)
  have hfirst : c.isDigit = true := hdigits c (by rw [htext]; exact List.mem_cons_self)
  rw [← digitList_of_digits hdigits, htext]
  unfold numeral
  split
  · rename_i hnil
    cases hnil
  · rename_i hunder
    rw [(List.cons.inj hunder).1] at hfirst
    exact absurd hfirst (by decide)
  · rfl

/-- `int(str(n))` is `n`. -/
theorem pyInt_natText (n : ℕ) : pyInt 10 (natText n) = .ok (n : ℤ) := by
  obtain ⟨ds, hnumeral, hsmall, hvalue⟩ := numeral_natText n
  have hsign : splitSign (natText n) = (false, natText n) := by
    obtain ⟨c, cs, htext⟩ := List.exists_cons_of_ne_nil (natText_ne_nil n)
    rw [htext]
    exact splitSign_of_digit (isDigit_of_mem_natText (by rw [htext]; exact List.mem_cons_self)) cs
  have hbase : (if (10 : ℕ) = 8 then dropOctalPrefix (natText n) else natText n) = natText n := rfl
  rw [pyInt, strip_of_mem isSpace_of_mem_natText, hsign]
  simp only [hbase, hnumeral, hsmall, if_true, hvalue]
  rfl

theorem intText_negSucc (n : ℕ) : intText (Int.negSucc n) = '-' :: natText (n + 1) := by
  show ("-" ++ toString (n + 1)).toList = _
  rw [String.toList_append]
  rfl

theorem isSpace_of_mem_intText {n : ℤ} : ∀ c ∈ intText n, isSpace c = false := by
  cases n with
  | ofNat n => exact isSpace_of_mem_natText
  | negSucc n =>
      rw [intText_negSucc]
      exact List.forall_mem_cons.mpr ⟨by decide, isSpace_of_mem_natText⟩

/-- A blank or a line break does not stand in the text of a number. -/
theorem not_mem_intText {c : Char} (hc : isSpace c = true) (n : ℤ) : c ∉ intText n := by
  intro hmem
  rw [isSpace_of_mem_intText c hmem] at hc
  cases hc

/-- The same for a number that may be negative. -/
theorem pyInt_intText (n : ℤ) : pyInt 10 (intText n) = .ok n := by
  cases n with
  | ofNat n => exact pyInt_natText n
  | negSucc n =>
      obtain ⟨ds, hnumeral, hsmall, hvalue⟩ := numeral_natText (n + 1)
      have hspace : ∀ c ∈ '-' :: natText (n + 1), isSpace c = false := by
        rw [← intText_negSucc]
        exact isSpace_of_mem_intText
      have hbase : (if (10 : ℕ) = 8 then dropOctalPrefix (natText (n + 1)) else natText (n + 1)) = natText (n + 1) :=
        rfl
      rw [intText_negSucc, pyInt, strip_of_mem hspace, splitSign]
      simp only [hbase, hnumeral, hsmall, if_true, hvalue]
      rfl

/-- The message gives the parameter the value `t`, in a form that Python reads as this integer. -/
def GivesInt (message parameter : Str) (t : ℤ) : Prop :=
  ∃ v, givenValue message parameter = some v ∧ pyInt 10 v = .ok t

/-- The message does not give the parameter: there is no line for it, or one with nothing after the tag, or
one with `NONE`. -/
def NotGiven (message parameter : Str) : Prop :=
  givenValue message parameter = none ∨ givenValue message parameter = some [] ∨
    givenValue message parameter = some "NONE".toList

section Extract

variable {message parameter : Str}

theorem extractNumber_eq (hparameter : '\n' ∉ parameter) {v : Str} (h : givenValue message parameter = some v)
    (hv : v ≠ []) : extractNumber message parameter = (intOfFloat v).getD (-1) := by
  rw [extractNumber, extractParameter_of_given hparameter h hv]

theorem ne_nil_of_pyInt {v : Str} {t : ℤ} (h : pyInt 10 v = .ok t) : v ≠ [] := by
  rintro rfl
  rw [pyInt_nil] at h
  cases h

theorem extractNumber_of_pos (hparameter : '\n' ∉ parameter) {t : ℤ} (h : GivesInt message parameter t)
    (ht : 0 < t) :
    extractNumber message parameter = ((truncDouble t.toNat 1).map Int.ofNat).getD (-1) := by
  obtain ⟨v, hgiven, hint⟩ := h
  have hv : v ≠ [] := ne_nil_of_pyInt hint
  obtain ⟨neg, n, hn, hfloat⟩ := intOfFloat_of_pyInt hint
  cases neg with
  | true => simp only [if_true] at hn; omega
  | false =>
      have hn' : t.toNat = n := by simp only [Bool.false_eq_true, if_false] at hn; omega
      rw [extractNumber_eq hparameter hgiven hv, hfloat, hn']
      rfl

theorem extractNumber_of_small (hparameter : '\n' ∉ parameter) {t : ℤ} (h : GivesInt message parameter t)
    (ht : 0 < t) (hsmall : t < 2 ^ 53) : extractNumber message parameter = t := by
  rw [extractNumber_of_pos hparameter h ht, truncDouble_floor (by omega) (by decide), Nat.div_one]
  exact Int.toNat_of_nonneg ht.le

theorem extractNumber_of_nonpos (hparameter : '\n' ∉ parameter) {t : ℤ} (h : GivesInt message parameter t)
    (ht : t ≤ 0) : extractNumber message parameter ≤ 0 := by
  obtain ⟨v, hgiven, hint⟩ := h
  have hv : v ≠ [] := ne_nil_of_pyInt hint
  obtain ⟨neg, n, hn, hfloat⟩ := intOfFloat_of_pyInt hint
  rw [extractNumber_eq hparameter hgiven hv, hfloat]
  cases neg with
  | true =>
      cases truncDouble n 1 with
      | none => decide
      | some v => simp
  | false =>
      obtain rfl : n = 0 := by simp only [Bool.false_eq_true, if_false] at hn; omega
      decide

theorem extractNumber_of_notGiven (hparameter : '\n' ∉ parameter) (h : NotGiven message parameter) :
    extractNumber message parameter = -1 := by
  have hnone : ∀ d, extractParameter message parameter none = d → d = none ∨ d = some "NONE".toList := by
    rintro _ rfl
    rw [extractParameter_eq hparameter]
    rcases h with h | h | h <;> rw [h]
    · exact Or.inl rfl
    · exact Or.inl rfl
    · exact Or.inr rfl
  rw [extractNumber]
  rcases hnone _ rfl with h | h <;> rw [h]
  decide

/-- Every number taken from a message is one that a double can hold. -/
theorem log2_extractNumber_lt (message parameter : Str) :
    Nat.log2 (extractNumber message parameter).natAbs < 1024 := by
  rw [extractNumber]
  cases extractParameter message parameter with
  | none => decide
  | some s =>
      show Nat.log2 ((intOfFloat s).getD (-1)).natAbs < 1024
      cases hfloat : intOfFloat s with
      | none => decide
      | some t =>
          simp only [intOfFloat, Option.bind_eq_bind, Option.bind_eq_some_iff] at hfloat
          obtain ⟨⟨m, x⟩, -, v, hv, ht⟩ := hfloat
          have hlog := log2_lt_of_truncDouble hv
          obtain rfl := Option.some.inj ht
          show Nat.log2 (Int.natAbs (if _ then _ else _)) < 1024
          split
          · rwa [Int.natAbs_neg, Int.natAbs_natCast]
          · rwa [Int.natAbs_natCast]

/-- A number taken from a message is a double, and rounding it once more does not change it. -/
theorem truncDouble_extractNumber (message parameter : Str) :
    truncDouble (extractNumber message parameter).natAbs 1 = some (extractNumber message parameter).natAbs := by
  have hminus : truncDouble (-1 : ℤ).natAbs 1 = some (-1 : ℤ).natAbs := by decide
  rw [extractNumber]
  cases extractParameter message parameter with
  | none => exact hminus
  | some s =>
      show truncDouble ((intOfFloat s).getD (-1)).natAbs 1 = some ((intOfFloat s).getD (-1)).natAbs
      cases hfloat : intOfFloat s with
      | none => exact hminus
      | some t =>
          simp only [intOfFloat, Option.bind_eq_bind, Option.bind_eq_some_iff] at hfloat
          obtain ⟨⟨m, x⟩, -, v, hv, ht⟩ := hfloat
          have hidem := truncDouble_idem (Nat.pow_pos (by decide)) hv
          obtain rfl := Option.some.inj ht
          have habs : ∀ neg : Bool, ((if neg then -(v : ℤ) else (v : ℤ)) : ℤ).natAbs = v := by
            intro neg
            cases neg <;> simp
          rw [Option.getD_some, habs]
          exact hidem

end Extract

end UnicoreTsi.Utils
