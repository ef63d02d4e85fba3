/-
# UnicoreTsi.Lib.Decimal — numbers and the texts of their digits.

Digits after the digits of a positive number are the digits of a number again (`toDigits_append`), so a number
followed by the end of another one is a number.  And the digits of `m` begin those of `n` exactly if `m` is what
is left of `n` when some of its last digits are taken away (`toDigits_prefix_iff`).
-/
import Mathlib.Data.List.Induction
import Mathlib.Tactic.Ring

set_option autoImplicit false

namespace UnicoreTsi.Decimal

/-- The number that digits stand for. -/
def value (s : List Char) : Nat := Nat.ofDigitChars 10 s 0

theorem value_toDigits (n : Nat) : value (Nat.toDigits 10 n) = n := Nat.ofDigitChars_ten_toDigits

theorem value_append (s t : List Char) : value (s ++ t) = value s * 10 ^ t.length + value t := by
  rw [value, Nat.ofDigitChars_append, Nat.ofDigitChars_eq_ofDigitChars_zero, Nat.mul_comm]
  rfl

theorem value_concat (s : List Char) (c : Char) : value (s ++ [c]) = 10 * value s + (c.toNat - '0'.toNat) := by
  rw [value, Nat.ofDigitChars_append, Nat.ofDigitChars_cons, Nat.ofDigitChars_nil]
  rfl

theorem digit_lt {c : Char} (h : c.isDigit = true) : c.toNat - '0'.toNat < 10 := by
  have hrange : 48 ≤ c.toNat ∧ c.toNat ≤ 57 := Char.isDigit_iff_toNat.mp h
  have hzero : '0'.toNat = 48 := rfl
  omega

theorem isDigit_of_mem_toDigits {n : Nat} {c : Char} (h : c ∈ Nat.toDigits 10 n) : c.isDigit = true :=
  Nat.isDigit_of_mem_toDigits (by decide) (by decide) h

theorem value_lt {s : List Char} (h : ∀ c ∈ s, c.isDigit = true) : value s < 10 ^ s.length := by
  induction s using List.reverseRecOn with
  | nil => decide
  | append_singleton s c ih =>
      have hs := ih fun d hd => h d (List.mem_append_left _ hd)
      have hc := digit_lt (h c (List.mem_append_right _ List.mem_cons_self))
      rw [value_concat, List.length_append, List.length_singleton, Nat.pow_succ]
      omega

/-- A digit is the one its value is written with. -/
theorem toDigits_digit {c : Char} (h : c.isDigit = true) : Nat.toDigits 10 (c.toNat - '0'.toNat) = [c] := by
  have hlt := digit_lt h
  have hrange : 48 ≤ c.toNat ∧ c.toNat ≤ 57 := Char.isDigit_iff_toNat.mp h
  have hzero : '0'.toNat = 48 := rfl
  rw [Nat.toDigits_of_lt_base hlt]
  congr 1
  apply Char.toNat_inj.mp
  rw [Nat.toNat_digitChar_of_lt_ten hlt]
  omega

/-- Digits after those of a positive number. -/
theorem toDigits_append {m : Nat} (hm : 0 < m) {t : List Char} (ht : ∀ c ∈ t, c.isDigit = true) :
    Nat.toDigits 10 m ++ t = Nat.toDigits 10 (m * 10 ^ t.length + value t) := by
  induction t using List.reverseRecOn with
  | nil => simp [value]
  | append_singleton t c ih =>
      have hc := ht c (List.mem_append_right _ List.mem_cons_self)
      have hpow : 0 < m * 10 ^ t.length := Nat.mul_pos hm (Nat.pow_pos (by decide))
      have hpos : 0 < m * 10 ^ t.length + value t := by omega
      have hnumber : m * 10 ^ (t ++ [c]).length + value (t ++ [c]) =
          10 * (m * 10 ^ t.length + value t) + (c.toNat - '0'.toNat) := by
        rw [value_concat, List.length_append, List.length_singleton, Nat.pow_succ]
        ring
      -- the last digit stands for the units of the number
      calc Nat.toDigits 10 m ++ (t ++ [c])
          = Nat.toDigits 10 (m * 10 ^ t.length + value t) ++ Nat.toDigits 10 (c.toNat - '0'.toNat) := by
            rw [← List.append_assoc, ih fun d hd => ht d (List.mem_append_left _ hd), toDigits_digit hc]
        _ = Nat.toDigits 10 (10 * (m * 10 ^ t.length + value t) + (c.toNat - '0'.toNat)) :=
            Nat.toDigits_append_toDigits (by decide) hpos (digit_lt hc)
        _ = Nat.toDigits 10 (m * 10 ^ (t ++ [c]).length + value (t ++ [c])) := by rw [hnumber]

/-- The end of the digits of a number. -/
theorem value_end {n : Nat} {s t : List Char} (h : Nat.toDigits 10 n = s ++ t) : value t = n % 10 ^ t.length := by
  have hdigits : ∀ c ∈ t, c.isDigit = true := fun c hc =>
    isDigit_of_mem_toDigits (h ▸ List.mem_append_right _ hc)
  have hn := value_toDigits n
  rw [h, value_append] at hn
  rw [← hn, Nat.add_comm, Nat.add_mul_mod_self_right, Nat.mod_eq_of_lt (value_lt hdigits)]

/-- The digits of `m` begin those of `n`. -/
theorem toDigits_prefix_iff {m n : Nat} (hm : 0 < m) :
    Nat.toDigits 10 m <+: Nat.toDigits 10 n ↔ ∃ j, n / 10 ^ j = m := by
  constructor
  · rintro ⟨t, ht⟩
    have hdigits : ∀ c ∈ t, c.isDigit = true := fun c hc =>
      isDigit_of_mem_toDigits (ht ▸ List.mem_append_right _ hc)
    have hvalue := congrArg value ht
    rw [value_append, value_toDigits, value_toDigits] at hvalue
    -- what follows the digits of `m` is less than the power that `m` is multiplied by
    refine ⟨t.length, ?_⟩
    rw [← hvalue, Nat.add_comm, Nat.add_mul_div_right _ _ (Nat.pow_pos (by decide)), Nat.div_eq_of_lt (value_lt hdigits),
      Nat.zero_add]
  · rintro ⟨j, hj⟩
    induction j generalizing n with
    | zero =>
        rw [Nat.pow_zero, Nat.div_one] at hj
        subst hj
        exact List.prefix_refl _
    | succ j ih =>
        have hdiv : n / 10 / 10 ^ j = m := by rw [Nat.div_div_eq_div_mul, ← Nat.pow_succ', hj]
        -- nothing would be left of a number with one digit
        have hlarge : 10 ≤ n := by
          by_contra hsmall
          have hzero : n / 10 = 0 := by omega
          rw [hzero, Nat.zero_div] at hdiv
          omega
        rw [Nat.toDigits_of_base_le (by decide) hlarge]
        exact (ih hdiv).trans (List.prefix_append _ _)

end UnicoreTsi.Decimal
