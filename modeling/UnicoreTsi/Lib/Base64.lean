/-
# UnicoreTsi.Lib.Base64 — bytes as text.

Three bytes are the digits of a number with four digits to the base 64; what is missing at the end is padded
(`encode`).  The decoder takes the digits one after the other, keeps the bits that do not make up a byte yet, and
passes over everything that is no digit.  It gives back what was encoded, whatever stands between the digits
(`decode_of_filter`, `decode_encode`), and a text made by the encoder has digits and padding only
(`mem_encode`).
-/
import Mathlib.Data.List.Basic

set_option autoImplicit false

namespace UnicoreTsi.Base64

def alphabet : List Char := "ABCDEFGHIJKLMNOPQRSTUVWXYZabcdefghijklmnopqrstuvwxyz0123456789+/".toList

/-- The digit for a number below 64. -/
def digit (v : Nat) : Char := alphabet.getD v '='

/-- The number of a digit. -/
def sextet (c : Char) : Option Nat := alphabet.findIdx? (· == c)

theorem sextet_digit {v : Nat} (h : v < 64) : sextet (digit v) = some v := by
  have hall : ∀ v < 64, sextet (digit v) = some v := by decide +kernel
  exact hall v h

theorem digit_mem {v : Nat} (h : v < 64) : digit v ∈ alphabet := by
  have hall : ∀ v < 64, digit v ∈ alphabet := by decide +kernel
  exact hall v h

theorem sextet_isSome {c : Char} (h : c ∈ alphabet) : (sextet c).isSome = true := by
  rw [sextet, List.findIdx?_isSome]
  exact List.any_eq_true.mpr ⟨c, h, beq_self_eq_true c⟩

/-! ## The encoder -/

def encode : List UInt8 → List Char
  | [] => []
  | [a] => [digit (a.toNat / 4), digit (a.toNat % 4 * 16), '=', '=']
  | [a, b] =>
      [digit (a.toNat / 4), digit (a.toNat % 4 * 16 + b.toNat / 16), digit (b.toNat % 16 * 4), '=']
  | a :: b :: c :: rest =>
      digit (a.toNat / 4) :: digit (a.toNat % 4 * 16 + b.toNat / 16) ::
        digit (b.toNat % 16 * 4 + c.toNat / 64) :: digit (c.toNat % 64) :: encode rest

/-- A digit or the padding. -/
def significant (c : Char) : Bool := decide (c ∈ alphabet ∨ c = '=')

theorem significant_iff {c : Char} : significant c = true ↔ c ∈ alphabet ∨ c = '=' := decide_eq_true_iff

theorem mem_encode (bytes : List UInt8) : ∀ c ∈ encode bytes, significant c = true := by
  induction bytes using encode.induct with
  | case1 => simp [encode]
  | case2 a =>
      have ha := a.toNat_lt
      have h₁ := digit_mem (v := a.toNat / 4) (by omega)
      have h₂ := digit_mem (v := a.toNat % 4 * 16) (by omega)
      simp [encode, significant_iff, h₁, h₂]
  | case3 a b =>
      have ha := a.toNat_lt
      have hb := b.toNat_lt
      have h₁ := digit_mem (v := a.toNat / 4) (by omega)
      have h₂ := digit_mem (v := a.toNat % 4 * 16 + b.toNat / 16) (by omega)
      have h₃ := digit_mem (v := b.toNat % 16 * 4) (by omega)
      simp [encode, significant_iff, h₁, h₂, h₃]
  | case4 a b c rest ih =>
      have ha := a.toNat_lt
      have hb := b.toNat_lt
      have hc := c.toNat_lt
      have h₁ := digit_mem (v := a.toNat / 4) (by omega)
      have h₂ := digit_mem (v := a.toNat % 4 * 16 + b.toNat / 16) (by omega)
      have h₃ := digit_mem (v := b.toNat % 16 * 4 + c.toNat / 64) (by omega)
      have h₄ := digit_mem (v := c.toNat % 64) (by omega)
      rw [encode]
      simp only [List.forall_mem_cons]
      exact ⟨significant_iff.mpr (Or.inl h₁), significant_iff.mpr (Or.inl h₂), significant_iff.mpr (Or.inl h₃),
        significant_iff.mpr (Or.inl h₄), ih⟩

/-! ## The decoder -/

inductive DecodeError where
  /-- The number of digits is one more than a multiple of four. -/
  | oneMore
  | incorrectPadding
  deriving DecidableEq, Repr

/-- The bits that are left over from the digits so far. -/
inductive Pending where
  | none
  | six (bits : Nat)
  | four (bits : Nat)
  | two (bits : Nat)

/-- The number of digits since the last whole group of four. -/
def Pending.position : Pending → Nat
  | none => 0
  | six _ => 1
  | four _ => 2
  | two _ => 3

/-- One more digit: the byte it completes, and what is left over. -/
def Pending.push (v : Nat) : Pending → List UInt8 × Pending
  | none => ([], six v)
  | six bits => ([UInt8.ofNat (bits * 4 + v / 16)], four (v % 16))
  | four bits => ([UInt8.ofNat (bits * 16 + v / 4)], two (v % 4))
  | two bits => ([UInt8.ofNat (bits * 64 + v)], none)

/-- The loop over the characters; `pads` counts the padding since the last digit.  Padding that completes a group
ends the text. -/
def decodeFrom : Pending → Nat → List Char → Except DecodeError (List UInt8)
  | pending, _, [] =>
      match pending with
      | .none => .ok []
      | .six _ => .error .oneMore
      | _ => .error .incorrectPadding
  | pending, pads, c :: cs =>
      if c = '=' then
        -- the padding in front of the third digit of a group does not count
        if 2 ≤ pending.position then
          if 4 ≤ pending.position + (pads + 1) then .ok [] else decodeFrom pending (pads + 1) cs
        else decodeFrom pending pads cs
      else
        match sextet c with
        | none => decodeFrom pending pads cs
        | some v => (decodeFrom (pending.push v).2 0 cs).map ((pending.push v).1 ++ ·)

def decode (text : List Char) : Except DecodeError (List UInt8) := decodeFrom .none 0 text

/-- What is no digit is passed over. -/
theorem decodeFrom_filter (pending : Pending) (pads : Nat) (text : List Char) :
    decodeFrom pending pads (text.filter significant) = decodeFrom pending pads text := by
  induction text generalizing pending pads with
  | nil => rfl
  | cons c text ih =>
      by_cases hpad : c = '='
      · have hkept : significant c = true := significant_iff.mpr (Or.inr hpad)
        rw [List.filter_cons_of_pos hkept, decodeFrom, decodeFrom]
        simp only [ih]
      · by_cases hdigit : c ∈ alphabet
        · have hkept : significant c = true := significant_iff.mpr (Or.inl hdigit)
          obtain ⟨v, hv⟩ := Option.isSome_iff_exists.mp (sextet_isSome hdigit)
          rw [List.filter_cons_of_pos hkept, decodeFrom, decodeFrom, hv]
          simp only [ih]
        · -- neither a digit nor padding
          have hdropped : ¬ significant c = true := by
            rw [significant_iff]
            exact not_or.mpr ⟨hdigit, hpad⟩
          have hnone : sextet c = none := by
            refine List.findIdx?_eq_none_iff.mpr fun d hd => ?_
            rw [beq_eq_false_iff_ne]
            rintro rfl
            exact hdigit hd
          rw [List.filter_cons_of_neg hdropped, decodeFrom, if_neg hpad, hnone, ih]

theorem decodeFrom_digit (pending : Pending) (pads : Nat) {v : Nat} (h : v < 64) (cs : List Char) :
    decodeFrom pending pads (digit v :: cs) = (decodeFrom (pending.push v).2 0 cs).map ((pending.push v).1 ++ ·) := by
  have hdigit : digit v ≠ '=' := by
    have hall : ∀ v < 64, digit v ≠ '=' := by decide +kernel
    exact hall v h
  rw [decodeFrom, if_neg hdigit, sextet_digit h]

theorem ofNat_of_eq {a : UInt8} {n : Nat} (h : n = a.toNat) : UInt8.ofNat n = a := by
  rw [h, UInt8.ofNat_toNat]

/-- Decoding undoes encoding. -/
theorem decode_encode (bytes : List UInt8) : decode (encode bytes) = .ok bytes := by
  unfold decode
  induction bytes using encode.induct with
  | case1 => rfl
  | case2 a =>
      have ha := a.toNat_lt
      rw [encode, decodeFrom_digit _ _ (by omega), decodeFrom_digit _ _ (by omega)]
      have h₁ : UInt8.ofNat (a.toNat / 4 * 4 + a.toNat % 4 * 16 / 16) = a := ofNat_of_eq (by omega)
      simp only [Pending.push, decodeFrom, Pending.position, Except.map, h₁]
      rfl
  | case3 a b =>
      have ha := a.toNat_lt
      have hb := b.toNat_lt
      rw [encode, decodeFrom_digit _ _ (by omega), decodeFrom_digit _ _ (by omega), decodeFrom_digit _ _ (by omega)]
      have h₁ : UInt8.ofNat (a.toNat / 4 * 4 + (a.toNat % 4 * 16 + b.toNat / 16) / 16) = a := ofNat_of_eq (by omega)
      have h₂ : UInt8.ofNat ((a.toNat % 4 * 16 + b.toNat / 16) % 16 * 16 + b.toNat % 16 * 4 / 4) = b :=
        ofNat_of_eq (by omega)
      simp only [Pending.push, decodeFrom, Pending.position, Except.map, h₁, h₂]
      rfl
  | case4 a b c rest ih =>
      have ha := a.toNat_lt
      have hb := b.toNat_lt
      have hc := c.toNat_lt
      rw [encode, decodeFrom_digit _ _ (by omega), decodeFrom_digit _ _ (by omega), decodeFrom_digit _ _ (by omega),
        decodeFrom_digit _ _ (by omega)]
      have h₁ : UInt8.ofNat (a.toNat / 4 * 4 + (a.toNat % 4 * 16 + b.toNat / 16) / 16) = a := ofNat_of_eq (by omega)
      have h₂ : UInt8.ofNat ((a.toNat % 4 * 16 + b.toNat / 16) % 16 * 16 + (b.toNat % 16 * 4 + c.toNat / 64) / 4) =
          b := ofNat_of_eq (by omega)
      have h₃ : UInt8.ofNat ((b.toNat % 16 * 4 + c.toNat / 64) % 4 * 64 + c.toNat % 64) = c := ofNat_of_eq (by omega)
      -- no bits are left over after four digits, so the rest is decoded as if it stood alone
      simp only [Pending.push, h₁, h₂, h₃, ih, Except.map]
      rfl

/-- Whatever stands between the digits. -/
theorem decode_of_filter {text : List Char} {bytes : List UInt8}
    (h : text.filter significant = encode bytes) : decode text = .ok bytes := by
  rw [decode, ← decodeFrom_filter, h]
  exact decode_encode bytes

theorem filter_encode (bytes : List UInt8) : (encode bytes).filter significant = encode bytes :=
  List.filter_eq_self.mpr (mem_encode bytes)

end UnicoreTsi.Base64
