import Mathlib.Algebra.Order.Ring.Nat
import Mathlib.Data.Int.Basic
import Mathlib.Data.String.Basic
import Mathlib.Tactic.Common
import Mathlib.Tactic.Linarith
import Mathlib.Tactic.Ring

namespace Decimal

abbrev value (digits : List Char) : Nat := Nat.ofDigitChars 10 digits 0

abbrev Digits (text : List Char) : Prop := ∀ digit ∈ text, digit.isDigit = true

def digitCount (n : Nat) : Nat := (Nat.toDigits 10 n).length

variable {digits digits' : List Char} {digit digit' : Char}

def digitValue (digit : Char) : Nat := digit.toNat - '0'.toNat

theorem digitValue_lt_ten (h : digit.isDigit = true) : digitValue digit < 10 := by
  simp only [Char.isDigit, Bool.and_eq_true, decide_eq_true_eq] at h
  have hhigh : digit.toNat ≤ 57 := UInt32.le_iff_toNat_le.mp h.2
  simp only [digitValue, Char.reduceToNat]
  omega

theorem lt_iff_digitValue_lt (h : digit.isDigit = true) (h' : digit'.isDigit = true) :
    digit < digit' ↔ digitValue digit < digitValue digit' := by
  simp only [Char.isDigit, Bool.and_eq_true, decide_eq_true_eq] at h h'
  have hlow : 48 ≤ digit.toNat := UInt32.le_iff_toNat_le.mp h.1
  have hlow' : 48 ≤ digit'.toNat := UInt32.le_iff_toNat_le.mp h'.1
  have hchar : digit < digit' ↔ digit.toNat < digit'.toNat := UInt32.lt_iff_toNat_lt
  rw [hchar]
  simp only [digitValue, Char.reduceToNat]
  omega

theorem value_cons (digit : Char) (digits : List Char) :
    value (digit :: digits) = digitValue digit * 10 ^ digits.length + value digits := by
  rw [value, Nat.ofDigitChars_cons, Nat.ofDigitChars_eq_ofDigitChars_zero, digitValue]
  ring

theorem value_lt (h : Digits digits) : value digits < 10 ^ digits.length := by
  induction digits with
  | nil => simp [value]
  | cons digit digits ih =>
      have hrest := ih fun other hmem => h other (List.mem_cons_of_mem digit hmem)
      have hdigit := digitValue_lt_ten (h digit List.mem_cons_self)
      rw [value_cons, List.length_cons, pow_succ]
      nlinarith

-- The first digit decides between two fractions, and otherwise the rest of them does.
theorem fraction_lt_of_lt {d d' x x' scale scale' : Nat} (hx : x < scale) (hx' : x' < scale')
    (h : d < d') :
    (d * scale + x) * (scale' * 10) < (d' * scale' + x') * (scale * 10) := by
  have hfirst : d * scale + x < d' * scale := calc
    d * scale + x < (d + 1) * scale := by linarith
    _ ≤ d' * scale := Nat.mul_le_mul_right scale h
  calc (d * scale + x) * (scale' * 10) < d' * scale * (scale' * 10) :=
        Nat.mul_lt_mul_of_pos_right hfirst (by omega)
    _ = d' * scale' * (scale * 10) := by ring
    _ ≤ (d' * scale' + x') * (scale * 10) := Nat.mul_le_mul_right _ (Nat.le_add_right _ _)

theorem fraction_of_eq (d x scale scale' : Nat) :
    (d * scale + x) * (scale' * 10) = d * scale * scale' * 10 + x * scale' * 10 := by
  ring

-- Texts of digits are ordered as the fractions that they denote behind a decimal point, and a
-- text comes before a longer one with the same fraction.
theorem lt_iff_fraction (h : Digits digits) (h' : Digits digits') :
    digits < digits' ↔
      value digits * 10 ^ digits'.length < value digits' * 10 ^ digits.length ∨
        value digits * 10 ^ digits'.length = value digits' * 10 ^ digits.length ∧
          digits.length < digits'.length := by
  induction digits generalizing digits' with
  | nil =>
      cases digits' with
      | nil => simp
      | cons digit' digits' =>
          have hnil : ([] : List Char) < digit' :: digits' := List.nil_lt_cons _ _
          simp [hnil, value, Nat.eq_zero_or_pos, or_comm, @eq_comm _ 0]
  | cons digit digits ih =>
      cases digits' with
      | nil => simp [value]
      | cons digit' digits' =>
          have hdigits : Digits digits :=
            fun other hmem => h other (List.mem_cons_of_mem digit hmem)
          have hdigits' : Digits digits' :=
            fun other hmem => h' other (List.mem_cons_of_mem digit' hmem)
          have hfirst := lt_iff_digitValue_lt (h digit List.mem_cons_self)
            (h' digit' List.mem_cons_self)
          have hfirst' := lt_iff_digitValue_lt (h' digit' List.mem_cons_self)
            (h digit List.mem_cons_self)
          rw [List.cons_lt_cons_iff, ih hdigits hdigits', value_cons, value_cons, List.length_cons,
            List.length_cons, pow_succ, pow_succ]
          obtain hlt | rfl | hlt := lt_trichotomy digit digit'
          · have hfraction := fraction_lt_of_lt (value_lt hdigits) (value_lt hdigits')
              (hfirst.mp hlt)
            simp [hlt, hfraction]
          · rw [fraction_of_eq, fraction_of_eq, Nat.mul_right_comm (digitValue digit)]
            simp only [lt_self_iff_false, false_or, true_and]
            omega
          · have hfraction := fraction_lt_of_lt (value_lt hdigits') (value_lt hdigits)
              (hfirst'.mp hlt)
            have hne : digit ≠ digit' := ne_of_gt hlt
            have hnlt : ¬digit < digit' := lt_asymm hlt
            simp only [hne, hnlt, false_and, or_false, false_iff, not_or, not_and]
            omega

-- The three cases of the lengths.
theorem lt_iff_of_length_eq (h : Digits digits) (h' : Digits digits')
    (hlength : digits.length = digits'.length) :
    digits < digits' ↔ value digits < value digits' := by
  have hpos : 0 < 10 ^ digits'.length := Nat.pow_pos (by decide)
  rw [lt_iff_fraction h h', hlength, Nat.mul_lt_mul_right hpos]
  simp

theorem lt_iff_of_length_lt (h : Digits digits) (h' : Digits digits')
    (hlength : digits.length < digits'.length) :
    digits < digits' ↔
      value digits * 10 ^ (digits'.length - digits.length) ≤ value digits' := by
  have hpos : 0 < 10 ^ digits.length := Nat.pow_pos (by decide)
  have hscale : 10 ^ digits'.length =
    10 ^ (digits'.length - digits.length) * 10 ^ digits.length := by
    rw [← pow_add, Nat.sub_add_cancel hlength.le]
  rw [lt_iff_fraction h h', hscale, ← Nat.mul_assoc, Nat.mul_lt_mul_right hpos,
    Nat.mul_left_inj hpos.ne', Nat.le_iff_lt_or_eq]
  simp [hlength]

theorem lt_iff_of_length_gt (h : Digits digits) (h' : Digits digits')
    (hlength : digits'.length < digits.length) :
    digits < digits' ↔
      value digits < value digits' * 10 ^ (digits.length - digits'.length) := by
  have hpos : 0 < 10 ^ digits'.length := Nat.pow_pos (by decide)
  have hscale : 10 ^ digits.length =
    10 ^ (digits.length - digits'.length) * 10 ^ digits'.length := by
    rw [← pow_add, Nat.sub_add_cancel hlength.le]
  rw [lt_iff_fraction h h', hscale, ← Nat.mul_assoc, Nat.mul_lt_mul_right hpos]
  have hnot : ¬digits.length < digits'.length := by omega
  simp [hnot]

section Numbers

variable {n m : Nat}

theorem digits_toDigits : Digits (Nat.toDigits 10 n) := fun _ hmem =>
  Nat.isDigit_of_mem_toDigits (by decide) (by decide) hmem

theorem value_toDigits : value (Nat.toDigits 10 n) = n := Nat.ofDigitChars_ten_toDigits

theorem pow_le_of_lt_digitCount {k : Nat} (hk : 0 < k) (h : k < digitCount n) : 10 ^ k ≤ n := by
  have hiff := @Nat.length_toDigits_le_iff 10 n k (by decide) hk
  rw [digitCount] at h
  by_contra hlt
  have hle := hiff.mpr (by omega)
  omega

theorem digitCount_pos : 0 < digitCount n := Nat.length_toDigits_pos

theorem lt_pow_digitCount : n < 10 ^ digitCount n := by
  have hlt := @value_lt (Nat.toDigits 10 n) digits_toDigits
  rwa [value_toDigits] at hlt

theorem lt_of_digitCount_lt (h : digitCount n < digitCount m) : n < m :=
  lt_pow_digitCount.trans_le (pow_le_of_lt_digitCount digitCount_pos h)

-- The shorter of two numbers, filled up with zeros to the length of the longer one, is at most
-- the longer one.
def InStep (n m : Nat) : Prop :=
  n * 10 ^ (digitCount m - digitCount n) ≤ m ∨ m * 10 ^ (digitCount n - digitCount m) ≤ n

instance : Decidable (InStep n m) := inferInstanceAs (Decidable (_ ∨ _))

theorem inStep_comm : InStep n m ↔ InStep m n := or_comm

theorem inStep_of_digitCount_eq (h : digitCount n = digitCount m) : InStep n m := by
  rw [InStep, h, Nat.sub_self, pow_zero, Nat.mul_one, Nat.mul_one]
  exact le_total n m

-- This is when the texts of two numbers are ordered as the numbers are.
theorem text_lt_iff_inStep :
    (Nat.toDigits 10 n < Nat.toDigits 10 m ↔ n < m) ↔ InStep n m := by
  have hdigits := @digits_toDigits n
  have hdigits' := @digits_toDigits m
  obtain hlength | hlength | hlength := lt_trichotomy (digitCount n) (digitCount m)
  · have hnumber := lt_of_digitCount_lt hlength
    have htext := lt_iff_of_length_lt hdigits hdigits' hlength
    rw [value_toDigits, value_toDigits] at htext
    rw [htext, InStep, Nat.sub_eq_zero_of_le hlength.le, pow_zero, Nat.mul_one]
    simp only [hnumber, iff_true, hnumber.not_ge, or_false]
    rfl
  · have htext := lt_iff_of_length_eq hdigits hdigits' hlength
    rw [value_toDigits, value_toDigits] at htext
    simp only [htext, inStep_of_digitCount_eq hlength]
  · have hnumber := lt_of_digitCount_lt hlength
    have htext := lt_iff_of_length_gt hdigits hdigits' hlength
    rw [value_toDigits, value_toDigits] at htext
    rw [htext, InStep, Nat.sub_eq_zero_of_le hlength.le, pow_zero, Nat.mul_one]
    simp only [hnumber.not_gt, iff_false, hnumber.not_ge, false_or, not_lt]
    rfl

theorem text_le_iff_inStep :
    (¬Nat.toDigits 10 m < Nat.toDigits 10 n ↔ n ≤ m) ↔ InStep n m := by
  rw [inStep_comm, ← text_lt_iff_inStep, ← Nat.not_lt, not_iff_not]

end Numbers

inductive Sign where
  | plus
  | minus
  deriving DecidableEq, Repr

-- A decimal number as it is written, with or without a sign, zeros in front allowed.
structure Written where
  sign : Option Sign
  digits : List Char
  digits_ne : digits ≠ []
  isDigit : Digits digits

namespace Written

variable (written : Written)

def text : String :=
  match written.sign with
  | some .plus => String.ofList ('+' :: written.digits)
  | some .minus => String.ofList ('-' :: written.digits)
  | none => String.ofList written.digits

def number : Int :=
  match written.sign with
  | some .minus => -value written.digits
  | _ => value written.digits

-- When the text of the number is at most that of `n` exactly if the number is.
def LowerInStep (n : Nat) : Prop :=
  match written.sign with
  | some .minus => True
  | some .plus => value written.digits ≤ n
  | none =>
      (written.digits.length < digitCount n →
        value written.digits * 10 ^ (digitCount n - written.digits.length) ≤ n) ∧
      (digitCount n < written.digits.length →
        0 < n ∧ value written.digits ≤ n ∨
          0 < value written.digits ∧
            n * 10 ^ (written.digits.length - digitCount n) ≤ value written.digits)

-- When the text of `n` is at most that of the number exactly if `n` is.
def UpperInStep (n : Nat) : Prop :=
  match written.sign with
  | some .minus => 0 < n ∨ 0 < value written.digits
  | some .plus => value written.digits < n
  | none =>
      (written.digits.length < digitCount n →
        value written.digits * 10 ^ (digitCount n - written.digits.length) ≤ n) ∧
      (digitCount n < written.digits.length →
        value written.digits < n ∨
          n * 10 ^ (written.digits.length - digitCount n) ≤ value written.digits)

variable {written} {n : Nat}

-- Both signs come before every digit.
theorem sign_lt_digits {sign : Char} (hsign : sign = '+' ∨ sign = '-') (rest : List Char) :
    sign :: rest < Nat.toDigits 10 n ∧ ¬Nat.toDigits 10 n < sign :: rest := by
  have hdigits := @digits_toDigits n
  cases htext : Nat.toDigits 10 n with
  | nil => exact absurd htext Nat.toDigits_ne_nil
  | cons digit others =>
      rw [htext] at hdigits
      have hdigit := hdigits digit List.mem_cons_self
      simp only [Char.isDigit, Bool.and_eq_true, decide_eq_true_eq] at hdigit
      have hfirst : '0' ≤ digit := hdigit.1
      have hlt : sign < digit := by
        obtain rfl | rfl := hsign
        · exact lt_of_lt_of_le (by decide) hfirst
        · exact lt_of_lt_of_le (by decide) hfirst
      rw [List.cons_lt_cons_iff, List.cons_lt_cons_iff]
      exact ⟨.inl hlt, by simp [lt_asymm hlt, ne_of_gt hlt]⟩

theorem digits_length_pos (written : Written) : 0 < written.digits.length :=
  List.length_pos_of_ne_nil written.digits_ne

-- A number that is filled up with zeros grows.
theorem padded_lt {k m : Nat} (h : k < m) :
    (0 < n → n < n * 10 ^ (m - k)) ∧ (n = 0 → n * 10 ^ (m - k) = 0) := by
  have hpow : 1 < 10 ^ (m - k) := Nat.one_lt_pow (by omega) (by decide)
  exact ⟨fun hn => (Nat.lt_mul_iff_one_lt_right hn).mpr hpow, fun hn => by rw [hn, Nat.zero_mul]⟩

theorem value_lt_of_length_lt (written : Written) (h : written.digits.length < digitCount n) :
    value written.digits < n :=
  (value_lt written.isDigit).trans_le (pow_le_of_lt_digitCount (digits_length_pos written) h)

theorem lower_iff_inStep : (¬Nat.toDigits 10 n < written.text.toList ↔ written.number ≤ n) ↔
    written.LowerInStep n := by
  have hstored := @digits_toDigits n
  have hvalue := @value_toDigits n
  have hshorter := @value_lt_of_length_lt n written
  obtain ⟨sign, digits, hne, hdigits⟩ := written
  dsimp only at hshorter
  cases sign with
  | some sign =>
      cases sign with
      | plus =>
          have hsign := sign_lt_digits (n := n) (.inl rfl) digits
          simp [text, number, LowerInStep, hsign.2]
      | minus =>
          have hsign := sign_lt_digits (n := n) (.inr rfl) digits
          have hle : -(value digits : Int) ≤ n := by omega
          simp [text, number, LowerInStep, hsign.2, hle]
  | none =>
      simp only [text, number, LowerInStep, String.toList_ofList, Nat.cast_le]
      obtain hlength | hlength | hlength := lt_trichotomy (digitCount n) digits.length
      · have htext := lt_iff_of_length_lt hstored hdigits hlength
        have hpadded := @padded_lt n _ _ hlength
        rw [hvalue, ← digitCount] at htext
        rw [htext]
        omega
      · have htext := lt_iff_of_length_eq hstored hdigits hlength
        rw [hvalue] at htext
        rw [htext]
        omega
      · have htext := lt_iff_of_length_gt hstored hdigits hlength
        have hlt := hshorter hlength
        rw [hvalue, ← digitCount] at htext
        rw [htext]
        omega

theorem upper_iff_inStep :
    (¬written.text.toList < Nat.toDigits 10 n ↔ (n : Int) ≤ written.number) ↔
      written.UpperInStep n := by
  have hstored := @digits_toDigits n
  have hvalue := @value_toDigits n
  have hshorter := @value_lt_of_length_lt n written
  obtain ⟨sign, digits, hne, hdigits⟩ := written
  dsimp only at hshorter
  cases sign with
  | some sign =>
      cases sign with
      | plus =>
          have hsign := sign_lt_digits (n := n) (.inl rfl) digits
          simp [text, number, UpperInStep, hsign.1]
      | minus =>
          have hsign := sign_lt_digits (n := n) (.inr rfl) digits
          simp only [text, number, UpperInStep, String.toList_ofList, hsign.1, not_true_eq_false,
            false_iff]
          omega
  | none =>
      simp only [text, number, UpperInStep, String.toList_ofList, Nat.cast_le]
      obtain hlength | hlength | hlength := lt_trichotomy (digitCount n) digits.length
      · have htext := lt_iff_of_length_gt hdigits hstored hlength
        have hpadded := @padded_lt n _ _ hlength
        rw [hvalue, ← digitCount] at htext
        rw [htext]
        omega
      · have htext := lt_iff_of_length_eq hdigits hstored hlength.symm
        rw [hvalue] at htext
        rw [htext]
        omega
      · have htext := lt_iff_of_length_lt hdigits hstored hlength
        have hlt := hshorter hlength
        rw [hvalue, ← digitCount] at htext
        rw [htext]
        omega

end Written

end Decimal
