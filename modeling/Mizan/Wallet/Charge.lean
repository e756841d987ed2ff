import Mizan.Core.Numeric

namespace Mizan

abbrev Microcredits := Int64

structure RoutePrice where
  inputMicrocreditsPer1mTokens : Int64
  outputMicrocreditsPer1mTokens : Int64
  deriving DecidableEq, Repr

structure UsageChargeInput where
  promptTokens : UInt64
  completionTokens : UInt64
  deriving DecidableEq, Repr

structure UsageCharge where
  input : Microcredits
  output : Microcredits
  total : Microcredits
  deriving DecidableEq, Repr

-- `i128` is modelled by `Int`: the product of a `u64` and an `i64` is in its range.
def ceilDiv (value divisor : Int) : Int :=
  if value = 0 then 0 else (value + divisor - 1).tdiv divisor

def inputCharge (input : UsageChargeInput) (price : RoutePrice) : Int :=
  ceilDiv (input.promptTokens.toNat * price.inputMicrocreditsPer1mTokens.toInt) 1000000

def outputCharge (input : UsageChargeInput) (price : RoutePrice) : Int :=
  ceilDiv (input.completionTokens.toNat * price.outputMicrocreditsPer1mTokens.toInt) 1000000

def calculateUsageCharge (input : UsageChargeInput) (price : RoutePrice) : UsageCharge :=
  { input := asI64 (inputCharge input price)
    output := asI64 (outputCharge input price)
    total := asI64 (inputCharge input price + outputCharge input price) }

structure RoutePrice.NonNegative (price : RoutePrice) : Prop where
  input : 0 ≤ price.inputMicrocreditsPer1mTokens.toInt
  output : 0 ≤ price.outputMicrocreditsPer1mTokens.toInt

-- The charge before it is narrowed to `i64`.
def exactCharge (input : UsageChargeInput) (price : RoutePrice) : Int :=
  inputCharge input price + outputCharge input price

theorem calculateUsageCharge_total (input : UsageChargeInput) (price : RoutePrice) :
    (calculateUsageCharge input price).total = asI64 (exactCharge input price) := rfl

theorem ceilDiv_zero (divisor : Int) : ceilDiv 0 divisor = 0 := rfl

theorem ceilDiv_eq_ediv {value divisor : Int} (hvalue : 0 ≤ value) (hdivisor : 0 < divisor) :
    ceilDiv value divisor = (value + divisor - 1) / divisor := by
  unfold ceilDiv
  split
  · rename_i hzero
    subst hzero
    exact (Int.ediv_eq_zero_of_lt (by omega) (by omega)).symm
  · exact Int.tdiv_eq_ediv_of_nonneg (by omega)

theorem ceilDiv_nonneg {value divisor : Int} (hvalue : 0 ≤ value) (hdivisor : 0 < divisor) :
    0 ≤ ceilDiv value divisor := by
  rw [ceilDiv_eq_ediv hvalue hdivisor]
  exact Int.ediv_nonneg (by omega) (by omega)

theorem ceilDiv_mono {value value' divisor : Int} (hvalue : 0 ≤ value) (hle : value ≤ value')
    (hdivisor : 0 < divisor) : ceilDiv value divisor ≤ ceilDiv value' divisor := by
  rw [ceilDiv_eq_ediv hvalue hdivisor, ceilDiv_eq_ediv (by omega) hdivisor]
  exact Int.ediv_le_ediv hdivisor (by omega)

-- One more unit of a rate adds at most the whole part of the rate, and one for rounding.
theorem ceilDiv_add_le {value rate divisor : Int} (hvalue : 0 ≤ value) (hrate : 0 ≤ rate)
    (hdivisor : 0 < divisor) :
    ceilDiv (value + rate) divisor ≤ ceilDiv value divisor + (rate / divisor + 1) := by
  rw [ceilDiv_eq_ediv hvalue hdivisor, ceilDiv_eq_ediv (by omega) hdivisor]
  have hsplit := Int.emod_add_mul_ediv rate divisor
  have hrem := Int.emod_lt_of_pos rate hdivisor
  calc (value + rate + divisor - 1) / divisor
      ≤ (value + divisor - 1 + (rate / divisor + 1) * divisor) / divisor := by
        apply Int.ediv_le_ediv hdivisor
        rw [Int.add_mul, Int.one_mul, Int.mul_comm (rate / divisor)]
        omega
    _ = (value + divisor - 1) / divisor + (rate / divisor + 1) :=
        Int.add_mul_ediv_right _ _ (by omega)

-- Tokens whose charge passes the range of `i64` pass it first where the narrowed total is
-- negative.
theorem exists_wrapping_tokens {base rate : Int} {n : Nat} (hrate : 0 ≤ rate)
    (hupper : rate < 2 ^ 63) (hbase : base < 2 ^ 63)
    (hexceeds : 2 ^ 63 ≤ base + ceilDiv (n * rate) 1000000) :
    ∃ k, 0 < k ∧ k ≤ n ∧ 2 ^ 63 ≤ base + ceilDiv (k * rate) 1000000 ∧
      base + ceilDiv (k * rate) 1000000 < 2 ^ 64 := by
  have hstart : base + ceilDiv ((0 : Nat) * rate) 1000000 < 2 ^ 63 := by
    rw [Int.natCast_zero, Int.zero_mul, ceilDiv_zero, Int.add_zero]
    exact hbase
  have hstep : ∀ k : Nat, base + ceilDiv ((k + 1 : Nat) * rate) 1000000 ≤
      base + ceilDiv (k * rate) 1000000 + (rate / 1000000 + 1) := by
    intro k
    have hmore := ceilDiv_add_le (Int.mul_nonneg (Int.natCast_nonneg k) hrate) hrate
      (show (0 : Int) < 1000000 by decide)
    have hsucc : ((k + 1 : Nat) : Int) * rate = k * rate + rate := by
      rw [Int.natCast_add, Int.natCast_one, Int.add_mul, Int.one_mul]
    rw [hsucc]
    omega
  obtain ⟨k, hpos, hk, hlower, hcross⟩ := exists_crossing hstart hexceeds hstep
  exact ⟨k, hpos, hk, hlower, by omega⟩

theorem rate_pos_of_exceeds {base rate : Int} {n : Nat} (hrate : 0 ≤ rate) (hbase : base < 2 ^ 63)
    (hexceeds : 2 ^ 63 ≤ base + ceilDiv (n * rate) 1000000) : 0 < rate := by
  by_contra hzero
  have hrate0 : rate = 0 := by omega
  rw [hrate0, Int.mul_zero, ceilDiv_zero] at hexceeds
  omega

section NonNegative

variable {price : RoutePrice}

theorem inputCharge_mono (hprice : price.NonNegative) {input input' : UsageChargeInput}
    (hle : input.promptTokens ≤ input'.promptTokens) :
    inputCharge input price ≤ inputCharge input' price := by
  have htokens : (input.promptTokens.toNat : Int) ≤ input'.promptTokens.toNat := by
    exact_mod_cast UInt64.le_iff_toNat_le.mp hle
  exact ceilDiv_mono (Int.mul_nonneg (Int.natCast_nonneg _) hprice.input)
    (Int.mul_le_mul_of_nonneg_right htokens hprice.input) (by decide)

theorem outputCharge_mono (hprice : price.NonNegative) {input input' : UsageChargeInput}
    (hle : input.completionTokens ≤ input'.completionTokens) :
    outputCharge input price ≤ outputCharge input' price := by
  have htokens : (input.completionTokens.toNat : Int) ≤ input'.completionTokens.toNat := by
    exact_mod_cast UInt64.le_iff_toNat_le.mp hle
  exact ceilDiv_mono (Int.mul_nonneg (Int.natCast_nonneg _) hprice.output)
    (Int.mul_le_mul_of_nonneg_right htokens hprice.output) (by decide)

theorem exactCharge_mono (hprice : price.NonNegative) {input input' : UsageChargeInput}
    (hprompt : input.promptTokens ≤ input'.promptTokens)
    (hcompletion : input.completionTokens ≤ input'.completionTokens) :
    exactCharge input price ≤ exactCharge input' price :=
  Int.add_le_add (inputCharge_mono hprice hprompt) (outputCharge_mono hprice hcompletion)

theorem exactCharge_nonneg (hprice : price.NonNegative) (input : UsageChargeInput) :
    0 ≤ exactCharge input price :=
  Int.add_nonneg
    (ceilDiv_nonneg (Int.mul_nonneg (Int.natCast_nonneg _) hprice.input) (by decide))
    (ceilDiv_nonneg (Int.mul_nonneg (Int.natCast_nonneg _) hprice.output) (by decide))

theorem total_of_exactCharge_le (hprice : price.NonNegative) {input : UsageChargeInput}
    (hfits : exactCharge input price < 2 ^ 63) :
    (calculateUsageCharge input price).total.toInt = exactCharge input price := by
  have hnonneg := exactCharge_nonneg hprice input
  rw [calculateUsageCharge_total]
  exact toInt_asI64_of_bounds (by omega) hfits

theorem ceilDiv_rate_bounds {rate : Int} (hrate : 0 < rate) (hupper : rate < 2 ^ 63) :
    0 < ceilDiv rate 1000000 ∧ ceilDiv rate 1000000 < 2 ^ 63 := by
  rw [ceilDiv_eq_ediv (Int.le_of_lt hrate) (by decide)]
  omega

-- One token at a positive rate is not free.
theorem total_one_completion_pos (hprice : price.NonNegative)
    (hrate : 0 < price.outputMicrocreditsPer1mTokens.toInt) :
    0 < (calculateUsageCharge { promptTokens := 0, completionTokens := 1 } price).total.toInt := by
  obtain ⟨hpos, hlt⟩ := ceilDiv_rate_bounds hrate (Int64.toInt_lt _)
  have hcharge : exactCharge { promptTokens := 0, completionTokens := 1 } price =
      ceilDiv price.outputMicrocreditsPer1mTokens.toInt 1000000 := by
    simp [exactCharge, inputCharge, outputCharge, ceilDiv_zero]
  rw [total_of_exactCharge_le hprice (by omega)]
  omega

theorem total_one_prompt_pos (hprice : price.NonNegative)
    (hrate : 0 < price.inputMicrocreditsPer1mTokens.toInt) :
    0 < (calculateUsageCharge { promptTokens := 1, completionTokens := 0 } price).total.toInt := by
  obtain ⟨hpos, hlt⟩ := ceilDiv_rate_bounds hrate (Int64.toInt_lt _)
  have hcharge : exactCharge { promptTokens := 1, completionTokens := 0 } price =
      ceilDiv price.inputMicrocreditsPer1mTokens.toInt 1000000 := by
    simp [exactCharge, inputCharge, outputCharge, ceilDiv_zero]
  rw [total_of_exactCharge_le hprice (by omega)]
  omega

end NonNegative

end Mizan
