import Mizan.Wallet.Charge
import Mathlib

namespace Mizan

def fitsI128 (value : Int) : Prop := -2 ^ 127 ≤ value ∧ value < 2 ^ 127

-- The values that `ceil_div` computes in `i128` on its way to the quotient.
def ceilDivValues (value divisor : Int) : List Int :=
  [value, value + divisor, value + divisor - 1, ceilDiv value divisor]

-- The values that `calculate_usage_charge` computes in `i128`.
def chargeValues (input : UsageChargeInput) (price : RoutePrice) : List Int :=
  ceilDivValues (input.promptTokens.toNat * price.inputMicrocreditsPer1mTokens.toInt) 1000000 ++
    ceilDivValues (input.completionTokens.toNat * price.outputMicrocreditsPer1mTokens.toInt)
      1000000 ++
    [inputCharge input price + outputCharge input price]

-- What tokens at a price are worth, rounded up.
def worth (tokens : UInt64) (pricePer1mTokens : Int64) : Int :=
  ⌈(tokens.toNat * pricePer1mTokens.toInt / 1000000 : ℚ)⌉

def exactTotal (input : UsageChargeInput) (price : RoutePrice) : Int :=
  worth input.promptTokens price.inputMicrocreditsPer1mTokens +
    worth input.completionTokens price.outputMicrocreditsPer1mTokens

-- No token count and no price is greater.
structure NoMore (input input' : UsageChargeInput) (price price' : RoutePrice) : Prop where
  promptTokens : input.promptTokens ≤ input'.promptTokens
  completionTokens : input.completionTokens ≤ input'.completionTokens
  inputPrice : price.inputMicrocreditsPer1mTokens ≤ price'.inputMicrocreditsPer1mTokens
  outputPrice : price.outputMicrocreditsPer1mTokens ≤ price'.outputMicrocreditsPer1mTokens

structure ChargedExactly (input : UsageChargeInput) (price : RoutePrice) : Prop where
  noOverflow : ∀ value ∈ chargeValues input price, fitsI128 value
  inputExact : (calculateUsageCharge input price).input.toInt =
    worth input.promptTokens price.inputMicrocreditsPer1mTokens
  outputExact : (calculateUsageCharge input price).output.toInt =
    worth input.completionTokens price.outputMicrocreditsPer1mTokens
  totalExact : (calculateUsageCharge input price).total.toInt = exactTotal input price
  nonneg : 0 ≤ (calculateUsageCharge input price).total.toInt
  monotone : ∀ input' price', price'.NonNegative → NoMore input' input price' price →
    (calculateUsageCharge input' price').total.toInt ≤
      (calculateUsageCharge input price).total.toInt

theorem ceilDiv_eq_ceil {value : Int} (hvalue : 0 ≤ value) :
    ceilDiv value 1000000 = ⌈(value / 1000000 : ℚ)⌉ := by
  have hceil := Rat.ceil_intCast_div_natCast value 1000000
  rw [ceilDiv_eq_ediv hvalue (by decide)]
  push_cast at hceil
  rw [hceil]
  omega

theorem ceilDiv_tokens_eq_worth {tokens : UInt64} {price : Int64} (hprice : 0 ≤ price.toInt) :
    ceilDiv (tokens.toNat * price.toInt) 1000000 = worth tokens price := by
  have hvalue : (0 : Int) ≤ tokens.toNat * price.toInt :=
    Int.mul_nonneg (Int.natCast_nonneg _) hprice
  rw [ceilDiv_eq_ceil hvalue, worth]
  push_cast
  rfl

theorem tokens_mul_price_mono {tokens tokens' : UInt64} {price price' : Int64}
    (hprice : 0 ≤ price.toInt) (htokens : tokens ≤ tokens') (hprices : price ≤ price') :
    (tokens.toNat : Int) * price.toInt ≤ tokens'.toNat * price'.toInt := by
  have htokens : (tokens.toNat : Int) ≤ tokens'.toNat := by
    exact_mod_cast UInt64.le_iff_toNat_le.mp htokens
  have hprices : price.toInt ≤ price'.toInt := Int64.le_iff_toInt_le.mp hprices
  exact Int.mul_le_mul htokens hprices hprice (Int.natCast_nonneg _)

section NonNegative

variable {input input' : UsageChargeInput} {price price' : RoutePrice}

theorem exactCharge_eq_exactTotal (hprice : price.NonNegative) (input : UsageChargeInput) :
    exactCharge input price = exactTotal input price := by
  rw [exactCharge, inputCharge, outputCharge, ceilDiv_tokens_eq_worth hprice.input,
    ceilDiv_tokens_eq_worth hprice.output, exactTotal]

theorem exactCharge_noMore (hprice' : price'.NonNegative) (h : NoMore input' input price' price) :
    exactCharge input' price' ≤ exactCharge input price := by
  have hinput := tokens_mul_price_mono hprice'.input h.promptTokens h.inputPrice
  have houtput := tokens_mul_price_mono hprice'.output h.completionTokens h.outputPrice
  exact Int.add_le_add
    (ceilDiv_mono (Int.mul_nonneg (Int.natCast_nonneg _) hprice'.input) hinput (by decide))
    (ceilDiv_mono (Int.mul_nonneg (Int.natCast_nonneg _) hprice'.output) houtput (by decide))

theorem tokens_mul_price_nonneg (tokens : UInt64) {price : Int64} (hprice : 0 ≤ price.toInt) :
    (0 : Int) ≤ tokens.toNat * price.toInt :=
  Int.mul_nonneg (Int.natCast_nonneg _) hprice

theorem tokens_mul_price_le (tokens : UInt64) {price : Int64} (hprice : 0 ≤ price.toInt) :
    (tokens.toNat : Int) * price.toInt ≤ (2 ^ 64 - 1) * (2 ^ 63 - 1) := by
  have htokens : (tokens.toNat : Int) ≤ 2 ^ 64 - 1 := by
    have := tokens.toNat_lt
    omega
  have hprices : price.toInt ≤ 2 ^ 63 - 1 := by
    have := Int64.toInt_lt price
    omega
  exact Int.mul_le_mul htokens hprices hprice (by decide)

-- A product of tokens and price leaves so much of `i128` that two charges and a sum fit in it.
theorem ceilDiv_lt_half (tokens : UInt64) {price : Int64} (hprice : 0 ≤ price.toInt) :
    0 ≤ ceilDiv (tokens.toNat * price.toInt) 1000000 ∧
      ceilDiv (tokens.toNat * price.toInt) 1000000 < 2 ^ 126 := by
  have hvalue := tokens_mul_price_nonneg tokens hprice
  have hbound := tokens_mul_price_le tokens hprice
  refine ⟨ceilDiv_nonneg hvalue (by decide), ?_⟩
  rw [ceilDiv_eq_ediv hvalue (by decide)]
  omega

theorem ceilDivValues_fit (tokens : UInt64) {price : Int64} (hprice : 0 ≤ price.toInt) :
    ∀ value ∈ ceilDivValues (tokens.toNat * price.toInt) 1000000, fitsI128 value := by
  have hvalue := tokens_mul_price_nonneg tokens hprice
  have hbound := tokens_mul_price_le tokens hprice
  obtain ⟨hnonneg, hhalf⟩ := ceilDiv_lt_half tokens hprice
  intro value hmem
  simp only [ceilDivValues, List.mem_cons, List.not_mem_nil, or_false] at hmem
  rw [fitsI128]
  obtain rfl | rfl | rfl | rfl := hmem <;> omega

theorem chargeValues_fit (hprice : price.NonNegative) (input : UsageChargeInput) :
    ∀ value ∈ chargeValues input price, fitsI128 value := by
  intro value hmem
  rcases List.mem_append.mp hmem with hcharges | hsum
  · rcases List.mem_append.mp hcharges with hinput | houtput
    · exact ceilDivValues_fit input.promptTokens hprice.input value hinput
    · exact ceilDivValues_fit input.completionTokens hprice.output value houtput
  · obtain ⟨hinput, hinputHalf⟩ := ceilDiv_lt_half input.promptTokens hprice.input
    obtain ⟨houtput, houtputHalf⟩ := ceilDiv_lt_half input.completionTokens hprice.output
    rw [List.mem_singleton.mp hsum, fitsI128, inputCharge, outputCharge]
    omega

end NonNegative

-- The narrowing to `i64` is the only step that loses anything.
theorem charged_exactly_iff_total_fits (input : UsageChargeInput) (price : RoutePrice)
    (hprice : price.NonNegative) :
    ChargedExactly input price ↔ exactTotal input price ≤ 2 ^ 63 - 1 := by
  have hexact := exactCharge_eq_exactTotal hprice input
  constructor
  · intro h
    have hlt := Int64.toInt_lt (calculateUsageCharge input price).total
    have htotal := h.totalExact
    omega
  · intro hfits
    have hcharge : exactCharge input price < 2 ^ 63 := by omega
    have htotal := total_of_exactCharge_le hprice hcharge
    have hnonneg := exactCharge_nonneg hprice input
    obtain ⟨hinput, _⟩ := ceilDiv_lt_half input.promptTokens hprice.input
    obtain ⟨houtput, _⟩ := ceilDiv_lt_half input.completionTokens hprice.output
    have hsplit : exactCharge input price = inputCharge input price +
      outputCharge input price := rfl
    have hinput : 0 ≤ inputCharge input price := hinput
    have houtput : 0 ≤ outputCharge input price := houtput
    refine ⟨chargeValues_fit hprice input, ?_, ?_, by omega, by omega, ?_⟩
    · have hnarrow : (asI64 (inputCharge input price)).toInt = inputCharge input price :=
        toInt_asI64_of_bounds (by omega) (by omega)
      exact hnarrow.trans (ceilDiv_tokens_eq_worth hprice.input)
    · have hnarrow : (asI64 (outputCharge input price)).toInt = outputCharge input price :=
        toInt_asI64_of_bounds (by omega) (by omega)
      exact hnarrow.trans (ceilDiv_tokens_eq_worth hprice.output)
    · intro input' price' hprice' hless
      have hmono := exactCharge_noMore hprice' hless
      rw [total_of_exactCharge_le hprice' (by omega), htotal]
      exact hmono

theorem one_token_is_charged_exactly :
    ChargedExactly { promptTokens := 1, completionTokens := 1 }
      { inputMicrocreditsPer1mTokens := 1, outputMicrocreditsPer1mTokens := 1 } := by
  refine (charged_exactly_iff_total_fits _ _ ⟨by decide, by decide⟩).mpr ?_
  rw [← exactCharge_eq_exactTotal ⟨by decide, by decide⟩]
  decide

-- As many tokens as a `u64` counts, at one microcredit each, are charged at minus one.
theorem largest_count_is_charged_below_zero :
    RoutePrice.NonNegative
        { inputMicrocreditsPer1mTokens := 1000000, outputMicrocreditsPer1mTokens := 0 } ∧
      (calculateUsageCharge { promptTokens := 18446744073709551615, completionTokens := 0 }
        { inputMicrocreditsPer1mTokens := 1000000
          outputMicrocreditsPer1mTokens := 0 }).total.toInt = -1 ∧
      ¬ChargedExactly { promptTokens := 18446744073709551615, completionTokens := 0 }
        { inputMicrocreditsPer1mTokens := 1000000, outputMicrocreditsPer1mTokens := 0 } := by
  have htotal : (calculateUsageCharge
    { promptTokens := 18446744073709551615, completionTokens := 0 }
      { inputMicrocreditsPer1mTokens := 1000000
        outputMicrocreditsPer1mTokens := 0 }).total.toInt = -1 := by decide
  refine ⟨⟨by decide, by decide⟩, htotal, fun h => ?_⟩
  have hnonneg := h.nonneg
  omega

end Mizan
