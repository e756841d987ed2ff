import Mathlib.Algebra.Order.Ring.Int
import Mathlib.Tactic.Common

namespace Mizan

-- `i128 as i64` keeps the low 64 bits.
def asI64 (value : Int) : Int64 := Int64.ofInt value

-- `i64::saturating_add`
def saturatingAdd (a b : Int64) : Int64 := Int64.ofIntClamp (a.toInt + b.toInt)

-- `i64::saturating_sub`
def saturatingSub (a b : Int64) : Int64 := Int64.ofIntClamp (a.toInt - b.toInt)

-- `u64::saturating_add`
def saturatingAddU64 (a b : UInt64) : UInt64 := UInt64.ofNatClamp (a.toNat + b.toNat)

-- `i64::try_from` of a `u64`
def i64TryFrom (value : UInt64) : Option Int64 :=
  if value.toNat < 2 ^ 63 then some (Int64.ofNat value.toNat) else none

def checkedI64 (value : Int) : Option Int64 :=
  if -2 ^ 63 ≤ value ∧ value < 2 ^ 63 then some (Int64.ofInt value) else none

-- `i64::checked_add`, `i64::checked_sub` and `i64::checked_abs`
def checkedAdd (a b : Int64) : Option Int64 := checkedI64 (a.toInt + b.toInt)

def checkedSub (a b : Int64) : Option Int64 := checkedI64 (a.toInt - b.toInt)

def checkedAbs (a : Int64) : Option Int64 := checkedI64 a.toInt.natAbs

-- `u64::div_ceil` behind its shortcut for zero
def ceilDivide (dividend divisor : UInt64) : UInt64 :=
  if dividend = 0 then 0
  else if dividend % divisor = 0 then dividend / divisor
  else dividend / divisor + 1

theorem toInt_of_checkedI64 {value : Int} {result : Int64} (h : checkedI64 value = some result) :
    result.toInt = value := by
  rw [checkedI64] at h
  split at h
  · rename_i hbounds
    cases h
    exact Int64.toInt_ofInt_of_le hbounds.1 hbounds.2
  · cases h

theorem toInt_asI64 (value : Int) : (asI64 value).toInt = value.bmod (2 ^ 64) :=
  Int64.toInt_ofInt

theorem toInt_asI64_of_bounds {value : Int} (hlower : -2 ^ 63 ≤ value) (hupper : value < 2 ^ 63) :
    (asI64 value).toInt = value :=
  Int64.toInt_ofInt_of_le hlower hupper

theorem toInt_ofIntClamp (value : Int) :
    (Int64.ofIntClamp value).toInt = max (-2 ^ 63) (min value (2 ^ 63 - 1)) := by
  have hmin : Int64.minValue.toInt = -2 ^ 63 := rfl
  have hmax : Int64.maxValue.toInt = 2 ^ 63 - 1 := rfl
  unfold Int64.ofIntClamp
  split
  · split
    · rw [Int64.toInt_ofIntLE]
      omega
    · rw [hmax]
      omega
  · rw [hmin]
    omega

theorem toInt_saturatingAdd (a b : Int64) :
    (saturatingAdd a b).toInt = max (-2 ^ 63) (min (a.toInt + b.toInt) (2 ^ 63 - 1)) :=
  toInt_ofIntClamp _

theorem toInt_saturatingSub (a b : Int64) :
    (saturatingSub a b).toInt = max (-2 ^ 63) (min (a.toInt - b.toInt) (2 ^ 63 - 1)) :=
  toInt_ofIntClamp _

theorem toInt_saturatingAdd_of_lt {a b : Int64} (hb : 0 ≤ b.toInt)
    (hsum : a.toInt + b.toInt < 2 ^ 63) : (saturatingAdd a b).toInt = a.toInt + b.toInt := by
  have ha := Int64.le_toInt a
  rw [toInt_saturatingAdd]
  omega

theorem saturatingAdd_nonneg {a b : Int64} (ha : 0 ≤ a.toInt) (hb : 0 ≤ b.toInt) :
    0 ≤ (saturatingAdd a b).toInt := by
  rw [toInt_saturatingAdd]
  omega

theorem toInt_sub_of_bounds {a b : Int64} (hlower : -2 ^ 63 ≤ a.toInt - b.toInt)
    (hupper : a.toInt - b.toInt < 2 ^ 63) : (a - b).toInt = a.toInt - b.toInt := by
  rw [Int64.toInt_sub, Int.bmod_eq_of_le (by omega) (by omega)]

theorem toInt_neg_of_pos {a : Int64} (ha : 0 < a.toInt) : (-a).toInt = -a.toInt := by
  have hupper := Int64.toInt_lt a
  rw [Int64.toInt_neg, Int.bmod_eq_of_le (by omega) (by omega)]

theorem toInt_pos_of_not_le {a : Int64} (h : ¬a ≤ 0) : 0 < a.toInt :=
  Int64.lt_iff_toInt_lt.mp (Int64.not_le.mp h)

theorem toInt_le_of_not_lt {a b : Int64} (h : ¬a < b) : b.toInt ≤ a.toInt :=
  Int64.le_iff_toInt_le.mp (Int64.not_lt.mp h)

-- The low 64 bits of a value just above the range of `i64` are negative.
theorem toInt_asI64_neg {value : Int} (hlower : 2 ^ 63 ≤ value) (hupper : value < 2 ^ 64) :
    (asI64 value).toInt < 0 := by
  rw [toInt_asI64, Int.bmod_def]
  split <;> omega

-- A sequence that climbs to a bound in small steps stands just above it once.
theorem exists_crossing {f : Nat → Int} {bound step : Int} {n : Nat} (hstart : f 0 < bound)
    (hend : bound ≤ f n) (hstep : ∀ k, f (k + 1) ≤ f k + step) :
    ∃ k, 0 < k ∧ k ≤ n ∧ bound ≤ f k ∧ f k < bound + step := by
  induction n with
  | zero => omega
  | succ n ih =>
      by_cases hn : bound ≤ f n
      · obtain ⟨k, hpos, hk, hcross⟩ := ih hn
        exact ⟨k, hpos, Nat.le_succ_of_le hk, hcross⟩
      · have hlast := hstep n
        exact ⟨n + 1, Nat.succ_pos n, Nat.le_refl _, hend, by omega⟩

theorem toNat_ceilDivide_four (dividend : UInt64) :
    (ceilDivide dividend 4).toNat = (dividend.toNat + 3) / 4 := by
  have hlt := dividend.toNat_lt
  unfold ceilDivide
  split
  · rename_i hzero
    subst hzero
    rfl
  split
  · rename_i _ hrem
    have hrem' := congrArg UInt64.toNat hrem
    simp only [UInt64.toNat_mod, UInt64.toNat_div, UInt64.reduceToNat] at hrem' ⊢
    omega
  · rename_i _ hrem
    have hrem' : dividend.toNat % 4 ≠ 0 := fun h => hrem (UInt64.toNat_inj.mp (by simpa using h))
    simp only [UInt64.toNat_add, UInt64.toNat_div, UInt64.reduceToNat]
    omega

end Mizan
