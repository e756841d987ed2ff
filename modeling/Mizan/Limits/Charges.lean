import Mizan.Limits.Acquire
import Mizan.Limits.Lifetimes
import Mizan.Interleaving.Typestate
import Mathlib.Algebra.BigOperators.Group.List.Basic
import Mathlib.Algebra.Order.BigOperators.Group.List
import Mathlib.Algebra.Order.Group.Int

namespace Mizan.Limits

open Interleaving LimitsState

-- An increment that a call makes to be admitted, and the limit that its counter must not pass.
structure Charge where
  key : String
  amount : UInt64
  limit : UInt32
  deriving DecidableEq, Repr

def requestCharges (policy : RuntimeLimitPolicy) (scope : LimitScope) : List Charge :=
  if policy.requestsPerWindow = 0 then []
  else [{ key := requestCounterKey scope, amount := 1, limit := policy.requestsPerWindow }]

def tokenCharges (policy : RuntimeLimitPolicy) (tokens : UInt64) (scope : LimitScope) :
    List Charge :=
  if policy.tokensPerWindow = 0 ∨ tokens = 0 then []
  else [{ key := tokenCounterKey scope, amount := tokens, limit := policy.tokensPerWindow }]

def concurrencyCharges (policy : RuntimeLimitPolicy) (scope : LimitScope) : List Charge :=
  if policy.concurrentRequests = 0 then []
  else [{ key := concurrencyCounterKey scope, amount := 1, limit := policy.concurrentRequests }]

def scopeCharges (policy : RuntimeLimitPolicy) (tokens : UInt64) (scope : LimitScope) :
    List Charge :=
  requestCharges policy scope ++ tokenCharges policy tokens scope ++
    concurrencyCharges policy scope

def charges (policy : RuntimeLimitPolicy) (request : RuntimeLimitRequest) : List Charge :=
  request.scopes.flatMap (scopeCharges policy request.estimatedPromptTokens)

-- Redis runs an increment of this amount, and the counter stays a number that the caller can read.
def Charge.Fits (charge : Charge) (value : Int) : Prop :=
  charge.amount.toNat < 2 ^ 63 ∧ 0 ≤ value + charge.amount.toNat ∧
    value + charge.amount.toNat ≤ charge.limit.toNat

instance (charge : Charge) (value : Int) : Decidable (charge.Fits value) :=
  inferInstanceAs (Decidable (_ ∧ _ ∧ _))

def Charge.apply (charge : Charge) (values : String → Int) : String → Int :=
  Function.update values charge.key (values charge.key + charge.amount.toNat)

-- One charge after the other.
def applyCharges (charges : List Charge) (values : String → Int) : String → Int :=
  charges.foldl (fun values charge => charge.apply values) values

def FitInTurn : List Charge → (String → Int) → Prop
  | [], _ => True
  | charge :: charges, values =>
      charge.Fits (values charge.key) ∧ FitInTurn charges (charge.apply values)

theorem fitInTurn_append {before after : List Charge} {values : String → Int} :
    FitInTurn (before ++ after) values ↔
      FitInTurn before values ∧ FitInTurn after (applyCharges before values) := by
  induction before generalizing values with
  | nil => simp [FitInTurn, applyCharges]
  | cons charge before ih =>
      simp only [List.cons_append, FitInTurn, ih, applyCharges, List.foldl_cons, and_assoc]

-- What all the charges of a key add to it.
def charged (charges : List Charge) (key : String) : Int :=
  ((charges.filter fun charge => charge.key = key).map fun charge =>
    (charge.amount.toNat : Int)).sum

theorem charged_cons (charge : Charge) (charges : List Charge) (key : String) :
    charged (charge :: charges) key =
      (if charge.key = key then (charge.amount.toNat : Int) else 0) + charged charges key := by
  by_cases hkey : charge.key = key <;> simp [charged, hkey]

theorem charged_nonneg (charges : List Charge) (key : String) : 0 ≤ charged charges key := by
  apply List.sum_nonneg
  intro value hvalue
  obtain ⟨charge, _, rfl⟩ := List.mem_map.mp hvalue
  exact Int.natCast_nonneg _

-- Every counter has room for all that the charges add to it.
def Room (charges : List Charge) (values : String → Int) : Prop :=
  ∀ charge ∈ charges, charge.amount.toNat < 2 ^ 63 ∧
    0 ≤ values charge.key + charge.amount.toNat ∧
    values charge.key + charged charges charge.key ≤ charge.limit.toNat

instance (charges : List Charge) (values : String → Int) : Decidable (Room charges values) :=
  inferInstanceAs (Decidable (∀ charge ∈ charges, _))

-- A key is always charged the same amount under the same limit.
def Uniform (charges : List Charge) : Prop :=
  ∀ charge ∈ charges, ∀ charge' ∈ charges, charge.key = charge'.key → charge = charge'

theorem fitInTurn_iff_room {charges : List Charge} {values : String → Int}
    (huniform : Uniform charges) : FitInTurn charges values ↔ Room charges values := by
  induction charges generalizing values with
  | nil => simp [FitInTurn, Room]
  | cons charge charges ih =>
      have hrest : Uniform charges := fun first hfirst second hsecond =>
        huniform first (List.mem_cons_of_mem _ hfirst) second (List.mem_cons_of_mem _ hsecond)
      have hothers := charged_nonneg charges charge.key
      rw [FitInTurn, ih hrest]
      constructor
      · rintro ⟨⟨hamount, hlow, hhigh⟩, hroom⟩
        have hfirst : values charge.key + charge.amount.toNat + charged charges charge.key ≤
            charge.limit.toNat := by
          by_cases hagain : ∃ other ∈ charges, other.key = charge.key
          · obtain ⟨other, hother, hkey⟩ := hagain
            obtain rfl := huniform other (List.mem_cons_of_mem _ hother) charge
              List.mem_cons_self hkey
            have hlater := (hroom other hother).2.2
            simpa [Charge.apply] using hlater
          · have hnone : charged charges charge.key = 0 := by
              rw [charged, List.filter_eq_nil_iff.mpr]
              · rfl
              · intro other hother
                have hdifferent : other.key ≠ charge.key := fun hkey => hagain ⟨other, hother, hkey⟩
                simpa using hdifferent
            omega
        intro other hother
        rw [charged_cons]
        by_cases hkey : other.key = charge.key
        · obtain rfl := huniform other hother charge List.mem_cons_self hkey
          rw [if_pos rfl]
          exact ⟨hamount, hlow, by omega⟩
        · rcases List.mem_cons.mp hother with rfl | hother
          · exact absurd rfl hkey
          · obtain ⟨hamount', hlow', hhigh'⟩ := hroom other hother
            rw [Charge.apply, Function.update_of_ne hkey] at hlow' hhigh'
            rw [if_neg (Ne.symm hkey), Int.zero_add]
            exact ⟨hamount', hlow', hhigh'⟩
      · intro hroom
        obtain ⟨hamount, hlow, hhigh⟩ := hroom charge List.mem_cons_self
        rw [charged_cons, if_pos rfl] at hhigh
        refine ⟨⟨hamount, hlow, by omega⟩, fun other hother => ?_⟩
        obtain ⟨hamount', hlow', hhigh'⟩ := hroom other (List.mem_cons_of_mem _ hother)
        rw [charged_cons] at hhigh'
        by_cases hkey : other.key = charge.key
        · rw [if_pos hkey.symm] at hhigh'
          rw [Charge.apply, hkey, Function.update_self]
          rw [hkey] at hhigh' hlow'
          refine ⟨hamount', by omega, by omega⟩
        · rw [if_neg (Ne.symm hkey)] at hhigh'
          rw [Charge.apply, Function.update_of_ne hkey]
          exact ⟨hamount', hlow', by omega⟩

theorem mem_scopeCharges {policy : RuntimeLimitPolicy} {tokens : UInt64} {scope : LimitScope}
    {charge : Charge} (h : charge ∈ scopeCharges policy tokens scope) :
    charge = { key := requestCounterKey scope, amount := 1, limit := policy.requestsPerWindow } ∨
    charge = { key := tokenCounterKey scope, amount := tokens, limit := policy.tokensPerWindow } ∨
    charge = { key := concurrencyCounterKey scope, amount := 1
               limit := policy.concurrentRequests } := by
  simp only [scopeCharges, List.mem_append, requestCharges, tokenCharges, concurrencyCharges] at h
  rcases h with (h | h) | h
  · split at h
    · cases h
    · exact .inl (List.mem_singleton.mp h)
  · split at h
    · cases h
    · exact .inr (.inl (List.mem_singleton.mp h))
  · split at h
    · cases h
    · exact .inr (.inr (List.mem_singleton.mp h))

theorem requestCounterKey_ne_tokenCounterKey (scope scope' : LimitScope) :
    requestCounterKey scope ≠ tokenCounterKey scope' :=
  append_ne_append_of_take_ne 13 (by decide) (by decide) (by decide)

theorem uniform_charges (policy : RuntimeLimitPolicy) (request : RuntimeLimitRequest) :
    Uniform (charges policy request) := by
  intro charge hcharge charge' hcharge' hkey
  obtain ⟨scope, _, hscope⟩ := List.mem_flatMap.mp hcharge
  obtain ⟨scope', _, hscope'⟩ := List.mem_flatMap.mp hcharge'
  rcases mem_scopeCharges hscope with rfl | rfl | rfl <;>
    rcases mem_scopeCharges hscope' with rfl | rfl | rfl <;> simp only at hkey
  · rw [hkey]
  · exact absurd hkey (requestCounterKey_ne_tokenCounterKey _ _)
  · exact absurd hkey.symm (concurrencyCounterKey_ne_requestCounterKey _ _)
  · exact absurd hkey.symm (requestCounterKey_ne_tokenCounterKey _ _)
  · rw [hkey]
  · exact absurd hkey.symm (concurrencyCounterKey_ne_tokenCounterKey _ _)
  · exact absurd hkey (concurrencyCounterKey_ne_requestCounterKey _ _)
  · exact absurd hkey (concurrencyCounterKey_ne_tokenCounterKey _ _)
  · rw [hkey]

end Mizan.Limits
