import Mizan.Billing.Usage
import Mizan.Decimal.Order
import Mizan.Dispatch.Jobs
import Mizan.Gateway.Catalog

namespace Mizan.Timestamps

open Billing Daemon Decimal Dispatch Gateway

theorem toList_timestamp {time : Int64} (h : 0 ≤ time.toInt) :
    (toString time).toList = Nat.toDigits 10 time.toInt.toNat := by
  rw [toString_eq_repr]
  obtain ⟨n, hn⟩ := Int.eq_ofNat_of_zero_le h
  rw [hn]
  exact Nat.toList_repr

section Stored

variable {time time' : Int64}

theorem le_iff_inStep (h : 0 ≤ time.toInt) (h' : 0 ≤ time'.toInt) :
    (toString time ≤ toString time' ↔ time.toInt ≤ time'.toInt) ↔
      InStep time.toInt.toNat time'.toInt.toNat := by
  have htext : toString time ≤ toString time' ↔
      ¬Nat.toDigits 10 time'.toInt.toNat < Nat.toDigits 10 time.toInt.toNat := by
    rw [← toList_timestamp h, ← toList_timestamp h']
    rfl
  have hnumber : time.toInt ≤ time'.toInt ↔ time.toInt.toNat ≤ time'.toInt.toNat := by omega
  rw [htext, hnumber, text_le_iff_inStep]

theorem lt_iff_inStep (h : 0 ≤ time.toInt) (h' : 0 ≤ time'.toInt) :
    (toString time < toString time' ↔ time.toInt < time'.toInt) ↔
      InStep time.toInt.toNat time'.toInt.toNat := by
  have htext : toString time < toString time' ↔
      Nat.toDigits 10 time.toInt.toNat < Nat.toDigits 10 time'.toInt.toNat := by
    rw [← toList_timestamp h, ← toList_timestamp h']
    rfl
  have hnumber : time.toInt < time'.toInt ↔ time.toInt.toNat < time'.toInt.toNat := by omega
  rw [htext, hnumber, text_lt_iff_inStep]

-- A negative time is written with its sign, which comes before every digit.
theorem neg_le (h : time.toInt < 0) (h' : 0 ≤ time'.toInt) : toString time ≤ toString time' := by
  have hsign := (@Written.sign_lt_digits time'.toInt.toNat '-' (.inr rfl)
    (Nat.toDigits 10 (-time.toInt).toNat)).2
  have htext : (toString time).toList = '-' :: Nat.toDigits 10 (-time.toInt).toNat := by
    rw [toString_eq_repr]
    obtain ⟨n, hn⟩ := Int.eq_negSucc_of_lt_zero h
    rw [hn]
    simp [Int.repr, String.toList_append, Nat.toList_repr]
  rw [← toList_timestamp h', ← htext] at hsign
  exact hsign

end Stored

-- The conditions of a query apart from the comparison of times.
def available (node : DbDaemonNode) : Bool :=
  node.status = STATUS_ACTIVE && node.revoked = 0 && node.disabled = 0 &&
    node.healthStatus = some HEALTH_STATUS_HEALTHY && node.providerFamily.isSome &&
    node.maxConcurrency.isSome

theorem eligible_of_available {node : DbDaemonNode} {seen : Int64}
    (havailable : available node = true)
    (hseen : node.lastSeenAt = some (toString seen)) (cutoff : String) :
    eligible cutoff node = true ↔ cutoff ≤ toString seen := by
  rw [available] at havailable
  simp [eligible, havailable, hseen]

section Cutoff

variable {now seen : Int64} {stale : UInt32}

theorem toInt_cutoff (hnow : 0 ≤ now.toInt) (hstale : 1 ≤ stale) :
    (saturatingSub now (max (Int64.ofNat stale.toNat) 1)).toInt = now.toInt - stale.toNat := by
  have hlt := stale.toNat_lt
  have hlow := UInt32.le_iff_toNat_le.mp hstale
  have hone : (1 : UInt32).toNat = 1 := rfl
  have hhigh := now.toInt_lt
  have hofNat : (Int64.ofNat stale.toNat).toInt = stale.toNat := Int64.toInt_ofNat_of_lt (by omega)
  have hmax : max (Int64.ofNat stale.toNat) 1 = Int64.ofNat stale.toNat := by
    have hone : (1 : Int64).toInt = 1 := rfl
    by_cases hle : Int64.ofNat stale.toNat ≤ 1
    · have hle' := Int64.le_iff_toInt_le.mp hle
      exact (if_pos hle).trans (Int64.toInt_inj.mp (by omega))
    · exact if_neg hle
  rw [hmax, toInt_saturatingSub, hofNat]
  omega

-- A cutoff before 1970 lets every node through, as the numbers do.
theorem cutoff_le_iff (hnow : 0 ≤ now.toInt) (hseen : 0 ≤ seen.toInt) (hstale : 1 ≤ stale) :
    (cutoff now (Int64.ofNat stale.toNat) ≤ toString seen ↔
      now.toInt - stale.toNat ≤ seen.toInt) ↔
    (now.toInt < stale.toNat ∨ InStep (now.toInt - stale.toNat).toNat seen.toInt.toNat) := by
  have hcutoff := toInt_cutoff hnow hstale
  rw [cutoff]
  by_cases hneg : now.toInt < stale.toNat
  · have hcutoff' : (saturatingSub now (max (Int64.ofNat stale.toNat) 1)).toInt < 0 := by omega
    have htext := neg_le hcutoff' hseen
    have hnumber : now.toInt - stale.toNat ≤ seen.toInt := by omega
    simp [htext, hnumber, hneg]
  · rw [← hcutoff, le_iff_inStep (by omega) hseen]
    simp [hneg]

end Cutoff

-- The times of a query are compared as texts. Each comparison gives the answer of the numbers
-- exactly if the numbers are in step.
theorem comparison_iff_inStep (now stored seen deadline : Int64) (bound : Written)
    (row : SelectedRow) (stale : UInt32) (node : DbDaemonNode) (job : DispatchJob) :
    (0 ≤ stored.toInt → row.event.createdAt = toString stored →
      ((Condition.createdAfter.holds bound.text row = true ↔ bound.number ≤ stored.toInt) ↔
        bound.LowerInStep stored.toInt.toNat) ∧
      ((Condition.createdBefore.holds bound.text row = true ↔ stored.toInt ≤ bound.number) ↔
        bound.UpperInStep stored.toInt.toNat)) ∧
    (0 ≤ now.toInt → 0 ≤ seen.toInt → 1 ≤ stale → available node = true →
      node.lastSeenAt = some (toString seen) →
      ((eligible (cutoff now (Int64.ofNat stale.toNat)) node = true ↔
          now.toInt - stale.toNat ≤ seen.toInt) ↔
        (now.toInt < stale.toNat ∨ InStep (now.toInt - stale.toNat).toNat seen.toInt.toNat)) ∧
      ∀ catalog : Catalog, node ∈ catalog.nodes → hasCapacity node = true →
        ((node ∈ listedNodes (Int64.ofNat stale.toNat) now catalog ↔
            now.toInt - stale.toNat ≤ seen.toInt) ↔
          (now.toInt < stale.toNat ∨ InStep (now.toInt - stale.toNat).toNat seen.toInt.toNat))) ∧
    (0 ≤ now.toInt → 0 ≤ deadline.toInt → job.deadlineAt = toString deadline →
      (job.status = .accepted →
        ((acceptedFor job.nodeId (toString now) job = true ↔ now.toInt ≤ deadline.toInt) ↔
          InStep now.toInt.toNat deadline.toInt.toNat)) ∧
      (pending job = true →
        ((expired (toString now) job = true ↔ deadline.toInt < now.toInt) ↔
          InStep now.toInt.toNat deadline.toInt.toNat))) := by
  refine ⟨fun hstored hrow => ?_, fun hnow hseen hstale havailable hnode => ?_,
    fun hnow hdeadline hjob => ?_⟩
  · have hnumber : (stored.toInt.toNat : Int) = stored.toInt := Int.toNat_of_nonneg hstored
    constructor
    · rw [← Written.lower_iff_inStep, ← toList_timestamp hstored, hnumber, Condition.holds, hrow,
        decide_eq_true_iff]
      rfl
    · rw [← Written.upper_iff_inStep, ← toList_timestamp hstored, hnumber, Condition.holds, hrow,
        decide_eq_true_iff]
      rfl
  · have heligible := eligible_of_available havailable hnode (cutoff now (Int64.ofNat stale.toNat))
    constructor
    · rw [heligible]
      exact cutoff_le_iff hnow hseen hstale
    · intro catalog hmem hcapacity
      have hlisted : node ∈ listedNodes (Int64.ofNat stale.toNat) now catalog ↔
          cutoff now (Int64.ofNat stale.toNat) ≤ toString seen := by
        rw [listedNodes, Table.mem_ascending, List.mem_filter, Bool.and_eq_true, heligible]
        simp [hmem, hcapacity]
      rw [hlisted]
      exact cutoff_le_iff hnow hseen hstale
  · constructor
    · intro hstatus
      have haccepted : acceptedFor job.nodeId (toString now) job = true ↔
          toString now ≤ toString deadline := by
        simp [acceptedFor, hstatus, hjob]
      rw [haccepted]
      exact le_iff_inStep hnow hdeadline
    · intro hpending
      have hexpired : expired (toString now) job = true ↔ toString deadline < toString now := by
        simp [expired, hpending, hjob]
      rw [hexpired, inStep_comm]
      exact lt_iff_inStep hdeadline hnow

def recordedEvent : UsageEventRecord :=
  { id := "event", requestId := "request", userId := none, apiKeyId := none, providerId := none
    routeId := none, daemonNodeId := none, model := "gpt-4o-mini", usagePromptTokens := 1
    usageCompletionTokens := 1, usageTotalTokens := 2, usageEstimated := 0, statusCode := 200
    latencyMs := 10, createdAt := "1700000000" }

def seenNode : DbDaemonNode :=
  { id := "node", hostUserId := none, label := none, hostname := none, publicKey := none
    tokenHash := "token", status := "active", revoked := 0, disabled := 0
    lastSeenAt := some "1700000000", providerFamily := some "openai-compatible"
    modelIdsJson := "[]", maxConcurrency := some 4, pricingMetadataJson := none, region := none
    labelsJson := "[]", healthStatus := some "healthy", capabilityMetadataJson := none
    createdAt := "1700000000", updatedAt := "1700000000" }

def acceptedJob : DispatchJob :=
  { id := ⟨1⟩, requestId := ⟨2⟩, nodeId := ⟨3⟩, userId := none, apiKeyId := none
    model := "gpt-4o-mini", status := .accepted, requestJson := "null", responseJson := none
    errorCode := none, errorMessage := none, leasedAt := none, completedAt := none
    deadlineAt := "1000000004", createdAt := "999999999", updatedAt := "999999999" }

-- An event of 2023 is not listed after a time of 2001; a node that was seen this second is stale
-- at a limit of 10^9 seconds; a job that is due in five seconds has timed out.
theorem times_out_of_step :
    (Condition.createdAfter.holds "999999999" { event := recordedEvent, node := none } = false ∧
      recordedEvent.createdAt = toString (1700000000 : Int64) ∧
      (999999999 : Int) ≤ (1700000000 : Int64).toInt) ∧
    (eligible (cutoff 1700000000 (Int64.ofNat (1000000000 : UInt32).toNat)) seenNode = false ∧
      available seenNode = true ∧ seenNode.lastSeenAt = some (toString (1700000000 : Int64)) ∧
      (1700000000 : Int64).toInt - (1000000000 : UInt32).toNat ≤ (1700000000 : Int64).toInt) ∧
    acceptedFor ⟨3⟩ (toString (999999999 : Int64)) acceptedJob = false ∧
      expired (toString (999999999 : Int64)) acceptedJob = true ∧
      acceptedJob.deadlineAt = toString (saturatingAdd 999999999 5) ∧
      (999999999 : Int64).toInt < (saturatingAdd 999999999 5).toInt := by
  refine ⟨⟨?_, ?_, ?_⟩, ⟨?_, ?_, ?_, ?_⟩, ?_, ?_, ?_, ?_⟩ <;> decide +kernel

end Mizan.Timestamps
