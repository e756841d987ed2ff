import Mizan.Limits.Redis
import Mathlib.Data.List.Perm.Subperm
import Mathlib.Data.List.Count

namespace Mizan.Limits

open LimitsState

section Uncount

variable {t u : Nat} {counted : List (Nat × Bool)}

theorem uncount_sublist : (uncount t counted).Sublist counted := by
  rw [uncount]
  split
  · exact List.erase_sublist
  · exact List.erase_sublist

theorem length_uncount (h : ∃ granted, (t, granted) ∈ counted) :
    (uncount t counted).length + 1 = counted.length := by
  rw [uncount]
  split
  · rename_i hdenied
    have hpos := List.length_pos_of_mem hdenied
    rw [List.length_erase_of_mem hdenied]
    omega
  · rename_i hdenied
    obtain ⟨granted, hmem⟩ := h
    cases granted with
    | false => exact absurd hmem hdenied
    | true =>
        have hpos := List.length_pos_of_mem hmem
        rw [List.length_erase_of_mem hmem]
        omega

theorem count_uncount_of_ne (hne : u ≠ t) (granted : Bool) :
    (uncount t counted).count (u, granted) = counted.count (u, granted) := by
  rw [uncount]
  split
  · exact List.count_erase_of_ne (by simp [hne])
  · exact List.count_erase_of_ne (by simp [hne])

theorem count_le_count_uncount_succ :
    counted.count (t, true) ≤ (uncount t counted).count (t, true) + 1 := by
  rw [uncount]
  split
  · rw [List.count_erase_of_ne (by simp)]
    omega
  · rw [List.count_erase_self]
    omega

-- Where the limit had no room for the last increment of the thread, that is the one undone.
theorem count_uncount_of_denied (h : (t, false) ∈ counted ∨ counted.count (t, true) = 0) :
    (uncount t counted).count (t, true) = counted.count (t, true) := by
  rw [uncount]
  split
  · exact List.count_erase_of_ne (by simp)
  · rename_i hdenied
    have hzero := h.resolve_left hdenied
    rw [List.count_erase_self, hzero]

end Uncount

section Server

variable {server server' : RedisServer} {key : String}

def counterValue (server : RedisServer) (key : String) : Int :=
  ((server.store key).getD { value := 0, expiresAtMs := none }).value

theorem evalIncrement_value {amount : UInt64} {ttlSeconds : Nat} {count : Int}
    (h : server.evalIncrement key amount ttlSeconds = .ok (count, server')) :
    counterValue server' key = counterValue server key + amount.toNat ∧
      count = RedisServer.integerReply (RedisServer.luaNumber (counterValue server' key)) ∧
      server'.nowMs = server.nowMs ∧
      ∀ key', key' ≠ key → server'.store key' = server.store key' := by
  simp only [RedisServer.evalIncrement, RedisServer.incrby] at h
  split at h
  · cases h
  · rename_i current middle hincr
    split at hincr
    · cases hincr
    · split at hincr
      · cases hincr
      · cases hincr
        cases h
        refine ⟨?_, ?_, ?_, fun key' hne => ?_⟩
        · split <;> simp [counterValue, RedisServer.expire, RedisServer.set]
        · split <;> simp [counterValue, RedisServer.expire, RedisServer.set]
        · split <;> simp [RedisServer.expire, RedisServer.set]
        · split <;> simp [RedisServer.expire, RedisServer.set, hne]

theorem evalRelease_store (key' : String) (hne : key' ≠ key) :
    (server.evalRelease key).2.store key' = server.store key' := by
  rw [RedisServer.evalRelease]
  split
  · rfl
  · simp only
    split <;> simp [RedisServer.set, hne]

theorem evalRelease_nowMs : (server.evalRelease key).2.nowMs = server.nowMs := by
  rw [RedisServer.evalRelease]
  split
  · rfl
  · simp only
    split <;> rfl

end Server

variable (policy : RuntimeLimitPolicy)

def leaseMs : Nat := policy.leaseSeconds.toNat * 1000

def returnedRecently (s : LimitsState) (t : Nat) : Bool :=
  (s.endedAtMs t).any fun returnedAtMs => s.server.nowMs ≤ returnedAtMs + leaseMs policy

theorem returnedRecently_iff (s : LimitsState) (t : Nat) : returnedRecently policy s t ↔
    ∃ returnedAtMs, s.endedAtMs t = some returnedAtMs ∧
      s.server.nowMs ≤ returnedAtMs + leaseMs policy := by
  simp only [returnedRecently, Option.any_eq_true, decide_eq_true_eq]

-- The leases of a scope that were returned at most `lease_seconds` ago and are not released.
def leasesInForce (s : LimitsState) (scope : LimitScope) : List (Nat × String) :=
  s.leases.filter fun lease =>
    lease.2 = concurrencyCounterKey scope && returnedRecently policy s lease.1

structure CounterInvariant (s : LimitsState) (key : String) : Prop where
  value : counterValue s.server key = (s.counted key).length
  granted : (s.counted key).countP (·.2) ≤ policy.concurrentRequests.toNat
  leases : ∀ t, returnedRecently policy s t →
    s.leases.count (t, key) ≤ (s.counted key).count (t, true)

structure ConcurrencyInvariant (s : LimitsState) : Prop where
  counters : ∀ scope, CounterInvariant policy s (concurrencyCounterKey scope)
  unfinished : ∀ t key, s.endedAtMs t = none → (t, key) ∉ s.leases

-- Each lease in force has an increment of its own among those that the limit had room for.
theorem ConcurrencyInvariant.bounded {s : LimitsState} (h : ConcurrencyInvariant policy s)
    (scope : LimitScope) :
    (leasesInForce policy s scope).length ≤ policy.concurrentRequests.toNat := by
  obtain ⟨hvalue, hgranted, hleases⟩ := h.counters scope
  have hsubperm : ((leasesInForce policy s scope).map fun lease => (lease.1, true)).Subperm
      ((s.counted (concurrencyCounterKey scope)).filter (·.2)) := by
    rw [List.subperm_ext_iff]
    intro owner howner
    obtain ⟨⟨t, key⟩, hlease, rfl⟩ := List.mem_map.mp howner
    simp only [leasesInForce, List.mem_filter, Bool.and_eq_true, decide_eq_true_eq] at hlease
    obtain ⟨_, rfl, hrecent⟩ := hlease
    have hfilter : ((s.counted (concurrencyCounterKey scope)).filter (·.2)).count (t, true) =
        (s.counted (concurrencyCounterKey scope)).count (t, true) := List.count_filter rfl
    have hcount : ((leasesInForce policy s scope).map fun lease => (lease.1, true)).count
      (t, true) ≤
        s.leases.count (t, concurrencyCounterKey scope) := by
      rw [leasesInForce, List.count_eq_countP, List.countP_map, List.countP_filter,
        List.count_eq_countP]
      apply List.countP_mono_left
      intro lease _ hcounted
      simp only [Function.comp_apply, Bool.and_eq_true, beq_iff_eq, decide_eq_true_eq,
        Prod.mk.injEq] at hcounted ⊢
      exact Prod.ext hcounted.1.1 hcounted.2.1
    rw [hfilter]
    exact Nat.le_trans hcount (hleases t hrecent)
  have hlength := hsubperm.length_le
  rw [List.length_map, ← List.countP_eq_length_filter] at hlength
  omega

section Steps

variable {policy}
variable {s s' : LimitsState} {t : Nat} {key : String}

theorem CounterInvariant.congr (h : CounterInvariant policy s key)
    (hstore : s'.server.store key = s.server.store key) (hcounted : s'.counted key = s.counted key)
    (hleases : ∀ u, returnedRecently policy s' u →
      s'.leases.count (u, key) ≤ (s.counted key).count (u, true)) :
    CounterInvariant policy s' key := by
  obtain ⟨hvalue, hgranted, _⟩ := h
  refine ⟨?_, by rw [hcounted]; exact hgranted, by rw [hcounted]; exact hleases⟩
  rw [counterValue, hstore, hcounted]
  exact hvalue

theorem ConcurrencyInvariant.increment (h : ConcurrencyInvariant policy s) {amount : UInt64}
    {ttlSeconds : Nat} {count : Int} {server : RedisServer}
    (hincr : s.server.evalIncrement key amount ttlSeconds = .ok (count, server))
    (hamount : ∀ scope, key = concurrencyCounterKey scope → amount = 1) :
    ConcurrencyInvariant policy
      (s.increment server t key (count ≤ policy.concurrentRequests.toNat)) := by
  obtain ⟨hvalue', hcount, hnow, hothers⟩ := evalIncrement_value hincr
  refine ⟨fun scope => ?_, h.unfinished⟩
  have hcounter := h.counters scope
  have hrecent : ∀ u, returnedRecently policy
      (s.increment server t key (count ≤ policy.concurrentRequests.toNat)) u =
        returnedRecently policy s u := by
    intro u
    simp only [returnedRecently, LimitsState.increment, hnow]
  by_cases hkey : concurrencyCounterKey scope = key
  · subst hkey
    have hone : amount.toNat = 1 := by rw [hamount scope rfl]; rfl
    have hlength := hcounter.value
    have hgranted := hcounter.granted
    have hle : (s.counted (concurrencyCounterKey scope)).countP (·.2) ≤
        (s.counted (concurrencyCounterKey scope)).length := List.countP_le_length
    refine ⟨?_, ?_, fun u hu => ?_⟩
    · simp only [LimitsState.increment, Function.update_self, List.length_append,
        List.length_singleton, hvalue']
      omega
    · simp only [LimitsState.increment, Function.update_self, List.countP_append,
        List.countP_singleton]
      split
      · rename_i hroom
        have hroom := of_decide_eq_true hroom
        rw [hcount, RedisServer.integerReply_le_iff] at hroom
        omega
      · omega
    · have hcounted := hcounter.leases u (by rw [← hrecent]; exact hu)
      simp only [LimitsState.increment, Function.update_self, List.count_append]
      omega
  · refine hcounter.congr (hothers _ hkey) ?_ fun u hu => ?_
    · simp [LimitsState.increment, hkey]
    · exact hcounter.leases u (by rw [← hrecent]; exact hu)

-- Thread `t` may only decrement a counter that one of its own increments is counted in.
def ReleasesOwnCount (t : Nat) (key : String) (s : LimitsState) : Prop :=
  (s.server.store key).isSome → ∃ granted, (t, granted) ∈ s.counted key

theorem counted_release (h : CounterInvariant policy s key) (hown : ReleasesOwnCount t key s) :
    (s.release (s.server.evalRelease key).2 t key).counted key = uncount t (s.counted key) ∧
      counterValue (s.server.evalRelease key).2 key = (uncount t (s.counted key)).length := by
  have hvalue := h.value
  rw [counterValue] at hvalue
  cases hentry : s.server.store key with
  | none =>
      have hnil : s.counted key = [] := by
        simp only [hentry, Option.getD_none] at hvalue
        exact List.eq_nil_of_length_eq_zero (by omega)
      simp [LimitsState.release, RedisServer.evalRelease, hentry, hnil, uncount, counterValue]
  | some entry =>
      have hlength := length_uncount (hown (by simp [hentry]))
      simp only [hentry, Option.getD_some] at hvalue
      by_cases hlast : entry.value - 1 ≤ 0
      · have hnil : uncount t (s.counted key) = [] :=
          List.eq_nil_of_length_eq_zero (by omega)
        simp [LimitsState.release, RedisServer.evalRelease, RedisServer.set, hentry, hlast, hnil,
          counterValue]
      · simp only [LimitsState.release, RedisServer.evalRelease, RedisServer.set, hentry,
          RedisServer.luaNumber_nonpos_iff, hlast, counterValue, if_false, Function.update_self,
          Option.isNone_some, Option.getD_some, Bool.false_eq_true, true_and]
        omega

theorem counted_release_of_ne {key' : String} (hne : key' ≠ key) (server : RedisServer) :
    (s.release server t key).counted key' = s.counted key' := by
  simp [LimitsState.release, hne]

theorem ConcurrencyInvariant.release (h : ConcurrencyInvariant policy s)
    (hown : ReleasesOwnCount t key s) :
    ConcurrencyInvariant policy (s.release (s.server.evalRelease key).2 t key) := by
  refine ⟨fun scope => ?_, fun u key' hended hmem =>
    h.unfinished u key' hended (List.mem_of_mem_erase hmem)⟩
  have hcounter := h.counters scope
  have hrecent : ∀ u, returnedRecently policy
      (s.release (s.server.evalRelease key).2 t key) u = returnedRecently policy s u := by
    intro u
    simp only [returnedRecently, LimitsState.release, evalRelease_nowMs]
  by_cases hkey : concurrencyCounterKey scope = key
  · subst hkey
    obtain ⟨hcounted, hvalue⟩ := counted_release hcounter hown
    refine ⟨by rw [hcounted]; exact hvalue, ?_, fun u hu => ?_⟩
    · rw [hcounted]
      exact Nat.le_trans (List.Sublist.countP_le uncount_sublist) hcounter.granted
    · have hbefore := hcounter.leases u (by rw [← hrecent]; exact hu)
      rw [hcounted]
      simp only [LimitsState.release]
      by_cases hown : u = t
      · subst hown
        have hle : (s.counted (concurrencyCounterKey scope)).count (u, true) ≤
            (uncount u (s.counted (concurrencyCounterKey scope))).count (u, true) + 1 :=
          count_le_count_uncount_succ
        rw [List.count_erase_self]
        omega
      · rw [count_uncount_of_ne hown, List.count_erase_of_ne (by simp [hown])]
        exact hbefore
  · refine hcounter.congr (evalRelease_store _ hkey) (counted_release_of_ne hkey _)
      fun u hu => ?_
    have hbefore := hcounter.leases u (by rw [← hrecent]; exact hu)
    simp only [LimitsState.release]
    rw [List.count_erase_of_ne (by simp [hkey])]
    exact hbefore

-- The keys that `check_and_acquire` returns in its lease are counted for its caller.
theorem ConcurrencyInvariant.finish (h : ConcurrencyInvariant policy s) {keys : List String}
    (hrunning : s.endedAtMs t = none)
    (hkeys : ∀ scope, keys.count (concurrencyCounterKey scope) ≤
      (s.counted (concurrencyCounterKey scope)).count (t, true)) :
    ConcurrencyInvariant policy (s.finish t keys) := by
  refine ⟨fun scope => ?_, fun u key' hended => ?_⟩
  · refine (h.counters scope).congr rfl rfl fun u hu => ?_
    simp only [LimitsState.finish, List.count_append]
    by_cases hthread : u = t
    · subst hthread
      rw [List.count_eq_zero_of_not_mem (h.unfinished u _ hrunning),
        List.count_map_of_injective keys (fun key => (u, key)) fun _ _ hpair =>
          (Prod.mk.inj hpair).2]
      have := hkeys scope
      omega
    · have hnone : (keys.map fun key => (t, key)).count (u, concurrencyCounterKey scope) = 0 :=
        List.count_eq_zero_of_not_mem (by simp [Ne.symm hthread])
      have hrecent : returnedRecently policy s u := by
        rw [returnedRecently_iff] at hu ⊢
        simpa only [LimitsState.finish, Function.update_of_ne hthread] using hu
      have := (h.counters scope).leases u hrecent
      omega
  · have hthread : u ≠ t := by
      rintro rfl
      simp [LimitsState.finish] at hended
    simp only [LimitsState.finish, Function.update_of_ne hthread] at hended
    simp [LimitsState.finish, h.unfinished u key' hended, Ne.symm hthread]

-- When the counter of a scope expires, each call that it counts has returned, and the lease
-- that it returned is released or was returned more than `lease_seconds` ago.
def ExpiresUnused (policy : RuntimeLimitPolicy) (elapsedMs : Nat) (s : LimitsState) : Prop :=
  ∀ scope entry, s.server.store (concurrencyCounterKey scope) = some entry →
    RedisServer.expired (s.server.nowMs + elapsedMs) entry →
    ∀ t, (t, true) ∈ s.counted (concurrencyCounterKey scope) →
      ∃ returnedAtMs, s.endedAtMs t = some returnedAtMs ∧
        ((t, concurrencyCounterKey scope) ∈ s.leases →
          returnedAtMs + leaseMs policy < s.server.nowMs + elapsedMs)

theorem counted_advance (h : CounterInvariant policy s key) (choice : LimitsChoice) :
    ((s.advance choice).counted key = s.counted key ∧
      (s.advance choice).server.store key = s.server.store key) ∨
    ((s.advance choice).counted key = [] ∧ (s.advance choice).server.store key = none ∧
      ∃ entry, s.server.store key = some entry ∧
        RedisServer.expired (s.server.nowMs + choice.elapsedMs) entry) := by
  have hvalue := h.value
  rw [counterValue] at hvalue
  cases hentry : s.server.store key with
  | none =>
      have hnil : s.counted key = [] := by
        simp only [hentry, Option.getD_none] at hvalue
        exact List.eq_nil_of_length_eq_zero (by omega)
      exact .inl (by simp [LimitsState.advance, RedisServer.advance, hentry, hnil])
  | some entry =>
      by_cases hexpired : RedisServer.expired (s.server.nowMs + choice.elapsedMs) entry
      · exact .inr (by
          simp [LimitsState.advance, RedisServer.advance, hentry, Option.filter, hexpired])
      · exact .inl (by
          simp [LimitsState.advance, RedisServer.advance, hentry, Option.filter, hexpired])

theorem ConcurrencyInvariant.advance (h : ConcurrencyInvariant policy s) {choice : LimitsChoice}
    (hunused : ExpiresUnused policy choice.elapsedMs s) :
    ConcurrencyInvariant policy (s.advance choice) := by
  refine ⟨fun scope => ?_, h.unfinished⟩
  have hcounter := h.counters scope
  have hrecent : ∀ u, returnedRecently policy (s.advance choice) u →
    returnedRecently policy s u := by
    intro u hu
    rw [returnedRecently_iff] at hu ⊢
    obtain ⟨returnedAtMs, hended, hle⟩ := hu
    exact ⟨returnedAtMs, hended, Nat.le_trans (Nat.le_add_right _ _) hle⟩
  obtain ⟨hcounted, hstore⟩ | ⟨hcounted, hstore, entry, hentry, hexpired⟩ :=
    counted_advance hcounter choice
  · exact hcounter.congr hstore hcounted fun u hu => hcounter.leases u (hrecent u hu)
  · refine ⟨by simp [counterValue, hstore, hcounted], by simp [hcounted], fun u hu => ?_⟩
    have hbefore := hcounter.leases u (hrecent u hu)
    by_cases howner : (u, true) ∈ s.counted (concurrencyCounterKey scope)
    · obtain ⟨returnedAtMs, hended, hold⟩ := hunused scope entry hentry hexpired u howner
      have hreleased : (u, concurrencyCounterKey scope) ∉ s.leases := by
        intro hmem
        obtain ⟨recentMs, hended', hle⟩ := (returnedRecently_iff policy _ u).mp hu
        obtain rfl : returnedAtMs = recentMs := Option.some.inj (hended.symm.trans hended')
        exact Nat.not_lt.mpr hle (hold hmem)
      have hzero : (s.advance choice).leases.count (u, concurrencyCounterKey scope) = 0 :=
        List.count_eq_zero_of_not_mem hreleased
      omega
    · rw [List.count_eq_zero_of_not_mem howner] at hbefore
      exact Nat.le_trans hbefore (Nat.zero_le _)

end Steps

end Mizan.Limits
