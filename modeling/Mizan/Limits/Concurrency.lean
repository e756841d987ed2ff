import Mizan.Limits.Calls
import Mizan.Limits.Counter

namespace Mizan.Limits

open Interleaving LimitsState

-- What the calls of other clients leave alone for thread `t`: the increments that are counted
-- for it while it runs.
structure OthersKeep (t : Nat) (s s' : LimitsState) : Prop where
  ended : s'.endedAtMs t = s.endedAtMs t
  granted : s.endedAtMs t = none → ∀ scope,
    (s'.counted (concurrencyCounterKey scope)).count (t, true) =
      (s.counted (concurrencyCounterKey scope)).count (t, true)
  denied : s.endedAtMs t = none → ∀ scope,
    (t, false) ∈ s.counted (concurrencyCounterKey scope) →
      (t, false) ∈ s'.counted (concurrencyCounterKey scope) ∨
        (s.counted (concurrencyCounterKey scope)).count (t, true) = 0

namespace OthersKeep

variable {policy : RuntimeLimitPolicy} {t u : Nat} {s s' s'' : LimitsState} {key : String}

theorem refl (t : Nat) (s : LimitsState) : OthersKeep t s s :=
  ⟨rfl, fun _ _ => rfl, fun _ _ hmem => .inl hmem⟩

theorem trans (h : OthersKeep t s s') (h' : OthersKeep t s' s'') : OthersKeep t s s'' := by
  refine ⟨h'.ended.trans h.ended, fun hrunning scope => ?_, fun hrunning scope hmem => ?_⟩
  · exact (h'.granted (h.ended.trans hrunning) scope).trans (h.granted hrunning scope)
  · obtain hmem' | hzero := h.denied hrunning scope hmem
    · rw [← h.granted hrunning scope]
      exact h'.denied (h.ended.trans hrunning) scope hmem'
    · exact .inr hzero

theorem of_counted (hended : s'.endedAtMs u = s.endedAtMs u)
    (hcounted : ∀ scope granted, (s'.counted (concurrencyCounterKey scope)).count (u, granted) =
      (s.counted (concurrencyCounterKey scope)).count (u, granted)) : OthersKeep u s s' := by
  refine ⟨hended, fun _ scope => hcounted scope true, fun _ scope hmem => .inl ?_⟩
  rw [← List.count_pos_iff, hcounted scope false]
  exact List.count_pos_iff.mpr hmem

theorem increment (hne : u ≠ t) (server : RedisServer) (key : String) (granted : Bool) :
    OthersKeep u s (s.increment server t key granted) := by
  refine of_counted rfl fun scope granted' => ?_
  by_cases hkey : concurrencyCounterKey scope = key
  · subst hkey
    simp [LimitsState.increment, Ne.symm hne]
  · simp [LimitsState.increment, hkey]

theorem release (h : ConcurrencyInvariant policy s) (hne : u ≠ t)
    (hown : ReleasesOwnCount t key s) :
    OthersKeep u s (s.release (s.server.evalRelease key).2 t key) := by
  refine of_counted rfl fun scope granted => ?_
  by_cases hkey : concurrencyCounterKey scope = key
  · subst hkey
    rw [(counted_release (h.counters scope) hown).1, count_uncount_of_ne hne]
  · rw [counted_release_of_ne hkey]

theorem finish (hne : u ≠ t) (keys : List String) : OthersKeep u s (s.finish t keys) :=
  of_counted (by simp [LimitsState.finish, hne]) fun _ _ => rfl

-- A counter that still counts for a running call does not expire.
theorem advance (h : ConcurrencyInvariant policy s) {choice : LimitsChoice}
    (hunused : ExpiresUnused policy choice.elapsedMs s) (u : Nat) :
    OthersKeep u s (s.advance choice) := by
  have hnone : ∀ scope entry, s.server.store (concurrencyCounterKey scope) = some entry →
      RedisServer.expired (s.server.nowMs + choice.elapsedMs) entry → s.endedAtMs u = none →
      (s.counted (concurrencyCounterKey scope)).count (u, true) = 0 := by
    intro scope entry hentry hexpired hrunning
    apply List.count_eq_zero_of_not_mem
    intro hmem
    obtain ⟨returnedAtMs, hended, _⟩ := hunused scope entry hentry hexpired u hmem
    rw [hrunning] at hended
    cases hended
  refine ⟨rfl, fun hrunning scope => ?_, fun hrunning scope hmem => ?_⟩
  · obtain ⟨hcounted, _⟩ | ⟨hcounted, _, entry, hentry, hexpired⟩ :=
      counted_advance (h.counters scope) choice
    · rw [hcounted]
    · rw [hcounted, hnone scope entry hentry hexpired hrunning, List.count_nil]
  · obtain ⟨hcounted, _⟩ | ⟨_, _, entry, hentry, hexpired⟩ :=
      counted_advance (h.counters scope) choice
    · exact .inl (by rw [hcounted]; exact hmem)
    · exact .inr (hnone scope entry hentry hexpired hrunning)

end OthersKeep

-- A call that fails after the server has received it has run its script.
def LimitsChoice.runsScript (choice : LimitsChoice) : Bool :=
  choice.fault.isNone || choice.executed

def concurrencyProtocol (policy : RuntimeLimitPolicy) : Protocol (LimitsState.system policy) where
  inv := ConcurrencyInvariant policy
  rely := OthersKeep
  fresh t s := s.endedAtMs t = none
  admits t c choice s := ∀ key, c = .evalRelease key → choice.runsScript → ReleasesOwnCount t key s
  admitsEnv choice s := ExpiresUnused policy choice.elapsedMs s
  rely_refl := OthersKeep.refl
  rely_trans := OthersKeep.trans
  fresh_rely hfresh hrely := hrely.ended.trans hfresh
  env_keeps := by
    intro choice s s' hinv hunused henv
    cases henv
    exact ⟨hinv.advance hunused, OthersKeep.advance hinv hunused⟩

section Calls

variable {policy : RuntimeLimitPolicy} {t : Nat} {s : LimitsState} {acquired : List String}

-- `check_and_acquire` in progress: each key it holds is counted for it.
structure Acquired (t : Nat) (acquired : List String) (s : LimitsState) : Prop where
  running : s.endedAtMs t = none
  keys : ∀ key ∈ acquired, ∃ scope, key = concurrencyCounterKey scope
  counted : ∀ scope, acquired.count (concurrencyCounterKey scope) ≤
    (s.counted (concurrencyCounterKey scope)).count (t, true)

-- The last increment of the scope was one too many.
structure Denied (t : Nat) (scope : LimitScope) (acquired : List String) (s : LimitsState) :
    Prop where
  acquired : Acquired t acquired s
  denied : (t, false) ∈ s.counted (concurrencyCounterKey scope) ∨
    (s.counted (concurrencyCounterKey scope)).count (t, true) = 0

theorem Acquired.of_counted {s' : LimitsState} (h : Acquired t acquired s)
    (hended : s'.endedAtMs t = s.endedAtMs t)
    (hcounted : ∀ scope, (s.counted (concurrencyCounterKey scope)).count (t, true) ≤
      (s'.counted (concurrencyCounterKey scope)).count (t, true)) : Acquired t acquired s' :=
  ⟨hended.trans h.running, h.keys, fun scope => Nat.le_trans (h.counted scope) (hcounted scope)⟩

theorem Acquired.stable : (concurrencyProtocol policy).Stable t (Acquired t acquired) := by
  intro s s' h hrely _
  have hrely : OthersKeep t s s' := hrely
  exact h.of_counted hrely.ended fun scope => Nat.le_of_eq (hrely.granted h.running scope).symm

theorem Denied.stable {scope : LimitScope} :
    (concurrencyProtocol policy).Stable t (Denied t scope acquired) := by
  intro s s' h hrely hinv
  refine ⟨Acquired.stable h.acquired hrely hinv, ?_⟩
  have hrely : OthersKeep t s s' := hrely
  rw [hrely.granted h.acquired.running scope]
  exact h.denied.elim (hrely.denied h.acquired.running scope) .inr

theorem ended_stable (endedAtMs : Option Nat) :
    (concurrencyProtocol policy).Stable t fun s => s.endedAtMs t = endedAtMs := by
  intro s s' h hrely _
  have hrely : OthersKeep t s s' := hrely
  exact hrely.ended.trans h

theorem limitsReply_cases {α : Type} {choice : LimitsChoice} {value : α} {s s' s'' : LimitsState}
    {response : Except String α} (h : LimitsState.reply choice value s s' = (response, s'')) :
    (choice.fault = none ∧ response = .ok value ∧ s'' = s') ∨
    (∃ error, response = .error error ∧ (s'' = s ∨ choice.runsScript = true ∧ s'' = s')) := by
  rw [LimitsState.reply] at h
  cases hfault : choice.fault with
  | none =>
      simp only [hfault, Prod.mk.injEq] at h
      exact .inl ⟨rfl, h.1.symm, h.2.symm⟩
  | some error =>
      simp only [hfault, Prod.mk.injEq] at h
      refine .inr ⟨error, h.1.symm, ?_⟩
      by_cases hexecuted : choice.executed
      · exact .inr ⟨by simp [LimitsChoice.runsScript, hexecuted], by rw [← h.2, if_pos hexecuted]⟩
      · exact .inl (by rw [← h.2, if_neg hexecuted])

theorem keeps_self (hinv : ConcurrencyInvariant policy s) :
    (concurrencyProtocol policy).Keeps t s s := ⟨hinv, fun u _ => OthersKeep.refl u s⟩

theorem getConnection_spec {property : LimitsState → Prop}
    (hstable : (concurrencyProtocol policy).Stable t property) (h : property s) :
    (concurrencyProtocol policy).ewp t getConnection (fun _ => property)
      (fun _ s => True ∧ property s ∧ True) s := by
  refine Protocol.ewp_atomic hstable (fun _ => hstable)
    (fun _ _ _ hs hrely hinv => ⟨trivial, hstable hs.2.1 hrely hinv, trivial⟩) ?_ h
  intro s choice response s' hinv hs _ hexec
  have hreply : reply choice () s s = (response, s') := Option.some.inj hexec
  obtain ⟨_, rfl, rfl⟩ | ⟨error, rfl, rfl | ⟨_, rfl⟩⟩ := limitsReply_cases hreply
  · exact ⟨keeps_self hinv, hs⟩
  · exact ⟨keeps_self hinv, trivial, hs, trivial⟩
  · exact ⟨keeps_self hinv, trivial, hs, trivial⟩

-- The script of an increment either ran, with a count that the caller may not get to see, or
-- changed nothing.
theorem evalIncrement_cases {key : String} {ttlSeconds : UInt32} {amount : UInt64}
    {choice : LimitsChoice} {response : Except String Int} {s' : LimitsState}
    (h : exec policy t (.evalIncrement key ttlSeconds amount) choice s = (response, s')) :
    (∃ error, response = .error error ∧ s' = s) ∨
    ∃ count server, s.server.evalIncrement key amount ttlSeconds.toNat = .ok (count, server) ∧
      s' = s.increment server t key (count ≤ policy.concurrentRequests.toNat) ∧
      (response = .ok count ∨ ∃ error, response = .error error) := by
  simp only [exec] at h
  split at h
  · cases h
    exact .inl ⟨_, rfl, rfl⟩
  · rename_i count server hincr
    obtain ⟨_, hresponse, hstate⟩ | ⟨error, hresponse, hstate | ⟨_, hstate⟩⟩ := limitsReply_cases h
    · exact .inr ⟨count, server, hincr, hstate, .inl hresponse⟩
    · exact .inl ⟨error, hresponse, hstate⟩
    · exact .inr ⟨count, server, hincr, hstate, .inr ⟨error, hresponse⟩⟩

theorem Acquired.increment {key : String} {server : RedisServer} {granted : Bool}
    (h : Acquired t acquired s) : Acquired t acquired (s.increment server t key granted) := by
  refine h.of_counted rfl fun scope => ?_
  by_cases hkey : concurrencyCounterKey scope = key
  · subst hkey
    simp [LimitsState.increment, List.count_append]
  · simp [LimitsState.increment, hkey]

theorem keeps_increment {key : String} {amount : UInt64} {ttlSeconds : Nat} {count : Int}
    {server : RedisServer} (hinv : ConcurrencyInvariant policy s)
    (hincr : s.server.evalIncrement key amount ttlSeconds = .ok (count, server))
    (hamount : ∀ scope, key = concurrencyCounterKey scope → amount = 1) :
    (concurrencyProtocol policy).Keeps t s
      (s.increment server t key (count ≤ policy.concurrentRequests.toNat)) :=
  ⟨hinv.increment hincr hamount, fun _ hne => OthersKeep.increment hne _ _ _⟩

theorem incrementWindowCounter_spec {key : String} {ttlSeconds : UInt32} {amount : UInt64}
    (hkey : ∀ scope, concurrencyCounterKey scope ≠ key) (h : Acquired t acquired s) :
    (concurrencyProtocol policy).ewp t (incrementWindowCounter key ttlSeconds amount)
      (fun _ => Acquired t acquired) (fun _ => Acquired t acquired) s := by
  refine Protocol.ewp_atomic Acquired.stable (fun _ => Acquired.stable)
    (fun _ => Acquired.stable) ?_ h
  intro s choice response s' hinv hs _ hexec
  have houtcome : ∀ s'', Acquired t acquired s'' → Protocol.outcome (fun _ => Acquired t acquired)
      (fun _ => Acquired t acquired) (countOf response) s'' := by
    intro s'' hs''
    cases countOf response <;> exact hs''
  obtain ⟨error, _, rfl⟩ | ⟨count, server, hincr, rfl, _⟩ :=
    evalIncrement_cases (Option.some.inj hexec)
  · exact ⟨keeps_self hinv, houtcome _ hs⟩
  · exact ⟨keeps_increment hinv hincr fun scope heq => absurd heq.symm (hkey scope),
      houtcome _ hs.increment⟩

-- The increment of the counter of a scope, as `acquire_concurrency_lease` sees its count.
def Counted (policy : RuntimeLimitPolicy) (t : Nat) (scope : LimitScope) (acquired : List String)
    (count : UInt64) (s : LimitsState) : Prop :=
  if count > policy.concurrentRequests.toUInt64 then Denied t scope acquired s
  else Acquired t (acquired ++ [concurrencyCounterKey scope]) s

theorem Counted.stable {scope : LimitScope} {count : UInt64} :
    (concurrencyProtocol policy).Stable t (Counted policy t scope acquired count) := by
  intro s s' h hrely hinv
  rw [Counted] at h ⊢
  split
  · rename_i hover
    exact Denied.stable (by simpa [hover] using h) hrely hinv
  · rename_i hroom
    exact Acquired.stable (by simpa [hroom] using h) hrely hinv

theorem Counted.increment {scope : LimitScope} {server : RedisServer} {count : Int}
    (h : Acquired t acquired s) (hnonneg : 0 ≤ count) (hfits : count < 2 ^ 63) :
    Counted policy t scope acquired (UInt64.ofNat count.toNat)
      (s.increment server t (concurrencyCounterKey scope)
        (count ≤ policy.concurrentRequests.toNat)) := by
  have hbound : count.toNat < UInt64.size := by
    rw [UInt64.size]
    omega
  have hcount : (UInt64.ofNat count.toNat).toNat = count.toNat := UInt64.toNat_ofNat_of_lt' hbound
  rw [Counted]
  split
  · rename_i hover
    have hover : policy.concurrentRequests.toNat < count.toNat := by
      simpa [hcount, UInt64.lt_iff_toNat_lt] using hover
    refine ⟨h.increment, .inl ?_⟩
    have hdenied : ¬count ≤ policy.concurrentRequests.toNat := by omega
    simp [LimitsState.increment, hdenied]
  · rename_i hroom
    have hroom : count.toNat ≤ policy.concurrentRequests.toNat := by
      simpa [hcount, UInt64.lt_iff_toNat_lt] using hroom
    have hgranted : count ≤ policy.concurrentRequests.toNat := by omega
    refine ⟨h.running, ?_, fun scope' => ?_⟩
    · intro key hkey
      obtain hkey | hkey := List.mem_append.mp hkey
      · exact h.keys key hkey
      · exact ⟨scope, List.mem_singleton.mp hkey⟩
    · have hcounted := h.counted scope'
      by_cases hkey : concurrencyCounterKey scope' = concurrencyCounterKey scope
      · simp only [hkey] at hcounted ⊢
        simp only [LimitsState.increment, Function.update_self, List.count_append, hgranted,
          decide_true, List.count_singleton_self]
        omega
      · rw [List.count_append, List.count_singleton, if_neg (by simpa using Ne.symm hkey)]
        simpa [LimitsState.increment, hkey] using hcounted

theorem incrementConcurrencyCounter_spec {scope : LimitScope} (h : Acquired t acquired s) :
    (concurrencyProtocol policy).ewp t
      (incrementWindowCounter (concurrencyCounterKey scope) policy.leaseSeconds 1)
      (Counted policy t scope acquired) (fun _ => Acquired t acquired) s := by
  have hstable : ∀ count,
      (concurrencyProtocol policy).Stable t (Counted policy t scope acquired count) :=
    fun _ => Counted.stable
  refine Protocol.ewp_atomic Acquired.stable hstable (fun _ => Acquired.stable) ?_ h
  intro s choice response s' hinv hs _ hexec
  obtain ⟨error, rfl, rfl⟩ | ⟨count, server, hincr, rfl, hresponse⟩ :=
    evalIncrement_cases (Option.some.inj hexec)
  · exact ⟨keeps_self hinv, hs⟩
  · refine ⟨keeps_increment hinv hincr fun _ _ => rfl, ?_⟩
    obtain ⟨hvalue', hcount, _⟩ := evalIncrement_value hincr
    have hvalue := (hinv.counters scope).value
    have hfits : count < 2 ^ 63 := by
      rw [hcount]
      exact RedisServer.integerReply_lt
    obtain rfl | ⟨error, rfl⟩ := hresponse
    · have hnonneg : 0 ≤ count := by
        rw [hcount]
        exact RedisServer.integerReply_nonneg (by omega)
      rw [countOf, if_pos hnonneg]
      exact Counted.increment hs hnonneg hfits
    · exact hs.increment

-- A release keeps the invariant whatever its thread is doing.
theorem evalRelease_keeps {key : String} {choice : LimitsChoice} {response : Except String Int}
    {s' : LimitsState} (hinv : ConcurrencyInvariant policy s)
    (hown : choice.runsScript → ReleasesOwnCount t key s)
    (hexec : exec policy t (.evalRelease key) choice s = (response, s')) :
    (concurrencyProtocol policy).Keeps t s s' ∧
      (s' = s ∨ ReleasesOwnCount t key s ∧
        s' = s.release (s.server.evalRelease key).2 t key) := by
  have hkeeps : ReleasesOwnCount t key s → (concurrencyProtocol policy).Keeps t s
      (s.release (s.server.evalRelease key).2 t key) :=
    fun hown => ⟨hinv.release hown, fun u hne => OthersKeep.release hinv hne hown⟩
  obtain ⟨hfault, _, rfl⟩ | ⟨error, _, rfl | ⟨hruns, rfl⟩⟩ := limitsReply_cases hexec
  · have hown := hown (by simp [LimitsChoice.runsScript, hfault])
    exact ⟨hkeeps hown, .inr ⟨hown, rfl⟩⟩
  · exact ⟨keeps_self hinv, .inl rfl⟩
  · exact ⟨hkeeps (hown hruns), .inr ⟨hown hruns, rfl⟩⟩

-- Giving back one of the keys that a call holds leaves the others counted for it.
theorem releaseKey_spec {key : String} (h : Acquired t (key :: acquired) s) :
    (concurrencyProtocol policy).ewp t (releaseKey key) (fun _ => Acquired t acquired)
      (fun _ => Acquired t acquired) s := by
  refine Protocol.ewp_atomic Acquired.stable (fun _ => Acquired.stable)
    (fun _ => Acquired.stable) ?_ h
  intro s choice response s' hinv hs hadmits hexec
  obtain ⟨hkeeps, hstate⟩ := evalRelease_keeps hinv (hadmits key rfl) (Option.some.inj hexec)
  have hleft : ∀ key' ∈ acquired, ∃ scope, key' = concurrencyCounterKey scope :=
    fun key' hkey => hs.keys key' (List.mem_cons_of_mem _ hkey)
  have hacquired : Acquired t acquired s' := by
    obtain rfl | ⟨hown, rfl⟩ := hstate
    · exact ⟨hs.running, hleft, fun scope =>
        Nat.le_trans (List.count_le_count_cons) (hs.counted scope)⟩
    · refine ⟨hs.running, hleft, fun scope => ?_⟩
      have hcounted := hs.counted scope
      by_cases hkey : concurrencyCounterKey scope = key
      · subst hkey
        have hless := @count_le_count_uncount_succ t (s.counted (concurrencyCounterKey scope))
        rw [(counted_release (hinv.counters scope) hown).1]
        rw [List.count_cons_self] at hcounted
        omega
      · rw [counted_release_of_ne hkey]
        rwa [List.count_cons_of_ne (Ne.symm hkey)] at hcounted
  refine ⟨hkeeps, ?_⟩
  cases response <;> exact hacquired

theorem releaseReturned_spec {key : String} {endedAtMs : Option Nat}
    (h : s.endedAtMs t = endedAtMs) :
    (concurrencyProtocol policy).ewp t (releaseKey key) (fun _ s => s.endedAtMs t = endedAtMs)
      (fun _ s => s.endedAtMs t = endedAtMs) s := by
  refine Protocol.ewp_atomic (ended_stable endedAtMs) (fun _ => ended_stable endedAtMs)
    (fun _ => ended_stable endedAtMs) ?_ h
  intro s choice response s' hinv hs hadmits hexec
  obtain ⟨hkeeps, hstate⟩ := evalRelease_keeps hinv (hadmits key rfl) (Option.some.inj hexec)
  have hended : s'.endedAtMs t = endedAtMs := by
    obtain rfl | ⟨_, rfl⟩ := hstate <;> exact hs
  refine ⟨hkeeps, ?_⟩
  cases response <;> exact hended

theorem releaseDenied_spec {scope : LimitScope} (h : Denied t scope acquired s) :
    (concurrencyProtocol policy).ewp t (releaseKey (concurrencyCounterKey scope))
      (fun _ => Acquired t acquired) (fun _ => Acquired t acquired) s := by
  refine Protocol.ewp_atomic Denied.stable (fun _ => Acquired.stable)
    (fun _ => Acquired.stable) ?_ h
  intro s choice response s' hinv hs hadmits hexec
  obtain ⟨hkeeps, hstate⟩ := evalRelease_keeps hinv (hadmits _ rfl) (Option.some.inj hexec)
  have hacquired : Acquired t acquired s' := by
    obtain rfl | ⟨hown, rfl⟩ := hstate
    · exact hs.acquired
    · refine hs.acquired.of_counted rfl fun scope' => ?_
      by_cases hkey : concurrencyCounterKey scope' = concurrencyCounterKey scope
      · rw [hkey, (counted_release (hinv.counters scope) hown).1]
        exact Nat.le_of_eq (count_uncount_of_denied hs.denied).symm
      · exact Nat.le_of_eq (congrArg _ (counted_release_of_ne hkey _)).symm
  refine ⟨hkeeps, ?_⟩
  cases response <;> exact hacquired

theorem acquireConcurrencyLease_spec (scope : LimitScope) (h : Acquired t acquired s) :
    (concurrencyProtocol policy).ewp t (acquireConcurrencyLease policy scope)
      (fun key => Acquired t (acquired ++ key.toList)) (fun _ => Acquired t acquired) s := by
  rw [acquireConcurrencyLease]
  split
  · refine Protocol.ewp_pure fun s' hrely hinv => ?_
    rw [Option.toList_none, List.append_nil]
    exact Acquired.stable h hrely hinv
  · refine Protocol.ewp_seq (incrementConcurrencyCounter_spec h) (fun _ _ hfailed => hfailed)
      fun count s' _ hs' => ?_
    rw [Counted] at hs'
    split
    · rename_i hover
      rw [if_pos hover] at hs'
      exact Protocol.ewp_seq (releaseDenied_spec hs') (fun _ _ hfailed => hfailed)
        fun _ s'' _ hs'' => Protocol.ewp_throw fun _ => Acquired.stable hs''
    · rename_i hroom
      rw [if_neg hroom] at hs'
      exact Protocol.ewp_pure fun _ => Acquired.stable hs'

theorem acquireSpecs (policy : RuntimeLimitPolicy) (t : Nat) :
    CallSpecs (concurrencyProtocol policy) t policy True (Acquired t) (fun _ _ => True) where
  holdsStable _ := Acquired.stable
  reportsStable _ := Protocol.stable_true
  silent _ := trivial
  overRequests _ _ := trivial
  overTokens _ _ := trivial
  connect := getConnection_spec Acquired.stable
  window _ _ _ hkey h := Protocol.ewp_mono (fun _ _ _ hs => hs)
    (fun _ _ _ hs => ⟨hs, trivial⟩) (incrementWindowCounter_spec hkey h)
  acquire scope h := Protocol.ewp_mono (fun _ _ _ hs => hs) (fun _ _ _ hs => ⟨hs, trivial⟩)
    (acquireConcurrencyLease_spec scope h)
  release _ h _ := Protocol.ewp_mono (fun _ _ _ hs => ⟨hs, trivial⟩)
    (fun _ _ _ hs => ⟨hs, trivial⟩) (releaseKey_spec h)

-- After its return a call has nothing left that has to be counted.
theorem returnedSpecs (policy : RuntimeLimitPolicy) (t : Nat) (endedAtMs : Option Nat) :
    ReleaseSpecs (concurrencyProtocol policy) t True (fun _ s => s.endedAtMs t = endedAtMs)
      (fun _ _ => True) where
  holdsStable _ := ended_stable endedAtMs
  reportsStable _ := Protocol.stable_true
  silent _ := trivial
  connect := getConnection_spec (ended_stable endedAtMs)
  release _ h _ := Protocol.ewp_mono (fun _ _ _ hs => ⟨hs, trivial⟩)
    (fun _ _ _ hs => ⟨hs, trivial⟩) (releaseReturned_spec h)

theorem Acquired.nil (h : s.endedAtMs t = none) : Acquired t [] s :=
  ⟨h, by simp, fun _ => Nat.zero_le _⟩

-- The moment at which `check_and_acquire` returns.
theorem ended_spec {result : Except AppError RuntimeLimitLease}
    (h : Protocol.outcome (fun lease => Acquired t lease.keys) (fun _ s => Acquired t [] s ∧ True)
      result s) :
    (concurrencyProtocol policy).wp t (Prog.ask (LimitsCommand.ended result))
    (fun _ _ => True) s := by
  refine Protocol.wp_ask fun s₁ hrely hinv choice response s₂ _ hexec => ⟨?_, fun _ _ _ => trivial⟩
  have hkeeps : ∀ keys, Acquired t keys s₁ →
      (concurrencyProtocol policy).Keeps t s₁ (s₁.finish t keys) := fun keys hs =>
    ⟨ConcurrencyInvariant.finish hinv hs.running hs.counted,
      fun u hne => OthersKeep.finish hne keys⟩
  cases result with
  | ok lease =>
      cases hexec
      exact hkeeps lease.keys (Acquired.stable h hrely hinv)
  | error error =>
      cases hexec
      exact hkeeps [] (Acquired.stable h.1 hrely hinv)

theorem caller_spec (request : RuntimeLimitRequest) (h : s.endedAtMs t = none) :
    (concurrencyProtocol policy).wp t (caller policy request) (fun _ _ => True) s := by
  apply Protocol.wp_bind
  refine Protocol.wp_mono (fun result s' _ hs' => ?_)
    ((acquireSpecs policy t).checkAndAcquire request (Acquired.nil h))
  apply Protocol.wp_bind
  refine Protocol.wp_mono (fun _ s'' _ _ => ?_) (ended_spec hs')
  cases result with
  | error error => exact fun _ _ _ => trivial
  | ok lease =>
      apply Protocol.wp_bind
      exact Protocol.wp_mono (fun _ _ _ _ _ _ _ => trivial)
        ((returnedSpecs policy t (s''.endedAtMs t)).releaseLease lease rfl)

end Calls

-- The steps that keep a counter in agreement with the leases it counts: a counter expires only
-- when none of them is in force, and only a call that it counts decrements it.
def CountsEveryLease (policy : RuntimeLimitPolicy) :
    Action LimitsChoice → CallerConfig → Prop
  | .spawn _, _ => True
  | .call t choice, config => ∀ key next, config.threads t = some (.call (.evalRelease key) next) →
      choice.runsScript → ReleasesOwnCount t key config.state
  | .env choice, config => ExpiresUnused policy choice.elapsedMs config.state

theorem ConcurrencyInvariant.start (policy : RuntimeLimitPolicy) :
    ConcurrencyInvariant policy .start :=
  ⟨fun _ => ⟨rfl, Nat.zero_le _, fun _ _ => Nat.zero_le _⟩,
    fun _ _ _ => by simp [LimitsState.start]⟩

theorem concurrency_bounded_of_counts_every_lease (policy : RuntimeLimitPolicy)
    (requests : Nat → RuntimeLimitRequest) (actions : List (Action LimitsChoice))
    (config : CallerConfig)
    (hrun : (LimitsState.system policy).run (fun t => caller policy (requests t)) actions
      (System.initial .start) = some config)
    (hmeets : (LimitsState.system policy).Meets (fun t => caller policy (requests t))
      (CountsEveryLease policy) actions (System.initial .start))
    (scope : LimitScope) :
    (leasesInForce policy config.state scope).length ≤ policy.concurrentRequests.toNat := by
  have hallowed : (LimitsState.system policy).Meets (fun t => caller policy (requests t))
      (concurrencyProtocol policy).Allowed actions (System.initial .start) := by
    refine System.Meets.imp _ _ (fun action config h => ?_) actions _ hmeets
    cases action with
    | spawn t => trivial
    | env choice => exact h
    | call t choice =>
        rintro c next hthread key rfl hruns
        exact h key next hthread hruns
  have hgood := Protocol.good_run (P := concurrencyProtocol policy)
    (fun t => caller policy (requests t)) (fun _ _ _ => True)
    (fun t s _ hfresh => caller_spec (requests t) hfresh) actions hrun hallowed
    (Protocol.good_initial _ (ConcurrencyInvariant.start policy) fun _ => rfl)
  exact ConcurrencyInvariant.bounded policy hgood.1 scope

def twoAtOnce : RuntimeLimitPolicy :=
  { requestsPerWindow := 0, tokensPerWindow := 0, concurrentRequests := 2, windowSeconds := 60
    leaseSeconds := 30 }

def userRequest : RuntimeLimitRequest := { scopes := [.user ⟨7⟩], estimatedPromptTokens := 0 }

-- Thread `t` connects, increments the counter of its user and returns.
def acquireSteps (t : Nat) : List (Action LimitsChoice) :=
  [.spawn t, .call t {}, .call t {}, .call t {}]

def releaseSteps (t : Nat) : List (Action LimitsChoice) := [.call t {}, .call t {}]

def wait (elapsedMs : Nat) : Action LimitsChoice := .env { elapsedMs }

theorem concurrency_bounded_after_release : ∃ config,
    (LimitsState.system twoAtOnce).run (fun _ => caller twoAtOnce userRequest)
      ([wait 1000] ++ acquireSteps 0 ++ releaseSteps 0) (System.initial .start) = some config ∧
    (leasesInForce twoAtOnce config.state (.user ⟨7⟩)).length ≤
      twoAtOnce.concurrentRequests.toNat := by
  refine ⟨_, rfl, concurrency_bounded_of_counts_every_lease twoAtOnce (fun _ => userRequest)
    ([wait 1000] ++ acquireSteps 0 ++ releaseSteps 0) _ rfl ?_ (.user ⟨7⟩)⟩
  refine System.Meets.cons (fun _ _ hentry => by cases hentry) rfl ?_
  refine System.Meets.cons trivial rfl ?_
  refine System.Meets.cons (fun _ _ h => by cases h) rfl ?_
  refine System.Meets.cons (fun _ _ h => by cases h) rfl ?_
  refine System.Meets.cons (fun _ _ h => by cases h) rfl ?_
  refine System.Meets.cons (fun _ _ h => by cases h) rfl ?_
  refine System.Meets.cons (fun key _ h _ _ => ?_) rfl trivial
  cases h
  exact ⟨true, by decide⟩

-- The counter of the first lease expires with the second one in force, and the next two start
-- from an absent counter.
theorem expired_counter_admits_three : ∃ config,
    (LimitsState.system twoAtOnce).run (fun _ => caller twoAtOnce userRequest)
      (acquireSteps 0 ++ [wait 29000] ++ acquireSteps 1 ++ [wait 2000] ++ acquireSteps 2 ++
        acquireSteps 3) (System.initial .start) = some config ∧
    ¬(leasesInForce twoAtOnce config.state (.user ⟨7⟩)).length ≤
      twoAtOnce.concurrentRequests.toNat := by
  refine ⟨_, rfl, ?_⟩
  decide

end Mizan.Limits
