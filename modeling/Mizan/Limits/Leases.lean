import Mizan.Limits.Concurrency

namespace Mizan.Limits

open Interleaving LimitsState

-- The increments of a counter that are counted for a thread.
def countedFor (t : Nat) (key : String) (s : LimitsState) : Nat :=
  (s.counted key).countP fun entry => entry.1 = t

section Uncount

variable {t u : Nat} {counted : List (Nat × Bool)}

theorem countP_uncount (h : ∃ granted, (t, granted) ∈ counted) :
    (uncount t counted).countP (fun entry => entry.1 = t) + 1 =
      counted.countP fun entry => entry.1 = t := by
  have herase : ∀ granted, (t, granted) ∈ counted →
      (counted.erase (t, granted)).countP (fun entry => entry.1 = t) + 1 =
        counted.countP fun entry => entry.1 = t := by
    intro granted hmem
    have hpos : 0 < counted.countP fun entry => entry.1 = t :=
      List.countP_pos_iff.mpr ⟨_, hmem, by simp⟩
    rw [List.countP_erase]
    simp only [hmem, decide_true, and_self, if_true]
    omega
  rw [uncount]
  split
  · rename_i hdenied
    exact herase false hdenied
  · rename_i hdenied
    obtain ⟨granted, hmem⟩ := h
    cases granted with
    | false => exact absurd hmem hdenied
    | true => exact herase true hmem

theorem countP_uncount_of_ne (hne : u ≠ t) :
    (uncount t counted).countP (fun entry => entry.1 = u) =
      counted.countP fun entry => entry.1 = u := by
  rw [uncount]
  split
  · simp [List.countP_erase, Ne.symm hne]
  · simp [List.countP_erase, Ne.symm hne]

end Uncount

-- Each counter stands for the increments that were not undone, and whose call has returned for
-- the leases that it still holds.
structure LeaseInvariant (s : LimitsState) : Prop where
  value : ∀ scope, counterValue s.server (concurrencyCounterKey scope) =
    (s.counted (concurrencyCounterKey scope)).length
  absent : ∀ scope, s.server.store (concurrencyCounterKey scope) = none ↔
    s.counted (concurrencyCounterKey scope) = []
  returned : ∀ t, s.endedAtMs t ≠ none → ∀ scope, countedFor t (concurrencyCounterKey scope) s =
    s.leases.count (t, concurrencyCounterKey scope)
  unfinished : ∀ t key, s.endedAtMs t = none → (t, key) ∉ s.leases

-- What the calls of other clients leave alone for thread `t`.
structure OwnLeases (t : Nat) (s s' : LimitsState) : Prop where
  ended : s'.endedAtMs t = s.endedAtMs t
  counted : ∀ scope, countedFor t (concurrencyCounterKey scope) s' =
    countedFor t (concurrencyCounterKey scope) s
  leases : ∀ key, s'.leases.count (t, key) = s.leases.count (t, key)

section Steps

variable {s s' : LimitsState} {t u : Nat} {key : String}

theorem OwnLeases.refl (t : Nat) (s : LimitsState) : OwnLeases t s s :=
  ⟨rfl, fun _ => rfl, fun _ => rfl⟩

theorem OwnLeases.trans {s'' : LimitsState} (h : OwnLeases t s s') (h' : OwnLeases t s' s'') :
    OwnLeases t s s'' :=
  ⟨h'.ended.trans h.ended, fun scope => (h'.counted scope).trans (h.counted scope),
    fun key => (h'.leases key).trans (h.leases key)⟩

theorem evalIncrement_isSome {amount : UInt64} {ttlSeconds : Nat} {count : Int}
    {server server' : RedisServer}
    (h : server.evalIncrement key amount ttlSeconds = .ok (count, server')) :
    server'.store key ≠ none := by
  simp only [RedisServer.evalIncrement, RedisServer.incrby] at h
  split at h
  · cases h
  · rename_i current middle hincr
    split at hincr
    · cases hincr
    · split at hincr
      · cases hincr
      · cases hincr
        cases h
        split <;> simp [RedisServer.expire, RedisServer.set]

theorem countedFor_increment (server : RedisServer) (granted : Bool) (u : Nat) (key' : String) :
    countedFor u key' (s.increment server t key granted) =
      countedFor u key' s + if u = t ∧ key' = key then 1 else 0 := by
  by_cases hkey : key' = key
  · subst hkey
    simp [countedFor, LimitsState.increment, List.countP_append, List.countP_singleton, eq_comm]
  · simp [countedFor, LimitsState.increment, hkey]

theorem LeaseInvariant.increment (h : LeaseInvariant s) {amount : UInt64} {ttlSeconds : Nat}
    {count : Int} {server : RedisServer} {granted : Bool} (hrunning : s.endedAtMs t = none)
    (hincr : s.server.evalIncrement key amount ttlSeconds = .ok (count, server))
    (hamount : ∀ scope, key = concurrencyCounterKey scope → amount = 1) :
    LeaseInvariant (s.increment server t key granted) := by
  obtain ⟨hvalue', -, -, hothers⟩ := evalIncrement_value hincr
  refine ⟨fun scope => ?_, fun scope => ?_, fun u hended scope => ?_, h.unfinished⟩
  · have hvalue := h.value scope
    by_cases hkey : concurrencyCounterKey scope = key
    · subst hkey
      have hone : amount.toNat = 1 := by rw [hamount scope rfl]; rfl
      simp only [LimitsState.increment, Function.update_self, List.length_append,
        List.length_singleton, hvalue']
      omega
    · simpa [LimitsState.increment, hkey, counterValue, hothers _ hkey] using hvalue
  · by_cases hkey : concurrencyCounterKey scope = key
    · subst hkey
      simp [LimitsState.increment, evalIncrement_isSome hincr]
    · simpa [LimitsState.increment, hkey, hothers _ hkey] using h.absent scope
  · have hne : u ≠ t := by
      rintro rfl
      exact hended hrunning
    rw [countedFor_increment, if_neg fun h => hne h.1]
    exact h.returned u hended scope

theorem OwnLeases.increment (hne : u ≠ t) (server : RedisServer) (granted : Bool) :
    OwnLeases u s (s.increment server t key granted) := by
  refine ⟨rfl, fun scope => ?_, fun _ => rfl⟩
  rw [countedFor_increment]
  simp [hne]

-- A counter that a thread decrements counts an increment of this thread.
theorem exists_of_countedFor (h : 0 < countedFor t key s) :
    ∃ granted, (t, granted) ∈ s.counted key := by
  obtain ⟨⟨u, granted⟩, hmem, hown⟩ := List.countP_pos_iff.mp h
  obtain rfl : u = t := by simpa using hown
  exact ⟨granted, hmem⟩

theorem release_counted (h : LeaseInvariant s) {scope : LimitScope}
    (hown : 0 < countedFor t (concurrencyCounterKey scope) s) :
    (s.release (s.server.evalRelease (concurrencyCounterKey scope)).2 t
        (concurrencyCounterKey scope)).counted (concurrencyCounterKey scope) =
      uncount t (s.counted (concurrencyCounterKey scope)) ∧
    counterValue (s.server.evalRelease (concurrencyCounterKey scope)).2
        (concurrencyCounterKey scope) =
      (uncount t (s.counted (concurrencyCounterKey scope))).length ∧
    ((s.server.evalRelease (concurrencyCounterKey scope)).2.store (concurrencyCounterKey scope) =
      none ↔ uncount t (s.counted (concurrencyCounterKey scope)) = []) := by
  have hlength := length_uncount (exists_of_countedFor hown)
  have hvalue := h.value scope
  rw [counterValue] at hvalue
  cases hentry : s.server.store (concurrencyCounterKey scope) with
  | none =>
      have hnil := (h.absent scope).mp hentry
      simp [hnil] at hlength
  | some entry =>
      simp only [hentry, Option.getD_some] at hvalue
      by_cases hlast : entry.value - 1 ≤ 0
      · have hnil : uncount t (s.counted (concurrencyCounterKey scope)) = [] :=
          List.eq_nil_of_length_eq_zero (by omega)
        simp [LimitsState.release, RedisServer.evalRelease, RedisServer.set, hentry, hlast, hnil,
          counterValue]
      · have hne : uncount t (s.counted (concurrencyCounterKey scope)) ≠ [] := by
          intro hnil
          rw [hnil] at hlength
          simp only [List.length_nil] at hlength
          omega
        simp only [LimitsState.release, RedisServer.evalRelease, RedisServer.set, hentry,
          RedisServer.luaNumber_nonpos_iff, hlast, counterValue, if_false, Function.update_self,
          Option.isNone_some, Option.getD_some, Bool.false_eq_true, true_and, reduceCtorEq,
          false_iff]
        exact ⟨by omega, hne⟩

theorem countedFor_release (h : LeaseInvariant s) {scope : LimitScope}
    (hown : 0 < countedFor t (concurrencyCounterKey scope) s) (u : Nat) (scope' : LimitScope) :
    countedFor u (concurrencyCounterKey scope') (s.release
        (s.server.evalRelease (concurrencyCounterKey scope)).2 t (concurrencyCounterKey scope)) +
      (if u = t ∧ concurrencyCounterKey scope' = concurrencyCounterKey scope then 1 else 0) =
      countedFor u (concurrencyCounterKey scope') s := by
  by_cases hkey : concurrencyCounterKey scope' = concurrencyCounterKey scope
  · rw [hkey, countedFor, (release_counted h hown).1]
    by_cases hthread : u = t
    · subst hthread
      simpa [countedFor] using countP_uncount (exists_of_countedFor hown)
    · simpa [hthread, countedFor] using countP_uncount_of_ne hthread
  · simp [hkey, countedFor, counted_release_of_ne]

theorem count_release (server : RedisServer) (u : Nat) (key' : String) :
    (s.release server t key).leases.count (u, key') =
      s.leases.count (u, key') - if u = t ∧ key' = key then 1 else 0 := by
  simp only [LimitsState.release, List.count_erase, Prod.mk.injEq, beq_iff_eq]
  simp [eq_comm]

theorem LeaseInvariant.release (h : LeaseInvariant s) {scope : LimitScope}
    (hown : 0 < countedFor t (concurrencyCounterKey scope) s) :
    LeaseInvariant (s.release (s.server.evalRelease (concurrencyCounterKey scope)).2 t
      (concurrencyCounterKey scope)) := by
  obtain ⟨hcounted, hvalue, habsent⟩ := release_counted h hown
  refine ⟨fun scope' => ?_, fun scope' => ?_, fun u hended scope' => ?_,
    fun u key' hended hmem => ?_⟩
  · by_cases hkey : concurrencyCounterKey scope' = concurrencyCounterKey scope
    · rw [hkey, hcounted]
      exact hvalue
    · rw [counted_release_of_ne hkey, counterValue]
      simpa [LimitsState.release, evalRelease_store _ hkey, counterValue] using h.value scope'
  · by_cases hkey : concurrencyCounterKey scope' = concurrencyCounterKey scope
    · rw [hkey, hcounted]
      exact habsent
    · rw [counted_release_of_ne hkey]
      simpa [LimitsState.release, evalRelease_store _ hkey] using h.absent scope'
  · have hbefore := h.returned u hended scope'
    have hafter := countedFor_release h hown u scope'
    rw [count_release]
    omega
  · exact h.unfinished u key' hended (List.mem_of_mem_erase hmem)

theorem OwnLeases.release (h : LeaseInvariant s) {scope : LimitScope}
    (hown : 0 < countedFor t (concurrencyCounterKey scope) s) (hne : u ≠ t) :
    OwnLeases u s (s.release (s.server.evalRelease (concurrencyCounterKey scope)).2 t
      (concurrencyCounterKey scope)) := by
  refine ⟨rfl, fun scope' => ?_, fun key' => ?_⟩
  · simpa [hne] using countedFor_release h hown u scope'
  · simp [count_release, hne]

end Steps

section Steps

variable {s s' : LimitsState} {t u : Nat}

theorem LeaseInvariant.finish (h : LeaseInvariant s) {keys : List String}
    (hrunning : s.endedAtMs t = none)
    (hkeys : ∀ scope, countedFor t (concurrencyCounterKey scope) s =
      keys.count (concurrencyCounterKey scope)) : LeaseInvariant (s.finish t keys) := by
  have hcount : ∀ u key, (s.finish t keys).leases.count (u, key) =
      s.leases.count (u, key) + if u = t then keys.count key else 0 := by
    intro u key
    simp only [LimitsState.finish, List.count_append]
    by_cases hthread : u = t
    · subst hthread
      rw [if_pos rfl, List.count_map_of_injective keys (fun key => (u, key))
        fun _ _ hpair => (Prod.mk.inj hpair).2]
    · have hnone : (keys.map fun key => (t, key)).count (u, key) = 0 :=
        List.count_eq_zero_of_not_mem (by simp [Ne.symm hthread])
      rw [if_neg hthread, hnone]
  refine ⟨h.value, h.absent, fun u hended scope => ?_, fun u key hended => ?_⟩
  · have hsame : countedFor u (concurrencyCounterKey scope) (s.finish t keys) =
        countedFor u (concurrencyCounterKey scope) s := rfl
    rw [hcount, hsame]
    by_cases hthread : u = t
    · subst hthread
      rw [hkeys, if_pos rfl, List.count_eq_zero_of_not_mem (h.unfinished u _ hrunning),
        Nat.zero_add]
    · rw [if_neg hthread, Nat.add_zero]
      apply h.returned u
      simpa [LimitsState.finish, hthread] using hended
  · have hthread : u ≠ t := by
      rintro rfl
      simp [LimitsState.finish] at hended
    simp only [LimitsState.finish, Function.update_of_ne hthread] at hended
    simp [LimitsState.finish, h.unfinished u key hended, Ne.symm hthread]

theorem OwnLeases.finish (hne : u ≠ t) (keys : List String) : OwnLeases u s (s.finish t keys) := by
  refine ⟨by simp [LimitsState.finish, hne], fun _ => rfl, fun key => ?_⟩
  have hnone : (keys.map fun key => (t, key)).count (u, key) = 0 :=
    List.count_eq_zero_of_not_mem (by simp [Ne.symm hne])
  rw [LimitsState.finish, List.count_append, hnone, Nat.add_zero]

theorem advance_store {choice : LimitsChoice} (h : KeysLive choice.elapsedMs s.server)
    (key : String) : (s.advance choice).server.store key = s.server.store key :=
  congrFun (advance_of_keysLive h) key

theorem advance_counted (hinv : LeaseInvariant s) {choice : LimitsChoice}
    (h : KeysLive choice.elapsedMs s.server) (scope : LimitScope) :
    (s.advance choice).counted (concurrencyCounterKey scope) =
      s.counted (concurrencyCounterKey scope) := by
  have hstore := advance_store h (concurrencyCounterKey scope)
  simp only [LimitsState.advance] at hstore ⊢
  rw [hstore]
  split
  · rename_i hnone
    exact ((hinv.absent scope).mp (Option.isNone_iff_eq_none.mp hnone)).symm
  · rfl

theorem LeaseInvariant.advance (hinv : LeaseInvariant s) {choice : LimitsChoice}
    (h : KeysLive choice.elapsedMs s.server) : LeaseInvariant (s.advance choice) := by
  have hcounted := advance_counted hinv h
  refine ⟨fun scope => ?_, fun scope => ?_, fun u hended scope => ?_, hinv.unfinished⟩
  · rw [hcounted, counterValue, advance_store h]
    exact hinv.value scope
  · rw [hcounted, advance_store h]
    exact hinv.absent scope
  · rw [countedFor, hcounted]
    exact hinv.returned u hended scope

theorem OwnLeases.advance (hinv : LeaseInvariant s) {choice : LimitsChoice}
    (h : KeysLive choice.elapsedMs s.server) (u : Nat) : OwnLeases u s (s.advance choice) :=
  ⟨rfl, fun scope => by rw [countedFor, advance_counted hinv h, countedFor], fun _ => rfl⟩

end Steps

def leaseProtocol (policy : RuntimeLimitPolicy) : Protocol (LimitsState.system policy) where
  inv := LeaseInvariant
  rely := OwnLeases
  fresh t s := s.endedAtMs t = none ∧ ∀ scope, countedFor t (concurrencyCounterKey scope) s = 0
  admits _ _ choice _ := choice.fault = none
  admitsEnv choice s := KeysLive choice.elapsedMs s.server
  rely_refl := OwnLeases.refl
  rely_trans := OwnLeases.trans
  fresh_rely hfresh hrely := ⟨hrely.ended.trans hfresh.1,
    fun scope => (hrely.counted scope).trans (hfresh.2 scope)⟩
  env_keeps := by
    intro choice s s' hinv hlives henv
    cases henv
    exact ⟨hinv.advance hlives, OwnLeases.advance hinv hlives⟩

-- A call in progress, and a call that has returned a lease it is giving back: one increment is
-- counted for each key that is left.
structure Holds (t : Nat) (running : Bool) (keys : List String) (s : LimitsState) : Prop where
  phase : (s.endedAtMs t).isNone = running
  scopes : ∀ key ∈ keys, ∃ scope, key = concurrencyCounterKey scope
  counted : ∀ scope, countedFor t (concurrencyCounterKey scope) s =
    keys.count (concurrencyCounterKey scope)

section Calls

variable {policy : RuntimeLimitPolicy} {t : Nat} {s : LimitsState} {keys : List String}
  {running : Bool}

theorem Holds.stable : (leaseProtocol policy).Stable t (Holds t running keys) := by
  intro s s' h hrely _
  have hrely : OwnLeases t s s' := hrely
  exact ⟨by rw [hrely.ended]; exact h.phase, h.scopes,
    fun scope => (hrely.counted scope).trans (h.counted scope)⟩

theorem Holds.owns {scope : LimitScope}
    (h : Holds t running (concurrencyCounterKey scope :: keys) s) :
    0 < countedFor t (concurrencyCounterKey scope) s := by
  have hcounted := h.counted scope
  rw [List.count_cons_self] at hcounted
  omega

theorem lease_keeps_self (hinv : LeaseInvariant s) : (leaseProtocol policy).Keeps t s s :=
  ⟨hinv, fun u _ => OwnLeases.refl u s⟩

theorem reply_of_no_fault {α : Type} {choice : LimitsChoice} {value : α} {s s' s'' : LimitsState}
    {response : Except String α} (hfault : choice.fault = none)
    (h : LimitsState.reply choice value s s' = (response, s'')) :
    response = .ok value ∧ s'' = s' := by
  simp only [LimitsState.reply, hfault, Prod.mk.injEq] at h
  exact ⟨h.1.symm, h.2.symm⟩

theorem getConnection_holds (h : Holds t running keys s) :
    (leaseProtocol policy).ewp t getConnection (fun _ => Holds t running keys)
      (fun _ _ => False) s := by
  refine Protocol.ewp_atomic Holds.stable (fun _ => Holds.stable) (fun _ _ _ h _ _ => h) ?_ h
  intro s choice response s' hinv hs hfault hexec
  obtain ⟨rfl, rfl⟩ := reply_of_no_fault hfault (Option.some.inj hexec)
  exact ⟨lease_keeps_self hinv, hs⟩

-- A script that does not fail either changes the counter or refuses to.
theorem evalIncrement_outcome {key : String} {ttlSeconds : UInt32} {amount : UInt64}
    {choice : LimitsChoice} {response : Except String Int} {s' : LimitsState}
    (hfault : choice.fault = none)
    (h : exec policy t (.evalIncrement key ttlSeconds amount) choice s = (response, s')) :
    (∃ error, response = .error error ∧ s' = s) ∨
    ∃ count server, s.server.evalIncrement key amount ttlSeconds.toNat = .ok (count, server) ∧
      s' = s.increment server t key (count ≤ policy.concurrentRequests.toNat) ∧
      response = .ok count := by
  simp only [exec] at h
  split at h
  · cases h
    exact .inl ⟨_, rfl, rfl⟩
  · rename_i count server hincr
    obtain ⟨hresponse, hstate⟩ := reply_of_no_fault hfault h
    exact .inr ⟨count, server, hincr, hstate, hresponse⟩

theorem incrementWindowCounter_holds {key : String} {ttlSeconds : UInt32} {amount : UInt64}
    (hkey : ∀ scope, concurrencyCounterKey scope ≠ key) (h : Holds t true keys s) :
    (leaseProtocol policy).ewp t (incrementWindowCounter key ttlSeconds amount)
      (fun _ => Holds t true keys) (fun _ => Holds t true keys) s := by
  refine Protocol.ewp_atomic Holds.stable (fun _ => Holds.stable) (fun _ => Holds.stable) ?_ h
  intro s choice response s' hinv hs hfault hexec
  have houtcome : ∀ s'', Holds t true keys s'' → Protocol.outcome (fun _ => Holds t true keys)
      (fun _ => Holds t true keys) (countOf response) s'' := by
    intro s'' hs''
    cases countOf response <;> exact hs''
  obtain ⟨error, -, rfl⟩ | ⟨count, server, hincr, rfl, -⟩ :=
    evalIncrement_outcome hfault (Option.some.inj hexec)
  · exact ⟨lease_keeps_self hinv, houtcome _ hs⟩
  · have hrunning : s.endedAtMs t = none := Option.isNone_iff_eq_none.mp hs.phase
    refine ⟨⟨hinv.increment hrunning hincr fun scope heq => absurd heq.symm (hkey scope),
      fun u hne => OwnLeases.increment hne _ _⟩, houtcome _ ⟨hs.phase, hs.scopes, fun scope => ?_⟩⟩
    rw [countedFor_increment, if_neg fun h => hkey scope h.2]
    exact hs.counted scope

theorem incrementConcurrencyCounter_holds {scope : LimitScope} (h : Holds t true keys s) :
    (leaseProtocol policy).ewp t
      (incrementWindowCounter (concurrencyCounterKey scope) policy.leaseSeconds 1)
      (fun _ => Holds t true (concurrencyCounterKey scope :: keys)) (fun _ => Holds t true keys)
      s := by
  refine Protocol.ewp_atomic Holds.stable (fun _ => Holds.stable) (fun _ => Holds.stable) ?_ h
  intro s choice response s' hinv hs hfault hexec
  obtain ⟨error, rfl, rfl⟩ | ⟨count, server, hincr, rfl, rfl⟩ :=
    evalIncrement_outcome hfault (Option.some.inj hexec)
  · exact ⟨lease_keeps_self hinv, hs⟩
  · have hrunning : s.endedAtMs t = none := Option.isNone_iff_eq_none.mp hs.phase
    obtain ⟨hvalue', hcount, -⟩ := evalIncrement_value hincr
    have hvalue := hinv.value scope
    have hnonneg : 0 ≤ count := by
      rw [hcount]
      exact RedisServer.integerReply_nonneg (by omega)
    rw [countOf, if_pos hnonneg]
    refine ⟨⟨hinv.increment hrunning hincr fun _ _ => rfl,
      fun u hne => OwnLeases.increment hne _ _⟩, hs.phase, ?_, fun scope' => ?_⟩
    · intro key hkey
      rcases List.mem_cons.mp hkey with rfl | hkey
      · exact ⟨scope, rfl⟩
      · exact hs.scopes key hkey
    · rw [countedFor_increment, hs.counted, List.count_cons]
      by_cases hkey : concurrencyCounterKey scope' = concurrencyCounterKey scope
      · simp [hkey]
      · simp [hkey, Ne.symm hkey]

theorem releaseKey_holds {scope : LimitScope}
    (h : Holds t running (concurrencyCounterKey scope :: keys) s) :
    (leaseProtocol policy).ewp t (releaseKey (concurrencyCounterKey scope))
      (fun _ => Holds t running keys) (fun _ => Holds t running keys) s := by
  refine Protocol.ewp_atomic Holds.stable (fun _ => Holds.stable) (fun _ => Holds.stable) ?_ h
  intro s choice response s' hinv hs hfault hexec
  obtain ⟨rfl, rfl⟩ := reply_of_no_fault hfault (Option.some.inj hexec)
  refine ⟨⟨hinv.release hs.owns, fun u hne => OwnLeases.release hinv hs.owns hne⟩, hs.phase,
    fun key hkey => hs.scopes key (List.mem_cons_of_mem _ hkey), fun scope' => ?_⟩
  have hcounted := countedFor_release hinv hs.owns t scope'
  have hbefore := hs.counted scope'
  rw [List.count_cons] at hbefore
  by_cases hkey : concurrencyCounterKey scope' = concurrencyCounterKey scope
  · simp only [hkey, beq_self_eq_true, and_self, if_true] at hcounted hbefore ⊢
    omega
  · simp only [hkey, and_false, if_false, beq_iff_eq, Ne.symm hkey,
      Nat.add_zero] at hcounted hbefore
    omega

-- The order in which the keys were acquired does not matter.
theorem Holds.perm {keys' : List String} (h : Holds t running keys s) (hperm : keys.Perm keys') :
    Holds t running keys' s :=
  ⟨h.phase, fun key hkey => h.scopes key (hperm.mem_iff.mpr hkey),
    fun scope => (h.counted scope).trans (hperm.count_eq _)⟩

theorem acquireConcurrencyLease_holds (scope : LimitScope) (h : Holds t true keys s) :
    (leaseProtocol policy).ewp t (acquireConcurrencyLease policy scope)
      (fun key => Holds t true (keys ++ key.toList)) (fun _ => Holds t true keys) s := by
  rw [acquireConcurrencyLease]
  split
  · refine Protocol.ewp_pure fun s' hrely hinv => ?_
    rw [Option.toList_none, List.append_nil]
    exact Holds.stable h hrely hinv
  · refine Protocol.ewp_seq (incrementConcurrencyCounter_holds h) (fun _ _ hfailed => hfailed)
      fun count s' _ hs' => ?_
    split
    · exact Protocol.ewp_seq (releaseKey_holds hs') (fun _ _ hfailed => hfailed)
        fun _ s'' _ hs'' => Protocol.ewp_throw fun _ => Holds.stable hs''
    · have hperm : (concurrencyCounterKey scope :: keys).Perm
          (keys ++ (some (concurrencyCounterKey scope)).toList) :=
        (List.perm_append_singleton _ _).symm
      exact Protocol.ewp_pure fun _ => Holds.stable (hs'.perm hperm)

theorem releaseSpecs (policy : RuntimeLimitPolicy) (t : Nat) (running : Bool) :
    ReleaseSpecs (leaseProtocol policy) t False (Holds t running) (fun _ _ => True) where
  holdsStable _ := Holds.stable
  reportsStable _ := Protocol.stable_true
  silent _ := trivial
  connect h := Protocol.ewp_mono (fun _ _ _ hs => hs) (fun _ _ _ hfailed => hfailed.elim)
    (getConnection_holds h)
  release _ h _ := by
    obtain ⟨scope, rfl⟩ := h.scopes _ List.mem_cons_self
    exact Protocol.ewp_mono (fun _ _ _ hs => ⟨hs, trivial⟩) (fun _ _ _ hs => ⟨hs, trivial⟩)
      (releaseKey_holds h)

theorem callSpecs (policy : RuntimeLimitPolicy) (t : Nat) :
    CallSpecs (leaseProtocol policy) t policy False (Holds t true) (fun _ _ => True) where
  toReleaseSpecs := releaseSpecs policy t true
  overRequests _ _ := trivial
  overTokens _ _ := trivial
  window _ _ _ hkey h := Protocol.ewp_mono (fun _ _ _ hs => hs) (fun _ _ _ hs => ⟨hs, trivial⟩)
    (incrementWindowCounter_holds hkey h)
  acquire scope h := Protocol.ewp_mono (fun _ _ _ hs => hs) (fun _ _ _ hs => ⟨hs, trivial⟩)
    (acquireConcurrencyLease_holds scope h)

-- The moment at which `check_and_acquire` returns: its increments are now those of a lease.
theorem Holds.finish (hinv : LeaseInvariant s) (h : Holds t true keys s) :
    (leaseProtocol policy).Keeps t s (s.finish t keys) ∧ Holds t false keys (s.finish t keys) := by
  have hrunning : s.endedAtMs t = none := Option.isNone_iff_eq_none.mp h.phase
  refine ⟨⟨hinv.finish hrunning h.counted, fun u hne => OwnLeases.finish hne keys⟩, ?_, h.scopes,
    h.counted⟩
  simp [LimitsState.finish]

def leaseKeys : Except AppError RuntimeLimitLease → List String
  | .ok lease => lease.keys
  | .error _ => []

theorem ended_holds (result : Except AppError RuntimeLimitLease)
    (h : Holds t true (leaseKeys result) s) :
    (leaseProtocol policy).wp t (Prog.ask (LimitsCommand.ended result))
      (fun _ => Holds t false (leaseKeys result)) s := by
  refine Protocol.wp_ask fun s₁ hrely hinv choice response s₂ _ hexec => ?_
  have hs₁ : Holds t true (leaseKeys result) s₁ := Holds.stable h hrely hinv
  have hfinish : (leaseProtocol policy).Keeps t s₁ (s₁.finish t (leaseKeys result)) ∧
      Holds t false (leaseKeys result) (s₁.finish t (leaseKeys result)) := Holds.finish hinv hs₁
  obtain ⟨hkeeps, hholds⟩ := hfinish
  have hstate : s₂ = s₁.finish t (leaseKeys result) := by
    cases result <;> cases hexec <;> rfl
  subst hstate
  exact ⟨hkeeps, fun s' => Holds.stable hholds⟩

end Calls

theorem caller_holds {policy : RuntimeLimitPolicy} {t : Nat} {s : LimitsState}
    (request : RuntimeLimitRequest) (h : Holds t true [] s) :
    (leaseProtocol policy).wp t (caller policy request) (fun _ => Holds t false []) s := by
  apply Protocol.wp_bind
  refine Protocol.wp_mono (fun result s' _ hs' => ?_)
    ((callSpecs policy t).checkAndAcquire request h)
  have hacquired : Holds t true (leaseKeys result) s' := by
    cases result with
    | ok lease => exact hs'
    | error error => exact hs'.1
  apply Protocol.wp_bind
  refine Protocol.wp_mono (fun _ s'' _ hs'' => ?_) (ended_holds result hacquired)
  cases result with
  | error error => exact fun s₃ => Holds.stable hs''
  | ok lease =>
      apply Protocol.wp_bind
      refine Protocol.wp_mono (fun released _ _ hreleased => ?_)
        ((releaseSpecs policy t false).releaseLease lease hs'')
      cases released with
      | ok value => exact fun s₃ => Holds.stable hreleased
      | error error =>
          -- a connection does not fail here
          exact fun s₃ => Holds.stable (hreleased.elim id fun hfaulty => hfaulty.1.elim)

-- The leases of a scope that were returned and not released yet, each as often as it holds the
-- scope.
def unreleased (s : LimitsState) (scope : LimitScope) : Nat :=
  s.leases.countP fun lease => lease.2 = concurrencyCounterKey scope

structure LeasesAccounted (config : CallerConfig) : Prop where
  counters : (∀ t, config.threads t ≠ none → config.state.endedAtMs t ≠ none) → ∀ scope,
    counterValue config.state.server (concurrencyCounterKey scope) =
        unreleased config.state scope ∧
      (config.state.server.store (concurrencyCounterKey scope) = none ↔
        unreleased config.state scope = 0)
  released : ∀ t result, config.threads t = some (.ret result) → ∀ scope,
    (t, concurrencyCounterKey scope) ∉ config.state.leases
  failed : ∀ t error, config.threads t = some (.ret (.error error)) → ∀ scope,
    counterValue config.state.server (concurrencyCounterKey scope) =
      (config.state.counted (concurrencyCounterKey scope)).countP fun entry => entry.1 ≠ t

-- The increments that are counted for the threads are, thread by thread, the leases they hold.
theorem length_counted_of_countedFor {s : LimitsState} {scope : LimitScope}
    (h : ∀ t, countedFor t (concurrencyCounterKey scope) s =
      s.leases.count (t, concurrencyCounterKey scope)) :
    (s.counted (concurrencyCounterKey scope)).length = unreleased s scope := by
  have hperm : ((s.counted (concurrencyCounterKey scope)).map Prod.fst).Perm
      ((s.leases.filter fun lease => lease.2 = concurrencyCounterKey scope).map Prod.fst) := by
    rw [List.perm_iff_count]
    intro t
    have hown := h t
    rw [List.count_eq_countP, List.countP_map, List.count_eq_countP, List.countP_map,
      List.countP_filter]
    rw [countedFor, List.count_eq_countP] at hown
    refine Eq.trans ?_ (hown.trans ?_)
    · exact List.countP_congr fun entry _ => by simp
    · exact List.countP_congr fun lease _ => by simp [Prod.ext_iff]
  have hlength := hperm.length_eq
  simpa [unreleased, List.countP_eq_length_filter] using hlength

def NoExpiryNoFailure : Action LimitsChoice → CallerConfig → Prop
  | .spawn _, _ => True
  | .call _ choice, _ => choice.fault = none
  | .env choice, config => KeysLive choice.elapsedMs config.state.server

theorem LeaseInvariant.start : LeaseInvariant .start :=
  ⟨fun _ => rfl, fun _ => by simp [LimitsState.start, RedisServer.start],
    fun _ hended => absurd rfl hended, fun _ _ _ => by simp [LimitsState.start]⟩

theorem leases_accounted (policy : RuntimeLimitPolicy) (requests : Nat → RuntimeLimitRequest)
    (actions : List (Action LimitsChoice)) (config : CallerConfig)
    (hrun : (LimitsState.system policy).run (fun t => caller policy (requests t)) actions
      (System.initial .start) = some config)
    (hmeets : (LimitsState.system policy).Meets (fun t => caller policy (requests t))
      NoExpiryNoFailure actions (System.initial .start)) :
    LeasesAccounted config := by
  have hallowed : (LimitsState.system policy).Meets (fun t => caller policy (requests t))
      (leaseProtocol policy).Allowed actions (System.initial .start) := by
    refine System.Meets.imp _ _ (fun action config h => ?_) actions _ hmeets
    cases action with
    | spawn t => trivial
    | env choice => exact h
    | call t choice => exact fun c next hthread => h
  have hgood := Protocol.good_run (P := leaseProtocol policy)
    (fun t => caller policy (requests t)) (fun t _ => Holds t false [])
    (fun t s _ hfresh => caller_holds (requests t) ⟨by rw [hfresh.1]; rfl, by simp, hfresh.2⟩)
    actions hrun hallowed
    (Protocol.good_initial _ LeaseInvariant.start fun _ => ⟨rfl, fun _ => rfl⟩)
  have hinv : LeaseInvariant config.state := hgood.1
  have hreturned : ∀ t result, config.threads t = some (.ret result) →
      Holds t false [] config.state := fun t result hthread => hgood.returned hthread
  refine ⟨fun hidle scope => ?_, fun t result hthread scope => ?_, fun t error hthread scope => ?_⟩
  · have hcounted : ∀ t, countedFor t (concurrencyCounterKey scope) config.state =
        config.state.leases.count (t, concurrencyCounterKey scope) := by
      intro t
      by_cases hthread : config.threads t = none
      · obtain ⟨hrunning, hnone⟩ := hgood.2.1 t hthread
        rw [hnone scope, List.count_eq_zero_of_not_mem (hinv.unfinished t _ hrunning)]
      · exact hinv.returned t (hidle t hthread) scope
    have hlength := length_counted_of_countedFor hcounted
    refine ⟨by rw [hinv.value scope, hlength], ?_⟩
    rw [hinv.absent scope, ← hlength, List.length_eq_zero_iff]
  · have hholds := hreturned t result hthread
    have hended : config.state.endedAtMs t ≠ none := by
      intro hnone
      have hphase := hholds.phase
      simp [hnone] at hphase
    have hcount := hinv.returned t hended scope
    rw [hholds.counted scope, List.count_nil] at hcount
    exact List.count_eq_zero.mp hcount.symm
  · have hcounted := (hreturned t _ hthread).counted scope
    have hsplit := List.length_eq_countP_add_countP
      (fun entry : Nat × Bool => decide (entry.1 = t))
      (l := config.state.counted (concurrencyCounterKey scope))
    rw [List.count_nil, countedFor] at hcounted
    rw [hinv.value scope, hsplit, hcounted]
    simp

def oneAtATime : RuntimeLimitPolicy := { twoAtOnce with concurrentRequests := 1 }

def withoutFailure : Action LimitsChoice → CallerConfig → Bool
  | .spawn _, _ => true
  | .call _ choice, _ => choice.fault = none
  | .env _, _ => false

-- Thread 0 holds a lease while thread 1 is turned away, which undoes its own increment.
theorem leases_accounted_after_denial : ∃ config,
    (LimitsState.system oneAtATime).run (fun _ => caller oneAtATime userRequest)
      (acquireSteps 0 ++ acquireSteps 1 ++ [.call 1 {}]) (System.initial .start) = some config ∧
    LeasesAccounted config ∧ unreleased config.state (.user ⟨7⟩) = 1 := by
  have hrun : (((LimitsState.system oneAtATime).run (fun _ => caller oneAtATime userRequest)
      (acquireSteps 0 ++ acquireSteps 1 ++ [.call 1 {}]) (System.initial .start)).map fun config =>
        unreleased config.state (.user ⟨7⟩)) = some 1 := by decide +kernel
  obtain ⟨config, hconfig, hlease⟩ := Option.map_eq_some_iff.mp hrun
  have hmeets : (LimitsState.system oneAtATime).Meets (fun _ => caller oneAtATime userRequest)
      (fun action config => withoutFailure action config = true)
      (acquireSteps 0 ++ acquireSteps 1 ++ [.call 1 {}]) (System.initial .start) :=
    System.meets_of_checks _ _ (by decide +kernel)
  refine ⟨config, hconfig, leases_accounted oneAtATime (fun _ => userRequest) _ _ hconfig ?_,
    hlease⟩
  refine System.Meets.imp _ _ (fun action config h => ?_) _ _ hmeets
  cases action with
  | spawn t => trivial
  | call t choice =>
      have hfault : choice.fault = none := by simpa [withoutFailure] using h
      exact hfault
  | env choice => cases h

end Mizan.Limits
