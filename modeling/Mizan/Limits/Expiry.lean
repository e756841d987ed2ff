import Mizan.Interleaving.Asks
import Mizan.Limits.Concurrency
import Mizan.Limits.Lifetimes

namespace Mizan.Limits

open Interleaving RedisServer

-- The key is missing, or it counts something and expires in time.
def Expires (server : RedisServer) (key : String) (ttlSeconds : UInt32) : Prop :=
  ∀ entry, server.store key = some entry → 1 ≤ entry.value ∧
    ∃ at', entry.expiresAtMs = some at' ∧ server.nowMs ≤ at' ∧
      at' ≤ server.nowMs + ttlSeconds.toNat * 1000

-- What the calls ask of the server under the policy.
def Permitted (policy : RuntimeLimitPolicy) : LimitsCommand → Prop
  | .evalIncrement key ttlSeconds amount => amount ≠ 0 ∧
      (∀ c : RateCounter, ∀ scope, key = c.key scope → ttlSeconds = max policy.windowSeconds 1) ∧
      ∀ scope, key = concurrencyCounterKey scope →
        ttlSeconds = max policy.leaseSeconds 1 ∧ amount = 1
  | _ => True

section Commands

variable {server server' : RedisServer} {key key' : String} {amount : UInt64} {count : Int}
  {ttl ttlSeconds : UInt32}

theorem evalIncrement_store {ttlSeconds : Nat}
    (h : server.evalIncrement key amount ttlSeconds = .ok (count, server')) :
    ∃ entry, server'.store key = some entry ∧ entry.value = counterValue server key + amount.toNat ∧
      (luaNumber entry.value = luaNumber amount.toNat ∧
          entry.expiresAtMs = some (server.nowMs + ttlSeconds * 1000) ∨
        luaNumber entry.value ≠ luaNumber amount.toNat ∧
          entry.expiresAtMs = (server.store key).bind RedisEntry.expiresAtMs) := by
  simp only [RedisServer.evalIncrement, RedisServer.incrby] at h
  split at h
  · cases h
  · rename_i current middle hincr
    split at hincr
    · cases hincr
    · split at hincr
      · cases hincr
      · cases hincr
        cases h
        split
        · rename_i hcreated
          refine ⟨{ value := counterValue server key + amount.toNat
                    expiresAtMs := some (server.nowMs + ttlSeconds * 1000) }, ?_, rfl,
            .inl ⟨hcreated, rfl⟩⟩
          simp [counterValue, RedisServer.expire, RedisServer.set]
        · rename_i hcreated
          refine ⟨{ value := counterValue server key + amount.toNat
                    expiresAtMs := (server.store key).bind RedisEntry.expiresAtMs }, ?_, rfl,
            .inr ⟨hcreated, rfl⟩⟩
          cases hstore : server.store key with
          | none => simp [counterValue, RedisServer.set, hstore]
          | some entry => simp [counterValue, RedisServer.set, hstore]

theorem Expires.increment (h : Expires server key' ttl) (hamount : amount ≠ 0)
    (hsame : key' = key → ttlSeconds = ttl)
    (hok : server.evalIncrement key amount ttlSeconds.toNat = .ok (count, server')) :
    Expires server' key' ttl := by
  obtain ⟨-, -, hnow, hothers⟩ := evalIncrement_value hok
  intro entry' hentry'
  by_cases hkey : key' = key
  · have hpos : 0 < amount.toNat := by
      have hne : amount.toNat ≠ 0 := fun hzero => hamount (UInt64.toNat_inj.mp hzero)
      omega
    obtain ⟨entry, hentry, hvalue, hexpires⟩ := evalIncrement_store hok
    have httl := hsame hkey
    subst hkey
    subst httl
    have heq := Option.some.inj (hentry.symm.trans hentry')
    subst heq
    cases hstore : server.store key' with
    | none =>
        have hzero : counterValue server key' = 0 := by simp [counterValue, hstore]
        rw [hzero, Int.zero_add] at hvalue
        rcases hexpires with ⟨-, hexpires⟩ | ⟨hne, -⟩
        · exact ⟨by omega, _, hexpires, by omega, by omega⟩
        · exact absurd (by rw [hvalue]) hne
    | some before =>
        obtain ⟨hbefore, at', hat, hle, hlimit⟩ := h before hstore
        have hcounter : counterValue server key' = before.value := by simp [counterValue, hstore]
        rcases hexpires with ⟨-, hexpires⟩ | ⟨-, hexpires⟩
        · exact ⟨by omega, _, hexpires, by omega, by omega⟩
        · rw [hstore, Option.bind_some, hat] at hexpires
          exact ⟨by omega, at', hexpires, by omega, by omega⟩
  · rw [hothers key' hkey] at hentry'
    rw [hnow]
    exact h entry' hentry'

theorem evalRelease_entry {entry' : RedisEntry}
    (h : (server.evalRelease key).2.store key = some entry') :
    ∃ entry, server.store key = some entry ∧ 2 ≤ entry.value ∧
      entry' = { entry with value := entry.value - 1 } := by
  rw [RedisServer.evalRelease] at h
  cases hstore : server.store key with
  | none => simp [hstore] at h
  | some entry =>
      simp only [hstore, luaNumber_nonpos_iff] at h
      by_cases hlast : entry.value - 1 ≤ 0
      · simp [hlast, RedisServer.set] at h
      · simp only [hlast, if_false, RedisServer.set, Function.update_self, Option.some.injEq] at h
        exact ⟨entry, rfl, by omega, h.symm⟩

theorem Expires.release (h : Expires server key' ttl) :
    Expires (server.evalRelease key).2 key' ttl := by
  intro entry' hentry'
  rw [evalRelease_nowMs]
  by_cases hkey : key' = key
  · subst hkey
    obtain ⟨entry, hstore, hvalue, rfl⟩ := evalRelease_entry hentry'
    obtain ⟨-, hexpires⟩ := h entry hstore
    exact ⟨by simp only; omega, hexpires⟩
  · rw [evalRelease_store key' hkey] at hentry'
    exact h entry' hentry'

theorem advance_store_some {elapsedMs : Nat} {entry : RedisEntry}
    (h : (server.advance elapsedMs).store key = some entry) :
    server.store key = some entry ∧ expired (server.nowMs + elapsedMs) entry = false := by
  simp only [RedisServer.advance, Option.filter_eq_some_iff, Bool.not_eq_true'] at h
  exact h

theorem Expires.advance (h : Expires server key ttl) (elapsedMs : Nat) :
    Expires (server.advance elapsedMs) key ttl := by
  intro entry hentry
  obtain ⟨hstore, hexpired⟩ := advance_store_some hentry
  obtain ⟨hvalue, at', hat, -, hlimit⟩ := h entry hstore
  have hlater : server.nowMs + elapsedMs ≤ at' := by
    simpa [expired, hat] using hexpired
  have hnow : (server.advance elapsedMs).nowMs = server.nowMs + elapsedMs := rfl
  exact ⟨hvalue, at', hat, by omega, by omega⟩

end Commands

section Programs

variable {policy : RuntimeLimitPolicy}

theorem asks_window (c : RateCounter) (scope : LimitScope) {amount : UInt64} (h : amount ≠ 0) :
    (incrementWindowCounter (c.key scope) policy.windowSeconds amount).run.Asks
      (Permitted policy) := by
  apply Prog.asks_perform
  refine ⟨h, fun _ _ _ => rfl, fun scope' hkey => ?_⟩
  exact absurd hkey (c.key_ne_concurrencyCounterKey scope scope')

theorem asks_concurrency (scope : LimitScope) :
    (incrementWindowCounter (concurrencyCounterKey scope) policy.leaseSeconds 1).run.Asks
      (Permitted policy) := by
  apply Prog.asks_perform
  refine ⟨by decide, fun c scope' hkey => ?_, fun _ _ => ⟨rfl, rfl⟩⟩
  exact absurd hkey.symm (c.key_ne_concurrencyCounterKey scope' scope)

theorem asks_releaseKey (key : String) : (releaseKey key).run.Asks (Permitted policy) :=
  Prog.asks_perform trivial

theorem asks_releaseKeys (keys : List String) : (releaseKeys keys).run.Asks (Permitted policy) := by
  have hfrom : ∀ firstError, (releaseKeysFrom firstError keys).Asks (Permitted policy) := by
    induction keys with
    | nil =>
        intro firstError
        cases firstError <;> exact trivial
    | cons key keys ih =>
        intro firstError
        rw [releaseKeysFrom]
        apply Prog.asks_bind (asks_releaseKey key)
        intro result
        cases result with
        | ok value => exact ih _
        | error error => exact ih _
  exact hfrom none

theorem asks_acquireScope (tokens : UInt64) (scope : LimitScope) :
    (acquireScope policy tokens scope).run.Asks (Permitted policy) := by
  have hrequests : (checkRequestCounter policy scope).run.Asks (Permitted policy) := by
    rw [checkRequestCounter]
    split
    · exact trivial
    · apply Prog.asks_seq (asks_window .requests scope (by decide))
      intro count
      split
      · exact trivial
      · exact trivial
  have htokens : (checkTokenCounter policy scope tokens).run.Asks (Permitted policy) := by
    rw [checkTokenCounter]
    split
    · exact trivial
    · rename_i hcounted
      apply Prog.asks_seq (asks_window .tokens scope fun hzero => hcounted (.inr hzero))
      intro count
      split
      · exact trivial
      · exact trivial
  have hlease : (acquireConcurrencyLease policy scope).run.Asks (Permitted policy) := by
    rw [acquireConcurrencyLease]
    split
    · exact trivial
    · apply Prog.asks_seq (asks_concurrency scope)
      intro count
      split
      · exact Prog.asks_seq (asks_releaseKey _) fun _ => trivial
      · exact trivial
  exact Prog.asks_seq hrequests fun _ => Prog.asks_seq htokens fun _ => hlease

theorem asks_acquireScopes (tokens : UInt64) (scopes : List LimitScope) (acquired : List String) :
    (acquireScopes policy tokens scopes acquired).run.Asks (Permitted policy) := by
  induction scopes generalizing acquired with
  | nil => exact trivial
  | cons scope scopes ih =>
      rw [acquireScopes]
      apply Prog.asks_seq
      · apply Prog.asks_onError _ (asks_acquireScope tokens scope)
        exact Prog.asks_bind (asks_releaseKeys acquired) fun _ => trivial
      · exact fun key => ih _

theorem asks_caller (request : RuntimeLimitRequest) :
    (caller policy request).Asks (Permitted policy) := by
  have hconnect : (getConnection : LimitsProg Unit).run.Asks (Permitted policy) :=
    Prog.asks_perform trivial
  have hacquire : (checkAndAcquire policy request).run.Asks (Permitted policy) := by
    rw [checkAndAcquire]
    split
    · exact trivial
    · exact Prog.asks_seq hconnect fun _ => asks_acquireScopes _ _ _
  have hrelease : ∀ lease, (releaseLease lease).run.Asks (Permitted policy) := by
    intro lease
    rw [releaseLease]
    split
    · exact trivial
    · exact Prog.asks_seq hconnect fun _ => asks_releaseKeys _
  apply Prog.asks_bind hacquire
  intro result
  apply Prog.asks_bind (Prog.asks_ask trivial)
  intro _
  cases result with
  | error error => exact trivial
  | ok lease => exact Prog.asks_bind (hrelease lease) fun _ => trivial

end Programs

-- Every counter of every scope counts something and expires in time, or is missing.
structure LimitKeys (policy : RuntimeLimitPolicy) (server : RedisServer) : Prop where
  windows : ∀ c : RateCounter, ∀ scope, Expires server (c.key scope) (max policy.windowSeconds 1)
  leases : ∀ scope, Expires server (concurrencyCounterKey scope) (max policy.leaseSeconds 1)

-- The key goes on with the expiry that it had, or it is gone.
def Lapses (key : String) (server server' : RedisServer) : Prop :=
  server'.store key = none ∨ ∀ entry, server.store key = some entry →
    ∃ entry', server'.store key = some entry' ∧ entry'.expiresAtMs = entry.expiresAtMs

section Steps

variable {policy : RuntimeLimitPolicy} {server server' : RedisServer}

theorem lapses_of_eq {key : String} (h : server'.store key = server.store key) :
    Lapses key server server' :=
  .inr fun entry hentry => ⟨entry, h.trans hentry, rfl⟩

-- An increment of one does not create a counter that counts something already.
theorem lapses_increment {scope : LimitScope} {key : String} {amount : UInt64} {count : Int}
    {ttlSeconds : Nat} (hkeys : LimitKeys policy server)
    (hone : key = concurrencyCounterKey scope → amount = 1)
    (hok : server.evalIncrement key amount ttlSeconds = .ok (count, server')) :
    Lapses (concurrencyCounterKey scope) server server' := by
  by_cases hkey : key = concurrencyCounterKey scope
  · have hamount := hone hkey
    subst hkey
    subst hamount
    refine .inr fun before hstore => ?_
    obtain ⟨entry, hentry, hvalue, hexpires⟩ := evalIncrement_store hok
    have hbefore := (hkeys.leases scope before hstore).1
    have hcounter : counterValue server (concurrencyCounterKey scope) = before.value := by
      simp [counterValue, hstore]
    have hnumber : luaNumber ((1 : UInt64).toNat : Int) = 1 := luaNumber_of_lt (by decide)
    have hcreates : luaNumber entry.value ≤ 1 ↔ entry.value ≤ 1 :=
      luaNumber_le_iff (by omega) (by omega)
    rw [hcounter, UInt64.toNat_one] at hvalue
    rcases hexpires with ⟨heq, -⟩ | ⟨-, hexpires⟩
    · rw [hnumber] at heq
      omega
    · rw [hstore, Option.bind_some] at hexpires
      exact ⟨entry, hentry, hexpires⟩
  · obtain ⟨-, -, -, hothers⟩ := evalIncrement_value hok
    exact lapses_of_eq (hothers _ (Ne.symm hkey))

theorem lapses_release (scope : LimitScope) (key : String) :
    Lapses (concurrencyCounterKey scope) server (server.evalRelease key).2 := by
  by_cases hkey : concurrencyCounterKey scope = key
  · subst hkey
    cases hafter : (server.evalRelease (concurrencyCounterKey scope)).2.store
        (concurrencyCounterKey scope) with
    | none => exact .inl hafter
    | some entry' =>
        refine .inr fun entry hstore => ?_
        obtain ⟨before, hbefore, -, hentry⟩ := evalRelease_entry hafter
        have heq := Option.some.inj (hbefore.symm.trans hstore)
        subst heq
        exact ⟨entry', hafter, by rw [hentry]⟩
  · exact lapses_of_eq (evalRelease_store _ hkey)

theorem lapses_advance (key : String) (elapsedMs : Nat) :
    Lapses key server (server.advance elapsedMs) := by
  cases hafter : (server.advance elapsedMs).store key with
  | none => exact .inl hafter
  | some entry' => exact lapses_of_eq (hafter.trans (advance_store_some hafter).1.symm)

theorem LimitKeys.increment (h : LimitKeys policy server) {key : String} {ttlSeconds : UInt32}
    {amount : UInt64} {count : Int}
    (hpermitted : Permitted policy (.evalIncrement key ttlSeconds amount))
    (hok : server.evalIncrement key amount ttlSeconds.toNat = .ok (count, server')) :
    LimitKeys policy server' := by
  obtain ⟨hamount, hwindow, hlease⟩ := hpermitted
  constructor
  · exact fun c scope => (h.windows c scope).increment hamount
      (fun hkey => hwindow c scope hkey.symm) hok
  · exact fun scope => (h.leases scope).increment hamount
      (fun hkey => (hlease scope hkey.symm).1) hok

theorem LimitKeys.release (h : LimitKeys policy server) (key : String) :
    LimitKeys policy (server.evalRelease key).2 :=
  ⟨fun c scope => (h.windows c scope).release, fun scope => (h.leases scope).release⟩

theorem LimitKeys.advance (h : LimitKeys policy server) (elapsedMs : Nat) :
    LimitKeys policy (server.advance elapsedMs) :=
  ⟨fun c scope => (h.windows c scope).advance elapsedMs,
    fun scope => (h.leases scope).advance elapsedMs⟩

-- What every step does to the counters that keep the rules.
def Moves (policy : RuntimeLimitPolicy) (s s' : LimitsState) : Prop :=
  LimitKeys policy s.server → LimitKeys policy s'.server ∧
    ∀ scope, Lapses (concurrencyCounterKey scope) s.server s'.server

theorem moves_of_eq {s s' : LimitsState} (h : s'.server = s.server) : Moves policy s s' := by
  intro hkeys
  rw [h]
  exact ⟨hkeys, fun _ => lapses_of_eq rfl⟩

theorem moves_exec {t : Nat} {c : LimitsCommand} {choice : LimitsChoice} {s s' : LimitsState}
    {response : c.Response} (hpermitted : Permitted policy c)
    (hexec : (LimitsState.system policy).exec t c choice s = some (response, s')) :
    Moves policy s s' := by
  have hanswer := Option.some.inj hexec
  have hreply : ∀ {α : Type} {value : α} {s'' : LimitsState}
      {result : Except String α × LimitsState},
      Moves policy s s'' → LimitsState.reply choice value s s'' = result →
      Moves policy s result.2 := by
    intro α value s'' result hmoves heq
    subst heq
    unfold LimitsState.reply
    split
    · exact hmoves
    · simp only
      split
      · exact hmoves
      · exact moves_of_eq rfl
  cases c with
  | getConnection => exact hreply (moves_of_eq rfl) hanswer
  | evalIncrement key ttlSeconds amount =>
      simp only [LimitsState.exec] at hanswer
      split at hanswer
      · cases hanswer
        exact moves_of_eq rfl
      · rename_i count server hok
        refine hreply (fun hkeys => ⟨hkeys.increment hpermitted hok, fun scope => ?_⟩) hanswer
        exact lapses_increment hkeys (fun hkey => (hpermitted.2.2 scope hkey).2) hok
  | evalRelease key =>
      exact hreply (fun hkeys => ⟨hkeys.release key, fun scope => lapses_release scope key⟩) hanswer
  | ended result =>
      cases result with
      | ok lease =>
          cases hanswer
          exact moves_of_eq rfl
      | error error =>
          cases hanswer
          exact moves_of_eq rfl

end Steps

section Runs

variable {policy : RuntimeLimitPolicy} {requests : Nat → RuntimeLimitRequest}

theorem step_moves {action : Action LimitsChoice} {config config' : CallerConfig}
    (hobeys : config.Obeys (Permitted policy))
    (hstep : (LimitsState.system policy).step (fun t => caller policy (requests t)) action config =
      some config') :
    Moves policy config.state config'.state ∧ config'.Obeys (Permitted policy) := by
  constructor
  · refine step_of_obeys (fun s => moves_of_eq rfl)
      (fun t c x s response s' hpermitted hexec => moves_exec hpermitted hexec)
      (fun choice s s' henv => ?_) hobeys hstep
    cases henv
    exact fun hkeys => ⟨hkeys.advance _, fun scope => lapses_advance _ _⟩
  · exact obeys_step (fun t => asks_caller (requests t)) hobeys hstep

theorem run_keeps {actions : List (Action LimitsChoice)} {config config' : CallerConfig}
    (hkeys : LimitKeys policy config.state.server) (hobeys : config.Obeys (Permitted policy))
    (hrun : (LimitsState.system policy).run (fun t => caller policy (requests t)) actions config =
      some config') :
    LimitKeys policy config'.state.server ∧ config'.Obeys (Permitted policy) := by
  induction actions generalizing config with
  | nil =>
      cases hrun
      exact ⟨hkeys, hobeys⟩
  | cons action actions ih =>
      obtain ⟨middle, hstep, hrest⟩ := Option.bind_eq_some_iff.mp hrun
      obtain ⟨hmoves, hmiddle⟩ := step_moves hobeys hstep
      exact ih (hmoves hkeys).1 hmiddle hrest

-- A run that passes the expiry of a counter of leases passes a moment without the counter.
theorem run_lapses {actions : List (Action LimitsChoice)} {config config' : CallerConfig}
    {scope : LimitScope} {entry : RedisEntry} {at' : Nat}
    (hkeys : LimitKeys policy config.state.server) (hobeys : config.Obeys (Permitted policy))
    (hrun : (LimitsState.system policy).run (fun t => caller policy (requests t)) actions config =
      some config')
    (hentry : config.state.server.store (concurrencyCounterKey scope) = some entry)
    (hexpires : entry.expiresAtMs = some at') (hpast : at' < config'.state.server.nowMs) :
    ∃ before after middle, actions = before ++ after ∧
      (LimitsState.system policy).run (fun t => caller policy (requests t)) before config =
        some middle ∧
      middle.state.server.store (concurrencyCounterKey scope) = none := by
  induction actions generalizing config entry with
  | nil =>
      cases hrun
      obtain ⟨-, at'', hat, hle, -⟩ := hkeys.leases scope entry hentry
      have heq := Option.some.inj (hat.symm.trans hexpires)
      omega
  | cons action actions ih =>
      obtain ⟨next, hstep, hrest⟩ := Option.bind_eq_some_iff.mp hrun
      obtain ⟨hmoves, hnext⟩ := step_moves hobeys hstep
      obtain ⟨hnextKeys, hlapses⟩ := hmoves hkeys
      rcases hlapses scope with hgone | hgoes
      · refine ⟨[action], actions, next, rfl, ?_, hgone⟩
        simp [System.run, hstep]
      · obtain ⟨entry', hentry', hsame⟩ := hgoes entry hentry
        obtain ⟨before, after, middle, rfl, hbefore, hnone⟩ :=
          ih hnextKeys hnext hrest hentry' (hsame.trans hexpires)
        refine ⟨action :: before, after, middle, rfl, ?_, hnone⟩
        simp [System.run, hstep, hbefore]

theorem limitKeys_start : LimitKeys policy LimitsState.start.server :=
  ⟨fun _ _ _ hentry => (Option.some_ne_none _ hentry.symm).elim,
    fun _ _ hentry => (Option.some_ne_none _ hentry.symm).elim⟩

theorem limit_keys_expire (policy : RuntimeLimitPolicy) (requests : Nat → RuntimeLimitRequest)
    (actions : List (Action LimitsChoice)) (config : CallerConfig)
    (hrun : (LimitsState.system policy).run (fun t => caller policy (requests t)) actions
      (System.initial .start) = some config) :
    LimitKeys policy config.state.server ∧
    ∀ scope entry at', config.state.server.store (concurrencyCounterKey scope) = some entry →
      entry.expiresAtMs = some at' → ∀ later config',
      (LimitsState.system policy).run (fun t => caller policy (requests t)) later config =
        some config' →
      at' < config'.state.server.nowMs →
      ∃ before after middle, later = before ++ after ∧
        (LimitsState.system policy).run (fun t => caller policy (requests t)) before config =
          some middle ∧
        middle.state.server.store (concurrencyCounterKey scope) = none := by
  obtain ⟨hkeys, hobeys⟩ := run_keeps limitKeys_start (obeys_initial _) hrun
  refine ⟨hkeys, fun scope entry at' hentry hexpires later config' hlater hpast => ?_⟩
  exact run_lapses hkeys hobeys hlater hentry hexpires hpast

-- The lease of thread 0 is never released, and its counter is gone after its thirty seconds.
theorem limit_keys_expire_leaked : ∃ config entry config',
    (LimitsState.system twoAtOnce).run (fun _ => caller twoAtOnce userRequest) (acquireSteps 0)
      (System.initial .start) = some config ∧
    LimitKeys twoAtOnce config.state.server ∧
    config.state.server.store (concurrencyCounterKey (.user ⟨7⟩)) = some entry ∧
    entry.expiresAtMs = some 30000 ∧
    (LimitsState.system twoAtOnce).run (fun _ => caller twoAtOnce userRequest) [wait 30001]
      config = some config' ∧
    ∃ before after middle, [wait 30001] = before ++ after ∧
      (LimitsState.system twoAtOnce).run (fun _ => caller twoAtOnce userRequest) before config =
        some middle ∧
      middle.state.server.store (concurrencyCounterKey (.user ⟨7⟩)) = none := by
  have hkeys := fun config hrun => limit_keys_expire twoAtOnce (fun _ => userRequest)
    (acquireSteps 0) config hrun
  refine ⟨_, _, _, rfl, (hkeys _ rfl).1, rfl, rfl, rfl, ?_⟩
  exact (hkeys _ rfl).2 (.user ⟨7⟩) _ 30000 rfl rfl [wait 30001] _ rfl (by decide)

end Runs

end Mizan.Limits
