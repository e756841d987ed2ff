import Mizan.Limits.Acquire
import Mizan.Interleaving.Rely

namespace Mizan.Limits

open Interleaving

variable {σ χ : Type} {sys : System LimitsCommand LimitsCommand.Response χ σ} {P : Protocol sys}
  {t : Nat} {policy : RuntimeLimitPolicy} {faulty : Prop} {holds : List String → σ → Prop}
  {reports : Option AppError → σ → Prop} {keys : List String} {s : σ}

-- What a protocol has to show of the single commands of a call that gives back the slots of some
-- keys, in the order in which it holds them, and that says something of the error it ends with.
-- Where connections do not fail, `faulty` is false.
structure ReleaseSpecs (P : Protocol sys) (t : Nat) (faulty : Prop)
    (holds : List String → σ → Prop) (reports : Option AppError → σ → Prop) : Prop where
  holdsStable : ∀ keys, P.Stable t (holds keys)
  reportsStable : ∀ error, P.Stable t (reports error)
  silent : ∀ s, reports none s
  connect : ∀ {keys s}, holds keys s → P.ewp t getConnection (fun _ => holds keys)
    (fun error s => faulty ∧ holds keys s ∧ reports (some error) s) s
  release : ∀ {key keys s} error, holds (key :: keys) s → reports error s →
    P.ewp t (releaseKey key) (fun _ s => holds keys s ∧ reports error s)
      (fun _ s => holds keys s ∧ reports error s) s

-- The same of a call that acquires them.
structure CallSpecs (P : Protocol sys) (t : Nat) (policy : RuntimeLimitPolicy) (faulty : Prop)
    (holds : List String → σ → Prop) (reports : Option AppError → σ → Prop) : Prop
    extends ReleaseSpecs P t faulty holds reports where
  overRequests : ∀ scope s, reports
    (some (.limitExceeded s!"requests_per_window exceeded for {LimitScope.keyPart scope}")) s
  overTokens : ∀ scope s, reports
    (some (.limitExceeded s!"tokens_per_window exceeded for {LimitScope.keyPart scope}")) s
  window : ∀ {keys s} key ttlSeconds amount, (∀ scope, concurrencyCounterKey scope ≠ key) →
    holds keys s → P.ewp t (incrementWindowCounter key ttlSeconds amount) (fun _ => holds keys)
      (fun error s => holds keys s ∧ reports (some error) s) s
  acquire : ∀ {keys s} scope, holds keys s → P.ewp t (acquireConcurrencyLease policy scope)
    (fun key => holds (keys ++ key.toList)) (fun error s => holds keys s ∧ reports (some error) s) s

namespace ReleaseSpecs

variable (specs : ReleaseSpecs P t faulty holds reports)

include specs

theorem failedStable (error : AppError) :
    P.Stable t fun s => holds keys s ∧ reports (some error) s :=
  fun h hrely hinv => ⟨specs.holdsStable keys h.1 hrely hinv, specs.reportsStable _ h.2 hrely hinv⟩

theorem releaseKeysFrom (firstError error : Option AppError) (h : holds keys s)
    (hreports : reports error s) : P.wp t (releaseKeysFrom firstError keys)
      (fun _ s => holds [] s ∧ reports error s) s := by
  induction keys generalizing s firstError with
  | nil =>
      cases firstError <;> exact fun _ hrely hinv =>
        ⟨specs.holdsStable [] h hrely hinv, specs.reportsStable error hreports hrely hinv⟩
  | cons key keys ih =>
      rw [Limits.releaseKeysFrom]
      apply Protocol.wp_bind
      refine Protocol.wp_mono (fun result s' _ hs' => ?_) (specs.release error h hreports)
      cases result with
      | ok value => exact ih firstError hs'.1 hs'.2
      | error error' => exact ih (firstError.or (some error')) hs'.1 hs'.2

-- A lease is given back in whole, or not at all where there is no connection.
theorem releaseLease (lease : RuntimeLimitLease) (h : holds lease.keys s) :
    P.ewp t (releaseLease lease) (fun _ => holds [])
      (fun _ s => holds [] s ∨ faulty ∧ holds lease.keys s) s := by
  rw [Limits.releaseLease]
  split
  · rename_i hkeys
    rw [hkeys] at h
    exact Protocol.ewp_pure fun _ => specs.holdsStable [] h
  · refine Protocol.ewp_seq (specs.connect h)
      (fun _ _ hfailed => .inr ⟨hfailed.1, hfailed.2.1⟩) fun _ s' _ hs' => ?_
    refine Protocol.wp_mono (fun result _ _ hs'' => ?_)
      (specs.releaseKeysFrom none none hs' (specs.silent s'))
    cases result with
    | ok value => exact hs''.1
    | error error => exact .inl hs''.1

end ReleaseSpecs

namespace CallSpecs

variable (specs : CallSpecs P t policy faulty holds reports)

include specs

theorem checkRequestCounter (scope : LimitScope) (h : holds keys s) :
    P.ewp t (checkRequestCounter policy scope) (fun _ => holds keys)
      (fun error s => holds keys s ∧ reports (some error) s) s := by
  rw [Limits.checkRequestCounter]
  split
  · exact Protocol.ewp_pure fun _ => specs.holdsStable keys h
  · refine Protocol.ewp_seq (specs.window _ _ _
      (fun scope' => concurrencyCounterKey_ne_requestCounterKey scope' scope) h)
      (fun _ _ hfailed => hfailed) fun count s' _ hs' => ?_
    split
    · exact Protocol.ewp_throw fun _ =>
        specs.failedStable _ ⟨hs', specs.overRequests scope s'⟩
    · exact Protocol.ewp_pure fun _ => specs.holdsStable keys hs'

theorem checkTokenCounter (scope : LimitScope) (tokens : UInt64) (h : holds keys s) :
    P.ewp t (checkTokenCounter policy scope tokens) (fun _ => holds keys)
      (fun error s => holds keys s ∧ reports (some error) s) s := by
  rw [Limits.checkTokenCounter]
  split
  · exact Protocol.ewp_pure fun _ => specs.holdsStable keys h
  · refine Protocol.ewp_seq (specs.window _ _ _
      (fun scope' => concurrencyCounterKey_ne_tokenCounterKey scope' scope) h)
      (fun _ _ hfailed => hfailed) fun count s' _ hs' => ?_
    split
    · exact Protocol.ewp_throw fun _ =>
        specs.failedStable _ ⟨hs', specs.overTokens scope s'⟩
    · exact Protocol.ewp_pure fun _ => specs.holdsStable keys hs'

theorem acquireScope (tokens : UInt64) (scope : LimitScope) (h : holds keys s) :
    P.ewp t (acquireScope policy tokens scope) (fun key => holds (keys ++ key.toList))
      (fun error s => holds keys s ∧ reports (some error) s) s :=
  Protocol.ewp_seq (specs.checkRequestCounter scope h) (fun _ _ hfailed => hfailed) fun _ _ _ hs =>
    Protocol.ewp_seq (specs.checkTokenCounter scope tokens hs) (fun _ _ hfailed => hfailed)
      fun _ _ _ hs' => specs.acquire scope hs'

theorem acquireScopes (tokens : UInt64) (scopes : List LimitScope) (h : holds keys s) :
    P.ewp t (acquireScopes policy tokens scopes keys) (fun lease => holds lease.keys)
      (fun error s => holds [] s ∧ reports (some error) s) s := by
  induction scopes generalizing s keys with
  | nil => exact Protocol.ewp_pure fun _ => specs.holdsStable keys h
  | cons scope scopes ih =>
      rw [Limits.acquireScopes]
      refine Protocol.ewp_seq (Protocol.ewp_onError (Protocol.ewp_mono (fun _ _ _ hs => hs)
        (fun error s' _ hs' => ?_) (specs.acquireScope tokens scope h)))
        (fun _ _ hfailed => hfailed) fun key s' _ hs' => ih hs'
      apply Protocol.wp_bind
      exact Protocol.wp_mono (fun _ s'' _ hs'' => fun _ => specs.failedStable error hs'')
        (specs.releaseKeysFrom none (some error) hs'.1 hs'.2)

theorem checkAndAcquire (request : RuntimeLimitRequest) (h : holds [] s) :
    P.ewp t (checkAndAcquire policy request) (fun lease => holds lease.keys)
      (fun error s => holds [] s ∧ reports (some error) s) s := by
  rw [Limits.checkAndAcquire]
  split
  · exact Protocol.ewp_pure fun _ => specs.holdsStable [] h
  · exact Protocol.ewp_seq (specs.connect h) (fun _ _ hfailed => hfailed.2)
      fun _ _ _ hs => specs.acquireScopes _ _ hs

end CallSpecs

end Mizan.Limits
