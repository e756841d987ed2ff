import Mizan.Limits.Redis
import Mizan.Interleaving.Prog

namespace Mizan.Limits

open Interleaving

abbrev LimitsProg (α : Type) := ExceptT AppError (Prog LimitsCommand LimitsCommand.Response) α

def infrastructure {α : Type} : Except String α → Except AppError α :=
  Except.mapError fun error => .infrastructure error

def getConnection : LimitsProg Unit := Prog.perform .getConnection infrastructure

-- The script returns an integer, which `query` converts to a `u64`.
def countOf : Except String Int → Except AppError UInt64
  | .error error => .error (.infrastructure error)
  | .ok count =>
      if 0 ≤ count then .ok (UInt64.ofNat count.toNat)
      else .error (.infrastructure "response was of incompatible type")

-- The count that the caller gets to see is over the limit where the counter is.
theorem lt_countOf {limit : UInt32} {value : Int} (hnonneg : 0 ≤ value) :
    UInt64.ofNat (RedisServer.integerReply (RedisServer.luaNumber value)).toNat > limit.toUInt64 ↔
      limit.toNat < value := by
  have hreply := RedisServer.integerReply_nonneg hnonneg
  have hfits : RedisServer.integerReply (RedisServer.luaNumber value) < 2 ^ 63 :=
    RedisServer.integerReply_lt
  have hlimit := @RedisServer.integerReply_le_iff value limit
  generalize RedisServer.integerReply (RedisServer.luaNumber value) = count at hreply hfits hlimit ⊢
  have hsize : count.toNat < UInt64.size := by
    rw [UInt64.size]
    omega
  have hcount : (UInt64.ofNat count.toNat).toNat = count.toNat := UInt64.toNat_ofNat_of_lt' hsize
  rw [gt_iff_lt, UInt64.lt_iff_toNat_lt, hcount, UInt32.toNat_toUInt64]
  omega

def incrementWindowCounter (key : String) (ttlSeconds : UInt32) (amount : UInt64) :
    LimitsProg UInt64 :=
  Prog.perform (.evalIncrement key (max ttlSeconds 1) amount) countOf

def releaseKey (key : String) : LimitsProg Int := Prog.perform (.evalRelease key) infrastructure

-- Every key is tried, and the first error is returned.
def releaseKeysFrom : Option AppError → List String →
    Prog LimitsCommand LimitsCommand.Response (Except AppError Unit)
  | none, [] => pure (.ok ())
  | some error, [] => pure (.error error)
  | firstError, key :: keys => do
      match ← (releaseKey key).run with
      | .error error => releaseKeysFrom (firstError.or (some error)) keys
      | .ok _ => releaseKeysFrom firstError keys

def releaseKeys (keys : List String) : LimitsProg Unit := ExceptT.mk (releaseKeysFrom none keys)

def checkRequestCounter (policy : RuntimeLimitPolicy) (scope : LimitScope) : LimitsProg Unit :=
  if policy.requestsPerWindow = 0 then pure ()
  else do
    let count ← incrementWindowCounter (requestCounterKey scope) policy.windowSeconds 1
    if count > policy.requestsPerWindow.toUInt64 then
      throw (.limitExceeded s!"requests_per_window exceeded for {scope.keyPart}")
    else pure ()

def checkTokenCounter (policy : RuntimeLimitPolicy) (scope : LimitScope) (tokens : UInt64) :
    LimitsProg Unit :=
  if policy.tokensPerWindow = 0 ∨ tokens = 0 then pure ()
  else do
    let count ← incrementWindowCounter (tokenCounterKey scope) policy.windowSeconds tokens
    if count > policy.tokensPerWindow.toUInt64 then
      throw (.limitExceeded s!"tokens_per_window exceeded for {scope.keyPart}")
    else pure ()

def acquireConcurrencyLease (policy : RuntimeLimitPolicy) (scope : LimitScope) :
    LimitsProg (Option String) :=
  if policy.concurrentRequests = 0 then pure none
  else do
    let counterKey := concurrencyCounterKey scope
    let count ← incrementWindowCounter counterKey policy.leaseSeconds 1
    if count > policy.concurrentRequests.toUInt64 then do
      let _ ← releaseKey counterKey
      throw (.limitExceeded s!"concurrent_requests exceeded for {scope.keyPart}")
    else pure (some counterKey)

def acquireScope (policy : RuntimeLimitPolicy) (tokens : UInt64) (scope : LimitScope) :
    LimitsProg (Option String) := do
  checkRequestCounter policy scope
  checkTokenCounter policy scope tokens
  acquireConcurrencyLease policy scope

-- A scope that fails gives back what the scopes before it have acquired.
def acquireScopes (policy : RuntimeLimitPolicy) (tokens : UInt64) :
    List LimitScope → (acquiredLeases : List String) → LimitsProg RuntimeLimitLease
  | [], acquiredLeases => pure { keys := acquiredLeases }
  | scope :: scopes, acquiredLeases => do
      let rollback := do
        let _ ← (releaseKeys acquiredLeases).run
        pure ()
      let key ← Prog.onError rollback (acquireScope policy tokens scope)
      acquireScopes policy tokens scopes (acquiredLeases ++ key.toList)

def checkAndAcquire (policy : RuntimeLimitPolicy) (request : RuntimeLimitRequest) :
    LimitsProg RuntimeLimitLease :=
  if policy.isDisabled ∨ request.scopes = [] then pure .noop
  else do
    getConnection
    acquireScopes policy request.estimatedPromptTokens request.scopes []

def releaseLease (lease : RuntimeLimitLease) : LimitsProg Unit :=
  if lease.keys = [] then pure ()
  else do
    getConnection
    releaseKeys lease.keys

-- A caller of the crate: it acquires, and some time later it gives back what it got. It returns
-- what `check_and_acquire` has returned to it.
def caller (policy : RuntimeLimitPolicy) (request : RuntimeLimitRequest) :
    Prog LimitsCommand LimitsCommand.Response (Except AppError RuntimeLimitLease) := do
  let result ← (checkAndAcquire policy request).run
  Prog.ask (LimitsCommand.ended result)
  match result with
  | .error error => pure (.error error)
  | .ok lease => do
      let _ ← (releaseLease lease).run
      pure (.ok lease)

abbrev CallerConfig :=
  Config LimitsCommand LimitsCommand.Response (Except AppError RuntimeLimitLease) LimitsState

end Mizan.Limits
