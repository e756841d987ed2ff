import Mizan.Daemon.Request
import Mizan.Interleaving.Rely

namespace Mizan.Daemon

open Interleaving

structure DaemonNodeRow where
  id : Uuid
  status : String
  tokenHash : String
  revoked : Bool
  deriving DecidableEq, Repr

structure DaemonNodeIdentity where
  nodeId : Uuid
  status : String
  tokenHash : String
  deriving DecidableEq, Repr

abbrev NonceCache := List (String × Int64)

def pruneStaleNonces (nonces : NonceCache) (now : Int64) : NonceCache :=
  nonces.filter fun nonce => now ≤ nonce.2

def needsPruning (nonces : NonceCache) : Bool :=
  DAEMON_SIGNATURE_NONCE_CACHE_PRUNE_THRESHOLD ≤ nonces.length

-- What a request does while it holds the lock of the nonce cache.
def admitNonce (nonces : NonceCache) (nonceKey : String) (expiry now : Int64) :
    Bool × NonceCache :=
  let nonces := if needsPruning nonces then pruneStaleNonces nonces now else nonces
  if nonces.any fun nonce => nonce.1 = nonceKey then (false, nonces)
  else (true, nonces ++ [(nonceKey, expiry)])

inductive DaemonCommand where
  | fetchNode (tokenHash : String)
  | nowUtcEpochSeconds
  | admitNonce (nonceKey : String) (expiry now : Int64)

def DaemonCommand.Response : DaemonCommand → Type
  | .fetchNode _ => Except String (Option DaemonNodeRow)
  | .nowUtcEpochSeconds => Int64
  | .admitNonce .. => Bool

abbrev DaemonProg (α : Type) :=
  ExceptT DaemonNodeHttpError (Prog DaemonCommand DaemonCommand.Response) α

def resolveDaemonNodeIdentity (sha256 : List UInt8 → List UInt8) (authorization : String) :
    DaemonProg DaemonNodeIdentity :=
  match authorizationToken authorization with
  | none => throw unauthorized
  | some token =>
      Prog.perform (.fetchNode (hashValue sha256 token)) fun
        | .error error => .error { status := INTERNAL_SERVER_ERROR, error := .infrastructure error }
        | .ok none => .error unauthorized
        | .ok (some row) =>
            .ok { nodeId := row.id, status := row.status, tokenHash := row.tokenHash }

def nonceKey (identity : DaemonNodeIdentity) (nonce : String) : String :=
  identity.nodeId.toString ++ "::" ++ nonce

def validateDaemonRequestSignature (sha256 : List UInt8 → List UInt8) (request : DaemonRequest)
    (identity : DaemonNodeIdentity) : DaemonProg Unit := do
  let signature ← ExceptT.mk (pure (requestSignature request))
  let now ← Prog.perform .nowUtcEpochSeconds Except.ok
  match nonceExpiry signature.timestamp now with
  | none => throw unauthorized
  | some expiry =>
      if verifyDaemonSignature sha256 identity.tokenHash request.method request.path
          signature.timestamp signature.nonce signature.bodyHash signature.signature then
        Prog.perform (.admitNonce (nonceKey identity signature.nonce) expiry now)
          fun (admitted : Bool) => if admitted then .ok () else .error unauthorized
      else throw unauthorized

-- What the handler of the route is given.
structure AuthorizedRequest where
  request : DaemonRequest
  identity : DaemonNodeIdentity
  deriving DecidableEq, Repr

def daemonNodeAuth (sha256 : List UInt8 → List UInt8) (request : DaemonRequest) :
    DaemonProg AuthorizedRequest := do
  match request.header AUTHORIZATION with
  | none => throw unauthorized
  | some authorization =>
      let identity ← resolveDaemonNodeIdentity sha256 authorization
      validateDaemonRequestSignature sha256 request identity
      pure { request, identity }

-- Whether the query fails; and, between two steps of the requests, how long it takes and what
-- became of the nodes.
structure DaemonChoice where
  fault : Option String := none
  elapsedSeconds : Nat := 0
  nodes : Option (List DaemonNodeRow) := none
  deriving DecidableEq, Repr

structure Admission where
  thread : Nat
  nonceKey : String
  expiry : Int64
  deriving DecidableEq, Repr

-- Two histories that no request reads: which request added which nonce, and the clock values
-- that the cache was pruned with.
structure DaemonState where
  nodes : List DaemonNodeRow
  nowSeconds : Nat
  nonces : NonceCache
  admissions : List Admission
  prunedAt : List Int64
  deriving DecidableEq, Repr

namespace DaemonState

def start (nodes : List DaemonNodeRow) (nonces : NonceCache) (nowSeconds : Nat) : DaemonState :=
  { nodes, nowSeconds, nonces, admissions := [], prunedAt := [] }

def findNode (s : DaemonState) (tokenHash : String) : Option DaemonNodeRow :=
  s.nodes.find? fun row => row.tokenHash = tokenHash && !row.revoked && row.status ≠ STATUS_REVOKED

def remember (s : DaemonState) (t : Nat) (nonceKey : String) (expiry now : Int64) : DaemonState :=
  { s with
    nonces := (admitNonce s.nonces nonceKey expiry now).2
    admissions :=
      if (admitNonce s.nonces nonceKey expiry now).1 then
        s.admissions ++ [{ thread := t, nonceKey, expiry }]
      else s.admissions
    prunedAt := if needsPruning s.nonces then s.prunedAt ++ [now] else s.prunedAt }

def exec (t : Nat) : (c : DaemonCommand) → DaemonChoice → DaemonState → c.Response × DaemonState
  | .fetchNode tokenHash, choice, s =>
      (match choice.fault with
        | some error => .error error
        | none => .ok (s.findNode tokenHash), s)
  | .nowUtcEpochSeconds, _, s => (asI64 s.nowSeconds, s)
  | .admitNonce nonceKey expiry now, _, s =>
      ((admitNonce s.nonces nonceKey expiry now).1, s.remember t nonceKey expiry now)

def system : Interleaving.System DaemonCommand DaemonCommand.Response DaemonChoice DaemonState where
  exec t c choice s := some (exec t c choice s)
  env choice s := some { s with
    nowSeconds := s.nowSeconds + choice.elapsedSeconds
    nodes := choice.nodes.getD s.nodes }

end DaemonState

end Mizan.Daemon
