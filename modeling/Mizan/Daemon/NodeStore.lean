import Mizan.Auth.Operations
import Mizan.Daemon.Nodes
import Mizan.Interleaving.Rely
import Mizan.Table.Evolve

namespace Mizan.Daemon

open Interleaving

-- What an INSERT binds; the other columns have the defaults of the table.
structure NewDaemonNode where
  id : Uuid
  hostUserId : Uuid
  label : Option String
  hostname : Option String
  publicKey : Option String
  tokenHash : String
  now : String
  deriving DecidableEq, Repr

def NewDaemonNode.row (new : NewDaemonNode) : DbDaemonNode :=
  { id := new.id.toString, hostUserId := some new.hostUserId.toString, label := new.label
    hostname := new.hostname, publicKey := new.publicKey, tokenHash := new.tokenHash
    status := STATUS_PENDING, revoked := 0, disabled := 0, lastSeenAt := none
    providerFamily := none, modelIdsJson := "[]", maxConcurrency := none
    pricingMetadataJson := none, region := none, labelsJson := "[]", healthStatus := none
    capabilityMetadataJson := none, createdAt := new.now, updatedAt := new.now }

-- What `mark_node_seen` binds, with or without capabilities.
structure NodeSeen (codec : NodeCodec) where
  now : String
  hostname : Option String
  publicKey : Option String
  capabilities : Option (CapabilityColumns codec)

def unrevoked (nodeId : Uuid) (row : DbDaemonNode) : Bool :=
  row.id = nodeId.toString && row.revoked = 0

def markable (nodeId : Uuid) (row : DbDaemonNode) : Bool :=
  unrevoked nodeId row && row.status ≠ STATUS_REVOKED

def advertise {codec : NodeCodec} (capabilities : Option (CapabilityColumns codec))
    (row : DbDaemonNode) : DbDaemonNode :=
  match capabilities with
  | none => row
  | some columns =>
      { row with
        providerFamily := some columns.providerFamily
        modelIdsJson := columns.modelIdsJson
        maxConcurrency := some columns.maxConcurrency
        pricingMetadataJson := columns.pricingMetadataJson
        region := columns.region
        labelsJson := columns.labelsJson
        healthStatus := some columns.healthStatus
        capabilityMetadataJson := columns.capabilityMetadataJson }

def markSeen {codec : NodeCodec} (seen : NodeSeen codec) (row : DbDaemonNode) : DbDaemonNode :=
  { advertise seen.capabilities row with
    status := STATUS_ACTIVE
    lastSeenAt := some seen.now
    hostname := seen.hostname.or row.hostname
    publicKey := seen.publicKey.or row.publicKey
    updatedAt := seen.now }

def revoke (now : String) (row : DbDaemonNode) : DbDaemonNode :=
  { row with status := STATUS_REVOKED, revoked := 1, updatedAt := now }

inductive NodeAuditPayload where
  | created (hostUserId : Uuid) (label hostname : Option String) (publicKeyPresent : Bool)
  | revoked
  deriving DecidableEq, Repr

structure NodeAudit where
  actorUserId : Option Uuid
  action : String
  entityType : String
  entityId : Option String
  payload : NodeAuditPayload
  deriving DecidableEq, Repr

inductive NodeCommand (codec : NodeCodec) where
  | userExists (id : Uuid)
  | insertNode (new : NewDaemonNode)
  | markSeen (nodeId : Uuid) (seen : NodeSeen codec)
  | revokeNode (nodeId : Uuid) (now : String)
  | recordAdminAudit (audit : NodeAudit)
  | nowV7
  | newV4
  | nowUtcEpochSeconds

def NodeCommand.Response {codec : NodeCodec} : NodeCommand codec → Type
  | .userExists _ => Except String Bool
  | .insertNode _ => Except String Nat
  | .markSeen .. => Except String Nat
  | .revokeNode .. => Except String Nat
  | .recordAdminAudit _ => Except String Unit
  | .nowV7 => Uuid
  | .newV4 => Uuid
  | .nowUtcEpochSeconds => Int64

abbrev NodeM (codec : NodeCodec) (α : Type) :=
  ExceptT AppError (Prog (NodeCommand codec) NodeCommand.Response) α

section Programs

variable (crypto : Auth.Crypto) {codec : NodeCodec}

def infrastructure {α : Type} : Except String α → Except AppError α :=
  Except.mapError .infrastructure

def unixTimestampString : NodeM codec String :=
  Prog.perform .nowUtcEpochSeconds fun (now : Int64) => .ok (toString now)

def ensureUserExists (userId : Uuid) : NodeM codec Unit := do
  let found ← Prog.perform (.userExists userId) infrastructure
  if found then pure ()
  else throw (.invalidConfig "daemon_node.host_user_id" "host_user_id does not exist")

def mapInsertError (error : String) : AppError :=
  if Auth.isUniqueConstraintError crypto error then
    .invalidConfig "daemon_node.token" "daemon node token must be unique"
  else .infrastructure error

structure DaemonNodeCreateRequest where
  hostUserId : Option Uuid
  label : Option String
  hostname : Option String
  publicKey : Option String
  deriving DecidableEq, Repr

structure DaemonNodeCreateResponse where
  id : Uuid
  token : String
  tokenType : String
  status : String
  hostUserId : Option Uuid
  label : Option String
  hostname : Option String
  publicKey : Option String
  createdAt : String
  deriving DecidableEq, Repr

def daemonToken (id : Uuid) : String := DAEMON_TOKEN_PREFIX ++ id.toString

-- The failure of an audit entry is logged and nothing else.
def recordAudit (audit : NodeAudit) : NodeM codec Unit :=
  Prog.perform (.recordAdminAudit audit) fun _ => .ok ()

def createDaemonNode (identityUserId : Uuid) (payload : DaemonNodeCreateRequest) :
    NodeM codec DaemonNodeCreateResponse := do
  let hostUserId := payload.hostUserId.getD identityUserId
  ensureUserExists hostUserId
  let label := normalizeOptional payload.label
  let hostname := normalizeOptional payload.hostname
  let publicKey := normalizeOptional payload.publicKey
  let id ← Prog.perform .nowV7 Except.ok
  let token ← Prog.perform .newV4 fun id => .ok (daemonToken id)
  let now ← unixTimestampString
  let _ ← Prog.perform
    (.insertNode { id, hostUserId, label, hostname, publicKey
                   tokenHash := hashValue crypto.sha256 token, now })
    (Except.mapError (mapInsertError crypto))
  recordAudit
    { actorUserId := some identityUserId
      action := "daemon_node_created"
      entityType := "daemon_node"
      entityId := some id.toString
      payload := .created hostUserId label hostname publicKey.isSome }
  pure
    { id, token, tokenType := "Bearer", status := STATUS_PENDING, hostUserId := some hostUserId
      label, hostname, publicKey, createdAt := now }

def markNodeSeen (nodeId : Uuid) (hostname publicKey : Option String)
    (capabilities : Option (NormalizedCapabilities codec)) : NodeM codec String := do
  let now ← unixTimestampString
  let columns ←
    match capabilities with
    | none => pure none
    | some capabilities => do
        let columns ← ExceptT.mk (pure (capabilityColumns capabilities))
        pure (some columns)
  let rowsAffected ← Prog.perform
    (.markSeen nodeId { now, hostname, publicKey, capabilities := columns }) infrastructure
  if rowsAffected ≠ 1 then throw .unauthorized
  else pure now

def revokeNode (nodeId : Uuid) : NodeM codec Bool := do
  let now ← unixTimestampString
  let rowsAffected ← Prog.perform (.revokeNode nodeId now) infrastructure
  pure (rowsAffected = 1)

def revokeDaemonNode (actorUserId nodeId : Uuid) : NodeM codec Bool := do
  let revoked ← revokeNode nodeId
  if ¬revoked then throw (.notFound "daemon node not found")
  else do
    recordAudit
      { actorUserId := some actorUserId
        action := "daemon_node_revoked"
        entityType := "daemon_node"
        entityId := some nodeId.toString
        payload := .revoked }
    pure revoked

structure DaemonRegistrationRequest (codec : NodeCodec) where
  hostname : Option String
  publicKey : Option String
  capabilities : Option (DaemonCapabilityPayload codec)

structure DaemonHeartbeatRequest (codec : NodeCodec) where
  hostname : Option String
  publicKey : Option String
  capabilities : DaemonCapabilityPayload codec

-- What a node that reports in is told: the time that it was seen at, its status and its
-- capabilities.
structure NodeReport (codec : NodeCodec) where
  nodeId : Uuid
  status : String
  lastSeenAt : String
  capabilities : Option (NormalizedCapabilities codec)

def registerDaemonNode (identity : DaemonNodeIdentity)
    (payload : DaemonRegistrationRequest codec) : NodeM codec (NodeReport codec) := do
  let capabilities ←
    match payload.capabilities with
    | none => pure none
    | some payload => do
        let capabilities ← ExceptT.mk (pure (normalizeCapabilities payload))
        pure (some capabilities)
  let lastSeenAt ← markNodeSeen identity.nodeId (normalizeOptional payload.hostname)
    (normalizeOptional payload.publicKey) capabilities
  pure { nodeId := identity.nodeId, status := STATUS_ACTIVE, lastSeenAt, capabilities }

def daemonHeartbeat (identity : DaemonNodeIdentity) (payload : DaemonHeartbeatRequest codec) :
    NodeM codec (NodeReport codec) := do
  let capabilities ← ExceptT.mk (pure (normalizeCapabilities payload.capabilities))
  let lastSeenAt ← markNodeSeen identity.nodeId (normalizeOptional payload.hostname)
    (normalizeOptional payload.publicKey) (some capabilities)
  pure { nodeId := identity.nodeId, status := STATUS_ACTIVE, lastSeenAt
         capabilities := some capabilities }

def daemonPing (identity : DaemonNodeIdentity) : NodeM codec (NodeReport codec) := do
  let lastSeenAt ← markNodeSeen identity.nodeId none none none
  pure { nodeId := identity.nodeId, status := identity.status, lastSeenAt, capabilities := none }

end Programs

structure NodeChoice where
  fault : Option String := none
  executed : Bool := false
  uuid : Uuid := ⟨0⟩
  userExists : Bool := true
  nowSeconds : Option Nat := none
  deriving DecidableEq, Repr

structure NodeState where
  nodes : List DbDaemonNode
  nowSeconds : Nat
  deriving DecidableEq, Repr

def UNIQUE_NODE : String := "UNIQUE constraint failed: daemon_nodes.token_hash"

namespace NodeState

def start (nowSeconds : Nat) : NodeState := { nodes := [], nowSeconds }

def conflicts (new : NewDaemonNode) (row : DbDaemonNode) : Bool :=
  row.id = new.id.toString || row.tokenHash = new.tokenHash

def insert (s : NodeState) (new : NewDaemonNode) : NodeState :=
  { s with nodes := s.nodes ++ [new.row] }

def update (s : NodeState) (selects : DbDaemonNode → Bool) (set : DbDaemonNode → DbDaemonNode) :
    NodeState := { s with nodes := Table.update selects set s.nodes }

def exec {codec : NodeCodec} : (c : NodeCommand codec) → NodeChoice → NodeState →
    c.Response × NodeState
  | .userExists _, choice, s => reply choice.fault choice.executed choice.userExists s s
  | .insertNode new, choice, s =>
      if s.nodes.any (conflicts new) then (.error (choice.fault.getD UNIQUE_NODE), s)
      else reply choice.fault choice.executed 1 s (s.insert new)
  | .markSeen nodeId seen, choice, s =>
      reply choice.fault choice.executed (Table.affected (markable nodeId) s.nodes) s
        (s.update (markable nodeId) (Daemon.markSeen seen))
  | .revokeNode nodeId now, choice, s =>
      reply choice.fault choice.executed (Table.affected (unrevoked nodeId) s.nodes) s
        (s.update (unrevoked nodeId) (revoke now))
  | .recordAdminAudit _, choice, s => reply choice.fault choice.executed () s s
  | .nowV7, choice, s => (choice.uuid, s)
  | .newV4, choice, s => (choice.uuid, s)
  | .nowUtcEpochSeconds, _, s => (asI64 s.nowSeconds, s)

def system (codec : NodeCodec) :
    System (NodeCommand codec) NodeCommand.Response NodeChoice NodeState where
  exec _ c choice s := some (exec c choice s)
  env choice s := some { s with nowSeconds := choice.nowSeconds.getD s.nowSeconds }

end NodeState

end Mizan.Daemon
