import Mizan.Core.Text
import Mizan.Daemon.Auth
import Mizan.Table.Order
import Mizan.Table.Update
import Mathlib.Data.Prod.Lex
import Mathlib.Data.String.Basic

namespace Mizan.Daemon

open Table

def DAEMON_TOKEN_PREFIX : String := "mizan_sk_daemon_"
def STATUS_PENDING : String := "pending"
def STATUS_ACTIVE : String := "active"
def HEALTH_STATUS_HEALTHY : String := "healthy"

-- A row of `daemon_nodes` as it is stored.
structure DbDaemonNode where
  id : String
  hostUserId : Option String
  label : Option String
  hostname : Option String
  publicKey : Option String
  tokenHash : String
  status : String
  revoked : Int32
  disabled : Int32
  lastSeenAt : Option String
  providerFamily : Option String
  modelIdsJson : String
  maxConcurrency : Option Int32
  pricingMetadataJson : Option String
  region : Option String
  labelsJson : String
  healthStatus : Option String
  capabilityMetadataJson : Option String
  createdAt : String
  updatedAt : String
  deriving DecidableEq, Repr

-- `uuid` and `serde_json` on what is stored of a node as text.
structure NodeCodec where
  Value : Type
  uuidParseStr : String → Except String Uuid
  listToString : List String → Except String String
  listFromStr : String → Except String (List String)
  valueToString : Value → Except String String

def toAsciiLowercase (text : String) : String := String.ofList (text.toList.map Char.toLower)

def normalizeOptional (value : Option String) : Option String :=
  (value.map trim).filter (· ≠ "")

structure DaemonCapabilityPayload (codec : NodeCodec) where
  providerFamily : String
  modelIds : List String
  maxConcurrency : UInt32
  pricingMetadata : Option codec.Value
  region : Option String
  labels : List String
  healthStatus : Option String
  metadata : Option codec.Value

-- Trimmed, without blanks and without repetitions.
structure NormalList (values : List String) : Prop where
  trimmed : ∀ value ∈ values, trim value = value ∧ value ≠ ""
  nodup : values.Nodup

def normalizeStringList : (normalized values : List String) → List String
  | normalized, [] => normalized
  | normalized, value :: values =>
      let value := trim value
      if value = "" ∨ value ∈ normalized then normalizeStringList normalized values
      else normalizeStringList (normalized ++ [value]) values

structure NormalizedCapabilities (codec : NodeCodec) where
  providerFamily : String
  modelIds : List String
  maxConcurrency : UInt32
  pricingMetadata : Option codec.Value
  region : Option String
  labels : List String
  healthStatus : String
  metadata : Option codec.Value
  modelIds_normal : NormalList modelIds
  modelIds_ne_nil : modelIds ≠ []
  maxConcurrency_ne_zero : maxConcurrency ≠ 0

theorem NormalList.push {values : List String} (h : NormalList values) {value : String}
    (hblank : trim value ≠ "") (hnew : trim value ∉ values) :
    NormalList (values ++ [trim value]) := by
  constructor
  · intro other hmem
    rcases List.mem_append.mp hmem with hold | hlast
    · exact h.trimmed other hold
    · rw [List.mem_singleton.mp hlast]
      exact ⟨trim_trim value, hblank⟩
  · rw [List.nodup_append]
    refine ⟨h.nodup, List.nodup_singleton _, fun first hfirst last hlast heq => ?_⟩
    rw [List.mem_singleton.mp hlast] at heq
    exact hnew (heq ▸ hfirst)

theorem normalList_normalizeStringList {normalized : List String} (h : NormalList normalized)
    (values : List String) : NormalList (normalizeStringList normalized values) := by
  induction values generalizing normalized with
  | nil => exact h
  | cons value values ih =>
      simp only [normalizeStringList]
      by_cases hskip : trim value = "" ∨ trim value ∈ normalized
      · rw [if_pos hskip]
        exact ih h
      · rw [if_neg hskip]
        rw [not_or] at hskip
        exact ih (h.push hskip.1 hskip.2)

def normalizeCapabilities {codec : NodeCodec} (payload : DaemonCapabilityPayload codec) :
    Except AppError (NormalizedCapabilities codec) :=
  let providerFamily := toAsciiLowercase (trim payload.providerFamily)
  if providerFamily = "" then
    .error (.invalidConfig "daemon_capabilities.provider_family" "provider_family is required")
  else
    if hmodels : normalizeStringList [] payload.modelIds = [] then
      .error (.invalidConfig "daemon_capabilities.model_ids" "at least one model id is required")
    else
      if hmax : payload.maxConcurrency = 0 then
        .error (.invalidConfig "daemon_capabilities.max_concurrency" "must be greater than zero")
      else
        .ok
          { providerFamily
            modelIds := normalizeStringList [] payload.modelIds
            maxConcurrency := payload.maxConcurrency
            pricingMetadata := payload.pricingMetadata
            region := normalizeOptional payload.region
            labels := normalizeStringList [] payload.labels
            healthStatus := toAsciiLowercase
              ((normalizeOptional payload.healthStatus).getD HEALTH_STATUS_HEALTHY)
            metadata := payload.metadata
            modelIds_normal := normalList_normalizeStringList ⟨by simp, List.nodup_nil⟩ _
            modelIds_ne_nil := hmodels
            maxConcurrency_ne_zero := hmax }

-- What the capabilities of a node are stored as.
structure CapabilityColumns (codec : NodeCodec) where
  providerFamily : String
  modelIdsJson : String
  maxConcurrency : Int32
  pricingMetadataJson : Option String
  region : Option String
  labelsJson : String
  healthStatus : String
  capabilityMetadataJson : Option String
  models_stored : ∃ modelIds, codec.listToString modelIds = .ok modelIdsJson ∧
    NormalList modelIds ∧ modelIds ≠ []
  maxConcurrency_pos : 0 < maxConcurrency.toInt

def serializeJson {α : Type} (toJson : α → Except String String) (value : α) :
    Except AppError String :=
  (toJson value).mapError fun error => .infrastructure s!"json serialization failed: {error}"

def serializeOptionalJson {α : Type} (toJson : α → Except String String) :
    Option α → Except AppError (Option String)
  | none => .ok none
  | some value => (serializeJson toJson value).map some

-- The largest `i32` is the limit of the column.
def fitsI32 (value : UInt32) : Bool := value.toNat < 2 ^ 31

theorem toInt_ofNat_of_fitsI32 {value : UInt32} (h : fitsI32 value = true) :
    (Int32.ofNat value.toNat).toInt = value.toNat := by
  have hlt : value.toNat < 2 ^ 31 := of_decide_eq_true h
  exact Int32.toInt_ofNat_of_lt hlt

def capabilityColumns {codec : NodeCodec} (capabilities : NormalizedCapabilities codec) :
    Except AppError (CapabilityColumns codec) :=
  match hjson : codec.listToString capabilities.modelIds with
  | .error error => .error (.infrastructure s!"json serialization failed: {error}")
  | .ok modelIdsJson =>
      if hmax : fitsI32 capabilities.maxConcurrency = true then do
        let pricingMetadataJson ←
          serializeOptionalJson codec.valueToString capabilities.pricingMetadata
        let labelsJson ← serializeJson codec.listToString capabilities.labels
        let capabilityMetadataJson ←
          serializeOptionalJson codec.valueToString capabilities.metadata
        pure
          { providerFamily := capabilities.providerFamily
            modelIdsJson
            maxConcurrency := Int32.ofNat capabilities.maxConcurrency.toNat
            pricingMetadataJson
            region := capabilities.region
            labelsJson
            healthStatus := capabilities.healthStatus
            capabilityMetadataJson
            models_stored := ⟨capabilities.modelIds, hjson, capabilities.modelIds_normal,
              capabilities.modelIds_ne_nil⟩
            maxConcurrency_pos := by
              have hne := capabilities.maxConcurrency_ne_zero
              have hpos : capabilities.maxConcurrency.toNat ≠ 0 := fun hzero =>
                hne (UInt32.toNat_inj.mp hzero)
              rw [toInt_ofNat_of_fitsI32 hmax]
              omega }
      else
        .error (.invalidConfig "daemon_capabilities.max_concurrency"
          "max_concurrency exceeds database integer range")

structure EligibleDaemonNode where
  id : Uuid
  providerFamily : String
  modelId : String
  maxConcurrency : UInt32
  lastSeenAt : String
  deriving DecidableEq, Repr

-- ORDER BY last_seen_at DESC, created_at ASC
abbrev SeenOrder := Descending (Lex (String × OrderDual String))

def seenKey (row : DbDaemonNode) : Lex (String × OrderDual String) :=
  toLex (row.lastSeenAt.getD "", OrderDual.toDual row.createdAt)

def cutoff (now staleAfterSeconds : Int64) : String :=
  toString (saturatingSub now (max staleAfterSeconds 1))

def eligible (cutoff : String) (row : DbDaemonNode) : Bool :=
  row.status = STATUS_ACTIVE && row.revoked = 0 && row.disabled = 0 &&
    row.healthStatus = some HEALTH_STATUS_HEALTHY && row.providerFamily.isSome &&
    row.maxConcurrency.isSome && row.lastSeenAt.any fun seen => cutoff ≤ seen

def parseJsonVec (codec : NodeCodec) (raw fieldName : String) : Except AppError (List String) :=
  (codec.listFromStr raw).mapError fun error => .infrastructure s!"{fieldName} is invalid: {error}"

-- The first of the rows that serves the model; a row before it may stop the search.
def firstServing (codec : NodeCodec) (modelId : String) :
    List DbDaemonNode → Except AppError (Option EligibleDaemonNode)
  | [] => .ok none
  | row :: rows => do
      let modelIds ← parseJsonVec codec row.modelIdsJson "daemon_node.model_ids_json"
      if modelId ∉ modelIds then firstServing codec modelId rows
      else
        let maxConcurrency := (row.maxConcurrency.getD 0).toInt
        if maxConcurrency < 0 then
          throw (.infrastructure "stored daemon max_concurrency is invalid")
        else if maxConcurrency = 0 then firstServing codec modelId rows
        else do
          let id ← (codec.uuidParseStr row.id).mapError fun error =>
            .infrastructure s!"stored daemon node id is invalid: {error}"
          pure (some
            { id
              providerFamily := row.providerFamily.getD ""
              modelId
              maxConcurrency := UInt32.ofNat maxConcurrency.toNat
              lastSeenAt := row.lastSeenAt.getD "" })

def selectEligibleDaemonNode (codec : NodeCodec) (order : SeenOrder) (modelId : String)
    (staleAfterSeconds now : Int64) (nodes : List DbDaemonNode) :
    Except AppError (Option EligibleDaemonNode) :=
  let modelId := trim modelId
  if modelId = "" then .ok none
  else firstServing codec modelId
    (order.arrange seenKey (nodes.filter (eligible (cutoff now staleAfterSeconds))))

end Mizan.Daemon
