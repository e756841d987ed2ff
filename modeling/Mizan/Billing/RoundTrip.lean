import Mizan.Core.Hyphenated
import Mizan.Interleaving.Asks
import Mizan.Billing.Pool
import Mizan.Billing.Serializable
import Mizan.Billing.Usage

namespace Mizan.Billing

open Interleaving Table

-- What the listing shows of an event that was recorded for `input`.
def listedEvent (input : BillingInput) (statusCode : UInt16) (id : Uuid) (now : String) :
    UsageEventResponse :=
  { id
    requestId := input.requestId
    userId := some input.userId
    apiKeyId := input.apiKeyId
    providerId := input.providerId
    routeId := input.routeId
    daemonNodeId := input.daemonNodeId
    model := input.model
    usagePromptTokens := input.usage.promptTokens
    usageCompletionTokens := input.usage.completionTokens
    usageTotalTokens := input.usage.totalTokens
    usageEstimated := input.usage.estimated
    statusCode
    latencyMs := input.latencyMs
    createdAt := now }

section Columns

variable {parseStr : String → Except String Uuid}

theorem parseUuid_toString (hparse : ∀ id : Uuid, parseStr id.toString = .ok id) (words : String)
    (id : Uuid) : parseUuid parseStr words id.toString = .ok id := by
  rw [parseUuid, hparse]
  rfl

theorem parseOptionalUuid_toString (hparse : ∀ id : Uuid, parseStr id.toString = .ok id)
    (id : Option Uuid) : parseOptionalUuid parseStr (id.map Uuid.toString) = .ok id := by
  cases id with
  | none => rfl
  | some id =>
      rw [Option.map_some, parseOptionalUuid, trim_toString]
      simp only [if_neg id.toString_ne_empty, parseUuid_toString hparse]
      rfl

theorem toU64_ofNat {value : UInt64} (h : value.toNat < 2 ^ 63) :
    toU64 (Int64.ofNat value.toNat) = .ok value := by
  have hint : (Int64.ofNat value.toNat).toInt = value.toNat := Int64.toInt_ofNat_of_lt h
  rw [toU64, if_pos (by omega), hint, Int.toNat_natCast, UInt64.ofNat_toNat]

theorem toStatusCode_ofNat (value : UInt16) :
    toStatusCode (Int64.ofNat value.toNat) = .ok value := by
  have hlt := value.toNat_lt
  have hint : (Int64.ofNat value.toNat).toInt = value.toNat :=
    Int64.toInt_ofNat_of_lt (by omega)
  rw [toStatusCode, if_pos (by omega), hint, Int.toNat_natCast, UInt16.ofNat_toNat]

theorem fits_of_usageEventRow {input : BillingInput} {statusCode : UInt16} {id : Uuid}
    {now : String} {row : UsageEventRecord} (h : usageEventRow input statusCode id now = .ok row) :
    input.Fits := by
  have hfit : ∀ {value : UInt64} {key message : String} {fitted : Int64},
      fitI64 value key message = .ok fitted → value.toNat < 2 ^ 63 := by
    intro value key message fitted hvalue
    by_contra hlarge
    rw [fitI64, i64TryFrom, if_neg hlarge] at hvalue
    cases hvalue
  obtain ⟨prompt, hprompt, h⟩ := except_bind_eq_ok h
  obtain ⟨completion, hcompletion, h⟩ := except_bind_eq_ok h
  obtain ⟨total, htotal, h⟩ := except_bind_eq_ok h
  obtain ⟨latency, hlatency, h⟩ := except_bind_eq_ok h
  exact ⟨hfit hprompt, hfit hcompletion, hfit htotal, hfit hlatency⟩

-- The columns that are bound for an event are read back as the event.
theorem usageEventResponse_usageEventRow (hparse : ∀ id : Uuid, parseStr id.toString = .ok id)
    {input : BillingInput} {statusCode : UInt16} {id : Uuid} {now : String}
    {row : UsageEventRecord} (h : usageEventRow input statusCode id now = .ok row) :
    usageEventResponse parseStr true row = .ok (listedEvent input statusCode id now) := by
  have hfits := fits_of_usageEventRow h
  have huser := parseOptionalUuid_toString hparse (some input.userId)
  rw [Option.map_some] at huser
  rw [usageEventRow, fitI64_ok _ _ hfits.promptTokens, fitI64_ok _ _ hfits.completionTokens,
    fitI64_ok _ _ hfits.totalTokens, fitI64_ok _ _ hfits.latencyMs] at h
  obtain rfl := Except.ok.inj h
  have hestimated : decide ((if input.usage.estimated then (1 : Int64) else 0) ≠ 0) =
      input.usage.estimated := by
    cases input.usage.estimated <;> decide
  simp only [usageEventResponse, parseUuid_toString hparse, parseOptionalUuid_toString hparse,
    huser, toU64_ofNat hfits.promptTokens, toU64_ofNat hfits.completionTokens,
    toU64_ofNat hfits.totalTokens, toU64_ofNat hfits.latencyMs, toStatusCode_ofNat, if_true,
    hestimated]
  rfl

-- What the columns of a recorded event hold, and still hold once a parent of it is gone.
structure Legible (row : UsageEventRecord) : Prop where
  id : ∃ id : Uuid, row.id = id.toString
  requestId : ∃ id : Uuid, row.requestId = id.toString
  userId : ∃ id : Option Uuid, row.userId = id.map Uuid.toString
  apiKeyId : ∃ id : Option Uuid, row.apiKeyId = id.map Uuid.toString
  providerId : ∃ id : Option Uuid, row.providerId = id.map Uuid.toString
  routeId : ∃ id : Option Uuid, row.routeId = id.map Uuid.toString
  daemonNodeId : ∃ id : Option Uuid, row.daemonNodeId = id.map Uuid.toString
  promptTokens : 0 ≤ row.usagePromptTokens.toInt
  completionTokens : 0 ≤ row.usageCompletionTokens.toInt
  totalTokens : 0 ≤ row.usageTotalTokens.toInt
  statusCode : 0 ≤ row.statusCode.toInt ∧ row.statusCode.toInt < 2 ^ 16
  latencyMs : 0 ≤ row.latencyMs.toInt

theorem toInt_ofNat_nonneg {value : UInt64} (h : value.toNat < 2 ^ 63) :
    0 ≤ (Int64.ofNat value.toNat).toInt := by
  have hint : (Int64.ofNat value.toNat).toInt = value.toNat := Int64.toInt_ofNat_of_lt h
  omega

theorem legible_usageEventRow {input : BillingInput} {statusCode : UInt16} {id : Uuid}
    {now : String} {row : UsageEventRecord} (h : usageEventRow input statusCode id now = .ok row) :
    Legible row := by
  have hfits := fits_of_usageEventRow h
  rw [usageEventRow, fitI64_ok _ _ hfits.promptTokens, fitI64_ok _ _ hfits.completionTokens,
    fitI64_ok _ _ hfits.totalTokens, fitI64_ok _ _ hfits.latencyMs] at h
  obtain rfl := Except.ok.inj h
  have hlt := statusCode.toNat_lt
  have hstatus : (Int64.ofNat statusCode.toNat).toInt = statusCode.toNat :=
    Int64.toInt_ofNat_of_lt (by omega)
  have hbounds : 0 ≤ (Int64.ofNat statusCode.toNat).toInt ∧
      (Int64.ofNat statusCode.toNat).toInt < 2 ^ 16 := by omega
  exact
    { id := ⟨id, rfl⟩
      requestId := ⟨input.requestId, rfl⟩
      userId := ⟨some input.userId, rfl⟩
      apiKeyId := ⟨input.apiKeyId, rfl⟩
      providerId := ⟨input.providerId, rfl⟩
      routeId := ⟨input.routeId, rfl⟩
      daemonNodeId := ⟨input.daemonNodeId, rfl⟩
      promptTokens := toInt_ofNat_nonneg hfits.promptTokens
      completionTokens := toInt_ofNat_nonneg hfits.completionTokens
      totalTokens := toInt_ofNat_nonneg hfits.totalTokens
      statusCode := hbounds
      latencyMs := toInt_ofNat_nonneg hfits.latencyMs }

theorem Legible.response (hparse : ∀ id : Uuid, parseStr id.toString = .ok id)
    {row : UsageEventRecord} (h : Legible row) (includeDaemonNodeId : Bool) :
    ∃ item, usageEventResponse parseStr includeDaemonNodeId row = .ok item := by
  obtain ⟨id, hid⟩ := h.id
  obtain ⟨requestId, hrequestId⟩ := h.requestId
  obtain ⟨userId, huserId⟩ := h.userId
  obtain ⟨apiKeyId, hapiKeyId⟩ := h.apiKeyId
  obtain ⟨providerId, hproviderId⟩ := h.providerId
  obtain ⟨routeId, hrouteId⟩ := h.routeId
  obtain ⟨daemonNodeId, hdaemonNodeId⟩ := h.daemonNodeId
  unfold usageEventResponse
  rw [hid, hrequestId, huserId, hapiKeyId, hproviderId, hrouteId, hdaemonNodeId]
  simp only [parseUuid_toString hparse, parseOptionalUuid_toString hparse, toU64,
    if_pos h.promptTokens, if_pos h.completionTokens, if_pos h.totalTokens, if_pos h.latencyMs,
    toStatusCode, if_pos h.statusCode]
  by_cases hshown : includeDaemonNodeId
  · simp only [if_pos hshown]
    exact ⟨_, rfl⟩
  · simp only [if_neg hshown]
    exact ⟨_, rfl⟩

end Columns

section Insertions

variable {σ : Type} {exec : (c : SqlCommand) → SqlChoice → σ → Option (c.Response × σ)}
variable {input : BillingInput} {statusCode : UInt16}

-- The clock and the ids are asked for without touching the store.
structure Draws (exec : (c : SqlCommand) → SqlChoice → σ → Option (c.Response × σ)) : Prop where
  unixTimestampString : ∀ choice s, exec .unixTimestampString choice s = some (choice.timestamp, s)
  nowV7 : ∀ choice s, exec .nowV7 choice s = some (choice.uuid, s)

-- Both inserts bind the columns before they go to the database.
def bindColumns (input : BillingInput) (statusCode : UInt16)
    (execute : UsageEventRecord → Sql Unit) :
    Sql Unit := do
  let now ← unixTimestampString
  let id ← nowV7
  let row ← ExceptT.mk (pure (usageEventRow input statusCode id now))
  execute row

theorem insertUsageEvent_eq (input : BillingInput) (statusCode : UInt16) :
    insertUsageEvent input statusCode = bindColumns input statusCode fun row =>
      executeUsageEvent row (usageEventFailed input) := rfl

theorem insertUsageEventTx_eq (input : BillingInput) (statusCode : UInt16) :
    insertUsageEventTx input statusCode = bindColumns input statusCode fun row =>
      query (.insertUsageEvent row) (usageEventFailed input) := rfl

theorem play_draw {c : SqlCommand} {α : Type} {draw : SqlChoice → c.Response}
    (hdraw : ∀ choice s, exec c choice s = some (draw choice, s)) {rest : c.Response → Sql α}
    {choices : List SqlChoice} {s s' : σ} {result : Except AppError α}
    (h : (Prog.perform c .ok >>= rest : Sql α).run.play exec choices s = some (result, s')) :
    ∃ response after, (rest response).run.play exec after s = some (result, s') := by
  obtain ⟨error, rfl, hplay⟩ | ⟨before, after, value, middle, rfl, hplay, hrest⟩ :=
    Prog.exists_play_of_seq h
  · obtain ⟨choice, response, -, -, hresult⟩ := Prog.exists_play_of_perform hplay
    cases hresult
  · obtain ⟨choice, response, -, hexec, hresult⟩ := Prog.exists_play_of_perform hplay
    rw [hdraw] at hexec
    cases hexec
    exact ⟨value, after, hrest⟩

theorem play_bindColumns (hdraws : Draws exec) {execute : UsageEventRecord → Sql Unit}
    {choices : List SqlChoice} {s s' : σ} {result : Except AppError Unit}
    (h : (bindColumns input statusCode execute).run.play exec choices s = some (result, s')) :
    ∃ id now, (∃ error, usageEventRow input statusCode id now = .error error ∧
        result = .error error ∧ s' = s) ∨
      ∃ row after, usageEventRow input statusCode id now = .ok row ∧
        (execute row).run.play exec after s = some (result, s') := by
  obtain ⟨now, choices, h⟩ := play_draw hdraws.unixTimestampString h
  obtain ⟨id, choices, h⟩ := play_draw hdraws.nowV7 h
  refine ⟨id, now, ?_⟩
  cases hrow : usageEventRow input statusCode id now with
  | ok row =>
      rw [hrow] at h
      exact .inr ⟨row, choices, rfl, h⟩
  | error error =>
      rw [hrow] at h
      cases choices with
      | nil =>
          cases h
          exact .inl ⟨error, rfl, rfl, rfl⟩
      | cons => cases h

-- What a call does that is to record an event: it adds the event, or it leaves the store alone
-- because a count of the event does not fit.
structure Records (exec : (c : SqlCommand) → SqlChoice → σ → Option (c.Response × σ))
    (events : σ → List UsageEventRecord) (call : Sql Unit) (input : BillingInput)
    (statusCode : UInt16) : Prop where
  recorded : ∀ choices s s', call.run.play exec choices s = some (.ok (), s') →
    ∃ id now row, usageEventRow input statusCode id now = .ok row ∧ row ∈ events s'
  refused : ¬input.Fits → ∀ choices s result s',
    call.run.play exec choices s = some (result, s') →
      (∃ key message, result = .error (.invalidConfig key message)) ∧ s' = s

theorem records_bindColumns (hdraws : Draws exec) {events : σ → List UsageEventRecord}
    {execute : UsageEventRecord → Sql Unit}
    (hexecute : ∀ row choices s s', (execute row).run.play exec choices s = some (.ok (), s') →
      row ∈ events s') :
    Records exec events (bindColumns input statusCode execute) input statusCode where
  recorded choices s s' h := by
    obtain ⟨id, now, ⟨error, -, hresult, -⟩ | ⟨row, after, hrow, hplay⟩⟩ :=
      play_bindColumns hdraws h
    · cases hresult
    · exact ⟨id, now, row, hrow, hexecute row after s s' hplay⟩
  refused hlarge choices s result s' h := by
    obtain ⟨id, now, ⟨error, hrow, rfl, rfl⟩ | ⟨row, after, hrow, -⟩⟩ := play_bindColumns hdraws h
    · obtain ⟨key, message, rfl⟩ := usageEventRow_error hrow
      exact ⟨⟨key, message, rfl⟩, rfl⟩
    · exact absurd (fits_of_usageEventRow hrow) hlarge

end Insertions

end Mizan.Billing
