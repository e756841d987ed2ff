import Mizan.Billing.Legible

namespace Mizan.Billing

open Interleaving Table

section Listing

variable {parseStr : String → Except String Uuid} {order : Descending String}

theorem select_ok (tables : UsageTables) (joined : Bool) (filters : UsageEventFilters)
    (limit offset : Int64) :
    ∃ rows, tables.select order joined filters.conditions (filters.binds limit offset) = .ok rows ∧
      ∀ row ∈ rows, row ∈ tables.usageEvents := by
  have hok : ∃ rows, tables.select order joined filters.conditions (filters.binds limit offset) =
      .ok rows := by
    rw [UsageTables.select, assign_filters]
    exact ⟨_, rfl⟩
  obtain ⟨rows, hrows⟩ := hok
  refine ⟨rows, hrows, fun row hmem => ?_⟩
  obtain ⟨selected, hselected, rfl, -⟩ := mem_select hrows hmem
  split at hselected
  · obtain ⟨event, hevent, hpaired⟩ := List.mem_flatMap.mp hselected
    obtain ⟨node, -, rfl⟩ := List.mem_map.mp hpaired
    exact hevent
  · obtain ⟨event, hevent, rfl⟩ := List.mem_map.mp hselected
    exact hevent

theorem listUsageEvents_of_legible (hparse : ∀ id : Uuid, parseStr id.toString = .ok id)
    {tables : UsageTables} (h : ∀ row ∈ tables.usageEvents, Legible row)
    {filters : UsageEventFilters} {limit : Int64}
    (hlimit : normalizeLimit filters.limit = .ok limit) :
    ∃ items, listUsageEvents parseStr order filters tables = .ok items := by
  obtain ⟨rows, hrows, hmem⟩ := @select_ok order tables filters.hostUserId.isSome filters limit
    (normalizeOffset filters.offset)
  obtain ⟨items, hitems⟩ := mapM_ok fun row hrow =>
    (h row (hmem row hrow)).response hparse filters.includeDaemonNodeId
  refine ⟨items, ?_⟩
  unfold listUsageEvents
  rw [hlimit]
  change (do
    let rows ← (tables.select order filters.hostUserId.isSome filters.conditions
      (filters.binds limit (normalizeOffset filters.offset))).mapError AppError.infrastructure
    rows.mapM (usageEventResponse parseStr filters.includeDaemonNodeId)) = _
  rw [hrows]
  exact hitems

theorem normalizeOffset_ofNat {place : Nat} (h : place < 2 ^ 63) :
    (normalizeOffset (some (Int64.ofNat place))).toInt.toNat = place := by
  have hint : (Int64.ofNat place).toInt = place := Int64.toInt_ofNat_of_lt h
  have hmax : normalizeOffset (some (Int64.ofNat place)) =
      if Int64.ofNat place ≤ 0 then 0 else Int64.ofNat place := rfl
  rw [hmax]
  by_cases hle : Int64.ofNat place ≤ 0
  · rw [if_pos hle]
    have hzero : (Int64.ofNat place).toInt ≤ 0 := Int64.le_iff_toInt_le.mp hle
    have hplace : place = 0 := by omega
    rw [hplace]
    rfl
  · rw [if_neg hle, hint, Int.toNat_natCast]

-- The page of one event, with the nodes shown.
def pageOf (offset : Int64) : UsageEventFilters :=
  { includeDaemonNodeId := true, limit := some 1, offset := some offset }

theorem select_pageOf (tables : UsageTables) (offset : Int64) :
    tables.select order false (pageOf offset).conditions
      ((pageOf offset).binds 1 (normalizeOffset (some offset))) =
    .ok (page order 1 (normalizeOffset (some offset)) tables.usageEvents) := by
  have hassign : assign (pageOf offset).conditions
      ((pageOf offset).binds 1 (normalizeOffset (some offset))) =
        .ok ([], 1, normalizeOffset (some offset)) := rfl
  rw [UsageTables.select, hassign]
  simp only [Except.map, if_neg Bool.false_ne_true, List.all_nil, List.filter_true]
  rw [UsageTables.events, order.arrange_map, ← List.map_drop, ← List.map_take, List.map_map]
  exact congrArg Except.ok (List.map_id _)

theorem listUsageEvents_pageOf {tables : UsageTables} {row : UsageEventRecord}
    {item : UsageEventResponse} (hmem : row ∈ tables.usageEvents)
    (hsize : tables.usageEvents.length < 2 ^ 63)
    (hitem : usageEventResponse parseStr true row = .ok item) :
    ∃ offset, listUsageEvents parseStr order (pageOf offset) tables = .ok [item] := by
  have hperm := order.perm_arrange UsageEventRecord.createdAt tables.usageEvents
  obtain ⟨place, hplace, hrow⟩ := List.mem_iff_getElem.mp (hperm.mem_iff.mpr hmem)
  have hlt : place < 2 ^ 63 := by
    have hlength := hperm.length_eq
    omega
  refine ⟨Int64.ofNat place, ?_⟩
  have hpage : page order 1 (normalizeOffset (some (Int64.ofNat place))) tables.usageEvents =
      [row] := by
    rw [page, normalizeOffset_ofNat hlt, List.drop_eq_getElem_cons hplace, hrow]
    rfl
  have hlisted : listUsageEvents parseStr order (pageOf (Int64.ofNat place)) tables = (do
      let rows ← (tables.select order false (pageOf (Int64.ofNat place)).conditions
        ((pageOf (Int64.ofNat place)).binds 1
          (normalizeOffset (some (Int64.ofNat place))))).mapError AppError.infrastructure
      rows.mapM (usageEventResponse parseStr true)) := rfl
  rw [hlisted, select_pageOf, hpage]
  change [row].mapM (usageEventResponse parseStr true) = _
  rw [List.mapM_cons, hitem]
  rfl

-- A call that records `input`: what it has recorded can be listed, and an event whose counts do
-- not fit leaves the store as it was.
structure RoundTrips {σ : Type} (parseStr : String → Except String Uuid)
    (exec : (c : SqlCommand) → SqlChoice → σ → Option (c.Response × σ))
    (events : σ → List UsageEventRecord) (call : Sql Unit) (input : BillingInput)
    (statusCode : UInt16) : Prop where
  listed : ∀ choices s s', call.run.play exec choices s = some (.ok (), s') →
    ∃ id now, ∀ order daemonNodes, (events s').length < 2 ^ 63 → ∃ offset,
      listUsageEvents parseStr order (pageOf offset) { usageEvents := events s', daemonNodes } =
        .ok [listedEvent input statusCode id now]
  refused : ¬input.Fits → ∀ choices s result s',
    call.run.play exec choices s = some (result, s') →
      (∃ key message, result = .error (.invalidConfig key message)) ∧ s' = s

theorem Records.roundTrips {σ : Type}
    {exec : (c : SqlCommand) → SqlChoice → σ → Option (c.Response × σ)}
    {events : σ → List UsageEventRecord} {call : Sql Unit} {input : BillingInput}
    {statusCode : UInt16} (hparse : ∀ id : Uuid, parseStr id.toString = .ok id)
    (h : Records exec events call input statusCode) :
    RoundTrips parseStr exec events call input statusCode where
  listed choices s s' hplay := by
    obtain ⟨id, now, row, hrow, hmem⟩ := h.recorded choices s s' hplay
    refine ⟨id, now, fun order daemonNodes hsize => ?_⟩
    exact listUsageEvents_pageOf hmem hsize (usageEventResponse_usageEventRow hparse hrow)
  refused := h.refused

-- No event of the table makes a listing fail.
def Listable (parseStr : String → Except String Uuid) (events : List UsageEventRecord) : Prop :=
  ∀ order daemonNodes filters limit, normalizeLimit filters.limit = .ok limit → ∃ items,
    listUsageEvents parseStr order filters { usageEvents := events, daemonNodes } = .ok items

end Listing

section Runs

theorem LegibleTables.unlinked {σ : Type} {tables : TableStore σ} {s s' : σ}
    (h : LegibleTables tables s) {parent : EventParent} {id : String}
    (hdatabase : tables.database s' = (tables.database s).unlink parent id)
    (hpending : ∀ t, tables.pending s' t = tables.pending s t) : LegibleTables tables s' := by
  constructor
  · intro row hrow
    rw [hdatabase] at hrow
    obtain ⟨before, hbefore, rfl⟩ := List.mem_map.mp hrow
    exact (h.events before hbefore).unlink parent id
  · intro t
    rw [hpending]
    exact h.pending t

-- What a run needs to know of a backend.
structure TableStore.Traces {σ : Type} (tables : TableStore σ)
    (sys : System SqlCommand SqlCommand.Response SqlChoice σ) (start : σ) : Prop where
  start : ∀ t, tables.pending start t = []
  exec : ∀ {t c choice s response s'}, sys.exec t c choice s = some (response, s') →
    EventsMove tables t c s s'
  envDatabase : ∀ {choice s s'}, sys.env choice s = some s' → tables.database s' = tables.database s
  envPending : ∀ {choice s s' t row}, sys.env choice s = some s' →
    .usageEvent row ∈ tables.pending s' t → .usageEvent row ∈ tables.pending s t
  database : ∀ s database, tables.database (tables.withDatabase s database) = database
  pending : ∀ s database t, tables.pending (tables.withDatabase s database) t = tables.pending s t

theorem TableStore.Traces.legible_run {σ : Type} {tables : TableStore σ}
    {sys : System SqlCommand SqlCommand.Response SqlChoice σ} {start : σ}
    (h : tables.Traces sys start) (hempty : (tables.database start).usageEvents = [])
    {backend : DatabaseBackend} {jobs : Nat → Job} {actions : List (Action Happening)}
    {config : Config SqlCommand SqlCommand.Response (Except AppError JobResult) σ}
    (hrun : (linked sys tables).run (code backend jobs) actions (System.initial start) =
      some config) :
    LegibleTables tables config.state := by
  have hstart : LegibleTables tables start := by
    constructor
    · intro row hrow
      rw [hempty] at hrow
      cases hrow
    · intro t row hrow
      rw [h.start] at hrow
      cases hrow
  refine (run_of_obeys (asks_code jobs) ?_ ?_ hstart (obeys_initial _) hrun).1
  · intro t c happening s response s' hc hexec hlegible
    cases happening with
    | database choice => exact hlegible.move hc (h.exec hexec)
    | deleted => cases hexec
  · intro happening s s' henv hlegible
    cases happening with
    | database choice =>
        constructor
        · intro row hrow
          rw [h.envDatabase henv] at hrow
          exact hlegible.events row hrow
        · exact fun t row hrow => hlegible.pending t row (h.envPending henv hrow)
    | deleted =>
        cases henv
        exact hlegible.unlinked (h.database _ _) (h.pending _ _)

theorem Postgres.traces (initial : Database) :
    Postgres.tables.Traces Postgres.system (Postgres.start initial) where
  start _ := rfl
  exec := Postgres.events_move
  envDatabase henv := by
    cases henv
    rfl
  envPending henv hrow := by
    cases henv
    exact Postgres.mem_pending_close hrow
  database _ _ := rfl
  pending _ _ _ := rfl

theorem Sqlite.traces (initial : Database) :
    Sqlite.tables.Traces Sqlite.system (Sqlite.start initial) where
  start _ := rfl
  exec := Sqlite.events_move
  envDatabase henv := by
    cases henv
    rfl
  envPending henv hrow := by
    cases henv
    exact Sqlite.mem_pending_close hrow
  database _ _ := rfl
  pending _ _ _ := rfl

theorem usage_events_round_trip (parseStr : String → Except String Uuid)
    (hparse : ∀ id : Uuid, parseStr id.toString = .ok id) :
    (∀ t input statusCode message,
      RoundTrips parseStr (Postgres.exec t) (fun s => s.database.usageEvents)
        (insertUsageEvent input statusCode) input statusCode ∧
      RoundTrips parseStr (Postgres.exec t) (fun s => s.database.usageEvents)
        (insertAndCommit input statusCode message) input statusCode ∧
      RoundTrips parseStr (Sqlite.exec t) (fun s => s.database.usageEvents)
        (insertUsageEvent input statusCode) input statusCode ∧
      RoundTrips parseStr (Sqlite.exec t) (fun s => s.database.usageEvents)
        (insertAndCommit input statusCode message) input statusCode) ∧
    ∀ jobs initial, initial.usageEvents = [] →
      (∀ actions config, (linked Postgres.system Postgres.tables).run (code .postgres jobs) actions
          (System.initial (Postgres.start initial)) = some config →
        Listable parseStr config.state.database.usageEvents) ∧
      ∀ actions config, (linked Sqlite.system Sqlite.tables).run (code .sqlite jobs) actions
          (System.initial (Sqlite.start initial)) = some config →
        Listable parseStr config.state.database.usageEvents := by
  constructor
  · intro t input statusCode message
    exact ⟨Postgres.records_insertUsageEvent.roundTrips hparse,
      Postgres.records_insertAndCommit.roundTrips hparse,
      Sqlite.records_insertUsageEvent.roundTrips hparse,
      Sqlite.records_insertAndCommit.roundTrips hparse⟩
  · intro jobs initial hempty
    constructor
    · intro actions config hrun order daemonNodes filters limit hlimit
      exact listUsageEvents_of_legible hparse
        ((Postgres.traces initial).legible_run hempty hrun).events hlimit
    · intro actions config hrun order daemonNodes filters limit hlimit
      exact listUsageEvents_of_legible hparse
        ((Sqlite.traces initial).legible_run hempty hrun).events hlimit

-- A failed request is recorded and its user goes away: the event stays and can be listed.
def failedInput : BillingInput :=
  { requestId := ⟨5⟩, userId := ⟨7⟩, apiKeyId := none, providerId := none, routeId := none
    daemonNodeId := none, model := "llama3.1"
    usage := { promptTokens := 3, completionTokens := 4, totalTokens := 7, estimated := false }
    statusCode := 502, latencyMs := 42
    routePrice := { inputMicrocreditsPer1mTokens := 0, outputMicrocreditsPer1mTokens := 0 } }

def failedActions : List (Action Happening) :=
  [.spawn 0, .call 0 (.database {}), .call 0 (.database {}), .call 0 (.database {}),
    .env (.deleted .user (Uuid.toString ⟨7⟩))]

theorem usage_event_of_deleted_user_is_listable : ∃ config,
    (linked Postgres.system Postgres.tables).run (code .postgres fun _ => .recordUsage failedInput)
      failedActions (System.initial (Postgres.start (.ofAccounts .empty))) = some config ∧
    config.state.database.usageEvents.map UsageEventRecord.userId = [none] ∧
    Listable Uuid.parseHyphenated config.state.database.usageEvents :=
  ⟨_, rfl, by decide +kernel, ((usage_events_round_trip Uuid.parseHyphenated
    Uuid.parseHyphenated_toString).2 (fun _ => .recordUsage failedInput) (.ofAccounts .empty)
      rfl).1 failedActions _ rfl⟩

end Runs

end Mizan.Billing
