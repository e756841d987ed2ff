import Mizan.Billing.Database
import Mizan.Table.Order
import Mathlib.Data.Set.List
import Mathlib.Data.String.Basic

namespace Mizan.Billing

open Table

-- The two columns of `daemon_nodes` that the listing reads.
structure HostedNode where
  id : String
  hostUserId : Option String
  deriving DecidableEq, Repr

structure UsageTables where
  usageEvents : List UsageEventRecord
  daemonNodes : List HostedNode
  deriving DecidableEq, Repr

structure UsageEventFilters where
  userId : Option Uuid := none
  daemonNodeId : Option Uuid := none
  hostUserId : Option Uuid := none
  createdAfter : Option String := none
  createdBefore : Option String := none
  includeDaemonNodeId : Bool := false
  limit : Option Int64 := none
  offset : Option Int64 := none
  deriving DecidableEq, Repr

structure UsageEventResponse where
  id : Uuid
  requestId : Uuid
  userId : Option Uuid
  apiKeyId : Option Uuid
  providerId : Option Uuid
  routeId : Option Uuid
  daemonNodeId : Option Uuid
  model : String
  usagePromptTokens : UInt64
  usageCompletionTokens : UInt64
  usageTotalTokens : UInt64
  usageEstimated : Bool
  statusCode : UInt16
  latencyMs : UInt64
  createdAt : String
  deriving DecidableEq, Repr

structure UsageEventListResponse where
  data : List UsageEventResponse
  deriving DecidableEq, Repr

def DEFAULT_USAGE_LIST_LIMIT : Int64 := 100
def MAX_USAGE_LIST_LIMIT : Int64 := 500

def normalizeLimit (limit : Option Int64) : Except AppError Int64 :=
  let value := limit.getD DEFAULT_USAGE_LIST_LIMIT
  if value ≤ 0 then .error (.invalidConfig "usage.limit" "limit must be positive")
  else .ok (min value MAX_USAGE_LIST_LIMIT)

def normalizeOffset (offset : Option Int64) : Int64 := max (offset.getD 0) 0

-- `TryFromIntError`
def OUT_OF_RANGE_CONVERSION : String := "out of range integral type conversion attempted"

def toStatusCode (value : Int64) : Except AppError UInt16 :=
  if 0 ≤ value.toInt ∧ value.toInt < 2 ^ 16 then .ok (UInt16.ofNat value.toInt.toNat)
  else .error (.infrastructure s!"invalid status code in usage event: {OUT_OF_RANGE_CONVERSION}")

def toU64 (value : Int64) : Except AppError UInt64 :=
  if 0 ≤ value.toInt then .ok (UInt64.ofNat value.toInt.toNat)
  else .error (.infrastructure
    s!"invalid numeric value in usage event payload: {OUT_OF_RANGE_CONVERSION}")

-- The conditions that are pushed onto the text of the query.
inductive Condition where
  | userId
  | daemonNodeId
  | hostUserId
  | createdAfter
  | createdBefore
  deriving DecidableEq, Repr

inductive Bind where
  | text (value : String)
  | integer (value : Int64)
  deriving DecidableEq, Repr

namespace UsageEventFilters

variable (filters : UsageEventFilters)

def pushed {α : Type} (filter : Option α) (condition : Condition) : List Condition :=
  if filter.isSome then [condition] else []

def conditions : List Condition :=
  pushed filters.userId .userId ++ pushed filters.daemonNodeId .daemonNodeId ++
    pushed filters.hostUserId .hostUserId ++ pushed filters.createdAfter .createdAfter ++
    pushed filters.createdBefore .createdBefore

def bound {α : Type} (text : α → String) (filter : Option α) : List Bind :=
  (filter.map fun value => .text (text value)).toList

def binds (limit offset : Int64) : List Bind :=
  bound Uuid.toString filters.userId ++ bound Uuid.toString filters.daemonNodeId ++
    bound Uuid.toString filters.hostUserId ++ bound id filters.createdAfter ++
    bound id filters.createdBefore ++ [.integer limit, .integer offset]

end UsageEventFilters

-- A row of the query: an event and, where the tables are joined, its node.
structure SelectedRow where
  event : UsageEventRecord
  node : Option HostedNode
  deriving DecidableEq, Repr

def Condition.holds (condition : Condition) (value : String) (row : SelectedRow) : Bool :=
  match condition with
  | .userId => row.event.userId = some value
  | .daemonNodeId => row.event.daemonNodeId = some value
  | .hostUserId => row.node.bind HostedNode.hostUserId = some value
  | .createdAfter => value ≤ row.event.createdAt
  | .createdBefore => row.event.createdAt ≤ value

-- The placeholders take the bound values in order; the last two are those of LIMIT and OFFSET.
def assign : List Condition → List Bind → Except String (List (Condition × String) × Int64 × Int64)
  | [], [.integer limit, .integer offset] => .ok ([], limit, offset)
  | condition :: conditions, .text value :: binds =>
      (assign conditions binds).map fun (assigned, page) => ((condition, value) :: assigned, page)
  | _, _ => .error "the bound values do not match the placeholders"

namespace UsageTables

variable (tables : UsageTables)

def events : List SelectedRow := tables.usageEvents.map fun event => { event, node := none }

-- INNER JOIN daemon_nodes ON usage_events.daemon_node_id = daemon_nodes.id
def hosted : List SelectedRow :=
  tables.usageEvents.flatMap fun event =>
    (tables.daemonNodes.filter fun node => event.daemonNodeId = some node.id).map fun node =>
      { event, node := some node }

def select (order : Descending String) (joined : Bool) (conditions : List Condition)
    (binds : List Bind) : Except String (List UsageEventRecord) :=
  (assign conditions binds).map fun (assigned, limit, offset) =>
    let rows := if joined then tables.hosted else tables.events
    let selected := rows.filter fun row => assigned.all fun (condition, value) =>
      condition.holds value row
    (((order.arrange (fun row => row.event.createdAt) selected).drop offset.toInt.toNat).take
      limit.toInt.toNat).map SelectedRow.event

end UsageTables

section MapM
variable {ε α β : Type} {f : α → Except ε β} {values : List α} {results : List β}

theorem mapM_eq_ok_iff :
    values.mapM f = .ok results ↔ values.map f = results.map .ok := by
  induction values generalizing results with
  | nil =>
      constructor
      · intro h
        cases h
        rfl
      · intro h
        rw [List.map_eq_nil_iff.mp h.symm]
        rfl
  | cons value values ih =>
      rw [List.mapM_cons, List.map_cons]
      constructor
      · intro h
        obtain ⟨first, hfirst, h⟩ := except_bind_eq_ok h
        obtain ⟨rest, hrest, h⟩ := except_bind_eq_ok h
        cases h
        rw [hfirst, ih.mp hrest, List.map_cons]
      · intro h
        cases results with
        | nil => cases h
        | cons result results =>
            obtain ⟨hfirst, hrest⟩ := List.cons.inj h
            rw [hfirst, ih.mpr hrest]
            rfl

-- Where every value has a result, the list has one.
theorem mapM_ok (h : ∀ value ∈ values, ∃ result, f value = .ok result) :
    ∃ results, values.mapM f = .ok results := by
  have hrange : values.map f ∈ Set.range (List.map Except.ok) := by
    rw [Set.range_list_map]
    intro answer hmem
    obtain ⟨value, hvalue, rfl⟩ := List.mem_map.mp hmem
    obtain ⟨result, hresult⟩ := h value hvalue
    exact ⟨result, hresult.symm⟩
  obtain ⟨results, hresults⟩ := hrange
  exact ⟨results, mapM_eq_ok_iff.mpr hresults.symm⟩

theorem mapM_eq_map {g : α → β} (h : ∀ value ∈ values, f value = .ok (g value)) :
    values.mapM f = .ok (values.map g) := by
  rw [mapM_eq_ok_iff, List.map_map]
  exact List.map_congr_left h

theorem mem_of_mem_mapM (h : values.mapM f = .ok results) {result : β} (hmem : result ∈ results) :
    ∃ value ∈ values, f value = .ok result := by
  have hanswer : Except.ok result ∈ values.map f := by
    rw [mapM_eq_ok_iff.mp h]
    exact List.mem_map_of_mem hmem
  exact List.mem_map.mp hanswer

end MapM

section Listing

-- `Uuid::parse_str`
variable (parseStr : String → Except String Uuid)

def parseUuid (words raw : String) : Except AppError Uuid :=
  (parseStr raw).mapError fun error => .infrastructure s!"{words}: {error}"

def parseOptionalUuid : Option String → Except AppError (Option Uuid)
  | none => .ok none
  | some value =>
      let value := trim value
      if value = "" then .ok none
      else (parseUuid parseStr "invalid uuid in usage event payload" value).map some

def usageEventResponse (includeDaemonNodeId : Bool) (row : UsageEventRecord) :
    Except AppError UsageEventResponse := do
  let id ← parseUuid parseStr "invalid usage event id" row.id
  let requestId ← parseUuid parseStr "invalid request id in usage event" row.requestId
  let userId ← parseOptionalUuid parseStr row.userId
  let apiKeyId ← parseOptionalUuid parseStr row.apiKeyId
  let providerId ← parseOptionalUuid parseStr row.providerId
  let routeId ← parseOptionalUuid parseStr row.routeId
  let daemonNodeId ←
    if includeDaemonNodeId then parseOptionalUuid parseStr row.daemonNodeId else pure none
  let usagePromptTokens ← toU64 row.usagePromptTokens
  let usageCompletionTokens ← toU64 row.usageCompletionTokens
  let usageTotalTokens ← toU64 row.usageTotalTokens
  let statusCode ← toStatusCode row.statusCode
  let latencyMs ← toU64 row.latencyMs
  pure
    { id, requestId, userId, apiKeyId, providerId, routeId, daemonNodeId, model := row.model
      usagePromptTokens, usageCompletionTokens, usageTotalTokens
      usageEstimated := row.usageEstimated ≠ 0, statusCode, latencyMs, createdAt := row.createdAt }

def listUsageEvents (order : Descending String) (filters : UsageEventFilters)
    (tables : UsageTables) : Except AppError (List UsageEventResponse) := do
  let limit ← normalizeLimit filters.limit
  let offset := normalizeOffset filters.offset
  let rows ← (tables.select order filters.hostUserId.isSome filters.conditions
    (filters.binds limit offset)).mapError .infrastructure
  rows.mapM (usageEventResponse parseStr filters.includeDaemonNodeId)

structure UsageQuery where
  limit : Option Int64
  offset : Option Int64
  deriving DecidableEq, Repr

def listUsage (order : Descending String) (identityUserId : Uuid) (query : UsageQuery)
    (tables : UsageTables) : Except AppError UsageEventListResponse := do
  let data ← listUsageEvents parseStr order
    { userId := some identityUserId, includeDaemonNodeId := false, limit := query.limit
      offset := query.offset } tables
  pure { data }

structure AdminUsageQuery where
  userId : Option Uuid
  daemonNodeId : Option Uuid
  hostUserId : Option Uuid
  createdAfter : Option String
  createdBefore : Option String
  limit : Option Int64
  offset : Option Int64
  deriving DecidableEq, Repr

def listUsageAdmin (order : Descending String) (query : AdminUsageQuery) (tables : UsageTables) :
    Except AppError UsageEventListResponse := do
  let data ← listUsageEvents parseStr order
    { userId := query.userId, daemonNodeId := query.daemonNodeId, hostUserId := query.hostUserId
      createdAfter := query.createdAfter, createdBefore := query.createdBefore
      includeDaemonNodeId := true, limit := query.limit, offset := query.offset } tables
  pure { data }

end Listing

def hideNode (row : UsageEventRecord) : UsageEventRecord := { row with daemonNodeId := none }

def ofUser (userId : Uuid) (row : UsageEventRecord) : Bool := row.userId = some userId.toString

-- The same events of one user in any order, up to the nodes that they ran on.
def SameUsage (userId : Uuid) (before after : UsageTables) : Prop :=
  ((before.usageEvents.filter (ofUser userId)).map hideNode).Perm
    ((after.usageEvents.filter (ofUser userId)).map hideNode)

instance (userId : Uuid) (before after : UsageTables) : Decidable (SameUsage userId before after) :=
  inferInstanceAs (Decidable (List.Perm _ _))

-- No two events of the user are of one second.
def DistinctTimes (userId : Uuid) (tables : UsageTables) : Prop :=
  ((tables.usageEvents.filter (ofUser userId)).map UsageEventRecord.createdAt).Nodup

instance (userId : Uuid) (tables : UsageTables) : Decidable (DistinctTimes userId tables) :=
  inferInstanceAs (Decidable (List.Nodup _))

-- What the query of a user may be answered. The events of one second come in any order.
def CanAnswer (parseStr : String → Except String Uuid) (userId : Uuid) (query : UsageQuery)
    (tables : UsageTables) (response : Except AppError UsageEventListResponse) : Prop :=
  ∃ order, listUsage parseStr order userId query tables = response

-- An event of the user that ran on a node of the host.
def HostedEvent (parseStr : String → Except String Uuid) (tables : UsageTables)
    (userId hostUserId : Uuid) (item : UsageEventResponse) : Prop :=
  ∃ row ∈ tables.usageEvents, ∃ node ∈ tables.daemonNodes,
    row.userId = some userId.toString ∧ row.daemonNodeId = some node.id ∧
    node.hostUserId = some hostUserId.toString ∧ usageEventResponse parseStr true row = .ok item

section Listing

variable {parseStr : String → Except String Uuid} {order : Descending String}

theorem mapM_hideNode (rows : List UsageEventRecord) :
    (rows.map hideNode).mapM (usageEventResponse parseStr false) =
      rows.mapM (usageEventResponse parseStr false) := by
  rw [List.mapM_map]
  rfl

-- What a user is shown is a function of the user's rows without their nodes.
def page (order : Descending String) (limit offset : Int64) (rows : List UsageEventRecord) :
    List UsageEventRecord :=
  ((order.arrange UsageEventRecord.createdAt rows).drop offset.toInt.toNat).take limit.toInt.toNat

theorem page_hideNode (limit offset : Int64) (rows : List UsageEventRecord) :
    page order limit offset (rows.map hideNode) = (page order limit offset rows).map hideNode := by
  rw [page, page, order.arrange_map, List.map_take, List.map_drop]
  rfl

theorem select_ofUser (userId : Uuid) (tables : UsageTables) (limit offset : Int64) :
    tables.select order false [.userId] [.text userId.toString, .integer limit, .integer offset] =
      .ok (page order limit offset (tables.usageEvents.filter (ofUser userId))) := by
  have hrows : (tables.events.filter fun row =>
      [(Condition.userId, userId.toString)].all fun (condition, value) =>
        condition.holds value row) =
      (tables.usageEvents.filter (ofUser userId)).map fun event => { event, node := none } := by
    rw [UsageTables.events, List.filter_map]
    congr 1
    apply List.filter_congr
    intro event _
    simp [Condition.holds, ofUser]
  have hassign : assign [.userId] [.text userId.toString, .integer limit, .integer offset] =
      .ok ([(.userId, userId.toString)], limit, offset) := rfl
  rw [UsageTables.select, hassign]
  simp only [Except.map, if_neg Bool.false_ne_true, hrows]
  rw [order.arrange_map, ← List.map_drop, ← List.map_take, List.map_map]
  exact congrArg Except.ok (List.map_id _)

theorem listUsage_eq (userId : Uuid) (query : UsageQuery) (tables : UsageTables) :
    listUsage parseStr order userId query tables = (do
      let limit ← normalizeLimit query.limit
      let data ← (page order limit (normalizeOffset query.offset)
        ((tables.usageEvents.filter (ofUser userId)).map hideNode)).mapM
          (usageEventResponse parseStr false)
      pure { data }) := by
  simp only [page_hideNode, mapM_hideNode]
  rw [listUsage, listUsageEvents]
  cases hlimit : normalizeLimit query.limit with
  | error error => rfl
  | ok limit =>
      have hselect := @select_ofUser order userId tables limit (normalizeOffset query.offset)
      change (do
        let data ← (do
          let rows ← (tables.select order false [.userId] [.text userId.toString, .integer limit,
            .integer (normalizeOffset query.offset)]).mapError AppError.infrastructure
          rows.mapM (usageEventResponse parseStr false))
        pure { data } : Except AppError UsageEventListResponse) = _
      rw [hselect]
      rfl

theorem assign_pushed {α : Type} (text : α → String) (filter : Option α) (condition : Condition)
    {conditions : List Condition} {binds : List Bind} {assigned : List (Condition × String)}
    {limit offset : Int64} (h : assign conditions binds = .ok (assigned, limit, offset)) :
    assign (UsageEventFilters.pushed filter condition ++ conditions)
        (UsageEventFilters.bound text filter ++ binds) =
      .ok ((filter.map fun value => (condition, text value)).toList ++ assigned, limit,
        offset) := by
  cases filter with
  | none => exact h
  | some value =>
      simp only [UsageEventFilters.pushed, UsageEventFilters.bound, Option.isSome_some, if_true,
        Option.map_some, Option.toList_some, List.cons_append, List.nil_append, assign, h]
      rfl

-- Every condition is bound to the value of its own filter.
theorem assign_filters (filters : UsageEventFilters) (limit offset : Int64) :
    assign filters.conditions (filters.binds limit offset) =
      .ok ((filters.userId.map fun id => (Condition.userId, id.toString)).toList ++
        ((filters.daemonNodeId.map fun id => (Condition.daemonNodeId, id.toString)).toList ++
        ((filters.hostUserId.map fun id => (Condition.hostUserId, id.toString)).toList ++
        ((filters.createdAfter.map fun time => (Condition.createdAfter, time)).toList ++
        ((filters.createdBefore.map fun time => (Condition.createdBefore, time)).toList ++ [])))),
        limit, offset) := by
  have hpage : assign [] [.integer limit, .integer offset] = .ok ([], limit, offset) := rfl
  have hbefore := assign_pushed id filters.createdBefore .createdBefore hpage
  have hafter := assign_pushed id filters.createdAfter .createdAfter hbefore
  have hhost := assign_pushed Uuid.toString filters.hostUserId .hostUserId hafter
  have hnode := assign_pushed Uuid.toString filters.daemonNodeId .daemonNodeId hhost
  have huser := assign_pushed Uuid.toString filters.userId .userId hnode
  simpa only [UsageEventFilters.conditions, UsageEventFilters.binds, List.append_assoc,
    List.append_nil, id_eq] using huser

theorem mem_select {tables : UsageTables} {filters : UsageEventFilters} {limit offset : Int64}
    {joined : Bool} {rows : List UsageEventRecord} {row : UsageEventRecord}
    (h : tables.select order joined filters.conditions (filters.binds limit offset) = .ok rows)
    (hmem : row ∈ rows) : ∃ selected ∈ (if joined then tables.hosted else tables.events),
      selected.event = row ∧
      (∀ id, filters.userId = some id → Condition.userId.holds id.toString selected = true) ∧
      (∀ id, filters.hostUserId = some id →
        Condition.hostUserId.holds id.toString selected = true) := by
  rw [UsageTables.select, assign_filters] at h
  obtain rfl := Except.ok.inj h
  obtain ⟨selected, hselected, hevent⟩ := List.mem_map.mp hmem
  have harranged := order.mem_of_mem_arrange
    (List.mem_of_mem_drop (List.mem_of_mem_take hselected))
  obtain ⟨hrow, hholds⟩ := List.mem_filter.mp harranged
  rw [List.all_eq_true] at hholds
  refine ⟨selected, hrow, hevent, fun id hid => ?_, fun id hid => ?_⟩
  · exact hholds (.userId, id.toString) (by simp [hid])
  · exact hholds (.hostUserId, id.toString) (by simp [hid])

theorem listUsageEvents_ok {filters : UsageEventFilters} {tables : UsageTables}
    {items : List UsageEventResponse}
    (h : listUsageEvents parseStr order filters tables = .ok items) : ∃ limit rows,
      tables.select order filters.hostUserId.isSome filters.conditions
        (filters.binds limit (normalizeOffset filters.offset)) = .ok rows ∧
      rows.mapM (usageEventResponse parseStr filters.includeDaemonNodeId) = .ok items := by
  obtain ⟨limit, _, h⟩ := except_bind_eq_ok h
  obtain ⟨rows, hrows, h⟩ := except_bind_eq_ok h
  refine ⟨limit, rows, ?_, h⟩
  cases hselect : tables.select order filters.hostUserId.isSome filters.conditions
      (filters.binds limit (normalizeOffset filters.offset)) with
  | error error =>
      rw [hselect] at hrows
      cases hrows
  | ok selected =>
      rw [hselect] at hrows
      rw [Except.ok.inj hrows]

theorem hostedEvent_of_listed {query : AdminUsageQuery} {tables : UsageTables}
    {response : UsageEventListResponse} {userId hostUserId : Uuid}
    (huser : query.userId = some userId) (hhost : query.hostUserId = some hostUserId)
    (h : listUsageAdmin parseStr order query tables = .ok response) {item : UsageEventResponse}
    (hmem : item ∈ response.data) : HostedEvent parseStr tables userId hostUserId item := by
  obtain ⟨data, hdata, h⟩ := except_bind_eq_ok h
  obtain rfl := Except.ok.inj h
  obtain ⟨limit, rows, hselect, hitems⟩ := listUsageEvents_ok hdata
  obtain ⟨row, hrow, hitem⟩ := mem_of_mem_mapM hitems hmem
  obtain ⟨selected, hselected, rfl, huserId, hhostId⟩ := mem_select hselect hrow
  have hjoined : query.hostUserId.isSome = true := by rw [hhost, Option.isSome_some]
  rw [if_pos hjoined, UsageTables.hosted] at hselected
  obtain ⟨event, hevent, hpaired⟩ := List.mem_flatMap.mp hselected
  obtain ⟨node, hnode, rfl⟩ := List.mem_map.mp hpaired
  obtain ⟨hnode, hjoin⟩ := List.mem_filter.mp hnode
  refine ⟨event, hevent, node, hnode, ?_, by simpa using hjoin, ?_, hitem⟩
  · simpa [Condition.holds] using huserId userId huser
  · simpa [Condition.holds] using hhostId hostUserId hhost

section Own

variable {userId : Uuid} {before after : UsageTables}

theorem listUsage_of_arranged {order' : Descending String} {query : UsageQuery}
    (h : order.arrange UsageEventRecord.createdAt
        ((before.usageEvents.filter (ofUser userId)).map hideNode) =
      order'.arrange UsageEventRecord.createdAt
        ((after.usageEvents.filter (ofUser userId)).map hideNode)) :
    listUsage parseStr order userId query before =
      listUsage parseStr order' userId query after := by
  rw [listUsage_eq, listUsage_eq]
  simp only [page, h]

theorem CanAnswer.of_same {query : UsageQuery} {response : Except AppError UsageEventListResponse}
    (hsame : SameUsage userId before after)
    (h : CanAnswer parseStr userId query before response) :
    CanAnswer parseStr userId query after response := by
  obtain ⟨order, rfl⟩ := h
  have hperm := order.perm_arrange UsageEventRecord.createdAt
    ((before.usageEvents.filter (ofUser userId)).map hideNode)
  obtain ⟨order', harranged⟩ := Descending.exists_arrange_eq (hperm.trans hsame)
    (order.pairwise_arrange _ _)
  exact ⟨order', (listUsage_of_arranged harranged.symm).symm⟩

theorem listUsage_of_distinct {order' : Descending String} {query : UsageQuery}
    (hsame : SameUsage userId before after) (hdistinct : DistinctTimes userId before) :
    listUsage parseStr order userId query before =
      listUsage parseStr order' userId query after := by
  apply listUsage_of_arranged
  apply Descending.arrange_of_nodup order order' _ hsame
  rw [List.map_map]
  exact hdistinct

end Own

-- Other users' events and the nodes decide nothing, and the admin is shown what was asked for.
theorem usage_listing_does_not_leak (parseStr : String → Except String Uuid) :
    (∀ userId query before after, SameUsage userId before after →
      (∀ response, CanAnswer parseStr userId query before response ↔
        CanAnswer parseStr userId query after response) ∧
      (DistinctTimes userId before → ∀ order order',
        listUsage parseStr order userId query before =
          listUsage parseStr order' userId query after)) ∧
    (∀ order userId hostUserId query tables response, query.userId = some userId →
      query.hostUserId = some hostUserId →
      listUsageAdmin parseStr order query tables = .ok response →
      ∀ item ∈ response.data, HostedEvent parseStr tables userId hostUserId item) := by
  constructor
  · intro userId query before after hsame
    constructor
    · intro response
      exact ⟨fun h => h.of_same hsame, fun h => h.of_same hsame.symm⟩
    · intro hdistinct order order'
      exact listUsage_of_distinct hsame hdistinct
  · intro order userId hostUserId query tables response huser hhost h item hmem
    exact hostedEvent_of_listed huser hhost h hmem

end Listing

-- `Uuid::parse_str` on the texts below.
def sampleParseStr (raw : String) : Except String Uuid :=
  match ([⟨1⟩, ⟨2⟩, ⟨7⟩, ⟨8⟩] : List Uuid).find? fun id => id.toString = raw with
  | some id => .ok id
  | none => .error "invalid character: expected an optional prefix of `urn:uuid:`"

def sampleEvent (id userId : Uuid) (daemonNodeId : String) : UsageEventRecord :=
  { id := id.toString, requestId := id.toString, userId := some userId.toString, apiKeyId := none
    providerId := none, routeId := none, daemonNodeId := some daemonNodeId, model := "llama3.1"
    usagePromptTokens := 3, usageCompletionTokens := 4, usageTotalTokens := 7, usageEstimated := 0
    statusCode := 200, latencyMs := 42, createdAt := "1700000000" }

def ownTables : UsageTables :=
  { usageEvents := [sampleEvent ⟨1⟩ ⟨7⟩ (Uuid.toString ⟨8⟩)]
    daemonNodes := [{ id := Uuid.toString ⟨8⟩, hostUserId := some (Uuid.toString ⟨2⟩) }] }

-- Somebody else's event has come in, and the node of the user's own is no node id any more.
def sharedTables : UsageTables :=
  { usageEvents := [sampleEvent ⟨2⟩ ⟨8⟩ "elsewhere", sampleEvent ⟨1⟩ ⟨7⟩ "malformed"]
    daemonNodes := [] }

def hostedQuery : AdminUsageQuery :=
  { userId := some ⟨7⟩, daemonNodeId := none, hostUserId := some ⟨2⟩, createdAfter := none
    createdBefore := none, limit := none, offset := none }

theorem own_usage_is_the_same_among_others :
    ((listUsage sampleParseStr .stable ⟨7⟩ { limit := none, offset := none } ownTables).map
        fun response => response.data.length) = .ok 1 ∧
      (∀ order order' : Descending String,
        listUsage sampleParseStr order ⟨7⟩ { limit := none, offset := none } ownTables =
          listUsage sampleParseStr order' ⟨7⟩ { limit := none, offset := none } sharedTables) ∧
      ∃ response, listUsageAdmin sampleParseStr .stable hostedQuery ownTables = .ok response ∧
        response.data.length = 1 ∧
        ∀ item ∈ response.data, HostedEvent sampleParseStr ownTables ⟨7⟩ ⟨2⟩ item := by
  have hcount : ((listUsageAdmin sampleParseStr .stable hostedQuery ownTables).map
      fun response => response.data.length) = .ok 1 := by decide +kernel
  refine ⟨by decide +kernel,
    ((usage_listing_does_not_leak sampleParseStr).1 ⟨7⟩ _ _ _ (by decide +kernel)).2
      (by decide +kernel), ?_⟩
  cases hlisted : listUsageAdmin sampleParseStr .stable hostedQuery ownTables with
  | error error =>
      rw [hlisted] at hcount
      cases hcount
  | ok response =>
      rw [hlisted] at hcount
      exact ⟨response, rfl, Except.ok.inj hcount, (usage_listing_does_not_leak sampleParseStr).2
        .stable ⟨7⟩ ⟨2⟩ hostedQuery ownTables response rfl rfl hlisted⟩

-- Two events of one second.
def tiedTables : UsageTables :=
  { usageEvents :=
      [sampleEvent ⟨1⟩ ⟨7⟩ (Uuid.toString ⟨8⟩), sampleEvent ⟨2⟩ ⟨7⟩ (Uuid.toString ⟨8⟩)]
    daemonNodes := [] }

def swappedTables : UsageTables := { tiedTables with usageEvents := tiedTables.usageEvents.reverse }

-- Which of them is on a page of one is left to the engine.
theorem tied_usage_is_open : SameUsage ⟨7⟩ tiedTables swappedTables ∧
    ((listUsage sampleParseStr .stable ⟨7⟩ { limit := some 1, offset := none } tiedTables).map
      fun response => response.data.map UsageEventResponse.id) = .ok [⟨1⟩] ∧
    ((listUsage sampleParseStr .stable ⟨7⟩ { limit := some 1, offset := none } swappedTables).map
      fun response => response.data.map UsageEventResponse.id) = .ok [⟨2⟩] := by
  have hpage {rows : List UsageEventRecord} (limit offset : Int64)
      (h : rows.Pairwise fun row row' => row'.createdAt ≤ row.createdAt) :
      page .stable limit offset rows = (rows.drop offset.toInt.toNat).take limit.toInt.toNat := by
    rw [page, Descending.arrange_stable h]
  have htied (limit offset : Int64) := @hpage
    ((tiedTables.usageEvents.filter (ofUser ⟨7⟩)).map hideNode) limit offset (by decide +kernel)
  have hswapped (limit offset : Int64) := @hpage
    ((swappedTables.usageEvents.filter (ofUser ⟨7⟩)).map hideNode) limit offset (by decide +kernel)
  refine ⟨by decide +kernel, ?_, ?_⟩
  · rw [listUsage_eq]
    simp only [htied]
    decide +kernel
  · rw [listUsage_eq]
    simp only [hswapped]
    decide +kernel

end Mizan.Billing
