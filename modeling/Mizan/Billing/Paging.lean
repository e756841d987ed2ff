import Mizan.Billing.Listing
import Mizan.Table.Paging

namespace Mizan.Billing

open Table

-- What the conditions of the query ask of a row.
def UsageEventFilters.admits (filters : UsageEventFilters) (row : SelectedRow) : Bool :=
  (filters.userId.all fun id => Condition.userId.holds id.toString row) &&
  (filters.daemonNodeId.all fun id => Condition.daemonNodeId.holds id.toString row) &&
  (filters.hostUserId.all fun id => Condition.hostUserId.holds id.toString row) &&
  (filters.createdAfter.all fun time => Condition.createdAfter.holds time row) &&
  filters.createdBefore.all fun time => Condition.createdBefore.holds time row

def UsageTables.matching (tables : UsageTables) (filters : UsageEventFilters) : List SelectedRow :=
  (if filters.hostUserId.isSome then tables.hosted else tables.events).filter filters.admits

def SelectedRow.createdAt (row : SelectedRow) : String := row.event.createdAt

-- The request for one page, at the offset that is `place` pages down.
def pageRequest (filters : UsageEventFilters) (size place : Nat) : UsageEventFilters :=
  { filters with limit := some (Int64.ofNat size), offset := some (Int64.ofNat (place * size)) }

-- The pages that a client asks for one after another, each of them ordered by its own query.
def listPages (parseStr : String → Except String Uuid) (orders : Nat → Descending String)
    (filters : UsageEventFilters) (size count : Nat) (tables : UsageTables) :
    Except AppError (List UsageEventResponse) := do
  let pages ← (List.range count).mapM fun place =>
    listUsageEvents parseStr (orders place) (pageRequest filters size place) tables
  pure pages.flatten

section Pages

variable {parseStr : String → Except String Uuid} {order : Descending String}
variable {tables : UsageTables} {filters : UsageEventFilters}

theorem all_toList_map {α β : Type} (value : Option α) (f : α → β) (p : β → Bool) :
    (value.map f).toList.all p = value.all fun other => p (f other) := by
  cases value <;> simp

theorem select_matching (limit offset : Int64) :
    tables.select order filters.hostUserId.isSome filters.conditions
        (filters.binds limit offset) =
      .ok ((((order.arrange SelectedRow.createdAt (tables.matching filters)).drop
        offset.toInt.toNat).take limit.toInt.toNat).map SelectedRow.event) := by
  rw [UsageTables.select, assign_filters]
  simp only [Except.map, List.all_append, all_toList_map, List.all_nil, Bool.and_true]
  have hadmits : (fun row : SelectedRow => (filters.userId.all fun id =>
      Condition.userId.holds id.toString row) && ((filters.daemonNodeId.all fun id =>
      Condition.daemonNodeId.holds id.toString row) && ((filters.hostUserId.all fun id =>
      Condition.hostUserId.holds id.toString row) && ((filters.createdAfter.all fun time =>
      Condition.createdAfter.holds time row) && filters.createdBefore.all fun time =>
      Condition.createdBefore.holds time row)))) = filters.admits := by
    funext row
    simp only [UsageEventFilters.admits, Bool.and_assoc]
  rw [hadmits]
  rfl

theorem normalizeLimit_ofNat {size : Nat} (hpositive : 1 ≤ size) (hmax : size ≤ 500) :
    normalizeLimit (some (Int64.ofNat size)) = .ok (Int64.ofNat size) := by
  have hint : (Int64.ofNat size).toInt = size := Int64.toInt_ofNat_of_lt (by omega)
  have hlower : ¬Int64.ofNat size ≤ 0 := by
    rw [Int64.le_iff_toInt_le, hint]
    have hzero : (0 : Int64).toInt = 0 := rfl
    omega
  have hupper : Int64.ofNat size ≤ MAX_USAGE_LIST_LIMIT := by
    rw [Int64.le_iff_toInt_le, hint]
    have hlimit : MAX_USAGE_LIST_LIMIT.toInt = 500 := rfl
    omega
  have hmin : min (Int64.ofNat size) MAX_USAGE_LIST_LIMIT =
      if Int64.ofNat size ≤ MAX_USAGE_LIST_LIMIT then Int64.ofNat size
      else MAX_USAGE_LIST_LIMIT := rfl
  simp only [normalizeLimit, Option.getD_some]
  rw [if_neg hlower, hmin, if_pos hupper]

section Shown

variable {shown : SelectedRow → UsageEventResponse}

theorem listUsageEvents_pageRequest
    (hshown : ∀ row ∈ tables.matching filters,
      usageEventResponse parseStr filters.includeDaemonNodeId row.event = .ok (shown row))
    {size place : Nat} (hpositive : 1 ≤ size) (hmax : size ≤ 500)
    (hoffset : place * size < 2 ^ 63) :
    listUsageEvents parseStr order (pageRequest filters size place) tables =
      .ok ((pageAt size place (order.arrange SelectedRow.createdAt (tables.matching filters))).map
        shown) := by
  have hlimit := normalizeLimit_ofNat hpositive hmax
  have hint : (Int64.ofNat size).toInt = size := Int64.toInt_ofNat_of_lt (by omega)
  have hlisted : listUsageEvents parseStr order (pageRequest filters size place) tables = (do
      let limit ← normalizeLimit (some (Int64.ofNat size))
      let rows ← (tables.select order filters.hostUserId.isSome filters.conditions
        (filters.binds limit
          (normalizeOffset (some (Int64.ofNat (place * size)))))).mapError AppError.infrastructure
      rows.mapM (usageEventResponse parseStr filters.includeDaemonNodeId)) := rfl
  rw [hlisted, hlimit]
  change (do
    let rows ← (tables.select order filters.hostUserId.isSome filters.conditions
      (filters.binds (Int64.ofNat size)
        (normalizeOffset (some (Int64.ofNat (place * size)))))).mapError AppError.infrastructure
    rows.mapM (usageEventResponse parseStr filters.includeDaemonNodeId)) = _
  rw [select_matching, normalizeOffset_ofNat hoffset, hint, Int.toNat_natCast]
  change ((pageAt size place (order.arrange SelectedRow.createdAt (tables.matching filters))).map
    SelectedRow.event).mapM (usageEventResponse parseStr filters.includeDaemonNodeId) = _
  rw [List.mapM_map]
  apply mapM_eq_map
  intro row hrow
  exact hshown row (order.mem_of_mem_arrange (List.mem_of_mem_drop (List.mem_of_mem_take hrow)))

theorem listPages_eq {orders : Nat → Descending String}
    (hshown : ∀ row ∈ tables.matching filters,
      usageEventResponse parseStr filters.includeDaemonNodeId row.event = .ok (shown row))
    {size count : Nat} (hpositive : 1 ≤ size) (hmax : size ≤ 500)
    (hcount : (count - 1) * size < 2 ^ 63) :
    listPages parseStr orders filters size count tables =
      .ok ((pages orders SelectedRow.createdAt size count (tables.matching filters)).map
        shown) := by
  have hpages : (List.range count).mapM (fun place =>
      listUsageEvents parseStr (orders place) (pageRequest filters size place) tables) =
        .ok ((List.range count).map fun place => (pageAt size place
          ((orders place).arrange SelectedRow.createdAt (tables.matching filters))).map shown) := by
    apply mapM_eq_map
    intro place hplace
    have hle : place * size ≤ (count - 1) * size := by
      have hlt := List.mem_range.mp hplace
      exact Nat.mul_le_mul_right size (by omega)
    exact listUsageEvents_pageRequest hshown hpositive hmax (by omega)
  rw [listPages, hpages, pages, List.map_flatMap, List.flatMap_def]
  rfl

end Shown

-- Every engine and its order of equal times shows every matching event once, if and only if the
-- events of one second are all on one page.
theorem paging_is_complete_iff (parseStr : String → Except String Uuid) (tables : UsageTables)
    (filters : UsageEventFilters) (shown : SelectedRow → UsageEventResponse) (size : Nat)
    (hpositive : 1 ≤ size) (hmax : size ≤ 500)
    (hshown : ∀ row ∈ tables.matching filters,
      usageEventResponse parseStr filters.includeDaemonNodeId row.event = .ok (shown row))
    (hids : ((tables.matching filters).map fun row => (shown row).id).Nodup)
    (hrows : (tables.matching filters).length < 2 ^ 63) :
    (∀ orders, ∃ items, listPages parseStr orders filters size
        ((tables.matching filters).length / size + 1) tables = .ok items ∧
          items.Perm ((tables.matching filters).map shown)) ↔
      TiesUncut SelectedRow.createdAt size (tables.matching filters) := by
  have hcount : ((tables.matching filters).length / size + 1 - 1) * size < 2 ^ 63 := by
    have hle := Nat.div_mul_le_self (tables.matching filters).length size
    rw [Nat.add_sub_cancel]
    omega
  have hall : (tables.matching filters).length ≤
      ((tables.matching filters).length / size + 1) * size := by
    have hlt := @Nat.lt_div_mul_add (tables.matching filters).length size hpositive
    rw [Nat.add_mul, Nat.one_mul]
    omega
  constructor
  · intro hcomplete
    by_contra hcut
    obtain ⟨orders, hrepeated⟩ := exists_repeated hpositive hall hcut
    obtain ⟨items, hitems, hperm⟩ := hcomplete orders
    rw [listPages_eq hshown hpositive hmax hcount] at hitems
    obtain rfl := Except.ok.inj hitems
    have hnodup : ((tables.matching filters).map shown).Nodup := by
      apply List.Nodup.of_map UsageEventResponse.id
      rw [List.map_map]
      exact hids
    exact hrepeated (List.Nodup.of_map shown (hperm.nodup_iff.mpr hnodup))
  · intro huncut orders
    refine ⟨_, listPages_eq hshown hpositive hmax hcount, ?_⟩
    exact (pages_perm hpositive hall huncut).map shown

def shownEvent (row : SelectedRow) : UsageEventResponse :=
  match usageEventResponse sampleParseStr false row.event with
  | .ok item => item
  | .error _ => listedEvent failedInput 0 ⟨0⟩ ""

-- Pages of one event: an engine may show the one event twice and the other not at all.
theorem tied_event_is_lost : ∃ orders items,
    listPages sampleParseStr orders {} 1 3 tiedTables = .ok items ∧
      ¬items.Perm ((tiedTables.matching {}).map shownEvent) := by
  have hcut : ¬TiesUncut SelectedRow.createdAt 1 (tiedTables.matching {}) := by decide +kernel
  have hshown : ∀ row ∈ tiedTables.matching {}, usageEventResponse sampleParseStr false row.event =
      .ok (shownEvent row) := by decide +kernel
  have hnodup : ((tiedTables.matching {}).map shownEvent).Nodup := by decide +kernel
  obtain ⟨orders, hrepeated⟩ := @exists_repeated _ _ _ _ _ 1 3 (by decide) (by decide +kernel) hcut
  refine ⟨orders, _, listPages_eq hshown (by decide) (by decide) (by decide), fun hperm => ?_⟩
  exact hrepeated (List.Nodup.of_map shownEvent (hperm.nodup_iff.mpr hnodup))

-- On one page of two the two events are safe.
theorem tied_events_on_one_page : (tiedTables.matching {}).length = 2 ∧
    ∀ orders : Nat → Descending String, ∃ items,
      listPages sampleParseStr orders {} 2 2 tiedTables = .ok items ∧
        items.Perm ((tiedTables.matching {}).map shownEvent) :=
  ⟨by decide +kernel, (paging_is_complete_iff sampleParseStr tiedTables {} shownEvent 2 (by decide)
    (by decide) (by decide +kernel) (by decide +kernel) (by decide +kernel)).mpr
      (by decide +kernel)⟩

end Pages

end Mizan.Billing
