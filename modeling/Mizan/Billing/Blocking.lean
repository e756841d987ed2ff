import Mizan.Billing.Pool

namespace Mizan.Billing

open Interleaving Pooled

abbrev PoolState := Pooled × (Nat → CallPhase)

abbrev PoolConfig := Config SqlCommand SqlCommand.Response (Except AppError Unit) PoolState

def recordUsageSystem (backend : DatabaseBackend) (maxConnections : Nat)
    (inputs : Nat → BillingInput) :
    System SqlCommand SqlCommand.Response SqlChoice PoolState :=
  Typestate.track (Pooled.system backend maxConnections) fun t => recordUsageTypestate (inputs t)

def calls (backend : DatabaseBackend) (inputs : Nat → BillingInput) (t : Nat) :
    Prog SqlCommand SqlCommand.Response (Except AppError Unit) :=
  (recordUsage backend (inputs t)).run

-- The calls with an open transaction that have read a balance below their charge.
def shortCalls (s : PoolState) : List Nat := s.1.connections.filter fun t => (s.2 t).short

-- The open transactions of the users of these calls: the short calls and those queued behind
-- the locks on their wallets.
def tied (inputs : Nat → BillingInput) (connections short : List Nat) : List Nat :=
  connections.filter fun t => short.any fun u => (inputs u).userId = (inputs t).userId

-- Room for the event of a short call: under SQLite no transaction may be open beside it, not
-- even its own, and under PostgreSQL some connection must not be tied up.
def Room (backend : DatabaseBackend) (maxConnections : Nat) (inputs : Nat → BillingInput)
    (connections short : List Nat) : Prop :=
  match backend with
  | .sqlite => short = []
  | .postgres => (tied inputs connections short).length < maxConnections

-- What a command would read as a balance below the charge.
def readsShort (input : BillingInput) (t : Nat) (s : Pooled) : SqlCommand → Bool
  | .statement (.selectWallet owner _) =>
      (s.walletSeen t owner).any fun row => row.balanceMicrocredits < chargeOf input
  | _ => false

def waitsOf (backend : DatabaseBackend) (maxConnections : Nat) (t : Nat) (c : SqlCommand)
    (s : PoolState) : List (List Nat) :=
  waitsFor backend maxConnections t c s.1

-- The steps that leave room for the events of short calls. Nothing else is asked of them, except
-- that an INSERT through the pool only fails by a wait that would never end.
def LeavesRoom (backend : DatabaseBackend) (maxConnections : Nat) (inputs : Nat → BillingInput) :
    Action SqlChoice → PoolConfig → Prop
  | .call t choice, config => ∀ c next, config.threads t = some (.call c next) →
      (c = .begin → Room backend maxConnections inputs (config.state.1.connections ++ [t])
        (shortCalls config.state)) ∧
      (readsShort (inputs t) t config.state.1 c = true →
        Room backend maxConnections inputs config.state.1.connections
          (t :: shortCalls config.state)) ∧
      ∀ row, c = .insertUsageEvent row → choice.fault ≠ none →
        ∃ stuck, Deadlock (waitsOf backend maxConnections) config stuck ∧ stuck t
  | _, _ => True

variable {backend : DatabaseBackend} {maxConnections : Nat} {inputs : Nat → BillingInput}

theorem Room.mono {connections short connections' short' : List Nat}
    (h : Room backend maxConnections inputs connections short)
    (hconnections : connections'.Sublist connections) (hshort : ∀ t ∈ short', t ∈ short) :
    Room backend maxConnections inputs connections' short' := by
  cases backend with
  | sqlite =>
      have hnil : short = [] := h
      subst hnil
      exact List.eq_nil_iff_forall_not_mem.mpr fun t ht => List.not_mem_nil (hshort t ht)
  | postgres =>
      refine Nat.lt_of_le_of_lt ?_ h
      refine List.Sublist.length_le ?_
      refine (List.monotone_filter_right connections' fun t ht => ?_).trans
        (hconnections.filter fun t => short.any fun u => (inputs u).userId = (inputs t).userId)
      rw [List.any_eq_true] at ht ⊢
      obtain ⟨u, hu, huser⟩ := ht
      exact ⟨u, hshort u hu, huser⟩

structure PoolInvariant (backend : DatabaseBackend) (maxConnections : Nat)
    (inputs : Nat → BillingInput) (s : PoolState) : Prop where
  opened : ∀ t, t ∈ s.1.connections ↔ (s.2 t).opened = true
  locks : ∀ owner u, s.1.walletLocks owner = some u →
    u ∈ s.1.connections ∧ (inputs u).userId = owner
  readers : ∀ u ∈ s.1.readers, u ∈ s.1.connections
  writer : ∀ u, s.1.writer = some u → u ∈ s.1.connections
  room : Room backend maxConnections inputs s.1.connections (shortCalls s)
  recorded : ∀ t, (s.2 t).recorded = true →
    ∃ row ∈ s.1.database.usageEvents, isPaymentRequired (inputs t) row = true
  failed : ∀ t, (s.2 t).short = true → (s.2 t).failed = false

section Steps

variable {s : PoolState} {t : Nat} {p : CallPhase} {server : Pooled}

-- Thread `t` takes a step that leaves it in phase `p` and the server in this state.
def place (s : PoolState) (server : Pooled) (t : Nat) (p : CallPhase) : PoolState :=
  (server, Function.update s.2 t p)

theorem place_self (s : PoolState) (t : Nat) : place s s.1 t (s.2 t) = s := by
  rw [place, Function.update_eq_self]

theorem place_phase (property : Nat → CallPhase → Prop) (hself : property t p)
    (hothers : ∀ u, u ≠ t → property u (s.2 u)) (u : Nat) :
    property u ((place s server t p).2 u) := by
  by_cases heq : u = t
  · subst heq
    simpa only [place, Function.update_self] using hself
  · simpa only [place, Function.update_of_ne heq] using hothers u heq

theorem mem_shortCalls_place {u : Nat} (h : u ∈ shortCalls (place s server t p)) :
    u ∈ server.connections ∧ (u = t ∧ p.short = true ∨ u ≠ t ∧ (s.2 u).short = true) := by
  simp only [shortCalls, place, List.mem_filter] at h
  obtain ⟨hmem, hshort⟩ := h
  by_cases heq : u = t
  · subst heq
    rw [Function.update_self] at hshort
    exact ⟨hmem, .inl ⟨rfl, hshort⟩⟩
  · rw [Function.update_of_ne heq] at hshort
    exact ⟨hmem, .inr ⟨heq, hshort⟩⟩

-- A step that changes neither the connections nor the locks.
theorem PoolInvariant.store (h : PoolInvariant backend maxConnections inputs s)
    {database : Database}
    (hevents : ∀ row ∈ s.1.database.usageEvents, row ∈ database.usageEvents)
    (hphase : p.opened = (s.2 t).opened) (hshort : p.short = (s.2 t).short)
    (hrecorded : p.recorded = true →
      ∃ row ∈ database.usageEvents, isPaymentRequired (inputs t) row = true)
    (hfailed : p.short = true → p.failed = false) :
    PoolInvariant backend maxConnections inputs (place s { s.1 with database } t p) := by
  refine ⟨?_, h.locks, h.readers, h.writer, ?_, ?_, ?_⟩
  · exact place_phase (fun u p => u ∈ s.1.connections ↔ p.opened = true)
      (by rw [hphase]; exact h.opened t) fun u _ => h.opened u
  · refine h.room.mono (List.Sublist.refl _) fun u hu => ?_
    obtain ⟨hmem, ⟨rfl, hp⟩ | ⟨-, hp⟩⟩ := mem_shortCalls_place hu
    · exact List.mem_filter.mpr ⟨hmem, by rw [← hshort]; exact hp⟩
    · exact List.mem_filter.mpr ⟨hmem, hp⟩
  · refine place_phase (fun u p => p.recorded = true →
      ∃ row ∈ database.usageEvents, isPaymentRequired (inputs u) row = true) hrecorded
      fun u _ hu => ?_
    obtain ⟨row, hrow, hpayment⟩ := h.recorded u hu
    exact ⟨row, hevents row hrow, hpayment⟩
  · exact place_phase (fun _ p => p.short = true → p.failed = false) hfailed fun u _ => h.failed u

theorem PoolInvariant.openTx (h : PoolInvariant backend maxConnections inputs s)
    (hstart : s.2 t = {})
    (hroom : Room backend maxConnections inputs (s.1.connections ++ [t]) (shortCalls s)) :
    PoolInvariant backend maxConnections inputs (place s (s.1.openTx t) t { opened := true }) := by
  have hconnections : ∀ u, u ∈ s.1.connections → u ∈ (s.1.openTx t).connections :=
    fun u hu => List.mem_append_left _ hu
  refine ⟨?_, fun owner u hlock => ?_, fun u hu => hconnections u (h.readers u hu),
    fun u hu => hconnections u (h.writer u hu), ?_, ?_, ?_⟩
  · refine place_phase (fun u p => u ∈ (s.1.openTx t).connections ↔ p.opened = true)
      (by simp [Pooled.openTx]) fun u hne => ?_
    rw [← h.opened u]
    simp [Pooled.openTx, hne]
  · obtain ⟨hmem, huser⟩ := h.locks owner u hlock
    exact ⟨hconnections u hmem, huser⟩
  · refine hroom.mono (List.Sublist.refl _) fun u hu => ?_
    obtain ⟨hmem, ⟨rfl, hp⟩ | ⟨hne, hp⟩⟩ := mem_shortCalls_place hu
    · cases hp
    · refine List.mem_filter.mpr ⟨?_, hp⟩
      simpa [Pooled.openTx, hne] using hmem
  · refine place_phase (fun u p => p.recorded = true →
      ∃ row ∈ (s.1.openTx t).database.usageEvents, isPaymentRequired (inputs u) row = true)
      (fun hp => by cases hp) fun u _ => h.recorded u
  · exact place_phase (fun _ p => p.short = true → p.failed = false) (fun hp => by cases hp)
      fun u _ => h.failed u

theorem PoolInvariant.close (h : PoolInvariant backend maxConnections inputs s)
    {database : Database}
    (hevents : ∀ row ∈ s.1.database.usageEvents, row ∈ database.usageEvents)
    (hphase : p = { s.2 t with opened := false }) :
    PoolInvariant backend maxConnections inputs (place s { s.1.close t with database } t p) := by
  refine ⟨?_, fun owner u hlock => ?_, fun u hu => ?_, fun u hu => ?_, ?_, ?_, ?_⟩
  · refine place_phase (fun u p => u ∈ (s.1.close t).connections ↔ p.opened = true)
      (by simp [Pooled.close, hphase]) fun u hne => ?_
    rw [← h.opened u]
    simp [Pooled.close, hne]
  · obtain ⟨hlock, hne⟩ := Option.filter_eq_some_iff.mp hlock
    obtain ⟨hmem, huser⟩ := h.locks owner u hlock
    exact ⟨List.mem_filter.mpr ⟨hmem, hne⟩, huser⟩
  · obtain ⟨hmem, hne⟩ := List.mem_filter.mp hu
    exact List.mem_filter.mpr ⟨h.readers u hmem, hne⟩
  · obtain ⟨hwriter, hne⟩ := Option.filter_eq_some_iff.mp hu
    exact List.mem_filter.mpr ⟨h.writer u hwriter, hne⟩
  · refine h.room.mono List.filter_sublist fun u hu => ?_
    obtain ⟨hmem, hp⟩ := mem_shortCalls_place hu
    have hopen : u ∈ s.1.connections ∧ u ≠ t := by simpa [Pooled.close] using hmem
    obtain ⟨rfl, -⟩ | ⟨-, hp⟩ := hp
    · exact absurd rfl hopen.2
    · exact List.mem_filter.mpr ⟨hopen.1, hp⟩
  · refine place_phase (fun u p => p.recorded = true →
      ∃ row ∈ database.usageEvents, isPaymentRequired (inputs u) row = true) (fun hp => ?_)
      fun u _ hu => ?_
    · subst hphase
      obtain ⟨row, hrow, hpayment⟩ := h.recorded t hp
      exact ⟨row, hevents row hrow, hpayment⟩
    · obtain ⟨row, hrow, hpayment⟩ := h.recorded u hu
      exact ⟨row, hevents row hrow, hpayment⟩
  · refine place_phase (fun _ p => p.short = true → p.failed = false) (fun hp => ?_)
      fun u _ => h.failed u
    subst hphase
    exact h.failed t hp

theorem locksWallet_owner {statement : Statement} {owner : Uuid}
    (henabled : (recordUsageTypestate (inputs t)).enabled p (.statement statement))
    (h : s.1.locksWallet t statement = some owner) : owner = (inputs t).userId := by
  obtain ⟨-, hselect, hinsert⟩ := henabled
  cases statement with
  | selectWallet owner' forUpdate =>
      cases forUpdate with
      | false => cases h
      | true =>
          simp only [locksWallet] at h
          split at h
          · cases h
            exact hselect _ _ rfl
          · cases h
  | insertWallet row =>
      simp only [locksWallet] at h
      split at h
      · cases h
        exact hinsert row rfl
      · cases h
  | insertLedger | updateBalance | insertUsageEvent => cases h

-- A statement adds to the locks of its own transaction, and may read a balance that is short.
theorem PoolInvariant.statement (h : PoolInvariant backend maxConnections inputs s)
    {statement : Statement} {txs : Nat → Option (List Write)}
    (henabled : (recordUsageTypestate (inputs t)).enabled (s.2 t) (.statement statement))
    (hroom : p.short = true →
      Room backend maxConnections inputs s.1.connections (t :: shortCalls s))
    (hphase : p.opened = true) (hrecorded : p.recorded = false) (hfailed : p.failed = false) :
    PoolInvariant backend maxConnections inputs
      (place s { s.1.lock backend t statement with txs } t p) := by
  have hopened : (s.2 t).opened = true := by rw [henabled.1]
  have hown : t ∈ s.1.connections := (h.opened t).mpr hopened
  refine ⟨?_, fun owner u hlock => ?_, fun u hu => ?_, fun u hu => ?_, ?_, ?_, ?_⟩
  · refine place_phase (fun u p => u ∈ (s.1.lock backend t statement).connections ↔
      p.opened = true) (by simp [hown, hphase]) fun u _ => ?_
    rw [connections_lock]
    exact h.opened u
  · rw [place, connections_lock]
    rcases walletLocks_lock hlock with hold | ⟨rfl, howner⟩
    · exact h.locks owner u hold
    · exact ⟨hown, (locksWallet_owner henabled howner).symm⟩
  · rw [place, connections_lock]
    rcases mem_readers_lock hu with hold | rfl
    · exact h.readers u hold
    · exact hown
  · rw [place, connections_lock]
    rcases writer_lock hu with hold | rfl
    · exact h.writer u hold
    · exact hown
  · have hmem : ∀ u ∈ shortCalls (place s { s.1.lock backend t statement with txs } t p),
        u = t ∧ p.short = true ∨ u ∈ shortCalls s := by
      intro u hu
      obtain ⟨hmem, hself | ⟨-, hshort⟩⟩ := mem_shortCalls_place hu
      · exact .inl hself
      · exact .inr (List.mem_filter.mpr ⟨by rw [← connections_lock]; exact hmem, hshort⟩)
    have hconnections : (place s { s.1.lock backend t statement with txs } t p).1.connections =
        s.1.connections := connections_lock
    rw [hconnections]
    by_cases hshort : p.short = true
    · refine (hroom hshort).mono (List.Sublist.refl _) fun u hu => ?_
      rcases hmem u hu with ⟨rfl, -⟩ | hold
      · exact List.mem_cons_self
      · exact List.mem_cons_of_mem t hold
    · exact h.room.mono (List.Sublist.refl _) fun u hu =>
        (hmem u hu).resolve_left fun hself => hshort hself.2
  · have hdatabase : (place s { s.1.lock backend t statement with txs } t p).1.database =
        s.1.database := database_lock
    rw [hdatabase]
    exact place_phase (fun u p => p.recorded = true →
      ∃ row ∈ s.1.database.usageEvents, isPaymentRequired (inputs u) row = true)
      (fun hp => by simp [hrecorded] at hp) fun u _ => h.recorded u
  · exact place_phase (fun _ p => p.short = true → p.failed = false) (fun _ => hfailed)
      fun u _ => h.failed u

theorem usageEvents_applyAll (database : Database) (writes : List Write) :
    ∀ row ∈ database.usageEvents, row ∈ (database.applyAll writes).usageEvents := by
  induction writes generalizing database with
  | nil => exact fun row hrow => hrow
  | cons write writes ih =>
      intro row hrow
      refine ih (database.apply write) row ?_
      cases write <;> simp [Database.apply, hrow]

-- A step that is answered with an error, or that asks nothing of the database.
theorem PoolInvariant.same (h : PoolInvariant backend maxConnections inputs s) (t : Nat) :
    PoolInvariant backend maxConnections inputs (place s s.1 t (s.2 t)) := by
  rw [place_self]
  exact h

theorem runStatement_ok {s s' : Pooled} {statement : Statement} {rows : statement.Rows}
    (h : s.runStatement backend t statement = .ok (rows, s')) :
    ∃ writes more txs, s.txs t = some writes ∧
      statement.execute (s.view writes) = .ok (rows, more) ∧
      s' = { s.lock backend t statement with txs } := by
  simp only [Pooled.runStatement] at h
  split at h
  · cases h
  · rename_i writes hwrites
    split at h
    · cases h
    · cases hexecute : statement.execute (s.view writes) with
      | error error => simp [hexecute, Except.map] at h
      | ok pair =>
          simp only [hexecute, Except.map, Except.ok.injEq, Prod.mk.injEq] at h
          obtain ⟨rfl, rfl⟩ := h
          exact ⟨writes, pair.2, _, hwrites, hexecute, rfl⟩

-- Where a statement that goes through leaves its call: the balance it reads is the one that
-- the wallet has there.
theorem after_statement {statement : Statement} {rows : statement.Rows} {s' : Pooled}
    (h : s.1.runStatement backend t statement = .ok (rows, s')) (hp : p = { opened := true }) :
    (recordUsageTypestate (inputs t)).after p (.statement statement) (.ok rows) = p ∨
      (recordUsageTypestate (inputs t)).after p (.statement statement) (.ok rows) =
        { opened := true, short := readsShort (inputs t) t s.1 (.statement statement) } := by
  subst hp
  cases statement with
  | insertWallet | insertLedger | updateBalance | insertUsageEvent => exact .inl rfl
  | selectWallet owner forUpdate =>
      obtain ⟨writes, more, txs, hwrites, hexecute, -⟩ := runStatement_ok h
      cases hexecute
      cases hwallet : (s.1.view writes).walletOf owner with
      | none => exact .inl rfl
      | some wallet =>
          refine .inr ?_
          simp only [readsShort, walletSeen, hwrites, Option.bind_some, hwallet, Option.any_some]
          rfl

theorem PoolInvariant.run (h : PoolInvariant backend maxConnections inputs s) {c : SqlCommand}
    {choice : SqlChoice} (henabled : (recordUsageTypestate (inputs t)).enabled (s.2 t) c)
    (hbegin : c = .begin →
      Room backend maxConnections inputs (s.1.connections ++ [t]) (shortCalls s))
    (hread : readsShort (inputs t) t s.1 c = true →
      Room backend maxConnections inputs s.1.connections (t :: shortCalls s))
    (hinsert : ∀ row, c = .insertUsageEvent row → choice.fault = none) :
    PoolInvariant backend maxConnections inputs
      (place s (Pooled.run backend t c choice s.1).2 t
        ((recordUsageTypestate (inputs t)).after (s.2 t) c
          (Pooled.run backend t c choice s.1).1)) := by
  cases c with
  | begin =>
      have hstart : s.2 t = {} := henabled
      simp only [Pooled.run]
      rcases answer_cases choice (.ok ((), s.1.openTx t)) s.1 with
        ⟨error, hanswer⟩ | ⟨value, s', hresult, -, hanswer⟩
      · rw [hanswer]
        exact h.same t
      · cases hresult
        rw [hanswer]
        simpa [recordUsageTypestate, hstart] using h.openTx hstart (hbegin rfl)
  | statement statement =>
      have hopened : s.2 t = { opened := true } := henabled.1
      simp only [Pooled.run]
      rcases answer_cases choice (s.1.runStatement backend t statement) s.1 with
        ⟨error, hanswer⟩ | ⟨rows, s', hresult, -, hanswer⟩
      · rw [hanswer]
        have hafter : (recordUsageTypestate (inputs t)).after (s.2 t) (.statement statement)
            (.error error) = s.2 t := by
          cases statement <;> rfl
        rw [hafter]
        exact h.same t
      · rw [hanswer]
        obtain ⟨writes, more, txs, -, -, hstate⟩ := runStatement_ok hresult
        subst hstate
        rcases after_statement hresult hopened with hafter | hafter
        · rw [hafter, hopened]
          exact h.statement henabled (fun hshort => by cases hshort) rfl rfl rfl
        · rw [hafter]
          exact h.statement henabled hread rfl rfl rfl
  | commit =>
      have hopened : s.2 t = { opened := true } := henabled
      simp only [Pooled.run]
      rcases answer_cases choice (s.1.commit t) s.1 with
        ⟨error, hanswer⟩ | ⟨value, s', hresult, -, hanswer⟩
      · rw [hanswer]
        exact h.same t
      · rw [hanswer]
        simp only [Pooled.commit] at hresult
        split at hresult
        · cases hresult
        · rename_i writes _
          cases hresult
          exact h.close (usageEvents_applyAll s.1.database writes) rfl
  | rollback => exact h.close (fun _ hrow => hrow) rfl
  | insertUsageEvent row =>
      have hfault := hinsert row rfl
      have hanswer : answer choice
          (.ok ((), { s.1 with database := s.1.database.apply (.usageEvent row) })) s.1 =
          (.ok (), { s.1 with database := s.1.database.apply (.usageEvent row) }) := by
        simp [answer, hfault]
      simp only [Pooled.run, hanswer]
      have hphase : (s.2 t).failed = false := by
        rcases henabled with hstart | ⟨hshort, -⟩
        · rw [hstart]
        · rw [hshort]
      refine h.store (fun row' hrow' => by simp [Database.apply, hrow']) rfl rfl
        (fun hpayment => ?_)
        fun _ => hphase
      exact ⟨row, by simp [Database.apply], hpayment⟩
  | insertAdminAudit row => exact henabled.elim
  | nowV7 => exact h.same t
  | unixTimestampString => exact h.same t

end Steps

section Deadlocks

variable {config : PoolConfig} {stuck : Nat → Prop}

abbrev CallsPlaced (inputs : Nat → BillingInput) (config : PoolConfig) : Prop :=
  Typestate.Placed (fun t => recordUsageTypestate (inputs t)) (fun t => Ended (inputs t)) {} config

-- What a stuck thread is about to do, and which of the things it lacks only stuck threads hold.
theorem enabled_of_stuck (hplaced : CallsPlaced inputs config)
    (hdead : Deadlock (waitsOf backend maxConnections) config stuck) {t : Nat} (ht : stuck t) :
    ∃ c, (recordUsageTypestate (inputs t)).enabled (config.state.2 t) c ∧
      ∃ holders ∈ waitsFor backend maxConnections t c config.state.1, ∀ u ∈ holders, stuck u := by
  obtain ⟨c, next, hthread, hwait⟩ := hdead.2 t ht
  have hplace := hplaced t
  rw [hthread] at hplace
  exact ⟨c, hplace.1, hwait⟩

-- The pool is exhausted, and every connection is held by a stuck call.
def Exhausted (maxConnections : Nat) (s : Pooled) (stuck : Nat → Prop) : Prop :=
  maxConnections ≤ s.connections.length ∧ ∀ u ∈ s.connections, stuck u

theorem exhausted_of_connectionWait {s : Pooled} {holders : List Nat}
    (hmem : holders ∈ connectionWait maxConnections s) (hstuck : ∀ u ∈ holders, stuck u) :
    Exhausted maxConnections s stuck := by
  rw [connectionWait] at hmem
  split at hmem
  · rename_i hfull
    rw [List.mem_singleton.mp hmem] at hstuck
    exact ⟨hfull, hstuck⟩
  · cases hmem

theorem mem_shortCalls_iff {s : PoolState} (h : PoolInvariant backend maxConnections inputs s)
    {t : Nat} (ht : s.2 t = { opened := true, short := true }) : t ∈ shortCalls s := by
  refine List.mem_filter.mpr ⟨(h.opened t).mpr ?_, ?_⟩
  · rw [ht]
  · rw [ht]

section Postgres

variable (h : PoolInvariant .postgres maxConnections inputs config.state)
  (hplaced : CallsPlaced inputs config)
  (hdead : Deadlock (waitsOf .postgres maxConnections) config stuck)

include h hplaced hdead

-- A stuck call waits for a connection, or for another stuck call to unlock the wallet of its user.
theorem postgres_wait {t : Nat} (ht : stuck t) :
    Exhausted maxConnections config.state.1 stuck ∧
        (t ∈ config.state.1.connections → t ∈ shortCalls config.state) ∨
      ∃ u, u ≠ t ∧ stuck u ∧ config.state.1.walletLocks (inputs t).userId = some u := by
  obtain ⟨c, henabled, holders, hmem, hstuck⟩ := enabled_of_stuck hplaced hdead ht
  cases c with
  | begin =>
      have hstart : config.state.2 t = {} := henabled
      refine .inl ⟨exhausted_of_connectionWait hmem hstuck, fun hopen => ?_⟩
      have hopened := (h.opened t).mp hopen
      rw [hstart] at hopened
      cases hopened
  | statement statement =>
      simp only [waitsFor, List.mem_map, Option.mem_toList] at hmem
      obtain ⟨u, hlock, rfl⟩ := hmem
      obtain ⟨owner, howner, hholder⟩ := Option.bind_eq_some_iff.mp hlock
      obtain ⟨hholder, hne⟩ := Option.filter_eq_some_iff.mp hholder
      rw [locksWallet_owner henabled howner] at hholder
      exact .inr ⟨u, by simpa using hne, hstuck u (by simp), hholder⟩
  | insertUsageEvent row =>
      simp only [waitsFor, List.append_nil] at hmem
      refine .inl ⟨exhausted_of_connectionWait hmem hstuck, fun hopen => ?_⟩
      rcases henabled with hstart | ⟨hshort, -⟩
      · have hopened := (h.opened t).mp hopen
        rw [hstart] at hopened
        cases hopened
      · exact mem_shortCalls_iff h hshort
  | insertAdminAudit row => exact henabled.elim
  | commit => cases hmem
  | rollback => cases hmem
  | nowV7 => cases hmem
  | unixTimestampString => cases hmem

-- The stuck holder of a lock waits for a connection itself, so it has read a short balance.
theorem postgres_holder {owner : Uuid} {u : Nat} (hu : stuck u)
    (hlock : config.state.1.walletLocks owner = some u) :
    Exhausted maxConnections config.state.1 stuck ∧ u ∈ shortCalls config.state ∧
      (inputs u).userId = owner := by
  obtain ⟨hopen, huser⟩ := h.locks owner u hlock
  rcases postgres_wait h hplaced hdead hu with ⟨hexhausted, hshort⟩ | ⟨v, hne, -, hother⟩
  · exact ⟨hexhausted, hshort hopen, huser⟩
  · rw [huser, hlock] at hother
    exact absurd (Option.some.inj hother).symm hne

theorem postgres_exhausted : Exhausted maxConnections config.state.1 stuck := by
  obtain ⟨t, ht⟩ := hdead.1
  rcases postgres_wait h hplaced hdead ht with ⟨hexhausted, -⟩ | ⟨u, -, hu, hlock⟩
  · exact hexhausted
  · exact (postgres_holder h hplaced hdead hu hlock).1

theorem postgres_all_tied : tied inputs config.state.1.connections (shortCalls config.state) =
    config.state.1.connections := by
  obtain ⟨-, hstuck⟩ := postgres_exhausted h hplaced hdead
  refine List.filter_eq_self.mpr fun t ht => List.any_eq_true.mpr ?_
  rcases postgres_wait h hplaced hdead (hstuck t ht) with ⟨-, hshort⟩ | ⟨u, -, hu, hlock⟩
  · exact ⟨t, hshort ht, by simp⟩
  · obtain ⟨-, hshort, huser⟩ := postgres_holder h hplaced hdead hu hlock
    exact ⟨u, hshort, by simp [huser]⟩

end Postgres

section Sqlite

variable (h : PoolInvariant .sqlite maxConnections inputs config.state)
  (hplaced : CallsPlaced inputs config)
  (hdead : Deadlock (waitsOf .sqlite maxConnections) config stuck)

include h hplaced hdead

-- With nobody short of credit, a stuck call with a transaction waits for its commit.
theorem sqlite_wait {t : Nat} (ht : stuck t) (hopen : t ∈ config.state.1.connections) :
    config.state.1.writer = some t ∧ ∃ u ∈ config.state.1.connections, u ≠ t ∧ stuck u := by
  have hopened := (h.opened t).mp hopen
  obtain ⟨c, henabled, holders, hmem, hstuck⟩ := enabled_of_stuck hplaced hdead ht
  cases c with
  | begin =>
      have hstart : config.state.2 t = {} := henabled
      rw [hstart] at hopened
      cases hopened
  | commit =>
      simp only [waitsFor] at hmem
      split at hmem
      · rename_i hwriter
        obtain ⟨u, hu, rfl⟩ := List.mem_map.mp hmem
        obtain ⟨hreader, hne⟩ := List.mem_filter.mp hu
        exact ⟨hwriter, u, h.readers u hreader, by simpa using hne, hstuck u (by simp)⟩
      · cases hmem
  | insertUsageEvent row =>
      rcases henabled with hstart | ⟨hshort, -⟩
      · rw [hstart] at hopened
        cases hopened
      · have hnone : shortCalls config.state = [] := h.room
        have hmem := mem_shortCalls_iff h hshort
        rw [hnone] at hmem
        cases hmem
  | insertAdminAudit row => exact henabled.elim
  | statement statement => cases hmem
  | rollback => cases hmem
  | nowV7 => cases hmem
  | unixTimestampString => cases hmem

theorem sqlite_open (hmax : 0 < maxConnections) : ∃ u ∈ config.state.1.connections, stuck u := by
  have hpool : Exhausted maxConnections config.state.1 stuck →
      ∃ u ∈ config.state.1.connections, stuck u := by
    rintro ⟨hfull, hall⟩
    obtain ⟨u, hu⟩ := List.exists_mem_of_length_pos (Nat.lt_of_lt_of_le hmax hfull)
    exact ⟨u, hu, hall u hu⟩
  obtain ⟨t, ht⟩ := hdead.1
  obtain ⟨c, henabled, holders, hmem, hstuck⟩ := enabled_of_stuck hplaced hdead ht
  cases c with
  | begin => exact hpool (exhausted_of_connectionWait hmem hstuck)
  | commit =>
      have hopened : config.state.2 t = { opened := true } := henabled
      exact ⟨t, (h.opened t).mpr (by rw [hopened]), ht⟩
  | insertUsageEvent row =>
      simp only [waitsFor, List.mem_append, List.mem_map] at hmem
      rcases hmem with hmem | ⟨u, hu, rfl⟩
      · exact hpool (exhausted_of_connectionWait hmem hstuck)
      · refine ⟨u, ?_, hstuck u (by simp)⟩
        rcases hu with hreader | hwriter
        · exact h.readers u hreader
        · exact h.writer u (Option.mem_toList.mp hwriter)
  | insertAdminAudit row => exact henabled.elim
  | statement statement => cases hmem
  | rollback => cases hmem
  | nowV7 => cases hmem
  | unixTimestampString => cases hmem

end Sqlite

theorem PoolInvariant.deadlockFree (hmax : 0 < maxConnections)
    (h : PoolInvariant backend maxConnections inputs config.state)
    (hplaced : CallsPlaced inputs config) :
    DeadlockFree (waitsOf backend maxConnections) config := by
  intro stuck hdead
  cases backend with
  | postgres =>
      have hroom : (tied inputs config.state.1.connections (shortCalls config.state)).length <
          maxConnections := h.room
      have hfull := (postgres_exhausted h hplaced hdead).1
      rw [postgres_all_tied h hplaced hdead] at hroom
      omega
  | sqlite =>
      obtain ⟨t, hopen, ht⟩ := sqlite_open h hplaced hdead hmax
      obtain ⟨hwriter, u, hopen', hne, hu⟩ := sqlite_wait h hplaced hdead ht hopen
      obtain ⟨hwriter', -⟩ := sqlite_wait h hplaced hdead hu hopen'
      rw [hwriter] at hwriter'
      exact hne (Option.some.inj hwriter').symm

end Deadlocks

-- Nobody is stuck, and a call that could not pay is answered so, with its event stored.
structure NeverBlocks (backend : DatabaseBackend) (maxConnections : Nat)
    (inputs : Nat → BillingInput) (config : PoolConfig) : Prop where
  deadlockFree : DeadlockFree (waitsOf backend maxConnections) config
  insufficient : ∀ t result, config.threads t = some (.ret result) →
    (config.state.2 t).short = true → (inputs t).Fits →
      result = .error .insufficientCredit ∧
        ∃ row ∈ config.state.1.database.usageEvents, isPaymentRequired (inputs t) row = true

def idlePool (database : Database) : PoolState := (Pooled.start database, fun _ => {})

theorem PoolInvariant.start (hmax : 0 < maxConnections) (database : Database) :
    PoolInvariant backend maxConnections inputs (idlePool database) := by
  refine ⟨?_, ?_, ?_, ?_, ?_, ?_, ?_⟩
  · simp [idlePool, Pooled.start]
  · simp [idlePool, Pooled.start]
  · simp [idlePool, Pooled.start]
  · simp [idlePool, Pooled.start]
  · cases backend with
    | sqlite => rfl
    | postgres => exact hmax
  · simp [idlePool]
  · simp [idlePool]

theorem calls_step (hmax : 0 < maxConnections) (action : Action SqlChoice)
    (config config' : PoolConfig)
    (h : CallsPlaced inputs config ∧ PoolInvariant backend maxConnections inputs config.state)
    (hallowed : LeavesRoom backend maxConnections inputs action config)
    (hstep : (recordUsageSystem backend maxConnections inputs).step (calls backend inputs) action
      config = some config') :
    CallsPlaced inputs config' ∧ PoolInvariant backend maxConnections inputs config'.state := by
  obtain ⟨hplaced, hinv⟩ := h
  refine ⟨Typestate.placed_step (fun t => respects_recordUsage backend (inputs t)) action hplaced
    hstep, ?_⟩
  cases action with
  | spawn t =>
      simp only [System.step] at hstep
      split at hstep
      · cases hstep
        exact hinv
      · cases hstep
  | env choice => simp [System.step, recordUsageSystem, Typestate.track, Pooled.system] at hstep
  | call t choice =>
      simp only [System.step] at hstep
      split at hstep
      · rename_i c next hthread
        split at hstep
        · cases hstep
        · rename_i response state hexec
          cases hstep
          simp only [recordUsageSystem, Typestate.track, Pooled.system, Option.map_eq_some_iff,
            Prod.exists, Prod.mk.injEq] at hexec
          obtain ⟨response', server, hrun, rfl, rfl⟩ := hexec
          split at hrun
          · cases hrun
          · have hplace := hplaced t
            rw [hthread] at hplace
            obtain ⟨hbegin, hread, hinsert⟩ := hallowed c next hthread
            have hfault : ∀ row, c = .insertUsageEvent row → choice.fault = none := by
              intro row hrow
              by_contra hfault
              obtain ⟨stuck, hdead, -⟩ := hinsert row hrow hfault
              exact hinv.deadlockFree hmax hplaced stuck hdead
            have hnext := hinv.run hplace.1 hbegin hread hfault
            rw [Option.some.inj hrun] at hnext
            exact hnext
      · cases hstep

theorem record_usage_never_blocks_of_leaves_room (backend : DatabaseBackend)
    (maxConnections : Nat) (hmax : 0 < maxConnections) (inputs : Nat → BillingInput)
    (database : Database) (actions : List (Action SqlChoice)) (config : PoolConfig)
    (hrun : (recordUsageSystem backend maxConnections inputs).run (calls backend inputs) actions
      (System.initial (idlePool database)) = some config)
    (hmeets : (recordUsageSystem backend maxConnections inputs).Meets (calls backend inputs)
      (LeavesRoom backend maxConnections inputs) actions
      (System.initial (idlePool database))) :
    NeverBlocks backend maxConnections inputs config := by
  have hstart : CallsPlaced inputs (System.initial (idlePool database)) ∧
      PoolInvariant backend maxConnections inputs (idlePool database) :=
    ⟨fun t => rfl, PoolInvariant.start hmax database⟩
  obtain ⟨hplaced, hinv⟩ := System.run_invariant _ _
    (calls_step hmax) actions hrun hmeets hstart
  refine ⟨hinv.deadlockFree hmax hplaced, fun t result hthread hshort hfits => ?_⟩
  have hplace := hplaced t
  rw [hthread] at hplace
  obtain ⟨-, hended⟩ := hplace
  obtain ⟨hrecorded, hresult⟩ := hended hshort (hinv.failed t hshort) hfits
  exact ⟨hresult, hinv.recorded t hrecorded⟩

def meteredInput : BillingInput :=
  { requestId := ⟨11⟩, userId := ⟨7⟩, apiKeyId := none, providerId := none, routeId := none
    daemonNodeId := none, model := "gpt"
    usage :=
      { promptTokens := 1000, completionTokens := 0, totalTokens := 1000, estimated := false }
    statusCode := 200, latencyMs := 5
    routePrice := { inputMicrocreditsPer1mTokens := 1000000, outputMicrocreditsPer1mTokens := 0 } }

def emptyDatabase : Database := .ofAccounts .empty

def sameInput : Nat → BillingInput := fun _ => meteredInput

-- A call of a user without a wallet opens one with nothing in it, and is short of credit.
def shortSteps (t : Nat) : List (Action SqlChoice) :=
  [.spawn t] ++ List.replicate 8 (.call t { uuid := ⟨20⟩ })

instance (backend : DatabaseBackend) (maxConnections : Nat) (inputs : Nat → BillingInput)
    (connections short : List Nat) :
    Decidable (Room backend maxConnections inputs connections short) :=
  match backend with
  | .sqlite => inferInstanceAs (Decidable (short = []))
  | .postgres =>
      inferInstanceAs (Decidable ((tied inputs connections short).length < maxConnections))

def isBegin : SqlCommand → Bool
  | .begin => true
  | _ => false

-- The steps that leave room and do not fail.
def leavesRoom (backend : DatabaseBackend) (maxConnections : Nat) (inputs : Nat → BillingInput) :
    Action SqlChoice → PoolConfig → Bool
  | .call t choice, config =>
      choice.fault.isNone &&
        match config.threads t with
        | some (.call c _) =>
            (!isBegin c || Room backend maxConnections inputs (config.state.1.connections ++ [t])
              (shortCalls config.state)) &&
            (!readsShort (inputs t) t config.state.1 c ||
              Room backend maxConnections inputs config.state.1.connections
                (t :: shortCalls config.state))
        | _ => true
  | _, _ => true

theorem leavesRoom_sound (action : Action SqlChoice) (config : PoolConfig)
    (h : leavesRoom backend maxConnections inputs action config = true) :
    LeavesRoom backend maxConnections inputs action config := by
  cases action with
  | spawn t => trivial
  | env choice => trivial
  | call t choice =>
      intro c next hthread
      simp only [leavesRoom, hthread, Bool.and_eq_true, Bool.or_eq_true, Bool.not_eq_true',
        decide_eq_true_eq, Option.isNone_iff_eq_none] at h
      obtain ⟨hfault, hbegin, hread⟩ := h
      refine ⟨fun hc => ?_, fun hshort => ?_, fun row _ hfailed => absurd hfault hfailed⟩
      · subst hc
        exact hbegin.resolve_left (by simp [isBegin])
      · exact hread.resolve_left (by simp [hshort])

-- What the next command of a thread lacks.
def lacks (backend : DatabaseBackend) (maxConnections t : Nat) (config : PoolConfig) :
    List (List Nat) :=
  match config.threads t with
  | some (.call c _) => waitsFor backend maxConnections t c config.state.1
  | _ => []

theorem deadlock_of_lacks {config : PoolConfig} {t : Nat}
    (h : [t] ∈ lacks backend maxConnections t config) :
    ¬DeadlockFree (waitsOf backend maxConnections) config := by
  intro hfree
  rw [lacks] at h
  split at h
  · rename_i c next hthread
    exact hfree _ (deadlock_self hthread h fun u hu => List.mem_singleton.mp hu)
  · cases h

-- With a second connection the short call stores its event and ends.
theorem record_usage_never_blocks_with_two_connections : ∃ config,
    (recordUsageSystem .postgres 2 sameInput).run (calls .postgres sameInput)
      (shortSteps 0 ++ List.replicate 2 (.call 0 {})) (System.initial (idlePool emptyDatabase)) =
        some config ∧
    NeverBlocks .postgres 2 sameInput config ∧ (config.state.2 0).short = true := by
  have hrun : (((recordUsageSystem .postgres 2 sameInput).run (calls .postgres sameInput)
      (shortSteps 0 ++ List.replicate 2 (.call 0 {}))
      (System.initial (idlePool emptyDatabase))).map fun config => (config.state.2 0).short) =
        some true := by decide +kernel
  obtain ⟨config, hconfig, hshort⟩ := Option.map_eq_some_iff.mp hrun
  have hmeets : (recordUsageSystem .postgres 2 sameInput).Meets (calls .postgres sameInput)
      (fun action config => leavesRoom .postgres 2 sameInput action config = true)
      (shortSteps 0 ++ List.replicate 2 (.call 0 {}))
      (System.initial (idlePool emptyDatabase)) :=
    System.meets_of_checks _ _ (by decide +kernel)
  refine ⟨config, hconfig, record_usage_never_blocks_of_leaves_room .postgres 2 (by decide)
    sameInput emptyDatabase _ config hconfig ?_, hshort⟩
  exact System.Meets.imp _ _ leavesRoom_sound _ _ hmeets

-- With one connection it waits for the one it holds, and the wait ends in an error of the pool.
theorem record_usage_waits_for_its_own_connection :
    (∃ config, (recordUsageSystem .postgres 1 sameInput).run (calls .postgres sameInput)
        (shortSteps 0) (System.initial (idlePool emptyDatabase)) = some config ∧
      ¬DeadlockFree (waitsOf .postgres 1) config) ∧
    ∃ config error, (recordUsageSystem .postgres 1 sameInput).run (calls .postgres sameInput)
        (shortSteps 0 ++ [.call 0 { fault := some "pool timed out" }, .call 0 {}])
        (System.initial (idlePool emptyDatabase)) = some config ∧
      config.threads 0 = some (.ret (.error (.infrastructure error))) ∧
      config.state.1.database.usageEvents = [] := by
  constructor
  · have hrun : (((recordUsageSystem .postgres 1 sameInput).run (calls .postgres sameInput)
        (shortSteps 0) (System.initial (idlePool emptyDatabase))).map fun config =>
          lacks .postgres 1 0 config) = some [[0]] := by decide +kernel
    obtain ⟨config, hconfig, hlacks⟩ := Option.map_eq_some_iff.mp hrun
    have hown : [0] ∈ lacks .postgres 1 0 config := by
      rw [hlacks]
      exact List.mem_cons_self
    exact ⟨config, hconfig, deadlock_of_lacks hown⟩
  · have hrun : (((recordUsageSystem .postgres 1 sameInput).run (calls .postgres sameInput)
        (shortSteps 0 ++ [.call 0 { fault := some "pool timed out" }, .call 0 {}])
        (System.initial (idlePool emptyDatabase))).map fun config =>
          ((config.threads 0).bind Prog.returned, config.state.1.database.usageEvents)) =
        some (some (.error (.infrastructure (usageEventFailed meteredInput "pool timed out"))),
          []) := by
      decide +kernel
    obtain ⟨config, hconfig, hstate⟩ := Option.map_eq_some_iff.mp hrun
    obtain ⟨hreturned, hevents⟩ := Prod.mk.inj hstate
    obtain ⟨program, hthread, hvalue⟩ := Option.bind_eq_some_iff.mp hreturned
    refine ⟨config, usageEventFailed meteredInput "pool timed out", hconfig, ?_, hevents⟩
    rw [hthread, Prog.eq_ret_of_returned hvalue]

end Mizan.Billing
