import Mizan.Billing.History

namespace Mizan.Billing

open Interleaving

-- A deferred transaction: its first statement takes the snapshot that the others read too,
-- with the version of the file it was taken from.
structure SqliteTx where
  snapshot : Option (Accounts × Nat)
  writes : List Write

-- SQLite: one writer at a time, and a writer whose snapshot is not the current version fails.
structure Sqlite where
  database : Database
  version : Nat
  txs : Nat → Option SqliteTx
  writer : Option Nat
  -- The threads in the order of their commits, which no statement reads.
  order : List Nat

namespace Sqlite

def DATABASE_LOCKED : String := "database is locked"

def start (database : Database) : Sqlite :=
  { database, version := 0, txs := fun _ => none, writer := none, order := [] }

def snapshotOf (s : Sqlite) (tx : SqliteTx) : Accounts × Nat :=
  tx.snapshot.getD (s.database.accounts, s.version)

def withTx (s : Sqlite) (t : Nat) (tx : Option SqliteTx) : Sqlite :=
  { s with txs := Function.update s.txs t tx }

def advance (s : Sqlite) (t : Nat) (tx : SqliteTx) (statement : Statement) (more : List Write) :
    Sqlite :=
  { s with
    txs := Function.update s.txs t
      (some { snapshot := some (s.snapshotOf tx), writes := tx.writes ++ more })
    writer := if statement.reads then s.writer else some t }

def runStatement (s : Sqlite) (t : Nat) (statement : Statement) :
    Except String (statement.Rows × Sqlite) :=
  match s.txs t with
  | none => .error Session.NO_TRANSACTION
  | some tx =>
      if ¬statement.reads ∧ (s.snapshotOf tx).2 ≠ s.version then .error DATABASE_LOCKED
      else
        (statement.execute ((s.snapshotOf tx).1.applyAll tx.writes)).map fun (rows, more) =>
          (rows, s.advance t tx statement more)

def mustWait (s : Sqlite) (t : Nat) (statement : Statement) : Bool :=
  (s.txs t).isSome && !statement.reads && s.writer.any fun u => u ≠ t

def close (s : Sqlite) (t : Nat) : Sqlite :=
  { s with
    txs := Function.update s.txs t none
    writer := if s.writer = some t then none else s.writer }

def commit (s : Sqlite) (t : Nat) (writes : List Write) : Sqlite :=
  { s.close t with
    database := s.database.applyAll writes
    version := if writes = [] then s.version else s.version + 1
    order := s.order ++ [t] }

-- A statement outside a transaction is a transaction of its own.
def autocommit (s : Sqlite) (write : Write) : Sqlite :=
  { s with database := s.database.apply write, version := s.version + 1 }

def exec (t : Nat) : (c : SqlCommand) → SqlChoice → Sqlite → Option (c.Response × Sqlite)
  | .begin, choice, s => some (answer choice (.ok ((), s.withTx t (some ⟨none, []⟩))) s)
  | .statement statement, choice, s =>
      if choice.fault = none ∧ s.mustWait t statement = true then none
      else some (answer choice (s.runStatement t statement) s)
  | .commit, choice, s =>
      match s.txs t, choice.fault with
      | some tx, none => some (.ok (), s.commit t tx.writes)
      -- A transaction that cannot be committed stays open.
      | _, fault => some (.error (fault.getD Session.NO_TRANSACTION), s)
  | .rollback, _, s => some ((), s.close t)
  | .insertUsageEvent row, choice, s =>
      if choice.fault = none ∧ s.writer.isSome = true then none
      else some (answer choice (.ok ((), s.autocommit (.usageEvent row))) s)
  | .insertAdminAudit row, choice, s =>
      if choice.fault = none ∧ s.writer.isSome = true then none
      else some (answer choice (.ok ((), s.autocommit (.adminAudit row))) s)
  | .nowV7, choice, s => some (choice.uuid, s)
  | .unixTimestampString, choice, s => some (choice.timestamp, s)

-- A connection breaks, and its transaction is rolled back.
def lose (choice : SqlChoice) (s : Sqlite) : Option Sqlite := some (s.close choice.lost)

def system : System SqlCommand SqlCommand.Response SqlChoice Sqlite where
  exec := exec
  env := lose

-- What is known of a snapshot: wallets are never deleted, and at its own version the file has
-- not changed.
structure SnapshotOf (s : Sqlite) (base : Accounts) (version : Nat) : Prop where
  le : version ≤ s.version
  current : version = s.version → base = s.database.accounts
  wallets : ∀ owner, (base.walletOf owner).isSome → (s.database.accounts.walletOf owner).isSome

structure Invariant (jobs : Nat → Job) (initial : Accounts) (s : Sqlite) : Prop where
  keyed : s.database.accounts.Keyed
  history : History jobs initial s.order s.database.accounts
  once : s.order.Nodup
  uncommitted : ∀ t, s.txs t ≠ none → t ∉ s.order
  snapshots : ∀ {t tx base version}, s.txs t = some tx → tx.snapshot = some (base, version) →
    SnapshotOf s base version
  writers : ∀ {t tx}, s.txs t = some tx → tx.writes ≠ [] → s.writer = some t
  currents : ∀ {t tx base version}, s.txs t = some tx → s.writer = some t →
    tx.snapshot = some (base, version) → version = s.version

-- What thread `t` may count on: its transaction changes only by being lost.
structure Rely (t : Nat) (s s' : Sqlite) : Prop where
  order : t ∈ s'.order ↔ t ∈ s.order
  tx : s'.txs t = s.txs t ∨ s'.txs t = none

theorem Rely.refl (t : Nat) (s : Sqlite) : Rely t s s := ⟨Iff.rfl, .inl rfl⟩

theorem Rely.trans {t : Nat} {s s' s'' : Sqlite} (h : Rely t s s') (h' : Rely t s' s'') :
    Rely t s s'' := by
  refine ⟨h'.order.trans h.order, ?_⟩
  obtain heq | heq := h'.tx
  · rw [heq]
    exact h.tx
  · exact .inr heq

section Steps

variable {jobs : Nat → Job} {initial : Accounts} {t : Nat} {s s' : Sqlite}

theorem close_txs {u : Nat} {tx : SqliteTx} (h : (s.close t).txs u = some tx) :
    u ≠ t ∧ s.txs u = some tx := by
  by_cases heq : u = t
  · subst heq
    rw [show (s.close u).txs u = none from Function.update_self ..] at h
    cases h
  · rw [show (s.close t).txs u = s.txs u from Function.update_of_ne heq ..] at h
    exact ⟨heq, h⟩

theorem close_writer {u : Nat} (hne : u ≠ t) : (s.close t).writer = some u ↔ s.writer = some u := by
  simp only [close]
  split
  · rename_i hwriter
    simp [hwriter, Ne.symm hne]
  · rfl

theorem Invariant.close (hinv : Invariant jobs initial s) (t : Nat) :
    Invariant jobs initial (s.close t) where
  keyed := hinv.keyed
  history := hinv.history
  once := hinv.once
  uncommitted u hu := by
    obtain ⟨tx, htx⟩ := Option.ne_none_iff_exists'.mp hu
    obtain ⟨-, htx⟩ := close_txs htx
    exact hinv.uncommitted u (by simp [htx])
  snapshots htx hsnapshot := by
    obtain ⟨-, htx⟩ := close_txs htx
    obtain ⟨hle, hcurrent, hwallets⟩ := hinv.snapshots htx hsnapshot
    exact ⟨hle, hcurrent, hwallets⟩
  writers htx hwrites := by
    obtain ⟨hne, htx⟩ := close_txs htx
    exact (close_writer hne).mpr (hinv.writers htx hwrites)
  currents htx hwriter hsnapshot := by
    obtain ⟨hne, htx⟩ := close_txs htx
    exact hinv.currents htx ((close_writer hne).mp hwriter) hsnapshot

theorem rely_close (u : Nat) : Rely u s (s.close t) := by
  refine ⟨Iff.rfl, ?_⟩
  by_cases heq : u = t
  · subst heq
    exact .inr (Function.update_self ..)
  · exact .inl (Function.update_of_ne heq ..)

theorem Invariant.openTx (hinv : Invariant jobs initial s) (hnot : t ∉ s.order) :
    Invariant jobs initial (s.withTx t (some ⟨none, []⟩)) := by
  have htxs : ∀ {u tx}, (s.withTx t (some ⟨none, []⟩)).txs u = some tx →
      (u = t ∧ tx = ⟨none, []⟩) ∨ s.txs u = some tx := by
    intro u tx htx
    by_cases heq : u = t
    · subst heq
      rw [show (s.withTx u _).txs u = _ from Function.update_self ..] at htx
      exact .inl ⟨rfl, (Option.some.inj htx).symm⟩
    · rw [show (s.withTx t _).txs u = _ from Function.update_of_ne heq ..] at htx
      exact .inr htx
  refine ⟨hinv.keyed, hinv.history, hinv.once, fun u hu => ?_, fun htx hsnapshot => ?_,
    fun htx hwrites => ?_, fun htx hwriter hsnapshot => ?_⟩
  · obtain ⟨tx, htx⟩ := Option.ne_none_iff_exists'.mp hu
    obtain ⟨rfl, -⟩ | hold := htxs htx
    · exact hnot
    · exact hinv.uncommitted u (by simp [hold])
  · obtain ⟨-, rfl⟩ | hold := htxs htx
    · cases hsnapshot
    · obtain ⟨hle, hcurrent, hwallets⟩ := hinv.snapshots hold hsnapshot
      exact ⟨hle, hcurrent, hwallets⟩
  · obtain ⟨-, rfl⟩ | hold := htxs htx
    · exact absurd rfl hwrites
    · exact hinv.writers hold hwrites
  · obtain ⟨-, rfl⟩ | hold := htxs htx
    · cases hsnapshot
    · exact hinv.currents hold hwriter hsnapshot

-- While nobody holds the write lock, no transaction has written anything.
theorem Invariant.autocommit (hinv : Invariant jobs initial s) (hfree : s.writer = none)
    {write : Write} (hwrite : (s.database.apply write).accounts = s.database.accounts) :
    Invariant jobs initial (s.autocommit write) where
  keyed := by rw [show (s.autocommit write).database.accounts = _ from hwrite]; exact hinv.keyed
  history := by rw [show (s.autocommit write).database.accounts = _ from hwrite]; exact hinv.history
  once := hinv.once
  uncommitted := hinv.uncommitted
  snapshots htx hsnapshot := by
    obtain ⟨hle, hcurrent, hwallets⟩ := hinv.snapshots htx hsnapshot
    have hversion : (s.autocommit write).version = s.version + 1 := rfl
    refine ⟨by omega, fun heq => by omega, fun owner hsome => ?_⟩
    rw [show (s.autocommit write).database.accounts = _ from hwrite]
    exact hwallets owner hsome
  writers htx hwrites := by
    have hwriter := hinv.writers htx hwrites
    rw [hfree] at hwriter
    cases hwriter
  currents htx hwriter _ := by
    rw [show (s.autocommit write).writer = none from hfree] at hwriter
    cases hwriter

theorem advance_self (s : Sqlite) (t : Nat) (tx : SqliteTx) (statement : Statement)
    (more : List Write) : (s.advance t tx statement more).txs t =
      some { snapshot := some (s.snapshotOf tx), writes := tx.writes ++ more } :=
  Function.update_self ..

theorem advance_of_ne {u : Nat} (hne : u ≠ t) (s : Sqlite) (tx : SqliteTx) (statement : Statement)
    (more : List Write) : (s.advance t tx statement more).txs u = s.txs u :=
  Function.update_of_ne hne ..

theorem snapshotOf_spec (hinv : Invariant jobs initial s) {tx : SqliteTx}
    (htx : s.txs t = some tx) : SnapshotOf s (s.snapshotOf tx).1 (s.snapshotOf tx).2 := by
  cases hsnapshot : tx.snapshot with
  | none =>
      simp only [snapshotOf, hsnapshot, Option.getD_none]
      exact ⟨Nat.le_refl _, fun _ => rfl, fun _ h => h⟩
  | some pair =>
      simp only [snapshotOf, hsnapshot, Option.getD_some]
      exact hinv.snapshots htx hsnapshot

-- A statement that goes through: a read writes nothing, and a write found the lock free and its
-- snapshot current.
theorem Invariant.advance (hinv : Invariant jobs initial s) {tx : SqliteTx}
    (htx : s.txs t = some tx) {statement : Statement} {more : List Write}
    (hreads : statement.reads = true → more = [])
    (hfree : statement.reads = false → ∀ u, s.writer = some u → u = t)
    (hcurrent : statement.reads = false → (s.snapshotOf tx).2 = s.version) :
    Invariant jobs initial (s.advance t tx statement more) where
  keyed := hinv.keyed
  history := hinv.history
  once := hinv.once
  uncommitted u hu := by
    by_cases heq : u = t
    · subst heq
      exact hinv.uncommitted u (by simp [htx])
    · rw [advance_of_ne heq] at hu
      exact hinv.uncommitted u hu
  snapshots {u tx' base version} htx' hsnapshot := by
    by_cases heq : u = t
    · subst heq
      rw [advance_self] at htx'
      cases htx'
      obtain ⟨hle, hcurrent, hwallets⟩ := snapshotOf_spec hinv htx
      rw [Option.some.inj hsnapshot] at hle hcurrent hwallets
      exact ⟨hle, hcurrent, hwallets⟩
    · rw [advance_of_ne heq] at htx'
      obtain ⟨hle, hcurrent, hwallets⟩ := hinv.snapshots htx' hsnapshot
      exact ⟨hle, hcurrent, hwallets⟩
  writers {u tx'} htx' hwrites := by
    have hwriter : (s.advance t tx statement more).writer =
        if statement.reads then s.writer else some t := rfl
    by_cases heq : u = t
    · subst heq
      rw [advance_self] at htx'
      cases htx'
      cases hstatement : statement.reads with
      | true =>
          rw [hwriter, hstatement]
          rw [hreads hstatement, List.append_nil] at hwrites
          exact hinv.writers htx hwrites
      | false =>
          rw [hwriter, hstatement]
          rfl
    · rw [advance_of_ne heq] at htx'
      have hold := hinv.writers htx' hwrites
      cases hstatement : statement.reads with
      | true =>
          rw [hwriter, hstatement]
          exact hold
      | false => exact absurd (hfree hstatement u hold) heq
  currents {u tx' base version} htx' hwriter' hsnapshot := by
    have hwriter : (s.advance t tx statement more).writer =
        if statement.reads then s.writer else some t := rfl
    rw [hwriter] at hwriter'
    by_cases heq : u = t
    · subst heq
      rw [advance_self] at htx'
      cases htx'
      have hversion : (s.snapshotOf tx).2 = version := by rw [Option.some.inj hsnapshot]
      cases hstatement : statement.reads with
      | true =>
          rw [hstatement] at hwriter'
          rw [← hversion]
          cases hold : tx.snapshot with
          | none => simp [snapshotOf, hold, Sqlite.advance]
          | some pair =>
              have hpair := hinv.currents htx hwriter' hold
              simp only [snapshotOf, hold, Option.getD_some]
              exact hpair
      | false =>
          rw [← hversion]
          exact hcurrent hstatement
    · rw [advance_of_ne heq] at htx'
      cases hstatement : statement.reads with
      | true =>
          rw [hstatement] at hwriter'
          exact hinv.currents htx' hwriter' hsnapshot
      | false =>
          rw [hstatement] at hwriter'
          exact absurd (Option.some.inj hwriter').symm heq

end Steps

section Commit

variable {jobs : Nat → Job} {initial base : Accounts} {t version : Nat} {s : Sqlite} {tx : SqliteTx}
    {wallet : WalletRecord} {opening writes : List Write}

-- A transaction that wrote saw the accounts it is committed on. One that did not write left
-- them alone, and the wallet it read is still there.
theorem commit_effect (hinv : Invariant jobs initial s) (htx : s.txs t = some tx)
    (hsnapshot : tx.snapshot = some (base, version)) (hwritten : tx.writes = opening ++ writes)
    (hprepared : Prepared (jobs t).userId base wallet opening)
    (hwrites : JobWrites (jobs t) (.ofRecord wallet) writes) :
    ∃ wallet opening writes, Prepared (jobs t).userId s.database.accounts wallet opening ∧
      JobWrites (jobs t) (.ofRecord wallet) writes ∧ tx.writes = opening ++ writes := by
  have hknown := hinv.snapshots htx hsnapshot
  by_cases hnil : tx.writes = []
  · rw [hnil] at hwritten
    obtain ⟨rfl, rfl⟩ := List.append_eq_nil_iff.mp hwritten.symm
    have hbase := hprepared.walletOf
    have hsome := hknown.wallets (jobs t).userId (by rw [← Accounts.applyAll_nil base, hbase]; rfl)
    obtain ⟨wallet', hwallet'⟩ := Option.isSome_iff_exists.mp hsome
    exact ⟨wallet', [], [], .found hwallet', hwrites.of_nil _, hnil⟩
  · have hwriter := hinv.writers htx hnil
    have hbase := hknown.current (hinv.currents htx hwriter hsnapshot)
    rw [hbase] at hprepared
    exact ⟨wallet, opening, writes, hprepared, hwrites, hwritten⟩

theorem Invariant.commit (hinv : Invariant jobs initial s) (htx : s.txs t = some tx)
    (hprepared : Prepared (jobs t).userId s.database.accounts wallet opening)
    (hwrites : JobWrites (jobs t) (.ofRecord wallet) writes)
    (hwritten : tx.writes = opening ++ writes) :
    Invariant jobs initial (s.commit t tx.writes) := by
  have hclosed := hinv.close t
  have hnot := hinv.uncommitted t (by simp [htx])
  have haccounts : (s.commit t tx.writes).database.accounts =
      s.database.accounts.applyAll tx.writes := Database.accounts_applyAll _ _
  -- Another transaction that is still open has not written, or nothing has changed.
  have hother : ∀ u tx', (s.close t).txs u = some tx' → tx.writes ≠ [] →
      s.writer = some t ∧ u ≠ t := fun u tx' htx' hne => ⟨hinv.writers htx hne, (close_txs htx').1⟩
  refine ⟨?_, ?_, ?_, ?_, ?_, ?_, ?_⟩
  · rw [haccounts, hwritten]
    exact keyed_commit hprepared hwrites hinv.keyed
  · rw [haccounts, hwritten]
    exact hinv.history.commit ⟨wallet, opening, writes, hprepared, hwrites, rfl⟩
  · exact List.nodup_append.mpr ⟨hinv.once, List.nodup_singleton t, fun u hu u' hu' heq => by
      rw [List.mem_singleton.mp hu'] at heq
      exact hnot (heq ▸ hu)⟩
  · intro u hu hmem
    obtain ⟨tx', htx'⟩ := Option.ne_none_iff_exists'.mp hu
    obtain ⟨hne, htx'⟩ := close_txs htx'
    obtain hold | hnew := List.mem_append.mp hmem
    · exact hinv.uncommitted u (by simp [htx']) hold
    · exact hne (List.mem_singleton.mp hnew)
  · intro u tx' base' version' htx' hsnapshot'
    obtain ⟨hle, hcurrent, hwallets⟩ := hclosed.snapshots htx' hsnapshot'
    have hversion : (s.commit t tx.writes).version =
        if tx.writes = [] then s.version else s.version + 1 := rfl
    have hle' : version' ≤ s.version := hle
    refine ⟨?_, ?_, fun owner hsome => ?_⟩
    · rw [hversion]
      split <;> omega
    · rw [hversion, haccounts]
      split
      · rename_i hnil
        rw [hnil]
        exact hcurrent
      · intro heq
        omega
    · rw [haccounts, hwritten]
      exact walletOf_isSome_commit hprepared hwrites (hwallets owner hsome)
  · intro u tx' htx' hne
    exact hclosed.writers htx' hne
  · intro u tx' base' version' htx' hwriter hsnapshot'
    have hold := hclosed.currents htx' hwriter hsnapshot'
    show version' = if tx.writes = [] then s.version else s.version + 1
    split
    · exact hold
    · rename_i hnil
      obtain ⟨hmine, hne⟩ := hother u tx' htx' hnil
      have hwriter' : s.writer = some u := (close_writer hne).mp hwriter
      exact absurd (Option.some.inj (hwriter'.symm.trans hmine)) hne

theorem rely_commit {u : Nat} (hne : u ≠ t) : Rely u s (s.commit t writes) :=
  ⟨by simp [Sqlite.commit, hne], .inl (Function.update_of_ne hne ..)⟩

end Commit

def protocol (jobs : Nat → Job) (initial : Accounts) : Protocol system where
  inv := Invariant jobs initial
  rely := Rely
  fresh t s := s.txs t = none ∧ t ∉ s.order
  admits _ _ _ _ := True
  admitsEnv _ _ := True
  rely_refl := Rely.refl
  rely_trans := Rely.trans
  fresh_rely := by
    intro t s s' h hrely
    refine ⟨?_, fun hmem => h.2 (hrely.order.mp hmem)⟩
    obtain heq | heq := hrely.tx
    · exact heq.trans h.1
    · exact heq
  env_keeps := by
    intro choice s s' hinv _ henv
    cases henv
    exact ⟨hinv.close _, fun u => rely_close u⟩

def phase (t : Nat) (job : Job) : Phase → Sqlite → Prop
  | .idle, s => s.txs t = none ∧ t ∉ s.order
  | .started, s => t ∉ s.order ∧ ∀ tx, s.txs t = some tx → tx.writes = [] ∨
      ∃ base version wallet, tx.snapshot = some (base, version) ∧
        Prepared job.userId base wallet tx.writes
  | .ready wallet writes, s => t ∉ s.order ∧ ∀ tx, s.txs t = some tx →
      ∃ base version opening, tx.snapshot = some (base, version) ∧ tx.writes = opening ++ writes ∧
        Prepared job.userId base wallet opening
  | .settled, s => s.txs t = none ∧ t ∈ s.order

section Rules

variable {jobs : Nat → Job} {initial : Accounts} {t : Nat} {job : Job} {s s' : Sqlite}

theorem tx_of_rely {tx : SqliteTx} (hrely : Rely t s s') (htx : s'.txs t = some tx) :
    s.txs t = some tx := by
  obtain heq | heq := hrely.tx
  · exact heq.symm.trans htx
  · rw [heq] at htx
    cases htx

theorem phase_rely {p : Phase} (h : phase t job p s) (hrely : Rely t s s') : phase t job p s' := by
  have hclosed : s.txs t = none → s'.txs t = none := fun hnone =>
    hrely.tx.elim (fun heq => heq.trans hnone) id
  cases p with
  | idle => exact ⟨hclosed h.1, fun hmem => h.2 (hrely.order.mp hmem)⟩
  | settled => exact ⟨hclosed h.1, hrely.order.mpr h.2⟩
  | started =>
      exact ⟨fun hmem => h.1 (hrely.order.mp hmem), fun tx htx => h.2 tx (tx_of_rely hrely htx)⟩
  | ready =>
      exact ⟨fun hmem => h.1 (hrely.order.mp hmem), fun tx htx => h.2 tx (tx_of_rely hrely htx)⟩

theorem phase_stable (p : Phase) : (protocol jobs initial).Stable t (phase t job p) :=
  fun h hrely _ => phase_rely h hrely

theorem not_mem_order {p : Phase} (hp : p ≠ .settled) (h : phase t job p s) : t ∉ s.order := by
  cases p with
  | idle => exact h.2
  | started => exact h.1
  | ready => exact h.1
  | settled => exact absurd rfl hp

theorem exec_statement {statement : Statement} {choice : SqlChoice}
    {response : Except String statement.Rows}
    (hexec : exec t (.statement statement) choice s = some (response, s')) :
    some (answer choice (s.runStatement t statement) s) = some (response, s') ∧
      (choice.fault = none → s.mustWait t statement = false) := by
  simp only [exec] at hexec
  split at hexec
  · cases hexec
  · rename_i hwait
    exact ⟨hexec, fun hfault => by simpa [hfault] using hwait⟩

theorem runStatement_ok {statement : Statement} {rows : statement.Rows}
    (h : s.runStatement t statement = .ok (rows, s')) :
    ∃ tx more, s.txs t = some tx ∧
      (statement.reads = false → (s.snapshotOf tx).2 = s.version) ∧
      statement.execute ((s.snapshotOf tx).1.applyAll tx.writes) = .ok (rows, more) ∧
      s' = s.advance t tx statement more := by
  cases htx : s.txs t with
  | none => simp [runStatement, htx] at h
  | some tx =>
      simp only [runStatement, htx] at h
      split at h
      · cases h
      rename_i hstale
      cases hexecute : statement.execute ((s.snapshotOf tx).1.applyAll tx.writes) with
      | error error => simp [hexecute, Except.map] at h
      | ok pair =>
          simp only [hexecute, Except.map, Except.ok.injEq, Prod.mk.injEq] at h
          obtain ⟨rfl, rfl⟩ := h
          exact ⟨tx, pair.2, rfl, fun hreads => by simpa [hreads] using hstale, hexecute, rfl⟩

-- The rule of a statement: what it returns and writes decides the next phase.
theorem statement_spec {p : Phase} {statement : Statement} {post : statement.Rows → Sqlite → Prop}
    {message : String → String} (hp : p ≠ .settled)
    (hpost : ∀ rows, (protocol jobs initial).Stable t (post rows))
    (hnext : ∀ s tx rows more, phase t job p s → s.txs t = some tx →
      statement.execute ((s.snapshotOf tx).1.applyAll tx.writes) = .ok (rows, more) →
      post rows (s.advance t tx statement more))
    (h : phase t job p s) :
    (protocol jobs initial).ewp t (query statement message) post
      (fun error s' => error ≠ .insufficientCredit ∧ ∃ p ≠ Phase.settled, phase t job p s') s := by
  refine Protocol.ewp_atomic (phase_stable p) hpost (fun error s s' hfailed hrely hinv => ?_) ?_ h
  · obtain ⟨herror, p', hp', hphase⟩ := hfailed
    exact ⟨herror, p', hp', phase_stable p' hphase hrely hinv⟩
  intro s choice response s' hinv hphase _ hexec
  obtain ⟨hanswer, hwait⟩ := exec_statement hexec
  refine keeps_answer hinv hanswer (fun rows s'' hfault hrun => ?_)
    fun error => ⟨by simp, p, hp, hphase⟩
  obtain ⟨tx, more, htx, hcurrent, hexecute, rfl⟩ := runStatement_ok hrun
  have hreads : statement.reads = true → more = [] := by
    intro hreads
    cases statement with
    | selectWallet owner forUpdate =>
        cases hexecute
        rfl
    | _ => cases hreads
  have hfree : statement.reads = false → ∀ u, s.writer = some u → u = t := by
    intro hreads u hwriter
    simpa [mustWait, htx, hreads, hwriter] using hwait hfault
  exact ⟨⟨hinv.advance htx hreads hfree hcurrent, fun u hne =>
    ⟨Iff.rfl, .inl (advance_of_ne hne ..)⟩⟩, hnext s tx rows more hphase htx hexecute⟩

theorem keeps_close (hinv : Invariant jobs initial s) :
    (protocol jobs initial).Keeps t s (s.close t) := ⟨hinv.close t, fun u _ => rely_close u⟩

-- Before its first statement, a transaction may be seen as if it had just read.
theorem started_snapshot {tx : SqliteTx} (hphase : phase t job .started s)
    (htx : s.txs t = some tx) : Started job.userId (s.snapshotOf tx).1 tx.writes := by
  obtain hnil | ⟨base, version, wallet, hsnapshot, hprepared⟩ := hphase.2 tx htx
  · exact .inl hnil
  · refine .inr ⟨wallet, ?_⟩
    simp only [snapshotOf, hsnapshot, Option.getD_some]
    exact hprepared

theorem started_advance {tx : SqliteTx} {statement : Statement} {more : List Write}
    (hnot : t ∉ s.order) (h : Started job.userId (s.snapshotOf tx).1 (tx.writes ++ more)) :
    phase t job .started (s.advance t tx statement more) := by
  refine ⟨hnot, fun tx' htx' => ?_⟩
  rw [advance_self] at htx'
  cases htx'
  exact h.imp id fun ⟨wallet, hprepared⟩ => ⟨_, _, wallet, rfl, hprepared⟩

theorem ready_advance {tx : SqliteTx} {statement : Statement} {more opening writes : List Write}
    {wallet : WalletRecord} (hnot : t ∉ s.order) (hwritten : tx.writes ++ more = opening ++ writes)
    (hprepared : Prepared job.userId (s.snapshotOf tx).1 wallet opening) :
    phase t job (.ready wallet writes) (s.advance t tx statement more) := by
  refine ⟨hnot, fun tx' htx' => ?_⟩
  rw [advance_self] at htx'
  cases htx'
  exact ⟨_, _, opening, rfl, hwritten, hprepared⟩

-- A statement outside a transaction concerns no transaction.
theorem autocommit_spec {p : Phase} {choice : SqlChoice} {write : Write}
    {response : Except String Unit} (hinv : Invariant jobs initial s) (hphase : phase t job p s)
    (hwrite : (s.database.apply write).accounts = s.database.accounts)
    (hexec : (if choice.fault = none ∧ s.writer.isSome = true then none
      else some (answer choice (.ok ((), s.autocommit write)) s)) = some (response, s')) :
    some (answer choice (.ok ((), s.autocommit write)) s) = some (response, s') ∧
      (choice.fault = none → (protocol jobs initial).Keeps t s (s.autocommit write) ∧
        phase t job p (s.autocommit write)) := by
  split at hexec
  · cases hexec
  · rename_i hwait
    refine ⟨hexec, fun hfault => ⟨⟨hinv.autocommit ?_ hwrite, fun u _ => ⟨Iff.rfl, .inl rfl⟩⟩,
      phase_rely hphase ⟨Iff.rfl, .inl rfl⟩⟩⟩
    simpa [hfault] using hwait

end Rules

-- Snapshots that are checked at the first write isolate the billing transactions.
def isolation (jobs : Nat → Job) (initial : Accounts) (t : Nat) :
    Isolation (protocol jobs initial) t .sqlite (jobs t) where
  phase p _ := phase t (jobs t) p
  seen _ := True
  phase_rely := phase_stable _
  nowV7 := by
    intro p noted s h
    refine Protocol.ewp_atomic (phase_stable p) (fun _ => phase_stable p)
      (fun _ _ _ hfalse => hfalse.elim) ?_ h
    intro s choice response s' hinv hphase _ hexec
    cases hexec
    exact ⟨⟨hinv, fun u _ => Rely.refl u s⟩, hphase⟩
  unixTimestampString := by
    intro p noted s h
    refine Protocol.ewp_atomic (phase_stable p) (fun _ => phase_stable p)
      (fun _ _ _ hfalse => hfalse.elim) ?_ h
    intro s choice response s' hinv hphase _ hexec
    cases hexec
    exact ⟨⟨hinv, fun u _ => Rely.refl u s⟩, hphase⟩
  executeUsageEvent := by
    intro p noted s row message _ h
    refine Protocol.ewp_atomic (phase_stable p) (fun _ => phase_stable p)
      (fun _ _ _ hfailed hrely hinv => ⟨hfailed.1, phase_stable p hfailed.2 hrely hinv⟩) ?_ h
    intro s choice response s' hinv hphase _ hexec
    obtain ⟨hanswer, hnext⟩ := autocommit_spec hinv hphase rfl hexec
    refine keeps_answer hinv hanswer (fun _ s'' hfault hresult => ?_) fun error => ⟨by simp, hphase⟩
    cases hresult
    exact hnext hfault
  executeAdminAudit := by
    intro p noted s row h
    refine Protocol.ewp_atomic (phase_stable p) (fun _ => phase_stable p)
      (fun _ _ _ hfalse => hfalse.elim) ?_ h
    intro s choice response s' hinv hphase _ hexec
    obtain ⟨hanswer, hnext⟩ := autocommit_spec hinv hphase rfl hexec
    refine keeps_ignored hinv hanswer (fun _ s'' hfault hresult => ?_) hphase
    cases hresult
    exact hnext hfault
  beginTx := by
    intro noted s message h
    refine Protocol.ewp_atomic (phase_stable .idle) (fun _ => phase_stable .started)
      (fun _ _ _ hfailed hrely hinv => ⟨hfailed.1, phase_stable .idle hfailed.2 hrely hinv⟩) ?_ h
    intro s choice response s' hinv hphase _ hexec
    refine keeps_answer hinv hexec (fun _ s'' _ hresult => ?_) fun error => ⟨by simp, hphase⟩
    cases hresult
    refine ⟨⟨hinv.openTx hphase.2, fun u hne => ⟨Iff.rfl, .inl (Function.update_of_ne hne ..)⟩⟩,
      hphase.2, fun tx htx => .inl ?_⟩
    rw [show (s.withTx t _).txs t = _ from Function.update_self ..] at htx
    cases htx
    rfl
  fetchWallet := by
    intro noted s h
    refine statement_spec (p := .started) (by simp) ?_ ?_ h
    · intro rows s s' hrows hrely hinv
      cases rows with
      | none => exact phase_stable .started hrows hrely hinv
      | some pair =>
          obtain ⟨wallet, hphase, hrest⟩ := hrows
          exact ⟨wallet, phase_stable _ hphase hrely hinv, hrest⟩
    intro s tx rows more hphase htx hexecute
    cases hexecute
    have hstarted := started_snapshot hphase htx
    cases hrow : ((s.snapshotOf tx).1.applyAll tx.writes).walletOf (jobs t).userId with
    | none => exact started_advance hphase.1 (by rwa [List.append_nil])
    | some row =>
        have hprepared := hstarted.fetch hrow
        refine ⟨row, ready_advance hphase.1 rfl hprepared, trivial, ?_⟩
        rw [WalletRow.ofRecord, hprepared.owner]
  insertWallet := by
    intro noted s id now message h
    refine statement_spec (p := .started) (by simp) (fun _ => phase_stable .started) ?_ h
    intro s tx rows more hphase htx hexecute
    exact started_advance hphase.1 ((started_snapshot hphase htx).insert hexecute)
  write := by
    intro noted s wallet writes statement write message h htouches
    refine statement_spec (p := .ready wallet writes) (by simp)
      (fun _ => phase_stable (.ready wallet (writes ++ [write]))) ?_ h
    intro s tx rows more hphase htx hexecute
    obtain ⟨base, version, opening, hsnapshot, hwritten, hprepared⟩ := hphase.2 tx htx
    have hbase : (s.snapshotOf tx).1 = base := by simp [snapshotOf, hsnapshot]
    rw [hwritten, hbase] at hexecute
    obtain rfl := htouches.execute hprepared hexecute
    rw [← hbase] at hprepared
    exact ready_advance hphase.1 (by rw [hwritten, List.append_assoc]) hprepared
  commitTx := by
    intro noted s wallet writes message h hwrites
    refine Protocol.ewp_atomic (phase_stable (.ready wallet writes))
      (fun _ => phase_stable .settled)
      (fun _ _ _ ⟨herror, p, hp, hphase⟩ hrely hinv =>
        ⟨herror, p, hp, phase_stable p hphase hrely hinv⟩) ?_ h
    intro s choice response s' hinv hphase _ hexec
    have hkeeps : (protocol jobs initial).Keeps t s s := ⟨hinv, fun u _ => Rely.refl u s⟩
    cases htx : s.txs t with
    | none =>
        simp only [system, exec, htx, Option.some.injEq] at hexec
        cases hexec
        exact ⟨hkeeps, by simp, .ready wallet writes, by simp, hphase⟩
    | some tx =>
        cases hfault : choice.fault with
        | some error =>
            simp only [system, exec, htx, hfault, Option.some.injEq] at hexec
            cases hexec
            exact ⟨hkeeps, by simp, .ready wallet writes, by simp, hphase⟩
        | none =>
            simp only [system, exec, htx, hfault, Option.some.injEq] at hexec
            cases hexec
            obtain ⟨base, version, opening, hsnapshot, hwritten, hprepared⟩ := hphase.2 tx htx
            obtain ⟨wallet', opening', writes', hprepared', hwrites', hwritten'⟩ :=
              commit_effect hinv htx hsnapshot hwritten hprepared hwrites
            exact ⟨⟨hinv.commit htx hprepared' hwrites' hwritten', fun u hne => rely_commit hne⟩,
              Function.update_self .., List.mem_append_right _ (List.mem_singleton_self t)⟩
  rollback := by
    intro p noted s hp h s' hrely hinv choice response s'' _ hexec
    cases hexec
    have hnot := not_mem_order hp (phase_stable p h hrely hinv)
    have hclosed : phase t (jobs t) .idle (s'.close t) := ⟨Function.update_self .., hnot⟩
    exact ⟨keeps_close hinv, fun s₃ hrely' hinv' => phase_stable .idle hclosed hrely' hinv'⟩

end Sqlite

end Mizan.Billing
