import Mizan.Billing.History

namespace Mizan.Billing

open Interleaving

-- PostgreSQL at READ COMMITTED: a statement sees what is committed when it runs and what its own
-- transaction wrote before. A row lock is held by FOR UPDATE or by an update. A claim is an
-- entry of an index of `wallets` that is not committed yet.
structure Postgres where
  database : Database
  txs : Nat → Option (List Write)
  rowLocks : Uuid → Option Nat
  ownerClaims : Uuid → Option Nat
  idClaims : Uuid → Option Nat
  -- The threads in the order of their commits, which no statement reads.
  order : List Nat

namespace Postgres

def start (database : Database) : Postgres :=
  { database, txs := fun _ => none, rowLocks := fun _ => none, ownerClaims := fun _ => none,
    idClaims := fun _ => none, order := [] }

def heldByOther (holder : Option Nat) (t : Nat) : Bool := holder.any fun u => u ≠ t

def view (s : Postgres) (writes : List Write) : Accounts := s.database.accounts.applyAll writes

-- Whether a statement of thread `t` has to wait for the end of another transaction.
def waits (s : Postgres) (t : Nat) (writes : List Write) : Statement → Bool
  | .selectWallet owner true =>
      ((s.view writes).walletOf owner).any fun row => heldByOther (s.rowLocks row.id) t
  | .insertWallet row =>
      ((s.view writes).walletOf row.ownerUserId).isNone &&
        (heldByOther (s.ownerClaims row.ownerUserId) t || heldByOther (s.idClaims row.id) t)
  | .updateBalance walletId _ _ => heldByOther (s.rowLocks walletId) t
  | .selectWallet _ false | .insertLedger _ | .insertUsageEvent _ => false

def lockRow (s : Postgres) (t : Nat) (id : Uuid) : Postgres :=
  { s with rowLocks := Function.update s.rowLocks id (some t) }

def claim (s : Postgres) (t : Nat) (row : WalletRecord) : Postgres :=
  { s with
    ownerClaims := Function.update s.ownerClaims row.ownerUserId (some t)
    idClaims := Function.update s.idClaims row.id (some t) }

def acquire (s : Postgres) (t : Nat) (writes : List Write) : Statement → Postgres
  | .selectWallet owner true =>
      match (s.view writes).walletOf owner with
      | some row => s.lockRow t row.id
      | none => s
  | .insertWallet row =>
      match (s.view writes).walletOf row.ownerUserId with
      | some _ => s
      | none => s.claim t row
  | .updateBalance walletId _ _ => s.lockRow t walletId
  | .selectWallet _ false | .insertLedger _ | .insertUsageEvent _ => s

def withTx (s : Postgres) (t : Nat) (tx : Option (List Write)) : Postgres :=
  { s with txs := Function.update s.txs t tx }

def runStatement (s : Postgres) (t : Nat) (statement : Statement) :
    Except String (statement.Rows × Postgres) :=
  match s.txs t with
  | none => .error Session.NO_TRANSACTION
  | some writes =>
      (statement.execute (s.view writes)).map fun (rows, more) =>
        (rows, (s.acquire t writes statement).withTx t (some (writes ++ more)))

def mustWait (s : Postgres) (t : Nat) (statement : Statement) : Bool :=
  (s.txs t).any fun writes => s.waits t writes statement

def release (t : Nat) (holders : Uuid → Option Nat) : Uuid → Option Nat :=
  fun key => if holders key = some t then none else holders key

def close (s : Postgres) (t : Nat) : Postgres :=
  { s with
    txs := Function.update s.txs t none
    rowLocks := release t s.rowLocks
    ownerClaims := release t s.ownerClaims
    idClaims := release t s.idClaims }

def commit (s : Postgres) (t : Nat) (writes : List Write) : Postgres :=
  { s.close t with database := s.database.applyAll writes, order := s.order ++ [t] }

def exec (t : Nat) : (c : SqlCommand) → SqlChoice → Postgres → Option (c.Response × Postgres)
  | .begin, choice, s => some (answer choice (.ok ((), s.withTx t (some []))) s)
  | .statement statement, choice, s =>
      if choice.fault = none ∧ s.mustWait t statement = true then none
      else some (answer choice (s.runStatement t statement) s)
  | .commit, choice, s =>
      match s.txs t, choice.fault with
      | some writes, none => some (.ok (), s.commit t writes)
      | _, fault => some (.error (fault.getD Session.NO_TRANSACTION), s.close t)
  | .rollback, _, s => some ((), s.close t)
  | .insertUsageEvent row, choice, s =>
      some (answer choice (.ok ((), { s with database := s.database.apply (.usageEvent row) })) s)
  | .insertAdminAudit row, choice, s =>
      some (answer choice (.ok ((), { s with database := s.database.apply (.adminAudit row) })) s)
  | .nowV7, choice, s => some (choice.uuid, s)
  | .unixTimestampString, choice, s => some (choice.timestamp, s)

-- A connection breaks, and the server rolls its transaction back.
def lose (choice : SqlChoice) (s : Postgres) : Option Postgres := some (s.close choice.lost)

def system : System SqlCommand SqlCommand.Response SqlChoice Postgres where
  exec := exec
  env := lose

structure Invariant (jobs : Nat → Job) (initial : Accounts) (s : Postgres) : Prop where
  keyed : s.database.accounts.Keyed
  history : History jobs initial s.order s.database.accounts
  once : s.order.Nodup
  uncommitted : ∀ t, s.txs t ≠ none → t ∉ s.order

-- What thread `t` may count on. As long as its transaction is open, the rows it has locked
-- stay as they are, and nobody commits the keys it has claimed.
structure Rely (t : Nat) (s s' : Postgres) : Prop where
  order : t ∈ s'.order ↔ t ∈ s.order
  tx : s'.txs t = s.txs t ∨ s'.txs t = none
  row : s'.txs t ≠ none → ∀ wallet ∈ s.database.accounts.wallets,
    s.rowLocks wallet.id = some t →
      s'.rowLocks wallet.id = some t ∧ wallet ∈ s'.database.accounts.wallets
  owner : s'.txs t ≠ none → ∀ owner, s.ownerClaims owner = some t →
    s.database.accounts.walletOf owner = none →
      s'.ownerClaims owner = some t ∧ s'.database.accounts.walletOf owner = none
  id : s'.txs t ≠ none → ∀ id, s.idClaims id = some t →
    s.database.accounts.hasWalletId id = false →
      s'.idClaims id = some t ∧ s'.database.accounts.hasWalletId id = false

theorem Rely.refl (t : Nat) (s : Postgres) : Rely t s s :=
  ⟨Iff.rfl, .inl rfl, fun _ _ hmem hlock => ⟨hlock, hmem⟩, fun _ _ hclaim hnone => ⟨hclaim, hnone⟩,
    fun _ _ hclaim hfalse => ⟨hclaim, hfalse⟩⟩

theorem Rely.trans {t : Nat} {s s' s'' : Postgres} (h : Rely t s s') (h' : Rely t s' s'') :
    Rely t s s'' := by
  have hopen : s''.txs t ≠ none → s'.txs t ≠ none := by
    intro hne hnone
    obtain heq | heq := h'.tx
    · exact hne (heq.trans hnone)
    · exact hne heq
  refine ⟨h'.order.trans h.order, ?_, ?_, ?_, ?_⟩
  · obtain heq' | heq' := h'.tx
    · rw [heq']
      exact h.tx
    · exact .inr heq'
  · intro hne wallet hmem hlock
    obtain ⟨hlock', hmem'⟩ := h.row (hopen hne) wallet hmem hlock
    exact h'.row hne wallet hmem' hlock'
  · intro hne owner hclaim hnone
    obtain ⟨hclaim', hnone'⟩ := h.owner (hopen hne) owner hclaim hnone
    exact h'.owner hne owner hclaim' hnone'
  · intro hne id hclaim hfalse
    obtain ⟨hclaim', hfalse'⟩ := h.id (hopen hne) id hclaim hfalse
    exact h'.id hne id hclaim' hfalse'

-- A step that commits nothing and takes no lock from thread `u`.
structure Retains (u : Nat) (s s' : Postgres) : Prop where
  accounts : s'.database.accounts = s.database.accounts
  order : s'.order = s.order
  row : ∀ id, s.rowLocks id = some u → s'.rowLocks id = some u
  owner : ∀ owner, s.ownerClaims owner = some u → s'.ownerClaims owner = some u
  id : ∀ id, s.idClaims id = some u → s'.idClaims id = some u

theorem Retains.refl (u : Nat) (s : Postgres) : Retains u s s :=
  ⟨rfl, rfl, fun _ h => h, fun _ h => h, fun _ h => h⟩

theorem Retains.rely {u : Nat} {s s' : Postgres} (h : Retains u s s')
    (htx : s'.txs u = s.txs u ∨ s'.txs u = none) : Rely u s s' where
  order := by rw [h.order]
  tx := htx
  row _ wallet hmem hlock := ⟨h.row _ hlock, by rwa [h.accounts]⟩
  owner _ owner hclaim hnone := ⟨h.owner _ hclaim, by rwa [h.accounts]⟩
  id _ id hclaim hfalse := ⟨h.id _ hclaim, by rwa [h.accounts]⟩

theorem Retains.invariant {jobs : Nat → Job} {initial : Accounts} {u : Nat} {s s' : Postgres}
    (h : Retains u s s') (hinv : Invariant jobs initial s)
    (htxs : ∀ t, s'.txs t ≠ none → t ∉ s.order) : Invariant jobs initial s' where
  keyed := by rw [h.accounts]; exact hinv.keyed
  history := by rw [h.accounts, h.order]; exact hinv.history
  once := by rw [h.order]; exact hinv.once
  uncommitted := by rw [h.order]; exact htxs

theorem release_of_ne {t u : Nat} {holders : Uuid → Option Nat} {key : Uuid} (hne : u ≠ t)
    (h : holders key = some u) : release t holders key = some u := by
  unfold release
  rw [h]
  exact if_neg fun heq => hne (Option.some.inj heq)

theorem retains_close {t u : Nat} (hne : u ≠ t) (s : Postgres) : Retains u s (s.close t) where
  accounts := rfl
  order := rfl
  row _ h := release_of_ne hne h
  owner _ h := release_of_ne hne h
  id _ h := release_of_ne hne h

theorem update_of_heldByOther {t u : Nat} {holders : Uuid → Option Nat} {key key' : Uuid}
    (hfree : heldByOther (holders key) t = false) (h : holders key' = some u) :
    Function.update holders key (some t) key' = some u := by
  by_cases hkey : key' = key
  · subst hkey
    rw [h] at hfree
    have hu : u = t := by simpa [heldByOther] using hfree
    rw [Function.update_self, hu]
  · rw [Function.update_of_ne hkey, h]

theorem retains_acquire {t : Nat} {s : Postgres} {writes : List Write} {statement : Statement}
    (h : s.waits t writes statement = false) (u : Nat) :
    Retains u s (s.acquire t writes statement) := by
  cases statement with
  | selectWallet owner forUpdate =>
      cases forUpdate with
      | false => exact Retains.refl u s
      | true =>
          cases hrow : (s.view writes).walletOf owner with
          | none =>
              simp only [acquire, hrow]
              exact Retains.refl u s
          | some row =>
              simp only [waits, hrow, Option.any_some] at h
              simp only [acquire, hrow]
              exact ⟨rfl, rfl, fun _ hlock => update_of_heldByOther h hlock, fun _ h => h,
                fun _ h => h⟩
  | insertWallet row =>
      cases hrow : (s.view writes).walletOf row.ownerUserId with
      | some other =>
          simp only [acquire, hrow]
          exact Retains.refl u s
      | none =>
          simp only [waits, hrow, Option.isNone_none, Bool.true_and, Bool.or_eq_false_iff] at h
          simp only [acquire, hrow]
          exact ⟨rfl, rfl, fun _ h => h, fun _ hclaim => update_of_heldByOther h.1 hclaim,
            fun _ hclaim => update_of_heldByOther h.2 hclaim⟩
  | updateBalance walletId balance now =>
      exact ⟨rfl, rfl, fun _ hlock => update_of_heldByOther h hlock, fun _ h => h, fun _ h => h⟩
  | insertLedger | insertUsageEvent => exact Retains.refl u s

-- The wallet that a transaction has read is locked, or is its own to commit.
inductive Held (s : Postgres) (t : Nat) (userId : Uuid) : WalletRecord → List Write → Prop where
  | locked {wallet : WalletRecord} (hwallet : s.database.accounts.walletOf userId = some wallet)
      (hlock : s.rowLocks wallet.id = some t) : Held s t userId wallet []
  | claimed {id : Uuid} {now : String} (hnone : s.database.accounts.walletOf userId = none)
      (hid : s.database.accounts.hasWalletId id = false)
      (howner : s.ownerClaims userId = some t) (hclaim : s.idClaims id = some t) :
      Held s t userId (openedWallet userId id now) [.wallet (openedWallet userId id now)]

section Held

variable {s s' : Postgres} {t : Nat} {userId : Uuid} {wallet : WalletRecord}
  {opening writes : List Write}

theorem Held.prepared (h : s.Held t userId wallet opening) :
    Prepared userId s.database.accounts wallet opening := by
  cases h with
  | locked hwallet hlock => exact .found hwallet
  | claimed hnone hid howner hclaim => exact .opened hnone hid

theorem Held.retains (h : s.Held t userId wallet opening) (hretains : Retains t s s') :
    s'.Held t userId wallet opening := by
  cases h with
  | locked hwallet hlock =>
      exact .locked (by rwa [hretains.accounts]) (hretains.row _ hlock)
  | claimed hnone hid howner hclaim =>
      exact .claimed (by rwa [hretains.accounts]) (by rwa [hretains.accounts])
        (hretains.owner _ howner) (hretains.id _ hclaim)

theorem Held.rely (h : s.Held t userId wallet opening) (hrely : Rely t s s')
    (hkeyed : s'.database.accounts.Keyed) (hopen : s'.txs t ≠ none) :
    s'.Held t userId wallet opening := by
  cases h with
  | locked hwallet hlock =>
      obtain ⟨hmem, howner⟩ := Accounts.walletOf_mem hwallet
      obtain ⟨hlock', hmem'⟩ := hrely.row hopen wallet hmem hlock
      exact .locked (hkeyed.walletOf_eq_some.mpr ⟨hmem', howner⟩) hlock'
  | claimed hnone hid howner hclaim =>
      obtain ⟨howner', hnone'⟩ := hrely.owner hopen _ howner hnone
      obtain ⟨hclaim', hid'⟩ := hrely.id hopen _ hclaim hid
      exact .claimed hnone' hid' howner' hclaim'

-- A commit is one step of the history, and no other thread loses what it counts on.
theorem Held.commit {jobs : Nat → Job} {initial : Accounts} (hinv : Invariant jobs initial s)
    (hopen : s.txs t ≠ none) (h : s.Held t (jobs t).userId wallet opening)
    (hwrites : JobWrites (jobs t) (.ofRecord wallet) writes) :
    Invariant jobs initial (s.commit t (opening ++ writes)) ∧
      ∀ u, u ≠ t → Rely u s (s.commit t (opening ++ writes)) := by
  have haccounts : (s.commit t (opening ++ writes)).database.accounts =
      s.database.accounts.applyAll (opening ++ writes) := Database.accounts_applyAll _ _
  have hprepared := h.prepared
  have hnot := hinv.uncommitted t hopen
  refine ⟨⟨?_, ?_, ?_, ?_⟩, fun u hne => ⟨?_, ?_, ?_, ?_, ?_⟩⟩
  · rw [haccounts]
    exact keyed_commit hprepared hwrites hinv.keyed
  · rw [haccounts]
    exact hinv.history.commit ⟨wallet, opening, writes, hprepared, hwrites, rfl⟩
  · exact List.nodup_append.mpr ⟨hinv.once, List.nodup_singleton t, fun u hu u' hu' heq => by
      rw [List.mem_singleton.mp hu'] at heq
      exact hnot (heq ▸ hu)⟩
  · intro u hu hmem
    have hne : u ≠ t := by
      rintro rfl
      exact hu (Function.update_self ..)
    have hu' : s.txs u ≠ none := by
      rwa [show (s.commit t (opening ++ writes)).txs u = s.txs u from
        Function.update_of_ne hne ..] at hu
    obtain hold | hnew := List.mem_append.mp hmem
    · exact hinv.uncommitted u hu' hold
    · exact hne (List.mem_singleton.mp hnew)
  · simp [Postgres.commit, hne]
  · exact .inl (Function.update_of_ne hne ..)
  · intro _ other hmem hlock
    refine ⟨release_of_ne hne hlock, ?_⟩
    rw [haccounts]
    refine mem_commit hprepared hwrites hmem fun heq => ?_
    cases h with
    | locked hwallet hlock' =>
        rw [heq, hlock'] at hlock
        exact hne (Option.some.inj hlock).symm
    | claimed hnone hid howner hclaim =>
        have hfound := (Accounts.hasWalletId_iff _).mpr ⟨other, hmem, heq⟩
        exact Bool.false_ne_true (hid.symm.trans hfound)
  · intro _ owner hclaim' hnone'
    refine ⟨release_of_ne hne hclaim', ?_⟩
    rw [haccounts]
    refine walletOf_commit hprepared hwrites hnone' fun hopening heq => ?_
    cases h with
    | locked => exact hopening rfl
    | claimed hnone hid howner hclaim =>
        rw [heq] at hclaim'
        exact hne (Option.some.inj (hclaim'.symm.trans howner))
  · intro _ id hclaim' hfalse
    refine ⟨release_of_ne hne hclaim', ?_⟩
    rw [haccounts]
    refine hasWalletId_commit hprepared hwrites hfalse fun hopening heq => ?_
    cases h with
    | locked => exact hopening rfl
    | claimed hnone hid howner hclaim =>
        rw [heq] at hclaim'
        exact hne (Option.some.inj (hclaim'.symm.trans hclaim))

end Held

def protocol (jobs : Nat → Job) (initial : Accounts) : Protocol system where
  inv := Invariant jobs initial
  rely := Rely
  fresh t s := s.txs t = none ∧ t ∉ s.order
  admits _ _ _ _ := True
  admitsEnv _ _ := True
  rely_refl := Rely.refl
  rely_trans := Rely.trans
  fresh_rely := by
    intro t s s' h hrely
    refine ⟨?_, fun hmem => h.2 (hrely.order.mp hmem)⟩
    obtain heq | heq := hrely.tx
    · exact heq.trans h.1
    · exact heq
  env_keeps := by
    intro choice s s' hinv _ henv
    cases henv
    have hlost : (s.close choice.lost).txs choice.lost = none := Function.update_self ..
    refine ⟨⟨hinv.keyed, hinv.history, hinv.once, fun t ht => ?_⟩, fun t => ?_⟩
    · have hne : t ≠ choice.lost := by
        rintro rfl
        exact ht hlost
      rw [show (s.close choice.lost).txs t = s.txs t from Function.update_of_ne hne ..] at ht
      exact hinv.uncommitted t ht
    · by_cases heq : t = choice.lost
      · subst heq
        exact ⟨Iff.rfl, .inr hlost, fun h => absurd hlost h, fun h => absurd hlost h,
          fun h => absurd hlost h⟩
      · exact (retains_close heq s).rely (.inl (Function.update_of_ne heq ..))

def phase (t : Nat) (job : Job) : Phase → Postgres → Prop
  | .idle, s => s.txs t = none ∧ t ∉ s.order
  | .started, s => t ∉ s.order ∧ ∀ writes, s.txs t = some writes →
      writes = [] ∨ ∃ wallet, s.Held t job.userId wallet writes
  | .ready wallet writes, s => t ∉ s.order ∧ ∀ pending, s.txs t = some pending →
      ∃ opening, pending = opening ++ writes ∧ s.Held t job.userId wallet opening
  | .settled, s => s.txs t = none ∧ t ∈ s.order

section Rules

variable {jobs : Nat → Job} {initial : Accounts} {t : Nat} {job : Job} {s s' : Postgres}

theorem tx_of_rely {writes : List Write} (hrely : Rely t s s') (htx : s'.txs t = some writes) :
    s.txs t = some writes := by
  obtain heq | heq := hrely.tx
  · exact heq.symm.trans htx
  · rw [heq] at htx
    cases htx

theorem phase_stable (p : Phase) : (protocol jobs initial).Stable t (phase t job p) := by
  intro s s' h hrely hinv
  have hrely : Rely t s s' := hrely
  have hkeyed : s'.database.accounts.Keyed := Invariant.keyed hinv
  have hclosed : s.txs t = none → s'.txs t = none := fun hnone =>
    hrely.tx.elim (fun heq => heq.trans hnone) id
  cases p with
  | idle => exact ⟨hclosed h.1, fun hmem => h.2 (hrely.order.mp hmem)⟩
  | settled => exact ⟨hclosed h.1, hrely.order.mpr h.2⟩
  | started =>
      refine ⟨fun hmem => h.1 (hrely.order.mp hmem), fun writes htx => ?_⟩
      obtain hnil | ⟨wallet, hheld⟩ := h.2 writes (tx_of_rely hrely htx)
      · exact .inl hnil
      · exact .inr ⟨wallet, hheld.rely hrely hkeyed (by simp [htx])⟩
  | ready wallet writes =>
      refine ⟨fun hmem => h.1 (hrely.order.mp hmem), fun pending htx => ?_⟩
      obtain ⟨opening, hpending, hheld⟩ := h.2 pending (tx_of_rely hrely htx)
      exact ⟨opening, hpending, hheld.rely hrely hkeyed (by simp [htx])⟩

theorem not_mem_order {p : Phase} (hp : p ≠ .settled) (h : phase t job p s) : t ∉ s.order := by
  cases p with
  | idle => exact h.2
  | started => exact h.1
  | ready => exact h.1
  | settled => exact absurd rfl hp

-- A step of thread `t` that commits nothing.
theorem keeps_of_retains (hinv : Invariant jobs initial s)
    (hretains : ∀ u, u ≠ t → Retains u s s') (hother : ∀ u, u ≠ t → s'.txs u = s.txs u)
    (hnot : s'.txs t ≠ none → t ∉ s.order) : (protocol jobs initial).Keeps t s s' := by
  have hnext := hretains (t + 1) (by omega)
  refine ⟨hnext.invariant hinv fun u hu => ?_, fun u hne =>
    (hretains u hne).rely (.inl (hother u hne))⟩
  by_cases heq : u = t
  · subst heq
    exact hnot hu
  · rw [hother u heq] at hu
    exact hinv.uncommitted u hu

theorem keeps_close (hinv : Invariant jobs initial s) :
    (protocol jobs initial).Keeps t s (s.close t) :=
  keeps_of_retains hinv (fun _ hne => retains_close hne s)
    (fun _ hne => Function.update_of_ne hne ..)
    fun hopen => absurd (Function.update_self ..) hopen

theorem phase_retains {p : Phase} (h : phase t job p s) (hretains : Retains t s s')
    (htx : s'.txs t = s.txs t) : phase t job p s' := by
  cases p with
  | idle => exact ⟨htx.trans h.1, by rw [hretains.order]; exact h.2⟩
  | settled => exact ⟨htx.trans h.1, by rw [hretains.order]; exact h.2⟩
  | started =>
      refine ⟨by rw [hretains.order]; exact h.1, fun writes hwrites => ?_⟩
      exact (h.2 writes (htx.symm.trans hwrites)).imp id fun ⟨wallet, hheld⟩ =>
        ⟨wallet, hheld.retains hretains⟩
  | ready wallet writes =>
      refine ⟨by rw [hretains.order]; exact h.1, fun pending hpending => ?_⟩
      obtain ⟨opening, heq, hheld⟩ := h.2 pending (htx.symm.trans hpending)
      exact ⟨opening, heq, hheld.retains hretains⟩

-- An insert on a connection of its own concerns no transaction.
theorem keeps_apply {p : Phase} {write : Write} (hinv : Invariant jobs initial s)
    (hphase : phase t job p s)
    (hwrite : (s.database.apply write).accounts = s.database.accounts) :
    (protocol jobs initial).Keeps t s { s with database := s.database.apply write } ∧
      phase t job p { s with database := s.database.apply write } := by
  have hretains : ∀ u, Retains u s { s with database := s.database.apply write } :=
    fun u => ⟨hwrite, rfl, fun _ h => h, fun _ h => h, fun _ h => h⟩
  exact ⟨keeps_of_retains hinv (fun u _ => hretains u) (fun _ _ => rfl) (hinv.uncommitted t),
    phase_retains hphase (hretains t) rfl⟩

-- A statement that goes through has not had to wait, and found its transaction open.
theorem exec_statement {statement : Statement} {choice : SqlChoice}
    {response : Except String statement.Rows}
    (hexec : exec t (.statement statement) choice s = some (response, s')) :
    some (answer choice (s.runStatement t statement) s) = some (response, s') ∧
      (choice.fault = none → s.mustWait t statement = false) := by
  simp only [exec] at hexec
  split at hexec
  · cases hexec
  · rename_i hwait
    exact ⟨hexec, fun hfault => by simpa [hfault] using hwait⟩

theorem runStatement_ok {statement : Statement} {rows : statement.Rows}
    (hwait : s.mustWait t statement = false) (h : s.runStatement t statement = .ok (rows, s')) :
    ∃ writes more, s.txs t = some writes ∧ s.waits t writes statement = false ∧
      statement.execute (s.view writes) = .ok (rows, more) ∧
      s' = (s.acquire t writes statement).withTx t (some (writes ++ more)) := by
  cases htx : s.txs t with
  | none => simp [runStatement, htx] at h
  | some writes =>
      simp only [runStatement, htx] at h
      simp only [mustWait, htx, Option.any_some] at hwait
      cases hexecute : statement.execute (s.view writes) with
      | error error => simp [hexecute, Except.map] at h
      | ok pair =>
          simp only [hexecute, Except.map, Except.ok.injEq, Prod.mk.injEq] at h
          obtain ⟨rfl, rfl⟩ := h
          exact ⟨writes, pair.2, rfl, hwait, hexecute, rfl⟩

theorem withTx_self (s : Postgres) (t : Nat) (tx : Option (List Write)) :
    (s.withTx t tx).txs t = tx := Function.update_self ..

theorem withTx_of_ne {u : Nat} (hne : u ≠ t) (s : Postgres) (tx : Option (List Write)) :
    (s.withTx t tx).txs u = s.txs u := Function.update_of_ne hne ..

theorem retains_withTx {u : Nat} (h : Retains u s s') (t : Nat) (tx : Option (List Write)) :
    Retains u s (s'.withTx t tx) := ⟨h.accounts, h.order, h.row, h.owner, h.id⟩

theorem started_withTx {writes : List Write} (hnot : t ∉ s.order)
    (h : writes = [] ∨ ∃ wallet, s.Held t job.userId wallet writes) :
    phase t job .started (s.withTx t (some writes)) := by
  refine ⟨hnot, fun pending htx => ?_⟩
  rw [withTx_self] at htx
  cases htx
  obtain hnil | ⟨wallet, hheld⟩ := h
  · exact .inl hnil
  · exact .inr ⟨wallet, hheld.retains (retains_withTx (Retains.refl t s) t _)⟩

theorem ready_withTx {wallet : WalletRecord} {opening writes : List Write} (hnot : t ∉ s.order)
    (hheld : s.Held t job.userId wallet opening) :
    phase t job (.ready wallet writes) (s.withTx t (some (opening ++ writes))) := by
  refine ⟨hnot, fun pending htx => ⟨opening, ?_, ?_⟩⟩
  · rw [withTx_self] at htx
    exact (Option.some.inj htx).symm
  · exact hheld.retains (retains_withTx (Retains.refl t s) t _)

theorem acquire_txs (s : Postgres) (t : Nat) (writes : List Write) (statement : Statement) :
    (s.acquire t writes statement).txs = s.txs := by
  unfold acquire
  split
  · split <;> rfl
  · split <;> rfl
  all_goals rfl

-- The rule of a statement: what it returns and writes decides the next phase.
theorem statement_spec {p : Phase} {statement : Statement} {post : statement.Rows → Postgres → Prop}
    {message : String → String} (hp : p ≠ .settled)
    (hpost : ∀ rows, (protocol jobs initial).Stable t (post rows))
    (hnext : ∀ s writes rows more, Invariant jobs initial s → phase t job p s →
      s.txs t = some writes → s.waits t writes statement = false →
      statement.execute (s.view writes) = .ok (rows, more) →
      post rows ((s.acquire t writes statement).withTx t (some (writes ++ more))))
    (h : phase t job p s) :
    (protocol jobs initial).ewp t (query statement message) post
      (fun error s' => error ≠ .insufficientCredit ∧ ∃ p ≠ Phase.settled, phase t job p s') s := by
  refine Protocol.ewp_atomic (phase_stable p) hpost (fun error s s' hfailed hrely hinv => ?_) ?_ h
  · obtain ⟨herror, p', hp', hphase⟩ := hfailed
    exact ⟨herror, p', hp', phase_stable p' hphase hrely hinv⟩
  intro s choice response s' hinv hphase _ hexec
  obtain ⟨hanswer, hwait⟩ := exec_statement hexec
  refine keeps_answer hinv hanswer (fun rows s'' hfault hrun => ?_)
    fun error => ⟨by simp, p, hp, hphase⟩
  obtain ⟨writes, more, htx, hwait', hexecute, rfl⟩ := runStatement_ok (hwait hfault) hrun
  refine ⟨keeps_of_retains hinv (fun u _ => retains_withTx (retains_acquire hwait' u) t _)
    (fun u hne => ?_)
    fun _ => not_mem_order hp hphase, hnext s writes rows more hinv hphase htx hwait' hexecute⟩
  rw [withTx_of_ne hne, acquire_txs]

end Rules

section Statements

variable {t : Nat} {userId : Uuid} {s : Postgres} {writes more : List Write}

theorem held_of_select {row : WalletRecord}
    (hstarted : writes = [] ∨ ∃ wallet, s.Held t userId wallet writes)
    (hrow : (s.view writes).walletOf userId = some row) :
    (s.lockRow t row.id).Held t userId row writes := by
  obtain rfl | ⟨wallet, hheld⟩ := hstarted
  · exact .locked hrow (Function.update_self ..)
  · have hsame := hheld.prepared.walletOf
    obtain rfl : wallet = row := Option.some.inj (hsame.symm.trans hrow)
    cases hheld with
    | locked hwallet hlock => exact .locked hwallet (Function.update_self ..)
    | claimed hnone hid howner hclaim => exact .claimed hnone hid howner hclaim

theorem held_of_insert {id : Uuid} {now : String} {rows : Unit}
    (hstarted : writes = [] ∨ ∃ wallet, s.Held t userId wallet writes)
    (hexecute : (Statement.insertWallet (openedWallet userId id now)).execute (s.view writes) =
      .ok (rows, more)) :
    writes ++ more = [] ∨ ∃ wallet, (s.acquire t writes
      (.insertWallet (openedWallet userId id now))).Held t userId wallet (writes ++ more) := by
  obtain ⟨hsome, rfl⟩ | ⟨hnone, hid, rfl⟩ := execute_insertWallet hexecute
  · obtain ⟨row, hrow⟩ := Option.isSome_iff_exists.mp hsome
    simp only [acquire, hrow, List.append_nil]
    exact hstarted
  · obtain rfl | ⟨wallet, hheld⟩ := hstarted
    · simp only [acquire, hnone]
      exact .inr ⟨_, .claimed hnone hid (Function.update_self ..) (Function.update_self ..)⟩
    · have hsome := hheld.prepared.walletOf
      cases hnone.symm.trans hsome

end Statements

-- READ COMMITTED with the row locks of FOR UPDATE and the unique keys of `wallets` isolates the
-- billing transactions.
def isolation (jobs : Nat → Job) (initial : Accounts) (t : Nat) :
    Isolation (protocol jobs initial) t .postgres (jobs t) where
  phase p _ := phase t (jobs t) p
  seen _ := True
  phase_rely := phase_stable _
  nowV7 := by
    intro p noted s h
    refine Protocol.ewp_atomic (phase_stable p) (fun _ => phase_stable p)
      (fun _ _ _ hfalse => hfalse.elim) ?_ h
    intro s choice response s' hinv hphase _ hexec
    cases hexec
    exact ⟨⟨hinv, fun u _ => Rely.refl u s⟩, hphase⟩
  unixTimestampString := by
    intro p noted s h
    refine Protocol.ewp_atomic (phase_stable p) (fun _ => phase_stable p)
      (fun _ _ _ hfalse => hfalse.elim) ?_ h
    intro s choice response s' hinv hphase _ hexec
    cases hexec
    exact ⟨⟨hinv, fun u _ => Rely.refl u s⟩, hphase⟩
  executeUsageEvent := by
    intro p noted s row message _ h
    refine Protocol.ewp_atomic (phase_stable p) (fun _ => phase_stable p)
      (fun _ _ _ hfailed hrely hinv => ⟨hfailed.1, phase_stable p hfailed.2 hrely hinv⟩) ?_ h
    intro s choice response s' hinv hphase _ hexec
    refine keeps_answer hinv hexec (fun _ s'' _ hresult => ?_) fun error => ⟨by simp, hphase⟩
    cases hresult
    exact keeps_apply hinv hphase rfl
  executeAdminAudit := by
    intro p noted s row h
    refine Protocol.ewp_atomic (phase_stable p) (fun _ => phase_stable p)
      (fun _ _ _ hfalse => hfalse.elim) ?_ h
    intro s choice response s' hinv hphase _ hexec
    refine keeps_ignored hinv hexec (fun _ s'' _ hresult => ?_) hphase
    cases hresult
    exact keeps_apply hinv hphase rfl
  beginTx := by
    intro noted s message h
    refine Protocol.ewp_atomic (phase_stable .idle) (fun _ => phase_stable .started)
      (fun _ _ _ hfailed hrely hinv => ⟨hfailed.1, phase_stable .idle hfailed.2 hrely hinv⟩) ?_ h
    intro s choice response s' hinv hphase _ hexec
    refine keeps_answer hinv hexec (fun _ s'' _ hresult => ?_) fun error => ⟨by simp, hphase⟩
    cases hresult
    exact ⟨keeps_of_retains hinv (fun u _ => retains_withTx (Retains.refl u s) t _)
      (fun u hne => withTx_of_ne hne s _) fun _ => hphase.2, started_withTx hphase.2 (.inl rfl)⟩
  fetchWallet := by
    intro noted s h
    refine statement_spec (p := .started) (by simp) ?_ ?_ h
    · intro rows s s' hrows hrely hinv
      cases rows with
      | none => exact phase_stable .started hrows hrely hinv
      | some pair =>
          obtain ⟨wallet, hphase, hrest⟩ := hrows
          exact ⟨wallet, phase_stable _ hphase hrely hinv, hrest⟩
    intro s writes rows more _ hphase htx _ hexecute
    cases hexecute
    simp only [acquire, lockForUpdate]
    cases hrow : (s.view writes).walletOf (jobs t).userId with
    | none =>
        rw [List.append_nil]
        exact started_withTx hphase.1 (hphase.2 writes htx)
    | some row =>
        have hheld := held_of_select (hphase.2 writes htx) hrow
        refine ⟨row, ready_withTx hphase.1 hheld, trivial, ?_⟩
        rw [WalletRow.ofRecord, hheld.prepared.owner]
  insertWallet := by
    intro noted s id now message h
    refine statement_spec (p := .started) (by simp) (fun _ => phase_stable .started) ?_ h
    intro s writes rows more _ hphase htx hwait hexecute
    refine started_withTx ?_ (held_of_insert (hphase.2 writes htx) hexecute)
    rw [(retains_acquire hwait t).order]
    exact hphase.1
  write := by
    intro noted s wallet writes statement write message h htouches
    refine statement_spec (p := .ready wallet writes) (by simp)
      (fun _ => phase_stable (.ready wallet (writes ++ [write]))) ?_ h
    intro s pending rows more _ hphase htx hwait hexecute
    obtain ⟨opening, rfl, hheld⟩ := hphase.2 pending htx
    obtain rfl := htouches.execute hheld.prepared hexecute
    have hretains := retains_acquire hwait t
    rw [List.append_assoc]
    refine ready_withTx ?_ (hheld.retains hretains)
    rw [hretains.order]
    exact hphase.1
  commitTx := by
    intro noted s wallet writes message h hwrites
    refine Protocol.ewp_atomic (phase_stable (.ready wallet writes))
      (fun _ => phase_stable .settled)
      (fun _ _ _ ⟨herror, p, hp, hphase⟩ hrely hinv =>
        ⟨herror, p, hp, phase_stable p hphase hrely hinv⟩) ?_ h
    intro s choice response s' hinv hphase _ hexec
    have hclosed : phase t (jobs t) .idle (s.close t) := ⟨Function.update_self .., hphase.1⟩
    cases htx : s.txs t with
    | none =>
        simp only [system, exec, htx, Option.some.injEq] at hexec
        cases hexec
        exact ⟨keeps_close hinv, by simp, .idle, by simp, hclosed⟩
    | some pending =>
        cases hfault : choice.fault with
        | some error =>
            simp only [system, exec, htx, hfault, Option.some.injEq] at hexec
            cases hexec
            exact ⟨keeps_close hinv, by simp, .idle, by simp, hclosed⟩
        | none =>
            simp only [system, exec, htx, hfault, Option.some.injEq] at hexec
            cases hexec
            obtain ⟨opening, rfl, hheld⟩ := hphase.2 pending htx
            have hopen : s.txs t ≠ none := by simp [htx]
            exact ⟨hheld.commit hinv hopen hwrites, Function.update_self ..,
              List.mem_append_right _ (List.mem_singleton_self t)⟩
  rollback := by
    intro p noted s hp h s' hrely hinv choice response s'' _ hexec
    cases hexec
    have hnot := not_mem_order hp (phase_stable p h hrely hinv)
    have hclosed : phase t (jobs t) .idle (s'.close t) := ⟨Function.update_self .., hnot⟩
    exact ⟨keeps_close hinv, fun s₃ hrely' hinv' => phase_stable .idle hclosed hrely' hinv'⟩

end Postgres

end Mizan.Billing
