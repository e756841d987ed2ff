import Mizan.Billing.Serial

namespace Mizan

open Interleaving

-- A write that opens no wallet and touches at most one.
def Write.Within (walletId : Uuid) : Write → Prop
  | .wallet _ => False
  | .balance id _ _ => id = walletId
  | .ledger _ | .usageEvent _ | .adminAudit _ => True

namespace Billing

def NonNegative (accounts : Accounts) : Prop :=
  ∀ wallet ∈ accounts.wallets, 0 ≤ wallet.balanceMicrocredits.toInt

section Within

variable {accounts : Accounts} {walletId : Uuid} {write : Write} {writes : List Write}

theorem hasWalletId_eq_false {id : Uuid} :
    accounts.hasWalletId id = false ↔ id ∉ accounts.wallets.map WalletRecord.id := by
  simp [Accounts.hasWalletId]

theorem walletOf_eq_none_iff {owner : Uuid} :
    accounts.walletOf owner = none ↔ owner ∉ accounts.wallets.map WalletRecord.ownerUserId := by
  simp [Accounts.walletOf_eq_none]

theorem within_ids (h : write.Within walletId) :
    (accounts.apply write).wallets.map WalletRecord.id = accounts.wallets.map WalletRecord.id := by
  cases write with
  | wallet row => exact h.elim
  | balance id balance now => exact Accounts.ids_apply_balance id balance now
  | ledger | usageEvent | adminAudit => rfl

theorem within_owners (h : write.Within walletId) :
    (accounts.apply write).wallets.map WalletRecord.ownerUserId =
      accounts.wallets.map WalletRecord.ownerUserId := by
  cases write with
  | wallet row => exact h.elim
  | balance id balance now => exact Accounts.owners_apply_balance id balance now
  | ledger | usageEvent | adminAudit => rfl

theorem within_mem (h : write.Within walletId) {wallet : WalletRecord}
    (hne : wallet.id ≠ walletId) (hmem : wallet ∈ accounts.wallets) :
    wallet ∈ (accounts.apply write).wallets := by
  cases write with
  | wallet row => exact h.elim
  | balance id balance now =>
      have hid : wallet.id ≠ id := fun heq => hne (heq.trans h)
      exact List.mem_map.mpr ⟨wallet, hmem, if_neg hid⟩
  | ledger | usageEvent | adminAudit => exact hmem

theorem ids_applyAll (h : ∀ write ∈ writes, write.Within walletId) :
    (accounts.applyAll writes).wallets.map WalletRecord.id =
      accounts.wallets.map WalletRecord.id := by
  induction writes generalizing accounts with
  | nil => rfl
  | cons write writes ih =>
      rw [List.forall_mem_cons] at h
      rw [Accounts.applyAll_cons, ih h.2, within_ids h.1]

theorem owners_applyAll (h : ∀ write ∈ writes, write.Within walletId) :
    (accounts.applyAll writes).wallets.map WalletRecord.ownerUserId =
      accounts.wallets.map WalletRecord.ownerUserId := by
  induction writes generalizing accounts with
  | nil => rfl
  | cons write writes ih =>
      rw [List.forall_mem_cons] at h
      rw [Accounts.applyAll_cons, ih h.2, within_owners h.1]

theorem mem_applyAll (h : ∀ write ∈ writes, write.Within walletId) {wallet : WalletRecord}
    (hne : wallet.id ≠ walletId) (hmem : wallet ∈ accounts.wallets) :
    wallet ∈ (accounts.applyAll writes).wallets := by
  induction writes generalizing accounts with
  | nil => exact hmem
  | cons write writes ih =>
      rw [List.forall_mem_cons] at h
      exact ih h.2 (within_mem h.1 hne hmem)

theorem JobWrites.within {job : Job} {wallet : WalletRow} (h : JobWrites job wallet writes) :
    ∀ write ∈ writes, write.Within wallet.id := by
  cases h with
  | grant => simp [entryWrites, Write.Within]
  | usage => simp [entryWrites, Write.Within]
  | sufficient | ensure | get => simp

-- A job that writes nothing does so whatever wallet row it was shown.
theorem JobWrites.of_nil {job : Job} {row : WalletRow} (h : JobWrites job row [])
    (row' : WalletRow) : JobWrites job row' [] := by
  generalize hnil : ([] : List Write) = written at h
  cases h with
  | grant => simp [entryWrites] at hnil
  | usage => simp [entryWrites] at hnil
  | sufficient hcharge => exact .sufficient hcharge
  | ensure => exact .ensure
  | get => exact .get

end Within

-- What one committed transaction leaves alone.
section Frame

variable {job : Job} {accounts : Accounts} {wallet : WalletRecord} {opening writes : List Write}

theorem Prepared.ids {userId : Uuid} (h : Prepared userId accounts wallet opening) :
    (accounts.applyAll opening).wallets.map WalletRecord.id =
      accounts.wallets.map WalletRecord.id ++ if opening = [] then [] else [wallet.id] := by
  cases h with
  | found => simp
  | opened => simp [Accounts.apply]

theorem Prepared.owners {userId : Uuid} (h : Prepared userId accounts wallet opening) :
    (accounts.applyAll opening).wallets.map WalletRecord.ownerUserId =
      accounts.wallets.map WalletRecord.ownerUserId ++
        if opening = [] then [] else [wallet.ownerUserId] := by
  cases h with
  | found => simp
  | opened => simp [Accounts.apply]

variable (hprepared : Prepared job.userId accounts wallet opening)
  (hwrites : JobWrites job (.ofRecord wallet) writes)

include hprepared hwrites

theorem keyed_commit (hkeyed : accounts.Keyed) :
    (accounts.applyAll (opening ++ writes)).Keyed := by
  have hopened := hprepared.keyed hkeyed
  rw [Accounts.applyAll_append]
  exact ⟨by rw [ids_applyAll hwrites.within]; exact hopened.ids,
    by rw [owners_applyAll hwrites.within]; exact hopened.owners⟩

theorem mem_commit {other : WalletRecord} (hmem : other ∈ accounts.wallets)
    (hne : other.id ≠ wallet.id) : other ∈ (accounts.applyAll (opening ++ writes)).wallets := by
  have hopened : other ∈ (accounts.applyAll opening).wallets := by
    cases hprepared with
    | found => exact hmem
    | opened => exact List.mem_append_left _ hmem
  rw [Accounts.applyAll_append]
  exact mem_applyAll hwrites.within hne hopened

theorem walletOf_commit {owner : Uuid} (hnone : accounts.walletOf owner = none)
    (hne : opening ≠ [] → owner ≠ wallet.ownerUserId) :
    (accounts.applyAll (opening ++ writes)).walletOf owner = none := by
  rw [walletOf_eq_none_iff] at hnone ⊢
  rw [Accounts.applyAll_append, owners_applyAll hwrites.within, hprepared.owners]
  split
  · simpa using hnone
  · rename_i hopening
    have hne' := hne hopening
    simp only [List.mem_append, List.mem_singleton, not_or]
    exact ⟨hnone, hne'⟩

theorem hasWalletId_commit {id : Uuid} (hfalse : accounts.hasWalletId id = false)
    (hne : opening ≠ [] → id ≠ wallet.id) :
    (accounts.applyAll (opening ++ writes)).hasWalletId id = false := by
  rw [hasWalletId_eq_false] at hfalse ⊢
  rw [Accounts.applyAll_append, ids_applyAll hwrites.within, hprepared.ids]
  split
  · simpa using hfalse
  · rename_i hopening
    have hne' := hne hopening
    simp only [List.mem_append, List.mem_singleton, not_or]
    exact ⟨hfalse, hne'⟩

theorem walletOf_isSome_commit {owner : Uuid} (hsome : (accounts.walletOf owner).isSome) :
    ((accounts.applyAll (opening ++ writes)).walletOf owner).isSome := by
  rw [Option.isSome_iff_ne_none, ne_eq, walletOf_eq_none_iff, not_not] at hsome ⊢
  rw [Accounts.applyAll_append, owners_applyAll hwrites.within, hprepared.owners]
  exact List.mem_append_left _ hsome

end Frame

section NonNegative

variable {job : Job} {accounts accounts' : Accounts}

theorem nonNegative_entry {wallet : WalletRow} {requestId : Option Uuid} {delta newBalance : Int64}
    {reason : String} {id : Uuid} {now : String} (h : NonNegative accounts)
    (hbalance : 0 ≤ newBalance.toInt) :
    NonNegative (accounts.applyAll
      (entryWrites wallet requestId delta newBalance reason id now)) := by
  intro other hother
  simp only [entryWrites, Accounts.applyAll_cons, Accounts.applyAll_nil, Accounts.apply,
    List.mem_map] at hother
  obtain ⟨before, hbefore, rfl⟩ := hother
  split
  · exact hbalance
  · exact h before hbefore

theorem Prepared.nonNegative {userId : Uuid} {wallet : WalletRecord} {opening : List Write}
    (hprepared : Prepared userId accounts wallet opening) (h : NonNegative accounts) :
    NonNegative (accounts.applyAll opening) := by
  cases hprepared with
  | found => exact h
  | @opened id now hnone hid =>
      intro other hother
      have hcases : other ∈ accounts.wallets ∨ other = openedWallet userId id now := by
        simpa [Accounts.apply] using hother
      obtain hold | rfl := hcases
      · exact h other hold
      · exact Int.le_refl 0

theorem Effect.nonNegative (heffect : Effect job accounts accounts') (h : NonNegative accounts) :
    NonNegative accounts' := by
  obtain ⟨wallet, opening, writes, hprepared, hwrites, rfl⟩ := heffect
  rw [Accounts.applyAll_append]
  have hopened := hprepared.nonNegative h
  have hwallet := hopened wallet hprepared.mem
  cases hwrites with
  | sufficient | ensure | get => exact hopened
  | grant id now hamount =>
      have hpos := toInt_pos_of_not_le hamount
      exact nonNegative_entry hopened (saturatingAdd_nonneg hwallet (Int.le_of_lt hpos))
  | usage id now eventId eventNow hcharged hbalance hevent =>
      have hpos := toInt_pos_of_not_le hcharged.2
      have hcovered := toInt_le_of_not_lt hbalance
      have hupper := Int64.toInt_lt wallet.balanceMicrocredits
      simp only [WalletRow.ofRecord] at hcovered
      rw [Accounts.applyAll_append]
      refine nonNegative_entry hopened ?_
      simp only [WalletRow.ofRecord]
      rw [toInt_sub_of_bounds (by omega) (by omega)]
      omega

end NonNegative

-- The transactions that were committed, in the order of their commits.
inductive History (jobs : Nat → Job) (initial : Accounts) : List Nat → Accounts → Prop where
  | start : History jobs initial [] initial
  | commit {order : List Nat} {accounts accounts' : Accounts} {t : Nat}
      (before : History jobs initial order accounts)
      (heffect : Effect (jobs t) accounts accounts') :
      History jobs initial (order ++ [t]) accounts'

-- The jobs of `order` one after the other, each alone.
def SerialRun (backend : DatabaseBackend) (jobs : Nat → Job) :
    List Nat → Accounts → Accounts → Prop
  | [], accounts, accounts' => accounts' = accounts
  | t :: order, accounts, accounts' =>
      ∃ middle, SerialStep backend (jobs t) accounts middle ∧
        SerialRun backend jobs order middle accounts'

theorem SerialRun.concat {backend : DatabaseBackend} {jobs : Nat → Job} {order : List Nat} {t : Nat}
    {accounts middle accounts' : Accounts} (h : SerialRun backend jobs order accounts middle)
    (hstep : SerialStep backend (jobs t) middle accounts') :
    SerialRun backend jobs (order ++ [t]) accounts accounts' := by
  induction order generalizing accounts with
  | nil =>
      cases h
      exact ⟨accounts', hstep, rfl⟩
  | cons first order ih =>
      obtain ⟨next, hfirst, hrest⟩ := h
      exact ⟨next, hfirst, ih hrest⟩

namespace History

variable {backend : DatabaseBackend} {jobs : Nat → Job} {initial accounts : Accounts}
  {order : List Nat}

theorem serialRun (h : History jobs initial order accounts) :
    SerialRun backend jobs order initial accounts := by
  induction h with
  | start => rfl
  | commit _ heffect ih => exact ih.concat heffect.serialStep

theorem nonNegative (h : History jobs initial order accounts) (hinitial : NonNegative initial) :
    NonNegative accounts := by
  induction h with
  | start => exact hinitial
  | commit _ heffect ih => exact heffect.nonNegative ih

end History

end Billing

end Mizan
