import Mizan.Interleaving.Rely
import Mizan.Billing.Effect

namespace Mizan.Billing

open Interleaving

-- Where a job stands with its transaction: not begun, begun with the wallet not yet known,
-- past the wallet row with the writes since then, or committed.
inductive Phase where
  | idle
  | started
  | ready (wallet : WalletRecord) (writes : List Write)
  | settled

variable {σ : Type} {sys : System SqlCommand SqlCommand.Response SqlChoice σ}

-- A command that fails leaves the state alone, so only its success has to be looked at.
theorem keeps_answer {P : Protocol sys} {t : Nat} {α : Type} {post : α → σ → Prop}
    {failed : AppError → σ → Prop} {choice : SqlChoice} {result : Except String (α × σ)}
    {response : Except String α} {s s' : σ} {message : String → String} (hinv : P.inv s)
    (hexec : some (answer choice result s) = some (response, s'))
    (hok : ∀ value s', choice.fault = none → result = .ok (value, s') →
      P.Keeps t s s' ∧ post value s')
    (herror : ∀ error, failed (.infrastructure error) s) :
    P.Keeps t s s' ∧ Protocol.outcome post failed (failing message response) s' := by
  have hkeeps : P.Keeps t s s := ⟨hinv, fun u _ => P.rely_refl u s⟩
  simp only [Option.some.injEq, answer] at hexec
  split at hexec
  · cases hexec
    exact ⟨hkeeps, herror _⟩
  · rename_i value state' hfault
    cases hexec
    exact hok value s' hfault rfl
  · cases hexec
    exact ⟨hkeeps, herror _⟩

-- The same for a command whose failure the caller ignores.
theorem keeps_ignored {P : Protocol sys} {t : Nat} {α : Type} {post : σ → Prop} {choice : SqlChoice}
    {result : Except String (α × σ)} {response : Except String α} {s s' : σ} (hinv : P.inv s)
    (hexec : some (answer choice result s) = some (response, s'))
    (hok : ∀ value s', choice.fault = none → result = .ok (value, s') → P.Keeps t s s' ∧ post s')
    (herror : post s) : P.Keeps t s s' ∧ post s' := by
  have hkeeps : P.Keeps t s s := ⟨hinv, fun u _ => P.rely_refl u s⟩
  simp only [Option.some.injEq, answer] at hexec
  split at hexec
  · cases hexec
    exact ⟨hkeeps, herror⟩
  · rename_i value state' hfault
    cases hexec
    exact hok value s' hfault rfl
  · cases hexec
    exact ⟨hkeeps, herror⟩

-- What a database owes the job of thread `t`, one rule for each kind of command. `seen` holds
-- of every wallet row that the transaction can be shown, and a phase knows the usage events that
-- the job has put in outside of its transaction.
structure Isolation (P : Protocol sys) (t : Nat) (backend : DatabaseBackend) (job : Job) where
  phase : Phase → List UsageEventRecord → σ → Prop
  seen : WalletRecord → Prop
  phase_rely : ∀ {p noted s s'}, phase p noted s → P.rely t s s' → P.inv s' → phase p noted s'
  nowV7 : ∀ {p noted s}, phase p noted s →
    P.ewp t nowV7 (fun _ => phase p noted) (fun _ _ => False) s
  unixTimestampString : ∀ {p noted s}, phase p noted s →
    P.ewp t unixTimestampString (fun _ => phase p noted) (fun _ _ => False) s
  executeUsageEvent : ∀ {p noted s row message}, p ≠ Phase.settled → phase p noted s →
    P.ewp t (executeUsageEvent row message) (fun _ => phase p (noted ++ [row]))
      (fun error s' => error ≠ .insufficientCredit ∧ phase p noted s') s
  executeAdminAudit : ∀ {p noted s row}, phase p noted s →
    P.ewp t (executeAdminAudit row) (fun _ => phase p noted) (fun _ _ => False) s
  beginTx : ∀ {noted s message}, phase .idle noted s →
    P.ewp t (beginTx message) (fun _ => phase .started noted)
      (fun error s' => error ≠ .insufficientCredit ∧ phase .idle noted s') s
  fetchWallet : ∀ {noted s}, phase .started noted s →
    P.ewp t (fetchWallet backend job.userId)
      (fun row s' => match row with
        | none => phase .started noted s'
        | some (id, balance) => ∃ wallet, phase (.ready wallet []) noted s' ∧ seen wallet ∧
            WalletRow.ofRecord wallet = ⟨id, job.userId, balance⟩)
      (fun error s' => error ≠ .insufficientCredit ∧ ∃ p ≠ Phase.settled, phase p noted s') s
  insertWallet : ∀ {noted s id now message}, phase .started noted s →
    P.ewp t (query (.insertWallet (openedWallet job.userId id now)) message)
      (fun _ => phase .started noted)
      (fun error s' => error ≠ .insufficientCredit ∧ ∃ p ≠ Phase.settled, phase p noted s') s
  write : ∀ {noted s wallet writes statement write message}, phase (.ready wallet writes) noted s →
    Touches wallet statement write →
    P.ewp t (query statement message) (fun _ => phase (.ready wallet (writes ++ [write])) noted)
      (fun error s' => error ≠ .insufficientCredit ∧ ∃ p ≠ Phase.settled, phase p noted s') s
  commitTx : ∀ {noted s wallet writes message}, phase (.ready wallet writes) noted s →
    JobWrites job (.ofRecord wallet) writes →
    P.ewp t (commitTx message) (fun _ => phase .settled noted)
      (fun error s' => error ≠ .insufficientCredit ∧ ∃ p ≠ Phase.settled, phase p noted s') s
  rollback : ∀ {p noted s}, p ≠ Phase.settled → phase p noted s →
    P.wp t (.call .rollback fun _ => .ret ()) (fun _ => phase .idle noted) s

namespace Isolation

variable {P : Protocol sys} {t : Nat} {backend : DatabaseBackend} {job : Job}

def Reached (iso : Isolation P t backend job) (p : Phase) (s : σ) : Prop :=
  ∃ noted, iso.phase p noted s

-- An error inside the transaction that says nothing about the credit of the user.
def Fault (iso : Isolation P t backend job) (noted : List UsageEventRecord) (error : AppError)
    (s : σ) : Prop :=
  error ≠ .insufficientCredit ∧ ∃ p ≠ Phase.settled, iso.phase p noted s

-- No transaction was committed, and the one event that says so went in without one.
def Noted (iso : Isolation P t backend job) (input : BillingInput) (statusCode : UInt16) (s : σ) :
    Prop :=
  ∃ id now event, usageEventRow input statusCode id now = .ok event ∧ iso.phase .idle [event] s

-- The charge exceeds the balance of a wallet row that the transaction was shown.
def Short (iso : Isolation P t backend job) (input : BillingInput) : Prop :=
  Charged input ∧ ∃ wallet, iso.seen wallet ∧
    wallet.balanceMicrocredits < (usageCharge input.usage input.routePrice).total

-- What the caller of a job can conclude about the job's transaction.
def Committed (iso : Isolation P t backend job) (s : σ) : Prop :=
  match job with
  | .recordUsage input =>
      (Charged input → iso.Reached .settled s) ∧ (¬Charged input → iso.Reached .idle s)
  | .ensureSufficientCredit _ usage price =>
      ((usageCharge usage price).total ≤ 0 ∧ iso.Reached .idle s) ∨ iso.Reached .settled s
  | _ => iso.Reached .settled s

def RolledBack (iso : Isolation P t backend job) (s : σ) : Prop :=
  match job with
  | .ensureSufficientCredit .. => iso.Reached .idle s ∨ iso.Reached .settled s
  | _ => iso.Reached .idle s

variable {iso : Isolation P t backend job} {noted : List UsageEventRecord} {s : σ} {α : Type}

theorem Reached.stable {p : Phase} : P.Stable t (iso.Reached p) := by
  intro s s' h hrely hinv
  obtain ⟨noted, hphase⟩ := h
  exact ⟨noted, iso.phase_rely hphase hrely hinv⟩

theorem Noted.reached {input : BillingInput} {statusCode : UInt16}
    (h : iso.Noted input statusCode s) : iso.Reached .idle s := by
  obtain ⟨_, _, event, _, hidle⟩ := h
  exact ⟨[event], hidle⟩

-- The error of the body is told together with the events that stay after the rollback.
theorem inTx_spec (iso : Isolation P t backend job)
    (refused : AppError → List UsageEventRecord → Prop) {body : Sql α} {post : α → σ → Prop}
    {failed : AppError → σ → Prop}
    (h : P.ewp t body post (fun error s' => ∃ noted, refused error noted ∧
      ∃ p ≠ Phase.settled, iso.phase p noted s') s)
    (hfailed : ∀ error noted s', refused error noted → iso.phase .idle noted s' →
      failed error s') :
    P.ewp t (inTx body) post failed s := by
  refine Protocol.ewp_onError (Protocol.ewp_mono (fun _ _ _ hpost => hpost) ?_ h)
  intro error s' _ ⟨noted, hrefused, p, hp, hphase⟩
  exact Protocol.wp_mono (fun _ s'' _ hidle => hfailed error noted s'' hrefused hidle)
    (iso.rollback hp hphase)

-- The same where every error is a fault.
theorem inTx_fault_spec {body : Sql α} {post : α → σ → Prop}
    (h : P.ewp t body post (iso.Fault noted) s) :
    P.ewp t (inTx body) post
      (fun error s' => error ≠ .insufficientCredit ∧ iso.phase .idle noted s') s := by
  refine inTx_spec iso (fun error noted' => error ≠ .insufficientCredit ∧ noted' = noted)
    (Protocol.ewp_mono (fun _ _ _ hpost => hpost)
      (fun _ _ _ ⟨hne, hphase⟩ => ⟨noted, ⟨hne, rfl⟩, hphase⟩) h) ?_
  rintro error _ s' ⟨hne, rfl⟩ hidle
  exact ⟨hne, hidle⟩

theorem ensureWalletInTx_spec (h : iso.phase .started noted s) :
    P.ewp t (ensureWalletInTx backend job.userId)
      (fun row s' => ∃ wallet, iso.phase (.ready wallet []) noted s' ∧ iso.seen wallet ∧
        row = .ofRecord wallet)
      (iso.Fault noted) s := by
  refine Protocol.ewp_seq (iso.fetchWallet h) (fun _ _ herror => herror) ?_
  intro existing s₁ _ hexisting
  match existing, hexisting with
  | some (id, balance), ⟨wallet, hphase, hseen, hrow⟩ =>
      exact Protocol.ewp_pure fun s₂ hrely hinv =>
        ⟨wallet, iso.phase_rely hphase hrely hinv, hseen, hrow.symm⟩
  | none, hstarted =>
      refine Protocol.ewp_seq (iso.nowV7 hstarted) (fun _ _ => False.elim) ?_
      intro id s₂ _ hstarted
      refine Protocol.ewp_seq (iso.unixTimestampString hstarted) (fun _ _ => False.elim) ?_
      intro now s₃ _ hstarted
      refine Protocol.ewp_seq (iso.insertWallet hstarted) (fun _ _ herror => herror) ?_
      intro _ s₄ _ hstarted
      refine Protocol.ewp_seq (iso.fetchWallet hstarted) (fun _ _ herror => herror) ?_
      intro existing s₅ _ hexisting
      match existing, hexisting with
      | some (id, balance), ⟨wallet, hphase, hseen, hrow⟩ =>
          exact Protocol.ewp_pure fun s₆ hrely hinv =>
            ⟨wallet, iso.phase_rely hphase hrely hinv, hseen, hrow.symm⟩
      | none, hstarted =>
          exact Protocol.ewp_throw fun s₆ hrely hinv =>
            ⟨by simp, .started, by simp, iso.phase_rely hstarted hrely hinv⟩

theorem insertUsageEvent_spec {p : Phase} {input : BillingInput} {statusCode : UInt16}
    (hp : p ≠ .settled) (h : iso.phase p noted s) :
    P.ewp t (insertUsageEvent input statusCode)
      (fun _ s' => ∃ id now event, usageEventRow input statusCode id now = .ok event ∧
        iso.phase p (noted ++ [event]) s')
      (fun error s' => error ≠ .insufficientCredit ∧ iso.phase p noted s') s := by
  refine Protocol.ewp_seq (iso.unixTimestampString h) (fun _ _ => False.elim) ?_
  intro now s₁ _ h
  refine Protocol.ewp_seq (iso.nowV7 h) (fun _ _ => False.elim) ?_
  intro id s₂ _ h
  apply Protocol.ewp_bind
  refine Protocol.ewp_mk fun s₃ hrely hinv => ?_
  have h₃ := iso.phase_rely h hrely hinv
  cases hrow : usageEventRow input statusCode id now with
  | ok row =>
      exact Protocol.ewp_mono (fun _ s' _ hphase => ⟨id, now, row, hrow, hphase⟩)
        (fun _ _ _ herror => herror) (iso.executeUsageEvent hp h₃)
  | error error => exact ⟨by obtain ⟨key, message, rfl⟩ := usageEventRow_error hrow; simp, h₃⟩

theorem insertUsageEventTx_spec {wallet : WalletRecord} {writes : List Write} {input : BillingInput}
    {statusCode : UInt16} (h : iso.phase (.ready wallet writes) noted s) :
    P.ewp t (insertUsageEventTx input statusCode)
      (fun _ s' => ∃ id now event, usageEventRow input statusCode id now = .ok event ∧
        iso.phase (.ready wallet (writes ++ [.usageEvent event])) noted s')
      (iso.Fault noted) s := by
  refine Protocol.ewp_seq (iso.unixTimestampString h) (fun _ _ => False.elim) ?_
  intro now s₁ _ h
  refine Protocol.ewp_seq (iso.nowV7 h) (fun _ _ => False.elim) ?_
  intro id s₂ _ h
  apply Protocol.ewp_bind
  refine Protocol.ewp_mk fun s₃ hrely hinv => ?_
  have h₃ := iso.phase_rely h hrely hinv
  cases hrow : usageEventRow input statusCode id now with
  | ok row =>
      exact Protocol.ewp_mono (fun _ s' _ hphase => ⟨id, now, row, hrow, hphase⟩)
        (fun _ _ _ herror => herror) (iso.write h₃ (.usageEvent row))
  | error error =>
      obtain ⟨key, message, rfl⟩ := usageEventRow_error hrow
      exact ⟨by simp, _, by simp, h₃⟩

theorem postEntry_spec {wallet : WalletRecord} {writes : List Write} {requestId : Option Uuid}
    {delta newBalance : Int64} {reason : String} (h : iso.phase (.ready wallet writes) noted s) :
    P.ewp t (postEntry (.ofRecord wallet) requestId delta newBalance reason)
      (fun _ s' => ∃ id now, iso.phase (.ready wallet (writes ++
        entryWrites (.ofRecord wallet) requestId delta newBalance reason id now)) noted s')
      (iso.Fault noted) s := by
  refine Protocol.ewp_seq (iso.unixTimestampString h) (fun _ _ => False.elim) ?_
  intro now s₁ _ h
  refine Protocol.ewp_seq (iso.nowV7 h) (fun _ _ => False.elim) ?_
  intro id s₂ _ h
  refine Protocol.ewp_seq (iso.write h (.ledger _ rfl)) (fun _ _ herror => herror) ?_
  intro _ s₃ _ h
  refine Protocol.ewp_mono ?_ (fun _ _ _ herror => herror) (iso.write h (.balance newBalance now))
  intro _ s₄ _ h
  rw [List.append_assoc] at h
  exact ⟨id, now, h⟩

theorem recordAdminAudit_spec {p : Phase} {actorUserId userId : Uuid} {amount : Int64}
    {reason : String} (h : iso.phase p noted s) :
    P.ewp t (recordAdminAudit actorUserId userId amount reason) (fun _ => iso.phase p noted)
      (fun _ _ => False) s := by
  refine Protocol.ewp_seq (iso.unixTimestampString h) (fun _ _ => False.elim) ?_
  intro now s₁ _ h
  refine Protocol.ewp_seq (iso.nowV7 h) (fun _ _ => False.elim) ?_
  intro id s₂ _ h
  exact iso.executeAdminAudit h

theorem ensureWallet_spec (hjob : ∀ row, JobWrites job row []) (h : iso.phase .idle noted s) :
    P.ewp t (ensureWallet backend job.userId)
      (fun row s' => iso.phase .settled noted s' ∧
        ∃ wallet, iso.seen wallet ∧ row = .ofRecord wallet)
      (fun error s' => error ≠ .insufficientCredit ∧ iso.phase .idle noted s') s := by
  refine Protocol.ewp_seq (iso.beginTx h) (fun _ _ herror => herror) ?_
  intro _ s₁ _ h
  apply inTx_fault_spec
  refine Protocol.ewp_seq (ensureWalletInTx_spec h) (fun _ _ herror => herror) ?_
  rintro row s₂ _ ⟨wallet, h, hseen, rfl⟩
  refine Protocol.ewp_seq (iso.commitTx h (hjob _)) (fun _ _ herror => herror) ?_
  intro _ s₃ _ h
  exact Protocol.ewp_pure fun s₄ hrely hinv =>
    ⟨iso.phase_rely h hrely hinv, wallet, hseen, rfl⟩

theorem grantCredits_spec {userId actorUserId : Uuid} {payload : GrantRequest}
    {iso : Isolation P t backend (.grantCredits userId actorUserId payload)}
    (h : iso.phase .idle noted s) :
    P.ewp t (grantCredits backend userId actorUserId payload) (fun _ => iso.phase .settled noted)
      (fun error s' => error ≠ .insufficientCredit ∧ iso.phase .idle noted s') s := by
  unfold grantCredits
  split
  · exact Protocol.ewp_throw fun s' hrely hinv => ⟨by simp, iso.phase_rely h hrely hinv⟩
  · rename_i hamount
    refine Protocol.ewp_seq (iso.beginTx h) (fun _ _ herror => herror) ?_
    intro _ s₁ _ h
    have htx : P.ewp t (inTx (grantCreditsTx backend userId payload))
        (fun _ => iso.phase .settled noted)
        (fun error s' => error ≠ .insufficientCredit ∧ iso.phase .idle noted s') s₁ := by
      apply inTx_fault_spec
      refine Protocol.ewp_seq (ensureWalletInTx_spec h) (fun _ _ herror => herror) ?_
      rintro row s₂ _ ⟨wallet, h, -, rfl⟩
      refine Protocol.ewp_seq (postEntry_spec h) (fun _ _ herror => herror) ?_
      rintro _ s₃ _ ⟨id, now, h⟩
      refine Protocol.ewp_seq (iso.commitTx h (.grant id now hamount)) (fun _ _ herror => herror) ?_
      intro _ s₄ _ h
      exact Protocol.ewp_pure fun s₅ hrely hinv => iso.phase_rely h hrely hinv
    refine Protocol.ewp_seq htx (fun _ _ herror => herror) ?_
    intro pair s₂ _ h
    refine Protocol.ewp_seq (recordAdminAudit_spec h) (fun _ _ => False.elim) ?_
    intro _ s₃ _ h
    exact Protocol.ewp_pure fun s₄ hrely hinv => iso.phase_rely h hrely hinv

-- A charge is refused only on a wallet row that does not cover it.
theorem recordUsage_spec {input : BillingInput}
    {iso : Isolation P t backend (.recordUsage input)} (h : iso.phase .idle [] s) :
    P.ewp t (recordUsage backend input)
      (fun _ s' => (Charged input → iso.phase .settled [] s') ∧
        (¬Charged input → iso.Noted input input.statusCode s'))
      (fun error s' => (error ≠ .insufficientCredit → iso.phase .idle [] s') ∧
        (error = .insufficientCredit → iso.Short input ∧ iso.Noted input PAYMENT_REQUIRED s'))
      s := by
  have huncharged : ¬Charged input → P.ewp t (insertUsageEvent input input.statusCode)
      (fun _ s' => (Charged input → iso.phase .settled [] s') ∧
        (¬Charged input → iso.Noted input input.statusCode s'))
      (fun error s' => (error ≠ .insufficientCredit → iso.phase .idle [] s') ∧
        (error = .insufficientCredit → iso.Short input ∧ iso.Noted input PAYMENT_REQUIRED s')) s :=
    fun hcharged => Protocol.ewp_mono
      (fun _ s' _ hnoted => ⟨fun h => absurd h hcharged, fun _ => hnoted⟩)
      (fun _ s' _ ⟨hne, hidle⟩ => ⟨fun _ => hidle, fun heq => absurd heq hne⟩)
      (insertUsageEvent_spec (by simp) h)
  unfold recordUsage
  split
  · rename_i hstatus
    exact huncharged fun hcharged => hstatus hcharged.1
  split
  · rename_i _ htotal
    exact huncharged fun hcharged => hcharged.2 htotal
  · rename_i hstatus htotal
    have hcharged : Charged input := ⟨not_not.mp hstatus, htotal⟩
    refine Protocol.ewp_seq (iso.beginTx h)
      (fun _ _ ⟨hne, hidle⟩ => ⟨fun _ => hidle, fun heq => absurd heq hne⟩) ?_
    intro _ s₁ _ h
    refine inTx_spec iso (fun error noted => (error ≠ .insufficientCredit → noted = []) ∧
      (error = .insufficientCredit → iso.Short input ∧ ∃ id now event,
        usageEventRow input PAYMENT_REQUIRED id now = .ok event ∧ noted = [event])) ?_ ?_
    · have hfault : ∀ error s', iso.Fault [] error s' → ∃ noted,
          ((error ≠ .insufficientCredit → noted = []) ∧
            (error = .insufficientCredit → iso.Short input ∧ ∃ id now event,
              usageEventRow input PAYMENT_REQUIRED id now = .ok event ∧ noted = [event])) ∧
          ∃ p ≠ Phase.settled, iso.phase p noted s' :=
        fun error s' ⟨hne, hphase⟩ => ⟨[], ⟨fun _ => rfl, fun heq => absurd heq hne⟩, hphase⟩
      refine Protocol.ewp_seq (ensureWalletInTx_spec h) hfault ?_
      rintro row s₂ _ ⟨wallet, h, hseen, rfl⟩
      split
      · rename_i hbalance
        refine Protocol.ewp_seq (insertUsageEvent_spec (by simp) h)
          (fun error s' ⟨hne, hphase⟩ => hfault error s' ⟨hne, _, by simp, hphase⟩) ?_
        rintro _ s₃ _ ⟨id, now, event, hevent, h⟩
        exact Protocol.ewp_throw fun s₄ hrely hinv => ⟨[event],
          ⟨fun hne => absurd rfl hne, fun _ =>
            ⟨⟨hcharged, wallet, hseen, hbalance⟩, id, now, event, hevent, rfl⟩⟩,
          _, by simp, iso.phase_rely h hrely hinv⟩
      · rename_i hbalance
        refine Protocol.ewp_seq (postEntry_spec h) hfault ?_
        rintro _ s₃ _ ⟨id, now, h⟩
        refine Protocol.ewp_seq (insertUsageEventTx_spec h) hfault ?_
        rintro _ s₄ _ ⟨eventId, eventNow, event, hevent, h⟩
        exact Protocol.ewp_mono
          (fun _ s' _ hsettled => ⟨fun _ => hsettled, fun hn => absurd hcharged hn⟩)
          (fun error s' _ => hfault error s')
          (iso.commitTx h (.usage id now eventId eventNow hcharged hbalance hevent))
    · rintro error noted s' ⟨hfaulty, hshort⟩ hidle
      refine ⟨fun hne => hfaulty hne ▸ hidle, fun heq => ?_⟩
      obtain ⟨hexceeds, id, now, event, hevent, rfl⟩ := hshort heq
      exact ⟨hexceeds, id, now, event, hevent, hidle⟩

theorem ensureSufficientCredit_spec {userId : Uuid} {usage : TokenUsage} {price : RoutePrice}
    {iso : Isolation P t backend (.ensureSufficientCredit userId usage price)}
    (h : iso.phase .idle noted s) :
    P.ewp t (ensureSufficientCredit backend userId usage price)
      (fun _ s' => ((usageCharge usage price).total ≤ 0 ∧ iso.phase .idle noted s') ∨
        iso.phase .settled noted s' ∧ ∃ wallet, iso.seen wallet ∧
          ¬wallet.balanceMicrocredits < (usageCharge usage price).total)
      (fun error s' => (iso.phase .idle noted s' ∨ iso.phase .settled noted s') ∧
        (error = .insufficientCredit → ¬(usageCharge usage price).total ≤ 0 ∧
          ∃ wallet, iso.seen wallet ∧
            wallet.balanceMicrocredits < (usageCharge usage price).total)) s := by
  unfold ensureSufficientCredit
  split
  · rename_i htotal
    exact Protocol.ewp_pure fun s' hrely hinv => .inl ⟨htotal, iso.phase_rely h hrely hinv⟩
  · rename_i htotal
    refine Protocol.ewp_seq (ensureWallet_spec (fun _ => .sufficient htotal) h)
      (fun _ _ ⟨hne, hidle⟩ => ⟨.inl hidle, fun heq => absurd heq hne⟩) ?_
    rintro row s₁ _ ⟨hsettled, wallet, hseen, rfl⟩
    split
    · rename_i hbalance
      exact Protocol.ewp_throw fun s₂ hrely hinv =>
        ⟨.inr (iso.phase_rely hsettled hrely hinv), fun _ => ⟨htotal, wallet, hseen, hbalance⟩⟩
    · rename_i hbalance
      exact Protocol.ewp_pure fun s₂ hrely hinv =>
        .inr ⟨iso.phase_rely hsettled hrely hinv, wallet, hseen, hbalance⟩

theorem program_spec (iso : Isolation P t backend job) (h : iso.phase .idle [] s) :
    P.ewp t (job.program backend) (fun _ => iso.Committed) (fun _ => iso.RolledBack) s := by
  cases job with
  | grantCredits userId actorUserId payload =>
      refine Protocol.ewp_seq (grantCredits_spec h) (fun _ _ herror => ⟨[], herror.2⟩) ?_
      intro _ s₁ _ h
      exact Protocol.ewp_pure fun s₂ => Reached.stable ⟨[], h⟩
  | recordUsage input =>
      refine Protocol.ewp_seq (recordUsage_spec h) (fun error _ herror => ?_) ?_
      · by_cases hshort : error = .insufficientCredit
        · exact (herror.2 hshort).2.reached
        · exact ⟨[], herror.1 hshort⟩
      · intro _ s₁ _ h
        exact Protocol.ewp_pure fun s₂ hrely hinv =>
          ⟨fun hc => Reached.stable ⟨[], h.1 hc⟩ hrely hinv,
            fun hc => Reached.stable (h.2 hc).reached hrely hinv⟩
  | ensureSufficientCredit userId usage price =>
      refine Protocol.ewp_seq (ensureSufficientCredit_spec h)
        (fun _ _ herror => herror.1.imp (⟨[], ·⟩) (⟨[], ·⟩)) ?_
      intro _ s₁ _ h
      exact Protocol.ewp_pure fun s₂ hrely hinv => h.imp
        (fun hidle => ⟨hidle.1, Reached.stable ⟨[], hidle.2⟩ hrely hinv⟩)
        (fun hsettled => Reached.stable ⟨[], hsettled.1⟩ hrely hinv)
  | ensureWallet userId =>
      refine Protocol.ewp_seq (ensureWallet_spec (fun _ => .ensure) h)
        (fun _ _ herror => ⟨[], herror.2⟩) ?_
      intro _ s₁ _ h
      exact Protocol.ewp_pure fun s₂ => Reached.stable ⟨[], h.1⟩
  | getWallet userId =>
      have hwallet : P.ewp t (getWallet backend userId) (fun _ => iso.Reached .settled)
          (fun _ => iso.Reached .idle) s := by
        refine Protocol.ewp_seq (ensureWallet_spec (fun _ => .get) h)
          (fun _ _ herror => ⟨[], herror.2⟩) ?_
        intro _ s₁ _ h
        exact Protocol.ewp_pure fun s₂ => Reached.stable ⟨[], h.1⟩
      refine Protocol.ewp_seq hwallet (fun _ _ herror => herror) ?_
      intro _ s₁ _ h
      exact Protocol.ewp_pure fun s₂ => Reached.stable h

end Isolation

end Mizan.Billing
