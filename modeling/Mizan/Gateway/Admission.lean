import Mizan.Billing.Ledger
import Mizan.Billing.Serial

namespace Mizan.Gateway

open Interleaving Billing

def resolveEffectiveMaxTokens (requestedMaxTokens routeMaxTokens : Option UInt64)
    (fieldName : String) : Except AppError (Option UInt64) :=
  match requestedMaxTokens, routeMaxTokens with
  | some requested, some routeLimit =>
      if requested > routeLimit then
        .error (.invalidConfig fieldName "max_tokens exceeds route limit")
      else .ok (some requested)
  | some requested, none => .ok (some requested)
  | none, routeLimit => .ok routeLimit

def estimateAdmissionUsage (requestMessages : List ChatMessage)
    (expectedCompletionTokens : Option UInt64) : TokenUsage :=
  let promptTokens := (estimateUsage requestMessages "").promptTokens
  let completionTokens := expectedCompletionTokens.getD 0
  { promptTokens
    completionTokens
    totalTokens := saturatingAddU64 promptTokens completionTokens
    estimated := true }

-- What a request is priced by.
structure Offer where
  requestMessages : List ChatMessage
  price : RoutePrice
  routeMaxTokens : Option UInt64
  deriving DecidableEq, Repr

-- Who asks, and the database at that moment.
structure Client where
  backend : DatabaseBackend
  userId : Uuid
  fieldName : String
  database : Database
  deriving DecidableEq, Repr

-- What `chat_completions_impl` does with a request before it asks the limits and the upstream.
def admission (offer : Offer) (client : Client) (requestedMaxTokens : Option UInt64) :
    Sql Unit := do
  let effectiveMaxTokens ← ExceptT.mk (pure
    (resolveEffectiveMaxTokens requestedMaxTokens offer.routeMaxTokens client.fieldName))
  ensureSufficientCredit client.backend client.userId
    (estimateAdmissionUsage offer.requestMessages effectiveMaxTokens) offer.price

def AdmissionReturns (offer : Offer) (client : Client) (requestedMaxTokens : Option UInt64)
    (result : Except AppError Unit) : Prop :=
  ∃ choices s, (admission offer client requestedMaxTokens).run.play (Session.system.exec 0) choices
    (Session.idle client.database) = some (result, s)

def Accepted (offer : Offer) (client : Client) (requestedMaxTokens : Option UInt64) : Prop :=
  AdmissionReturns offer client requestedMaxTokens (.ok ())

-- Refused for the route limit or for the credit, and not because the database failed.
def Refused (offer : Offer) (client : Client) (requestedMaxTokens : Option UInt64) : Prop :=
  (∃ error, resolveEffectiveMaxTokens requestedMaxTokens offer.routeMaxTokens client.fieldName =
    .error error) ∨
  AdmissionReturns offer client requestedMaxTokens (.error .insufficientCredit)

-- `input` bills at most what the client was admitted for, on a wallet as full as then.
structure Settlement (offer : Offer) (client : Client) (maxTokens : UInt64)
    (input : BillingInput) (database : Database) : Prop where
  userId : input.userId = client.userId
  price : input.routePrice = offer.price
  statusCode : input.statusCode = 200
  promptTokens : input.usage.promptTokens ≤
    (estimateAdmissionUsage offer.requestMessages (some maxTokens)).promptTokens
  completionTokens : input.usage.completionTokens ≤ maxTokens
  balance : balanceOf database.accounts client.userId =
    balanceOf client.database.accounts client.userId

structure AdmissionCoversSettlement (offer : Offer) : Prop where
  settles : ∀ client requested maxTokens,
    resolveEffectiveMaxTokens requested offer.routeMaxTokens client.fieldName =
      .ok (some maxTokens) →
    Accepted offer client requested →
    ∀ input database choices s, Settlement offer client maxTokens input database →
      Session.call client.backend (.recordUsage input) choices database ≠
        some (.error .insufficientCredit, s)
  refuses : ∀ client (requested raised : UInt64), requested ≤ raised →
    Refused offer client (some requested) → ¬Accepted offer client (some raised)

-- Every request that the route admits costs an amount that `i64` can hold.
def ChargesFit (offer : Offer) : Prop :=
  ∀ requested maxTokens fieldName,
    resolveEffectiveMaxTokens requested offer.routeMaxTokens fieldName = .ok (some maxTokens) →
    exactCharge (chargeInput (estimateAdmissionUsage offer.requestMessages (some maxTokens)))
      offer.price < 2 ^ 63

def admissionCharge (offer : Offer) (maxTokens : Option UInt64) : Int64 :=
  (usageCharge (estimateAdmissionUsage offer.requestMessages maxTokens) offer.price).total

section CreditCheck

variable {offer : Offer} {client : Client} {requested : Option UInt64} {maxTokens : Option UInt64}

theorem admission_of_resolve
    (hresolve : resolveEffectiveMaxTokens requested offer.routeMaxTokens client.fieldName =
      .ok maxTokens) :
    admission offer client requested =
      ensureSufficientCredit client.backend client.userId
        (estimateAdmissionUsage offer.requestMessages maxTokens) offer.price := by
  unfold admission
  rw [hresolve]
  rfl

theorem not_accepted_of_resolve_error {error : AppError}
    (hresolve : resolveEffectiveMaxTokens requested offer.routeMaxTokens client.fieldName =
      .error error) : ¬Accepted offer client requested := by
  rintro ⟨choices, s, hplay⟩
  unfold admission at hplay
  rw [hresolve] at hplay
  cases choices <;> cases hplay

-- Both answers of the credit check are about the balance that the call began with.
theorem creditCheck_spec :
    (Protocol.alone Session.system).ewp 0
      (ensureSufficientCredit client.backend client.userId
        (estimateAdmissionUsage offer.requestMessages maxTokens) offer.price)
      (fun _ _ => admissionCharge offer maxTokens ≤ 0 ∨
        ¬balanceOf client.database.accounts client.userId < admissionCharge offer maxTokens)
      (fun error _ => error = .insufficientCredit → ¬admissionCharge offer maxTokens ≤ 0 ∧
        balanceOf client.database.accounts client.userId < admissionCharge offer maxTokens)
      (.idle client.database) := by
  let job := Job.ensureSufficientCredit client.userId
    (estimateAdmissionUsage offer.requestMessages maxTokens) offer.price
  have hidle : (Session.isolation client.backend job client.database).phase .idle []
      (.idle client.database) := Session.phase_idle job client.database
  refine Protocol.ewp_mono ?_ ?_ (Isolation.ensureSufficientCredit_spec hidle)
  · rintro _ s _ (⟨hfree, -⟩ | ⟨-, wallet, ⟨opening, hprepared⟩, hcovered⟩)
    · exact .inl hfree
    · rw [hprepared.balance] at hcovered
      exact .inr hcovered
  · rintro error s _ ⟨-, hrefused⟩ herror
    obtain ⟨hcharge, wallet, ⟨opening, hprepared⟩, hshort⟩ := hrefused herror
    rw [hprepared.balance] at hshort
    exact ⟨hcharge, hshort⟩

theorem accepted_covers
    (hresolve : resolveEffectiveMaxTokens requested offer.routeMaxTokens client.fieldName =
      .ok maxTokens) (h : Accepted offer client requested) :
    admissionCharge offer maxTokens ≤ 0 ∨
      ¬balanceOf client.database.accounts client.userId < admissionCharge offer maxTokens := by
  obtain ⟨choices, s, hplay⟩ := h
  rw [admission_of_resolve hresolve] at hplay
  have hcheck := Protocol.alone_play creditCheck_spec hplay
  exact hcheck

theorem refused_exceeds
    (hresolve : resolveEffectiveMaxTokens requested offer.routeMaxTokens client.fieldName =
      .ok maxTokens)
    (h : AdmissionReturns offer client requested (.error .insufficientCredit)) :
    ¬admissionCharge offer maxTokens ≤ 0 ∧
      balanceOf client.database.accounts client.userId < admissionCharge offer maxTokens := by
  obtain ⟨choices, s, hplay⟩ := h
  rw [admission_of_resolve hresolve] at hplay
  have hcheck := Protocol.alone_play creditCheck_spec hplay
  exact hcheck rfl

-- A charge that counts as free is accepted without a look at the wallet.
theorem accepted_of_free
    (hresolve : resolveEffectiveMaxTokens requested offer.routeMaxTokens client.fieldName =
      .ok maxTokens) (hfree : admissionCharge offer maxTokens ≤ 0) :
    Accepted offer client requested := by
  refine ⟨[], .idle client.database, ?_⟩
  rw [admission_of_resolve hresolve, ensureSufficientCredit]
  rw [if_pos (show (usageCharge _ _).total ≤ 0 from hfree)]
  rfl

end CreditCheck

section Resolve

variable {requested effective : UInt64} {routeMaxTokens : Option UInt64} {fieldName : String}

theorem resolve_some (h : ∀ limit ∈ routeMaxTokens, requested ≤ limit) :
    resolveEffectiveMaxTokens (some requested) routeMaxTokens fieldName = .ok (some requested) := by
  unfold resolveEffectiveMaxTokens
  cases routeMaxTokens with
  | none => rfl
  | some limit =>
      have hle := h limit rfl
      exact if_neg (UInt64.not_lt.mpr hle)

theorem resolve_some_error (h : ∃ limit ∈ routeMaxTokens, limit < requested) :
    resolveEffectiveMaxTokens (some requested) routeMaxTokens fieldName =
      .error (.invalidConfig fieldName "max_tokens exceeds route limit") := by
  obtain ⟨limit, rfl, hlt⟩ := h
  exact if_pos hlt

-- Whatever the client asked for, the tokens it is admitted for are within the route limit.
theorem resolve_le {requestedMaxTokens : Option UInt64}
    (h : resolveEffectiveMaxTokens requestedMaxTokens routeMaxTokens fieldName =
      .ok (some effective)) : ∀ limit ∈ routeMaxTokens, effective ≤ limit := by
  rintro limit rfl
  cases requestedMaxTokens with
  | none =>
      cases h
      exact UInt64.le_refl _
  | some requested =>
      simp only [resolveEffectiveMaxTokens] at h
      split at h
      · cases h
      · rename_i hle
        cases h
        exact UInt64.not_lt.mp hle

end Resolve

section Sufficient

variable {offer : Offer}

theorem admissionCharge_of_fit (hprice : offer.price.NonNegative) (hfit : ChargesFit offer)
    {requested : Option UInt64} {maxTokens : UInt64} {fieldName : String}
    (hresolve : resolveEffectiveMaxTokens requested offer.routeMaxTokens fieldName =
      .ok (some maxTokens)) :
    (admissionCharge offer (some maxTokens)).toInt =
      exactCharge (chargeInput (estimateAdmissionUsage offer.requestMessages (some maxTokens)))
        offer.price :=
  total_of_exactCharge_le hprice (hfit requested maxTokens fieldName hresolve)

theorem covers_of_chargesFit (hprice : offer.price.NonNegative) (hfit : ChargesFit offer) :
    AdmissionCoversSettlement offer where
  settles client requested maxTokens hresolve haccepted input database choices s hsettlement
      hcall := by
    obtain ⟨hcharged, hshort⟩ := recordUsage_insufficient hcall
    have hadmitted := admissionCharge_of_fit hprice hfit hresolve
    have hsmaller : exactCharge (chargeInput input.usage) offer.price ≤
        exactCharge (chargeInput (estimateAdmissionUsage offer.requestMessages (some maxTokens)))
          offer.price :=
      exactCharge_mono hprice hsettlement.promptTokens hsettlement.completionTokens
    have hbound := hfit requested maxTokens _ hresolve
    have htotal : (usageCharge input.usage input.routePrice).total.toInt =
        exactCharge (chargeInput input.usage) offer.price := by
      rw [hsettlement.price]
      exact total_of_exactCharge_le hprice (by omega)
    have hpos := toInt_pos_of_not_le hcharged.2
    have hlt := Int64.lt_iff_toInt_lt.mp hshort
    rw [hsettlement.userId, hsettlement.balance] at hlt
    obtain hfree | hcovered := accepted_covers hresolve haccepted
    · have hfree' := Int64.le_iff_toInt_le.mp hfree
      rw [Int64.toInt_zero] at hfree'
      omega
    · have hcovered' := toInt_le_of_not_lt hcovered
      omega
  refuses client requested raised hle hrefused haccepted := by
    by_cases hlimit : ∃ limit ∈ offer.routeMaxTokens, limit < raised
    · exact not_accepted_of_resolve_error (resolve_some_error hlimit) haccepted
    · have hraised : ∀ limit ∈ offer.routeMaxTokens, raised ≤ limit :=
        fun limit hmem => UInt64.not_lt.mp fun hlt => hlimit ⟨limit, hmem, hlt⟩
      have hrequested : ∀ limit ∈ offer.routeMaxTokens, requested ≤ limit :=
        fun limit hmem => UInt64.le_trans hle (hraised limit hmem)
      have hresolve : resolveEffectiveMaxTokens (some requested) offer.routeMaxTokens
          client.fieldName = .ok (some requested) := resolve_some hrequested
      have hresolve' : resolveEffectiveMaxTokens (some raised) offer.routeMaxTokens
          client.fieldName = .ok (some raised) := resolve_some hraised
      obtain ⟨error, herror⟩ | hinsufficient := hrefused
      · rw [hresolve] at herror
        cases herror
      obtain ⟨hcharge, hshort⟩ := refused_exceeds hresolve hinsufficient
      have hcost := admissionCharge_of_fit hprice hfit hresolve
      have hcost' := admissionCharge_of_fit hprice hfit hresolve'
      have hmono : exactCharge (chargeInput (estimateAdmissionUsage offer.requestMessages
            (some requested))) offer.price ≤
          exactCharge (chargeInput (estimateAdmissionUsage offer.requestMessages (some raised)))
            offer.price :=
        exactCharge_mono hprice (UInt64.le_refl _) hle
      have hpos := toInt_pos_of_not_le hcharge
      have hlt := Int64.lt_iff_toInt_lt.mp hshort
      obtain hfree | hcovered := accepted_covers hresolve' haccepted
      · have hfree' := Int64.le_iff_toInt_le.mp hfree
        rw [Int64.toInt_zero] at hfree'
        omega
      · have hcovered' := toInt_le_of_not_lt hcovered
        omega

end Sufficient

section Necessary

variable {offer : Offer}

def emptyWallet : Database :=
  .ofAccounts { wallets := [openedWallet ⟨0⟩ ⟨0⟩ "0"], ledger := [] }

def emptyClient : Client :=
  { backend := .sqlite, userId := ⟨0⟩, fieldName := "chat_completion.max_tokens",
    database := emptyWallet }

def smallUsage (price : RoutePrice) (promptTokens completionTokens : UInt64) : BillingInput :=
  { requestId := ⟨0⟩, userId := ⟨0⟩, apiKeyId := none, providerId := none, routeId := none
    daemonNodeId := none, model := ""
    usage := { promptTokens, completionTokens, totalTokens := 0, estimated := false }
    statusCode := 200, latencyMs := 0, routePrice := price }

theorem smallUsage_insufficient {price : RoutePrice} {promptTokens completionTokens : UInt64}
    (hprompt : promptTokens.toNat < 2 ^ 63) (hcompletion : completionTokens.toNat < 2 ^ 63)
    (htotal : 0 < (usageCharge (smallUsage price promptTokens completionTokens).usage
      price).total.toInt) :
    ∃ choices s, Session.call .sqlite (.recordUsage (smallUsage price promptTokens
      completionTokens)) choices emptyWallet = some (.error .insufficientCredit, s) := by
  have hpositive : ¬(usageCharge (smallUsage price promptTokens completionTokens).usage
      price).total ≤ 0 := by
    rw [Int64.le_iff_toInt_le, Int64.toInt_zero]
    omega
  have hprepared : Prepared ⟨0⟩ emptyWallet.accounts (openedWallet ⟨0⟩ ⟨0⟩ "0") [] :=
    .found rfl
  have hzero : (0 : UInt64).toNat < 2 ^ 63 := by decide
  have hstatus : (200 : UInt16) ≤ 200 ∧ (200 : UInt16) ≤ 299 := by decide
  obtain ⟨event, hevent⟩ := usageEventRow_ok
    { smallUsage price promptTokens completionTokens with statusCode := PAYMENT_REQUIRED }
    hprompt hcompletion hzero hzero PAYMENT_REQUIRED ⟨0⟩ "0"
  obtain ⟨s, hreturns⟩ : ∃ s, Session.Returns
      (recordUsage .sqlite (smallUsage price promptTokens completionTokens))
      (Session.idle emptyWallet) (.error .insufficientCredit) s :=
    returns_recordUsage_insufficient ⟨hstatus, hpositive⟩ hprepared
      (Int64.not_le.mp hpositive) hevent
  obtain ⟨choices, -, hplay⟩ : Prog.Returns (Session.system.exec 0) Session.Faultless
      ((Job.recordUsage (smallUsage price promptTokens completionTokens)).program .sqlite).run
      (Session.idle emptyWallet) (.error .insufficientCredit) s :=
    Prog.returns_except_error hreturns
  exact ⟨choices, s, hplay⟩

-- A request whose charge wraps to nothing is admitted on an empty wallet, which then fails to
-- pay for its first token.
theorem not_covers_of_wrap {maxTokens promptTokens completionTokens : UInt64}
    (hlimit : ∀ limit ∈ offer.routeMaxTokens, maxTokens ≤ limit)
    (hwrap : (admissionCharge offer (some maxTokens)).toInt ≤ 0)
    (hprompt : promptTokens ≤ (estimateUsage offer.requestMessages "").promptTokens)
    (hcompletion : completionTokens ≤ maxTokens)
    (hprompt' : promptTokens.toNat < 2 ^ 63) (hcompletion' : completionTokens.toNat < 2 ^ 63)
    (htotal : 0 < (usageCharge (smallUsage offer.price promptTokens completionTokens).usage
      offer.price).total.toInt) : ¬AdmissionCoversSettlement offer := by
  intro hcovers
  obtain ⟨choices, s, hcall⟩ := smallUsage_insufficient hprompt' hcompletion' htotal
  have hresolve : resolveEffectiveMaxTokens (some maxTokens) offer.routeMaxTokens
      emptyClient.fieldName = .ok (some maxTokens) := resolve_some hlimit
  have haccepted : Accepted offer emptyClient (some maxTokens) :=
    accepted_of_free hresolve (Int64.le_iff_toInt_le.mpr hwrap)
  exact hcovers.settles emptyClient (some maxTokens) maxTokens hresolve haccepted _ emptyWallet
    choices s ⟨rfl, rfl, rfl, hprompt, hcompletion, rfl⟩ hcall

-- Where the prompt alone is priced within `i64`, the completion tokens that reach 2^63 first
-- are few enough to wrap below zero.
theorem chargesFit_of_covers (hprice : offer.price.NonNegative)
    (hprompt : inputCharge (chargeInput (estimateAdmissionUsage offer.requestMessages none))
      offer.price < 2 ^ 63) (hcovers : AdmissionCoversSettlement offer) : ChargesFit offer := by
  intro requested maxTokens fieldName hresolve
  by_contra hfit
  have hlimit := resolve_le hresolve
  have hexceeds := Int.not_lt.mp hfit
  obtain ⟨k, hpos, hk, hlower, hupper⟩ :=
    exists_wrapping_tokens hprice.output (Int64.toInt_lt _) hprompt hexceeds
  have hkNat : (UInt64.ofNat k).toNat = k :=
    UInt64.toNat_ofNat_of_lt' (Nat.lt_of_le_of_lt hk maxTokens.toNat_lt)
  have hle : UInt64.ofNat k ≤ maxTokens := by
    rw [UInt64.le_iff_toNat_le, hkNat]
    exact hk
  have hcharge : exactCharge (chargeInput (estimateAdmissionUsage offer.requestMessages
        (some (UInt64.ofNat k)))) offer.price =
      inputCharge (chargeInput (estimateAdmissionUsage offer.requestMessages none)) offer.price +
        ceilDiv (k * offer.price.outputMicrocreditsPer1mTokens.toInt) 1000000 := by
    show _ + ceilDiv (((UInt64.ofNat k).toNat : Int) * _) 1000000 = _
    rw [hkNat]
    rfl
  have hwrap : (admissionCharge offer (some (UInt64.ofNat k))).toInt < 0 := by
    rw [← hcharge] at hlower hupper
    exact toInt_asI64_neg hlower hupper
  refine not_covers_of_wrap (fun limit hmem => UInt64.le_trans hle (hlimit limit hmem))
    (Int.le_of_lt hwrap) UInt64.zero_le (show (1 : UInt64) ≤ UInt64.ofNat k from ?_) (by decide)
    (by decide) (total_one_completion_pos hprice
      (rate_pos_of_exceeds hprice.output hprompt hexceeds))
    hcovers
  rw [UInt64.le_iff_toNat_le, hkNat]
  exact hpos

-- A message list whose prompt is estimated at `k` tokens.
def messagesOf (k : Nat) : List ChatMessage :=
  [{ role := "user", content := String.ofList (List.replicate (4 * k - 3) 'a') }]

theorem utf8ByteSize_replicate (n : Nat) :
    (String.ofList (List.replicate n 'a')).utf8ByteSize = n := by
  induction n with
  | zero => rfl
  | succ n ih =>
      rw [List.replicate_succ', String.ofList_append, String.utf8ByteSize_append, ih]
      rfl

theorem promptTokens_messagesOf {k : Nat} (hpos : 0 < k) (hk : k ≤ 2 ^ 62) :
    (estimateUsage (messagesOf k) "").promptTokens.toNat = k := by
  have hbytes : (byteLen (String.ofList (List.replicate (4 * k - 3) 'a'))).toNat = 4 * k - 3 := by
    have hlt : 4 * k - 3 < 2 ^ 64 := by omega
    rw [byteLen, utf8ByteSize_replicate, UInt64.ofNatClamp_eq_ofNat _ hlt]
    exact UInt64.toNat_ofNat_of_lt' hlt
  show (ceilDivide ([byteLen _].sum) 4).toNat = k
  rw [toNat_ceilDivide_four, List.sum_singleton, hbytes]
  omega

-- A route whose prompt price alone can pass `i64` lets such a prompt in for free.
theorem exists_not_covers_of_prompt (price : RoutePrice) (routeMaxTokens : Option UInt64)
    (hprice : price.NonNegative) {messages : List ChatMessage}
    (hprompt : 2 ^ 63 ≤ inputCharge (chargeInput (estimateAdmissionUsage messages none)) price) :
    ∃ messages, ¬AdmissionCoversSettlement
      { requestMessages := messages, price, routeMaxTokens } := by
  let prompt := (estimateUsage messages "").promptTokens
  have hexceeds : (2 ^ 63 : Int) ≤
      0 + ceilDiv (prompt.toNat * price.inputMicrocreditsPer1mTokens.toInt) 1000000 := by
    rw [Int.zero_add]
    exact hprompt
  have hsmall : prompt.toNat ≤ 2 ^ 62 := by
    show (ceilDivide _ 4).toNat ≤ 2 ^ 62
    rw [toNat_ceilDivide_four]
    have hlt := (List.map (fun message : ChatMessage => byteLen message.content)
      messages).sum.toNat_lt
    omega
  obtain ⟨k, hpos, hk, hlower, hupper⟩ :=
    exists_wrapping_tokens hprice.input (Int64.toInt_lt _) (by decide) hexceeds
  rw [Int.zero_add] at hlower hupper
  have htokens := promptTokens_messagesOf hpos (Nat.le_trans hk hsmall)
  have hcharge : exactCharge (chargeInput (estimateAdmissionUsage (messagesOf k) (some 0))) price =
      ceilDiv (k * price.inputMicrocreditsPer1mTokens.toInt) 1000000 := by
    show ceilDiv ((estimateUsage (messagesOf k) "").promptTokens.toNat * _) 1000000 +
      ceilDiv (((0 : UInt64).toNat : Int) * _) 1000000 = _
    rw [htokens]
    simp [ceilDiv_zero]
  refine ⟨messagesOf k, not_covers_of_wrap (fun limit _ => UInt64.zero_le) (Int.le_of_lt ?_)
    (show (1 : UInt64) ≤ _ from ?_) UInt64.zero_le (by decide) (by decide)
    (total_one_prompt_pos hprice (rate_pos_of_exceeds hprice.input (by decide) hexceeds))⟩
  · rw [← hcharge] at hlower hupper
    exact toInt_asI64_neg hlower hupper
  · rw [UInt64.le_iff_toNat_le, htokens]
    exact hpos

end Necessary

-- Where prompts are free, the largest completion of the route decides.
theorem chargesFit_of_free_prompt {price : RoutePrice} {limit : UInt64} (hprice : price.NonNegative)
    (hfree : price.inputMicrocreditsPer1mTokens.toInt = 0)
    (hfits : outputCharge { promptTokens := 0, completionTokens := limit } price < 2 ^ 63)
    (messages : List ChatMessage) :
    ChargesFit { requestMessages := messages, price, routeMaxTokens := some limit } := by
  intro requested maxTokens fieldName hresolve
  have hmax : maxTokens ≤ limit := resolve_le hresolve limit rfl
  let charged := chargeInput (estimateAdmissionUsage messages (some maxTokens))
  have hprompt : inputCharge charged price = 0 := by
    rw [inputCharge, hfree, Int.mul_zero, ceilDiv_zero]
  have hcompletion : outputCharge charged price ≤
      outputCharge { promptTokens := 0, completionTokens := limit } price :=
    outputCharge_mono hprice hmax
  show inputCharge charged price + outputCharge charged price < 2 ^ 63
  omega

theorem admission_covers_settlement_iff_charges_fit (price : RoutePrice)
    (routeMaxTokens : Option UInt64) (hprice : price.NonNegative) :
    (∀ messages, ChargesFit { requestMessages := messages, price, routeMaxTokens } →
      AdmissionCoversSettlement { requestMessages := messages, price, routeMaxTokens }) ∧
    (∀ messages, inputCharge (chargeInput (estimateAdmissionUsage messages none)) price < 2 ^ 63 →
      (AdmissionCoversSettlement { requestMessages := messages, price, routeMaxTokens } ↔
        ChargesFit { requestMessages := messages, price, routeMaxTokens })) ∧
    ((∀ messages,
        AdmissionCoversSettlement { requestMessages := messages, price, routeMaxTokens }) ↔
      ∀ messages, ChargesFit { requestMessages := messages, price, routeMaxTokens }) := by
  refine ⟨fun messages hfit => covers_of_chargesFit hprice hfit, fun messages hprompt =>
    ⟨chargesFit_of_covers hprice hprompt, covers_of_chargesFit hprice⟩,
    fun hcovers messages => ?_, fun hfit messages => covers_of_chargesFit hprice (hfit messages)⟩
  by_cases hprompt :
      inputCharge (chargeInput (estimateAdmissionUsage messages none)) price < 2 ^ 63
  · exact chargesFit_of_covers hprice hprompt (hcovers messages)
  · obtain ⟨other, hnot⟩ := exists_not_covers_of_prompt price routeMaxTokens hprice
      (Int.not_lt.mp hprompt)
    exact absurd (hcovers other) hnot

theorem completion_is_covered_where_prompts_are_free :
    AdmissionCoversSettlement
      { requestMessages := [{ role := "user", content := "hi" }], price := ⟨0, 600000⟩
        routeMaxTokens := some 4096 } :=
  (admission_covers_settlement_iff_charges_fit ⟨0, 600000⟩ (some 4096)
    ⟨by decide, by decide⟩).2.2.mpr
      (chargesFit_of_free_prompt ⟨by decide, by decide⟩ (by decide) (by decide)) _

-- 2^63 completion tokens at one microcredit each wrap to a negative charge.
theorem wrapped_admission_does_not_cover :
    ¬AdmissionCoversSettlement
      { requestMessages := [{ role := "user", content := "hi" }], price := ⟨0, 1000000⟩
        routeMaxTokens := none } :=
  not_covers_of_wrap (show ∀ limit ∈ (none : Option UInt64), (9223372036854775808 : UInt64) ≤ limit
    from fun _ h => by cases h) (by decide) UInt64.zero_le (show (1 : UInt64) ≤ _ by decide)
    (by decide) (by decide) (by decide)

end Mizan.Gateway
