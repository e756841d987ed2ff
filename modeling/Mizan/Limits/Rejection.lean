import Mizan.Limits.Slots

namespace Mizan.Limits

open Interleaving SlotState

def slotProtocol (policy : RuntimeLimitPolicy) : Protocol (SlotState.system policy) where
  inv := SlotInvariant policy
  rely := OthersSlots
  fresh t s := ∀ key, t ∉ s.granted key ∧ t ∉ s.undoing key
  admits _ c _ s := ∀ scope ttlSeconds amount,
    c = .evalIncrement (concurrencyCounterKey scope) ttlSeconds amount →
      FullOfLeases policy s (concurrencyCounterKey scope)
  admitsEnv choice s := KeysLive choice.elapsedMs s.server
  rely_refl := OthersSlots.refl
  rely_trans := OthersSlots.trans
  fresh_rely := by
    intro t s s' hfresh hrely key
    rw [← List.count_eq_zero, ← List.count_eq_zero, hrely.granted, hrely.undoing,
      List.count_eq_zero,
      List.count_eq_zero]
    exact hfresh key
  env_keeps := by
    intro choice s s' hinv hlives henv
    cases henv
    refine ⟨⟨fun scope => ?_, hinv.attempts⟩, fun t => ⟨fun _ => rfl, fun _ => rfl, fun _ h => h⟩⟩
    rw [counterValue, advance_of_keysLive hlives]
    exact hinv.value scope

def concurrencyExceeded (scope : LimitScope) : AppError :=
  .limitExceeded s!"concurrent_requests exceeded for {scope.keyPart}"

-- A call that is turned away for a scope has been told so by its own increment.
def Reports (t : Nat) (error : Option AppError) (s : SlotState) : Prop :=
  ∀ scope, error = some (concurrencyExceeded scope) → ∃ attempt ∈ s.attempts,
    attempt.thread = t ∧ attempt.key = concurrencyCounterKey scope ∧ attempt.rejected = true

-- The slots that a call has been granted, and those it has taken in vain.
structure OwnSlots (t : Nat) (keys pending : List String) (s : SlotState) : Prop where
  scopes : ∀ key ∈ keys, ∃ scope, key = concurrencyCounterKey scope
  granted : ∀ scope, (s.granted (concurrencyCounterKey scope)).count t =
    keys.count (concurrencyCounterKey scope)
  undoing : ∀ scope, (s.undoing (concurrencyCounterKey scope)).count t =
    pending.count (concurrencyCounterKey scope)

section Calls

variable {policy : RuntimeLimitPolicy} {t : Nat} {keys pending : List String} {s s' : SlotState}
  {error : Option AppError}

theorem OwnSlots.stable : (slotProtocol policy).Stable t (OwnSlots t keys pending) := by
  intro s s' h hrely _
  have hrely : OthersSlots t s s' := hrely
  exact ⟨h.scopes, fun scope => (hrely.granted _).trans (h.granted scope),
    fun scope => (hrely.undoing _).trans (h.undoing scope)⟩

theorem Reports.mono (h : Reports t error s) (hattempts : s.attempts ⊆ s'.attempts) :
    Reports t error s' := by
  intro scope herror
  obtain ⟨attempt, hmem, hattempt⟩ := h scope herror
  exact ⟨attempt, hattempts hmem, hattempt⟩

theorem Reports.stable : (slotProtocol policy).Stable t (Reports t error) := by
  intro s s' h hrely _
  have hrely : OthersSlots t s s' := hrely
  exact h.mono hrely.attempts

theorem failed_stable (policy : RuntimeLimitPolicy) (t : Nat) (keys : List String)
    (error : AppError) : (slotProtocol policy).Stable t
      fun s => OwnSlots t keys [] s ∧ Reports t (some error) s :=
  fun h hrely hinv => ⟨OwnSlots.stable h.1 hrely hinv, Reports.stable h.2 hrely hinv⟩

theorem slot_keeps_self (hinv : SlotInvariant policy s) : (slotProtocol policy).Keeps t s s :=
  ⟨hinv, fun u _ => OthersSlots.refl u s⟩

theorem reports_infrastructure (error : String) : Reports t (some (.infrastructure error)) s :=
  fun _ herror => by cases herror

theorem infrastructure_of_countOf_error {response : Except String Int} {error : AppError}
    (h : countOf response = .error error) : ∃ text, error = .infrastructure text := by
  cases response with
  | error text =>
      cases h
      exact ⟨text, rfl⟩
  | ok count =>
      rw [countOf] at h
      split at h
      · cases h
      · cases h
        exact ⟨_, rfl⟩

theorem getConnection_slots (h : OwnSlots t keys [] s) :
    (slotProtocol policy).ewp t getConnection (fun _ => OwnSlots t keys [])
      (fun error s => OwnSlots t keys [] s ∧ Reports t (some error) s) s := by
  refine Protocol.ewp_atomic OwnSlots.stable (fun _ => OwnSlots.stable)
    (failed_stable policy t keys) ?_ h
  intro s choice response s' hinv hs _ hexec
  obtain ⟨hresponse, rfl⟩ := Prod.mk.inj (Option.some.inj hexec)
  refine ⟨slot_keeps_self hinv, ?_⟩
  rw [← hresponse]
  cases choice.fault with
  | none => exact hs
  | some error => exact ⟨hs, reports_infrastructure error⟩

-- What an increment does: nothing, or a slot whose caller learns of it, or a stray one.
theorem slot_increment_cases {key : String} {ttlSeconds : UInt32} {amount : UInt64}
    {choice : LimitsChoice} {response : Except String Int}
    (h : exec policy t (.evalIncrement key ttlSeconds amount) choice s = (response, s')) :
    ((∃ error, response = .error error) ∧ s' = s) ∨
    ∃ count server, s.server.evalIncrement key amount ttlSeconds.toNat = .ok (count, server) ∧
      ((response = .ok count ∧
          s' = s.count server t key (policy.concurrentRequests.toNat < count)) ∨
        ((∃ error, response = .error error) ∧ s' = { s.lose key with server })) := by
  simp only [exec] at h
  split at h
  · cases h
    exact .inl ⟨⟨_, rfl⟩, rfl⟩
  · rename_i count server hincr
    cases hfault : choice.fault with
    | none =>
        simp only [hfault] at h
        cases h
        exact .inr ⟨count, server, hincr, .inl ⟨rfl, rfl⟩⟩
    | some error =>
        simp only [hfault] at h
        split at h
        · cases h
          exact .inr ⟨count, server, hincr, .inr ⟨⟨_, rfl⟩, rfl⟩⟩
        · cases h
          exact .inl ⟨⟨_, rfl⟩, rfl⟩

theorem OthersSlots.lose (u : Nat) (key : String) (server : RedisServer) :
    OthersSlots u s { s.lose key with server } := ⟨fun _ => rfl, fun _ => rfl, fun _ h => h⟩

theorem OwnSlots.lose {key : String} {server : RedisServer} (h : OwnSlots t keys pending s) :
    OwnSlots t keys pending { s.lose key with server } := ⟨h.scopes, h.granted, h.undoing⟩

-- An increment that is told no count ends with an error that is nobody's limit.
theorem outcome_countOf {post : UInt64 → SlotState → Prop} {response : Except String Int}
    (hpost : ∀ count, countOf response = .ok count → post count s) (h : OwnSlots t keys [] s) :
    Protocol.outcome post (fun error s => OwnSlots t keys [] s ∧ Reports t (some error) s)
      (countOf response) s := by
  cases hcount : countOf response with
  | ok count => exact hpost count hcount
  | error error =>
      obtain ⟨text, rfl⟩ := infrastructure_of_countOf_error hcount
      exact ⟨h, reports_infrastructure text⟩

theorem OwnSlots.count_of_ne {key : String} {server : RedisServer} {rejected : Bool}
    (hkey : ∀ scope, concurrencyCounterKey scope ≠ key) (h : OwnSlots t keys pending s) :
    OwnSlots t keys pending (s.count server t key rejected) := by
  refine ⟨h.scopes, fun scope => ?_, fun scope => ?_⟩
  · rw [count_granted, if_neg fun h => hkey scope h.2.2]
    exact h.granted scope
  · rw [count_undoing, if_neg fun h => hkey scope h.2.2]
    exact h.undoing scope

theorem slots_window (key : String) (ttlSeconds : UInt32) (amount : UInt64)
    (hkey : ∀ scope, concurrencyCounterKey scope ≠ key) (h : OwnSlots t keys [] s) :
    (slotProtocol policy).ewp t (incrementWindowCounter key ttlSeconds amount)
      (fun _ => OwnSlots t keys [])
      (fun error s => OwnSlots t keys [] s ∧ Reports t (some error) s) s := by
  refine Protocol.ewp_atomic OwnSlots.stable (fun _ => OwnSlots.stable)
    (failed_stable policy t keys) ?_ h
  intro s choice response s' hinv hs _ hexec
  have hamount : ∀ scope, key = concurrencyCounterKey scope → amount = 1 :=
    fun scope heq => absurd heq.symm (hkey scope)
  obtain ⟨_, rfl⟩ | ⟨count, server, hincr, ⟨rfl, rfl⟩ | ⟨_, rfl⟩⟩ :=
    slot_increment_cases (Option.some.inj hexec)
  · exact ⟨slot_keeps_self hinv, outcome_countOf (fun _ _ => hs) hs⟩
  · have hcounted := @OwnSlots.count_of_ne t keys [] s key server
      (policy.concurrentRequests.toNat < count) hkey hs
    exact ⟨⟨hinv.count hincr hamount fun scope heq => absurd heq.symm (hkey scope),
        fun u hne => OthersSlots.count hne _ _ _⟩,
      outcome_countOf (fun _ _ => hcounted) hcounted⟩
  · exact ⟨⟨hinv.lose hincr hamount, fun u _ => OthersSlots.lose u _ _⟩,
      outcome_countOf (fun _ _ => hs.lose) hs.lose⟩

-- The increment of the counter of a scope, as `acquire_concurrency_lease` sees its count.
def Told (policy : RuntimeLimitPolicy) (t : Nat) (scope : LimitScope) (keys : List String)
    (count : UInt64) (s : SlotState) : Prop :=
  if count > policy.concurrentRequests.toUInt64 then
    OwnSlots t keys [concurrencyCounterKey scope] s ∧ Reports t (some (concurrencyExceeded scope)) s
  else OwnSlots t (keys ++ [concurrencyCounterKey scope]) [] s

theorem Told.stable {scope : LimitScope} {count : UInt64} :
    (slotProtocol policy).Stable t (Told policy t scope keys count) := by
  intro s s' h hrely hinv
  rw [Told] at h ⊢
  split
  · rename_i hover
    rw [if_pos hover] at h
    exact ⟨OwnSlots.stable h.1 hrely hinv, Reports.stable h.2 hrely hinv⟩
  · rename_i hroom
    rw [if_neg hroom] at h
    exact OwnSlots.stable h hrely hinv

theorem OwnSlots.rejected {scope : LimitScope} {server : RedisServer} (h : OwnSlots t keys [] s) :
    OwnSlots t keys [concurrencyCounterKey scope]
      (s.count server t (concurrencyCounterKey scope) true) := by
  refine ⟨h.scopes, fun scope' => ?_, fun scope' => ?_⟩
  · rw [count_granted, h.granted]
    simp
  · rw [count_undoing, h.undoing, List.count_singleton]
    simp [@eq_comm _ (concurrencyCounterKey scope)]

theorem OwnSlots.acquired {scope : LimitScope} {server : RedisServer} (h : OwnSlots t keys [] s) :
    OwnSlots t (keys ++ [concurrencyCounterKey scope]) []
      (s.count server t (concurrencyCounterKey scope) false) := by
  refine ⟨fun key hkey => ?_, fun scope' => ?_, fun scope' => ?_⟩
  · rcases List.mem_append.mp hkey with hkey | hkey
    · exact h.scopes key hkey
    · exact ⟨scope, List.mem_singleton.mp hkey⟩
  · rw [count_granted, h.granted, List.count_append, List.count_singleton]
    simp [@eq_comm _ (concurrencyCounterKey scope)]
  · rw [count_undoing, h.undoing]
    simp

theorem reports_rejected {scope : LimitScope} {server : RedisServer} :
    Reports t (some (concurrencyExceeded scope))
      (s.count server t (concurrencyCounterKey scope) true) := by
  intro scope' herror
  have htext : toString scope.keyPart = toString scope'.keyPart := by
    simpa [concurrencyExceeded] using herror
  have hpart : scope.keyPart = scope'.keyPart := htext
  have hkey : concurrencyCounterKey scope = concurrencyCounterKey scope' :=
    congrArg ("mizan:limit:concurrency:" ++ ·) hpart
  have hlast := List.mem_append_right s.attempts (List.mem_singleton_self (
    { thread := t, key := concurrencyCounterKey scope
      held := (s.leased (concurrencyCounterKey scope)).length
      pending := (s.pending (concurrencyCounterKey scope)).length
      undoing := (s.undoing (concurrencyCounterKey scope)).length
      stray := s.stray (concurrencyCounterKey scope), rejected := true } : Attempt))
  exact ⟨_, hlast, rfl, hkey, rfl⟩

theorem slots_increment (scope : LimitScope) (h : OwnSlots t keys [] s) :
    (slotProtocol policy).ewp t
      (incrementWindowCounter (concurrencyCounterKey scope) policy.leaseSeconds 1)
      (Told policy t scope keys)
      (fun error s => OwnSlots t keys [] s ∧ Reports t (some error) s) s := by
  have htold : ∀ count, (slotProtocol policy).Stable t (Told policy t scope keys count) :=
    fun _ => Told.stable
  refine Protocol.ewp_atomic OwnSlots.stable htold (failed_stable policy t keys) ?_ h
  intro s choice response s' hinv hs hleases hexec
  obtain ⟨⟨error, rfl⟩, rfl⟩ | ⟨count, server, hincr, ⟨rfl, rfl⟩ | ⟨⟨error, rfl⟩, rfl⟩⟩ :=
    slot_increment_cases (Option.some.inj hexec)
  · exact ⟨slot_keeps_self hinv, hs, reports_infrastructure error⟩
  · refine ⟨⟨hinv.count hincr (fun _ _ => rfl) fun _ _ => hleases scope _ _ rfl,
      fun u hne => OthersSlots.count hne _ _ _⟩, ?_⟩
    obtain ⟨hvalue, hcount, -⟩ := evalIncrement_value hincr
    have hbefore := hinv.value scope
    have hnonneg : 0 ≤ counterValue server (concurrencyCounterKey scope) := by omega
    have hlimit := @RedisServer.integerReply_le_iff
      (counterValue server (concurrencyCounterKey scope)) policy.concurrentRequests
    have hover := @lt_countOf policy.concurrentRequests _ hnonneg
    rw [← hcount] at hlimit hover
    have hreply : 0 ≤ count := by
      rw [hcount]
      exact RedisServer.integerReply_nonneg hnonneg
    rw [countOf, if_pos hreply]
    change Told policy t scope keys _ _
    rw [Told]
    by_cases hrejected : policy.concurrentRequests.toNat < count
    · rw [if_pos (hover.mpr (by omega)), decide_eq_true hrejected]
      exact ⟨hs.rejected, reports_rejected⟩
    · rw [if_neg fun hgt => hrejected (by have := hover.mp hgt; omega), decide_eq_false hrejected]
      exact hs.acquired
  · exact ⟨⟨hinv.lose hincr fun _ _ => rfl, fun u _ => OthersSlots.lose u _ _⟩, hs.lose,
      reports_infrastructure error⟩

-- The slot that a call gives back is the one it has taken in vain, or one that it was granted.
def GivesBack (t : Nat) (keys pending keys' : List String) (key : String) : Prop :=
  ∀ s, OwnSlots t keys pending s →
    (t ∈ s.undoing key ∨ t ∈ s.granted key) ∧ OwnSlots t keys' [] (s.giveBack t key)

theorem givesBack_pending (t : Nat) (keys : List String) (scope : LimitScope) :
    GivesBack t keys [concurrencyCounterKey scope] keys (concurrencyCounterKey scope) := by
  intro s h
  have hmem : t ∈ s.undoing (concurrencyCounterKey scope) := by
    rw [← List.count_pos_iff, h.undoing]
    simp
  refine ⟨.inl hmem, h.scopes, fun scope' => ?_, fun scope' => ?_⟩
  · rw [count_giveBack_granted, h.granted]
    simp [hmem]
  · rw [count_giveBack_undoing, h.undoing, List.count_singleton]
    simp [hmem, @eq_comm _ (concurrencyCounterKey scope)]

theorem givesBack_held (t : Nat) (keys : List String) (scope : LimitScope) :
    GivesBack t (concurrencyCounterKey scope :: keys) [] keys (concurrencyCounterKey scope) := by
  intro s h
  have hnone : t ∉ s.undoing (concurrencyCounterKey scope) := by
    rw [← List.count_eq_zero, h.undoing]
    rfl
  have hmem : t ∈ s.granted (concurrencyCounterKey scope) := by
    rw [← List.count_pos_iff, h.granted]
    simp
  refine ⟨.inr hmem, fun key hkey => h.scopes key (List.mem_cons_of_mem _ hkey), fun scope' => ?_,
    fun scope' => ?_⟩
  · rw [count_giveBack_granted, h.granted, List.count_cons]
    by_cases hkey : concurrencyCounterKey scope' = concurrencyCounterKey scope
    · simp [hkey, hnone]
    · simp [hkey, Ne.symm hkey]
  · rw [count_giveBack_undoing, h.undoing]
    simp

theorem slots_releaseKey {scope : LimitScope} {keys' : List String}
    (hgives : GivesBack t keys pending keys' (concurrencyCounterKey scope))
    (h : OwnSlots t keys pending s) (hreports : Reports t error s) :
    (slotProtocol policy).ewp t (releaseKey (concurrencyCounterKey scope))
      (fun _ s => OwnSlots t keys' [] s ∧ Reports t error s)
      (fun error' s => (OwnSlots t keys' [] s ∧ Reports t error s) ∧
        ∃ text, error' = .infrastructure text) s := by
  have hstable : ∀ keys pending, (slotProtocol policy).Stable t
      fun s => OwnSlots t keys pending s ∧ Reports t error s :=
    fun _ _ _ _ h hrely hinv => ⟨OwnSlots.stable h.1 hrely hinv, Reports.stable h.2 hrely hinv⟩
  have hfailed : ∀ error' : AppError, (slotProtocol policy).Stable t
      fun s => (OwnSlots t keys' [] s ∧ Reports t error s) ∧
        ∃ text, error' = .infrastructure text :=
    fun _ _ _ h hrely hinv => ⟨hstable keys' [] h.1 hrely hinv, h.2⟩
  refine Protocol.ewp_atomic (hstable keys pending) (fun _ => hstable keys' []) hfailed ?_
    ⟨h, hreports⟩
  intro s choice response s' hinv ⟨hs, hreports⟩ _ hexec
  obtain ⟨hown, hgiven⟩ := hgives s hs
  have hsaid : Reports t error (s.giveBack t (concurrencyCounterKey scope)) :=
    hreports.mono (by rw [giveBack_attempts]; exact List.Subset.refl _)
  have hothers : ∀ u, u ≠ t → OthersSlots u s (s.giveBack t (concurrencyCounterKey scope)) :=
    fun u hne => OthersSlots.giveBack hne _
  have houtcome : ∀ s'', OwnSlots t keys' [] s'' → Reports t error s'' →
      Protocol.outcome (fun (_ : Int) s => OwnSlots t keys' [] s ∧ Reports t error s)
        (fun error' s => (OwnSlots t keys' [] s ∧ Reports t error s) ∧
          ∃ text, error' = .infrastructure text) (infrastructure response) s'' := by
    intro s'' hs'' hreports''
    cases response with
    | ok value => exact ⟨hs'', hreports''⟩
    | error text => exact ⟨⟨hs'', hreports''⟩, text, rfl⟩
  have hexec := Option.some.inj hexec
  simp only [exec] at hexec
  have hreleased : (slotProtocol policy).Keeps t s { s.giveBack t (concurrencyCounterKey scope) with
      server := (s.server.evalRelease (concurrencyCounterKey scope)).2 } :=
    ⟨hinv.release hown, fun u hne => ⟨(hothers u hne).granted, (hothers u hne).undoing,
      (hothers u hne).attempts⟩⟩
  cases hfault : choice.fault with
  | none =>
      simp only [hfault] at hexec
      obtain ⟨-, rfl⟩ := hexec
      exact ⟨hreleased, houtcome _ ⟨hgiven.scopes, hgiven.granted, hgiven.undoing⟩ hsaid⟩
  | some fault =>
      simp only [hfault] at hexec
      obtain ⟨-, rfl⟩ := hexec
      split
      · exact ⟨hreleased, houtcome _ ⟨hgiven.scopes, hgiven.granted, hgiven.undoing⟩ hsaid⟩
      · exact ⟨⟨hinv.abandon hown, fun u hne => ⟨(hothers u hne).granted, (hothers u hne).undoing,
          (hothers u hne).attempts⟩⟩,
          houtcome _ ⟨hgiven.scopes, hgiven.granted, hgiven.undoing⟩ hsaid⟩

theorem slots_acquire (scope : LimitScope) (h : OwnSlots t keys [] s) :
    (slotProtocol policy).ewp t (acquireConcurrencyLease policy scope)
      (fun key => OwnSlots t (keys ++ key.toList) [])
      (fun error s => OwnSlots t keys [] s ∧ Reports t (some error) s) s := by
  rw [acquireConcurrencyLease]
  split
  · refine Protocol.ewp_pure fun s' hrely hinv => ?_
    rw [Option.toList_none, List.append_nil]
    exact OwnSlots.stable h hrely hinv
  · refine Protocol.ewp_seq (slots_increment scope h) (fun _ _ hfailed => hfailed)
      fun count s' _ htold => ?_
    rw [Told] at htold
    split
    · rename_i hover
      rw [if_pos hover] at htold
      refine Protocol.ewp_seq (slots_releaseKey (givesBack_pending t keys scope) htold.1 htold.2)
        (fun error s'' hfailed => ?_) fun _ s'' _ hs'' =>
          Protocol.ewp_throw fun _ => failed_stable policy t keys _ hs''
      -- a failed undoing ends the call with an error that is nobody's limit
      obtain ⟨⟨hown, -⟩, text, rfl⟩ := hfailed
      exact ⟨hown, reports_infrastructure text⟩
    · rename_i hroom
      rw [if_neg hroom] at htold
      exact Protocol.ewp_pure fun _ => OwnSlots.stable htold

theorem slotSpecs (policy : RuntimeLimitPolicy) (t : Nat) :
    CallSpecs (slotProtocol policy) t policy True (fun keys => OwnSlots t keys []) (Reports t) where
  holdsStable _ := OwnSlots.stable
  reportsStable _ := Reports.stable
  silent _ _ herror := by cases herror
  overRequests scope s scope' herror := by
    have htext := AppError.limitExceeded.inj (Option.some.inj herror)
    exact absurd htext (append_ne_append_of_take_ne 1 (by decide) (by decide) (by decide))
  overTokens scope s scope' herror := by
    have htext := AppError.limitExceeded.inj (Option.some.inj herror)
    exact absurd htext (append_ne_append_of_take_ne 1 (by decide) (by decide) (by decide))
  connect h := Protocol.ewp_mono (fun _ _ _ hs => hs) (fun _ _ _ hfailed => ⟨trivial, hfailed⟩)
    (getConnection_slots h)
  window := slots_window
  acquire := slots_acquire
  release := by
    intro key keys s error hown hreports
    obtain ⟨scope, rfl⟩ := hown.scopes key List.mem_cons_self
    exact Protocol.ewp_mono (fun _ _ _ hs => hs) (fun _ _ _ hfailed => hfailed.1)
      (slots_releaseKey (givesBack_held t keys scope) hown hreports)

theorem caller_slots (request : RuntimeLimitRequest) (h : OwnSlots t [] [] s) :
    (slotProtocol policy).wp t (caller policy request)
      (fun result s => ∀ error, result = .error error → Reports t (some error) s) s := by
  have specs := slotSpecs policy t
  have hended : ∀ (property : SlotState → Prop) (result : Except AppError RuntimeLimitLease)
      (s : SlotState), (slotProtocol policy).Stable t property → property s →
      (slotProtocol policy).wp t (Prog.ask (LimitsCommand.ended result)) (fun _ => property) s := by
    intro property result s hstable hs
    refine Protocol.wp_ask fun s₁ hrely hinv choice response s₂ _ hexec => ?_
    obtain ⟨hinv₂, hothers⟩ := ended_keeps hinv (Option.some.inj hexec)
    have hs₂ : property s₂ := hstable (hstable hs hrely hinv) (hothers t) hinv₂
    exact ⟨⟨hinv₂, fun u _ => hothers u⟩, fun _ hrely' hinv' => hstable hs₂ hrely' hinv'⟩
  apply Protocol.wp_bind
  refine Protocol.wp_mono (fun result s' _ hs' => ?_) (specs.checkAndAcquire request h)
  cases result with
  | error error =>
      apply Protocol.wp_bind
      refine Protocol.wp_mono (fun _ s'' _ hs'' => ?_)
        (hended _ (.error error) s' (failed_stable policy t [] error) hs')
      intro s₃ hrely hinv error' herror
      cases herror
      exact Reports.stable hs''.2 hrely hinv
  | ok lease =>
      apply Protocol.wp_bind
      refine Protocol.wp_mono (fun _ s'' _ hs'' => ?_)
        (hended _ (.ok lease) s' (specs.holdsStable lease.keys) hs')
      apply Protocol.wp_bind
      exact Protocol.wp_mono (fun _ _ _ _ _ _ _ _ herror => by cases herror)
        (specs.releaseLease lease hs'')

end Calls

abbrev SlotConfig :=
  Config LimitsCommand LimitsCommand.Response (Except AppError RuntimeLimitLease) SlotState

def NoKeyExpires : Action LimitsChoice → SlotConfig → Prop
  | .env choice, config => KeysLive choice.elapsedMs config.state.server
  | _, _ => True

-- Where an increment finds its counter full, it is full of leases.
def CountsLeases (policy : RuntimeLimitPolicy) : Action LimitsChoice → SlotConfig → Prop
  | .call t _, config => ∀ scope ttlSeconds amount next, config.threads t =
      some (.call (.evalIncrement (concurrencyCounterKey scope) ttlSeconds amount) next) →
        FullOfLeases policy config.state (concurrencyCounterKey scope)
  | _, _ => True

theorem SlotInvariant.start (policy : RuntimeLimitPolicy) : SlotInvariant policy .start :=
  ⟨fun _ => rfl, fun _ hattempt => by cases hattempt⟩

-- A call that is turned away for a scope has found the limit taken by leases of this scope, in
-- every run in which a full counter is full of leases.
theorem rejections_justified_of_counts_leases (policy : RuntimeLimitPolicy)
    (requests : Nat → RuntimeLimitRequest) (actions : List (Action LimitsChoice))
    (config : SlotConfig)
    (hrun : (SlotState.system policy).run (fun t => caller policy (requests t)) actions
      (System.initial .start) = some config)
    (hmeets : (SlotState.system policy).Meets (fun t => caller policy (requests t))
      (fun action config => NoKeyExpires action config ∧ CountsLeases policy action config)
      actions (System.initial .start)) :
    (∀ t scope, config.threads t = some (.ret (.error (concurrencyExceeded scope))) →
      ∃ attempt ∈ config.state.attempts, attempt.thread = t ∧
        attempt.key = concurrencyCounterKey scope ∧ attempt.rejected = true) ∧
    ∀ attempt ∈ config.state.attempts, ∀ scope, attempt.key = concurrencyCounterKey scope →
      attempt.rejected = true → policy.concurrentRequests.toNat ≤ attempt.held := by
  have hallowed : (SlotState.system policy).Meets (fun t => caller policy (requests t))
      (slotProtocol policy).Allowed actions (System.initial .start) := by
    refine System.Meets.imp _ _ (fun action config h => ?_) actions _ hmeets
    cases action with
    | spawn t => trivial
    | env choice => exact h.1
    | call t choice =>
        intro c next hthread scope ttlSeconds amount hc
        subst hc
        exact h.2 scope ttlSeconds amount next hthread
  have hfresh : ∀ t s, (∀ key, t ∉ s.granted key ∧ t ∉ s.undoing key) → OwnSlots t [] [] s :=
    fun t s hfresh => ⟨by simp, fun scope => List.count_eq_zero.mpr (hfresh _).1,
      fun scope => List.count_eq_zero.mpr (hfresh _).2⟩
  have hgood := Protocol.good_run (P := slotProtocol policy)
    (fun t => caller policy (requests t))
    (fun t result s => ∀ error, result = .error error → Reports t (some error) s)
    (fun t s _ h => caller_slots (requests t) (hfresh t s h)) actions hrun hallowed
    (Protocol.good_initial _ (SlotInvariant.start policy) fun _ _ => by simp [SlotState.start])
  have hinv : SlotInvariant policy config.state := hgood.1
  exact ⟨fun t scope hthread => hgood.returned hthread _ rfl scope rfl, hinv.attempts⟩

def deniedSteps : List (Action LimitsChoice) := acquireSteps 0 ++ acquireSteps 1 ++ [.call 1 {}]

-- The two conditions on a step as a test, which is stricter: no time passes.
def countsLeases (policy : RuntimeLimitPolicy) : Action LimitsChoice → SlotConfig → Bool
  | .env _, _ => false
  | .spawn _, _ => true
  | .call t _, config =>
      match config.threads t with
      | some (.call (.evalIncrement key _ _) _) =>
          counterValue config.state.server key < policy.concurrentRequests.toNat ||
            (config.state.pending key).isEmpty && (config.state.undoing key).isEmpty &&
              config.state.stray key = 0
      | _ => true

theorem countsLeases_sound {policy : RuntimeLimitPolicy} {action : Action LimitsChoice}
    {config : SlotConfig} (h : countsLeases policy action config = true) :
    NoKeyExpires action config ∧ CountsLeases policy action config := by
  cases action with
  | spawn t => exact ⟨trivial, trivial⟩
  | env choice => cases h
  | call t choice =>
      refine ⟨trivial, fun scope ttlSeconds amount next hthread hfull => ?_⟩
      simp only [countsLeases, hthread, Bool.or_eq_true, decide_eq_true_eq, Bool.and_eq_true,
        List.isEmpty_iff] at h
      obtain hroom | ⟨⟨hpending, hundoing⟩, hstray⟩ := h
      · omega
      · exact ⟨hpending, hundoing, hstray⟩

-- Thread 1 is turned away while thread 0 has the only lease, and undoes its increment.
theorem rejection_justified_while_held : ∃ config,
    (SlotState.system oneAtATime).run (fun _ => caller oneAtATime userRequest) deniedSteps
      (System.initial .start) = some config ∧
    config.threads 1 = some (.ret (.error (concurrencyExceeded (.user ⟨7⟩)))) ∧
    ∃ attempt ∈ config.state.attempts, attempt.thread = 1 ∧ attempt.rejected = true ∧
      oneAtATime.concurrentRequests.toNat ≤ attempt.held := by
  have hreturned : (SlotState.system oneAtATime).returned (fun _ => caller oneAtATime userRequest)
      deniedSteps (System.initial .start) 1 =
        some (.error (concurrencyExceeded (.user ⟨7⟩))) := by
    decide +kernel
  obtain ⟨config, hrun, hthread⟩ := System.exists_run_of_returned _ _ hreturned
  have hchecks : (SlotState.system oneAtATime).checks (fun _ => caller oneAtATime userRequest)
      (countsLeases oneAtATime) deniedSteps (System.initial .start) = true := by
    decide +kernel
  have hmeets := System.Meets.imp _ _ (fun _ _ => countsLeases_sound) _ _
    (System.meets_of_checks _ _ hchecks)
  obtain ⟨hreports, hjustified⟩ := rejections_justified_of_counts_leases oneAtATime
    (fun _ => userRequest) deniedSteps config hrun hmeets
  obtain ⟨attempt, hmem, ht, hkey, hrejected⟩ := hreports 1 (.user ⟨7⟩) hthread
  exact ⟨config, hrun, hthread, attempt, hmem, ht, hrejected,
    hjustified attempt hmem (.user ⟨7⟩) hkey hrejected⟩

def timeless : Action LimitsChoice → Bool
  | .env _ => false
  | _ => true

theorem noKeyExpires_of_timeless {actions : List (Action LimitsChoice)} {config : SlotConfig}
    {code : Nat → Prog LimitsCommand LimitsCommand.Response (Except AppError RuntimeLimitLease)}
    (h : actions.all timeless = true) :
    (SlotState.system policy).Meets code NoKeyExpires actions config := by
  induction actions generalizing config with
  | nil => trivial
  | cons action actions ih =>
      rw [List.all_cons, Bool.and_eq_true] at h
      refine ⟨?_, fun _ _ => ih h.2⟩
      cases action with
      | env choice => exact absurd h.1 Bool.false_ne_true
      | spawn t => trivial
      | call t choice => trivial

def overlappingSteps : List (Action LimitsChoice) :=
  acquireSteps 0 ++ [.spawn 1, .call 1 {}, .call 1 {}] ++ releaseSteps 0 ++ acquireSteps 2 ++
    [.call 2 {}]

-- Thread 1 has been turned away and has not undone its increment yet when thread 0 gives back the
-- only lease; thread 2 is turned away with no lease held by anybody.
theorem rejected_with_no_slot_held : ∃ config,
    (SlotState.system oneAtATime).run (fun _ => caller oneAtATime userRequest) overlappingSteps
      (System.initial .start) = some config ∧
    (SlotState.system oneAtATime).Meets (fun _ => caller oneAtATime userRequest) NoKeyExpires
      overlappingSteps (System.initial .start) ∧
    config.threads 2 = some (.ret (.error (concurrencyExceeded (.user ⟨7⟩)))) ∧
    ∀ attempt ∈ config.state.attempts, attempt.thread = 2 →
      attempt.rejected = true ∧ ¬oneAtATime.concurrentRequests.toNat ≤ attempt.held := by
  have hresult : (((SlotState.system oneAtATime).run (fun _ => caller oneAtATime userRequest)
      overlappingSteps (System.initial .start)).map fun config =>
        ((config.threads 2).bind Prog.returned, config.state.attempts.filter fun attempt =>
          attempt.thread = 2)) =
      some (some (.error (concurrencyExceeded (.user ⟨7⟩))),
        [{ thread := 2, key := concurrencyCounterKey (.user ⟨7⟩), held := 0, pending := 0
           undoing := 1, stray := 0, rejected := true }]) := by
    decide +kernel
  obtain ⟨config, hrun, hconfig⟩ := Option.map_eq_some_iff.mp hresult
  obtain ⟨hreturned, hattempts⟩ := Prod.mk.inj hconfig
  obtain ⟨program, hprogram, hvalue⟩ := Option.bind_eq_some_iff.mp hreturned
  refine ⟨config, hrun, noKeyExpires_of_timeless (by decide), ?_, fun attempt hmem hthread => ?_⟩
  · rw [hprogram, Prog.eq_ret_of_returned hvalue]
  · have hfiltered : attempt ∈ config.state.attempts.filter fun attempt => attempt.thread = 2 :=
      List.mem_filter.mpr ⟨hmem, decide_eq_true hthread⟩
    rw [hattempts] at hfiltered
    obtain rfl := List.mem_singleton.mp hfiltered
    exact ⟨rfl, by decide⟩

end Mizan.Limits
