import Mizan.Limits.Calls
import Mizan.Limits.Lifetimes
import Mathlib.Algebra.BigOperators.Ring.Finset
import Mathlib.Algebra.Order.Group.Int
import Mathlib.Algebra.Order.Group.Nat
import Mathlib.Data.List.Dedup

namespace Mizan.Limits

open Interleaving RateState RunningTotal

def rateProtocol (policy : RuntimeLimitPolicy) (requests : Nat → RuntimeLimitRequest) :
    Protocol RateState.system where
  inv := RateInvariant policy requests
  rely := OwnCalls
  fresh t s := t ∉ s.leased ∧ ∀ c : RateCounter, ∀ scope, calls t (c.key scope) s = []
  admits _ _ _ _ := True
  admitsEnv _ _ := True
  rely_refl := OwnCalls.refl
  rely_trans := OwnCalls.trans
  fresh_rely hfresh hrely := ⟨fun hmem => hfresh.1 (hrely.leased.mp hmem),
    fun c scope => (hrely.calls c scope).trans (hfresh.2 c scope)⟩
  env_keeps := by
    intro choice s s' hinv _ henv
    cases henv
    refine hinv.frame rfl (fun _ _ => rfl) fun c scope entry hentry => ?_
    exact (Option.filter_eq_some_iff.mp hentry).1

section Calls

variable {policy : RuntimeLimitPolicy} {requests : Nat → RuntimeLimitRequest} {t : Nat}
  {s : RateState} {done : RateCounter → LimitScope → Prop} {property : RateState → Prop}

-- `check_and_acquire` in progress, with the counters that it has incremented so far.
structure InProgress (policy : RuntimeLimitPolicy) (requests : Nat → RuntimeLimitRequest) (t : Nat)
    (done : RateCounter → LimitScope → Prop) (s : RateState) : Prop where
  running : t ∉ s.leased
  within : Within policy t s
  charged : ∀ c scope, done c scope → Charged policy requests t c scope s

theorem InProgress.stable :
    (rateProtocol policy requests).Stable t (InProgress policy requests t done) := by
  intro s s' h hrely _
  have hrely : OwnCalls t s s' := hrely
  exact ⟨fun hmem => h.running (hrely.leased.mp hmem), hrely.within h.within,
    fun c scope hdone => hrely.charged (h.charged c scope hdone)⟩

theorem running_stable : (rateProtocol policy requests).Stable t fun s => t ∉ s.leased := by
  intro s s' h hrely _
  have hrely : OwnCalls t s s' := hrely
  exact fun hmem => h (hrely.leased.mp hmem)

theorem InProgress.imp {done' : RateCounter → LimitScope → Prop}
    (h : InProgress policy requests t done s) (himp : ∀ c scope, done' c scope → done c scope) :
    InProgress policy requests t done' s :=
  ⟨h.running, h.within, fun c scope hdone => h.charged c scope (himp c scope hdone)⟩

-- A command that changes no counter of the windows takes nothing from anybody.
theorem frame_atomic {α : Type} {c : LimitsCommand} {result : c.Response → Except AppError α}
    (hstable : (rateProtocol policy requests).Stable t property)
    (hframe : ∀ s choice response s', exec t c choice s = (response, s') →
      s'.leased = s.leased ∧
        (∀ c : RateCounter, ∀ scope, s'.lifetimes (c.key scope) = s.lifetimes (c.key scope)) ∧
        ∀ c : RateCounter, ∀ scope entry, s'.server.store (c.key scope) = some entry →
          s.server.store (c.key scope) = some entry) (h : property s) :
    (rateProtocol policy requests).ewp t (Prog.perform c result) (fun _ => property)
      (fun _ => property) s := by
  refine Protocol.ewp_atomic hstable (fun _ => hstable) (fun _ => hstable) ?_ h
  intro s choice response s' hinv hs _ hexec
  obtain ⟨hleased, hlifetimes, hstore⟩ := hframe s choice response s' (Option.some.inj hexec)
  obtain ⟨hinv', hown⟩ := RateInvariant.frame hinv hleased hlifetimes hstore
  have hproperty : property s' := hstable hs (hown t) hinv'
  refine ⟨⟨hinv', fun u _ => hown u⟩, ?_⟩
  cases result response <;> exact hproperty

theorem getConnection_rate (hstable : (rateProtocol policy requests).Stable t property)
    (h : property s) :
    (rateProtocol policy requests).ewp t getConnection (fun _ => property)
    (fun _ => property) s := by
  refine frame_atomic hstable (fun s choice response s' hexec => ?_) h
  have hsame : s' = s := of_reply rfl rfl hexec
  subst hsame
  exact ⟨rfl, fun _ _ => rfl, fun _ _ _ hentry => hentry⟩

theorem releaseKey_rate (scope : LimitScope)
    (hstable : (rateProtocol policy requests).Stable t property) (h : property s) :
    (rateProtocol policy requests).ewp t (releaseKey (concurrencyCounterKey scope))
      (fun _ => property) (fun _ => property) s := by
  refine frame_atomic hstable (fun s choice response s' hexec => ?_) h
  refine of_reply ⟨rfl, fun _ _ => rfl, fun _ _ _ hentry => hentry⟩
    ⟨rfl, fun _ _ => rfl, fun c scope' entry hentry => ?_⟩ hexec
  rwa [← evalRelease_store _ (c.key_ne_concurrencyCounterKey scope' scope)]

-- The script of an increment either ran, with a count that the caller may not get to see, or
-- changed nothing.
theorem rate_evalIncrement_cases {key : String} {ttlSeconds : UInt32} {amount : UInt64}
    {choice : LimitsChoice} {response : Except String Int} {s' : RateState}
    (h : exec t (.evalIncrement key ttlSeconds amount) choice s = (response, s')) :
    (∃ error, response = .error error ∧ s' = s) ∨
    ∃ count server, s.server.evalIncrement key amount ttlSeconds.toNat = .ok (count, server) ∧
      s' = s.increment server t key amount ∧
      (response = .ok count ∨ ∃ error, response = .error error) := by
  simp only [exec] at h
  split at h
  · cases h
    exact .inl ⟨_, rfl, rfl⟩
  · rename_i count server hincr
    obtain ⟨hresponse, hstate⟩ | ⟨error, hresponse, hstate | hstate⟩ := reply_cases h
    · exact .inr ⟨count, server, hincr, hstate, .inl hresponse⟩
    · exact .inl ⟨error, hresponse, hstate⟩
    · exact .inr ⟨count, server, hincr, hstate, .inr ⟨error, hresponse⟩⟩

theorem incrementConcurrencyCounter_rate (scope : LimitScope) {ttlSeconds : UInt32}
    (hstable : (rateProtocol policy requests).Stable t property) (h : property s) :
    (rateProtocol policy requests).ewp t
      (incrementWindowCounter (concurrencyCounterKey scope) ttlSeconds 1)
      (fun _ => property) (fun _ => property) s := by
  refine frame_atomic hstable (fun s choice response s' hexec => ?_) h
  obtain ⟨error, -, rfl⟩ | ⟨count, server, hincr, rfl, -⟩ := rate_evalIncrement_cases hexec
  · exact ⟨rfl, fun _ _ => rfl, fun _ _ _ hentry => hentry⟩
  · obtain ⟨-, -, -, hothers⟩ := evalIncrement_value hincr
    refine ⟨rfl, fun c scope' => ?_, fun c scope' entry hentry => ?_⟩
    · exact lifetimes_increment_of_ne t 1 server (c.key_ne_concurrencyCounterKey scope' scope)
    · rwa [← hothers _ (c.key_ne_concurrencyCounterKey scope' scope)]

-- What the count of a window says: below the limit, the increment is one of a call in progress.
def Admitted (policy : RuntimeLimitPolicy) (requests : Nat → RuntimeLimitRequest) (t : Nat)
    (done : RateCounter → LimitScope → Prop) (c : RateCounter) (scope : LimitScope)
    (count : UInt64) (s : RateState) : Prop :=
  t ∉ s.leased ∧ (¬count > (c.limit policy).toUInt64 →
    InProgress policy requests t (fun c' scope' => c' = c ∧ scope' = scope ∨ done c' scope') s)

theorem Admitted.stable {c : RateCounter} {scope : LimitScope} {count : UInt64} :
    (rateProtocol policy requests).Stable t (Admitted policy requests t done c scope count) :=
  fun h hrely hinv => ⟨running_stable h.1 hrely hinv,
    fun hroom => InProgress.stable (h.2 hroom) hrely hinv⟩

theorem InProgress.increment {c : RateCounter} {scope : LimitScope} {server : RedisServer}
    {ttlSeconds : Nat} {count : Int} (hinv : RateInvariant policy requests s)
    (h : InProgress policy requests t done s)
    (hincr : s.server.evalIncrement (c.key scope) (c.charge (requests t)) ttlSeconds =
      .ok (count, server)) (hnonneg : 0 ≤ count) :
    Admitted policy requests t done c scope (UInt64.ofNat count.toNat)
      (s.increment server t (c.key scope) (c.charge (requests t))) := by
  have hmem := mem_calls_increment t (c.charge (requests t)) server (hinv.keys c scope)
  have hkeep : ∀ c' : RateCounter, ∀ scope', ∀ call ∈ calls t (c'.key scope') s,
      call ∈ calls t (c'.key scope')
      (s.increment server t (c.key scope) (c.charge (requests t))) := by
    intro c' scope' call hcall
    by_cases hkey : c'.key scope' = c.key scope
    · rw [hkey] at hcall ⊢
      exact (hmem call).mpr (.inl hcall)
    · rw [calls, lifetimes_increment_of_ne _ _ _ hkey]
      exact hcall
  obtain ⟨htotal, hcount, -, -⟩ := evalIncrement_value hincr
  have hfits : count < 2 ^ 63 := by
    rw [hcount]
    exact RedisServer.integerReply_lt
  refine ⟨h.running, fun hroom => ⟨h.running, fun c' scope' call hcall => ?_,
    fun c' scope' hdone hlimit hcharge => ?_⟩⟩
  · by_cases hkey : c'.key scope' = c.key scope
    · obtain rfl := RateCounter.eq_of_key_eq hkey
      rw [hkey] at hcall
      rcases (hmem call).mp hcall with hcall | rfl
      · exact h.within c' scope call hcall
      · have hsize : (UInt64.ofNat count.toNat).toNat = count.toNat :=
          UInt64.toNat_ofNat_of_lt' (by rw [UInt64.size]; omega)
        have hroom : count.toNat ≤ (c'.limit policy).toNat := by
          simpa [hsize, UInt64.lt_iff_toNat_lt] using hroom
        have hreply : count ≤ (c'.limit policy).toNat := by omega
        rw [hcount, RedisServer.integerReply_le_iff] at hreply
        exact hreply
    · rw [calls, lifetimes_increment_of_ne _ _ _ hkey] at hcall
      exact h.within c' scope' call hcall
  · rcases hdone with ⟨rfl, rfl⟩ | hdone
    · exact List.ne_nil_of_mem ((hmem _).mpr (.inr rfl))
    · obtain ⟨call, hcall⟩ := List.exists_mem_of_ne_nil _ (h.charged c' scope' hdone hlimit hcharge)
      exact List.ne_nil_of_mem (hkeep c' scope' call hcall)

theorem incrementWindowCounter_rate (c : RateCounter) (scope : LimitScope) {ttlSeconds : UInt32}
    (h : InProgress policy requests t done s) :
    (rateProtocol policy requests).ewp t
      (incrementWindowCounter (c.key scope) ttlSeconds (c.charge (requests t)))
      (Admitted policy requests t done c scope) (fun _ s => t ∉ s.leased) s := by
  have hstable : ∀ count, (rateProtocol policy requests).Stable t
      (Admitted policy requests t done c scope count) := fun _ => Admitted.stable
  have hrunning : (rateProtocol policy requests).Stable t fun s => t ∉ s.leased := running_stable
  refine Protocol.ewp_atomic InProgress.stable hstable (fun _ => hrunning) ?_ h
  intro s choice response s' hinv hs _ hexec
  obtain ⟨error, rfl, rfl⟩ | ⟨count, server, hincr, rfl, hresponse⟩ :=
    rate_evalIncrement_cases (Option.some.inj hexec)
  · exact ⟨⟨hinv, fun u _ => OwnCalls.refl u s'⟩, hs.running⟩
  · refine ⟨⟨RateInvariant.increment hinv hincr rfl hs.running, fun u hne =>
      OwnCalls.increment t _ server (fun scope => RateInvariant.keys hinv c scope) hne⟩, ?_⟩
    obtain rfl | ⟨error, rfl⟩ := hresponse
    · rw [countOf]
      split
      · rename_i hnonneg
        exact InProgress.increment hinv hs hincr hnonneg
      · exact hs.running
    · exact hs.running

theorem checkRequestCounter_rate (scope : LimitScope) (h : InProgress policy requests t done s) :
    (rateProtocol policy requests).ewp t (checkRequestCounter policy scope)
      (fun _ => InProgress policy requests t fun c' scope' =>
        c' = .requests ∧ scope' = scope ∨ done c' scope') (fun _ s => t ∉ s.leased) s := by
  rw [checkRequestCounter]
  split
  · rename_i hunlimited
    refine Protocol.ewp_pure fun s' => InProgress.stable ⟨h.running, h.within, ?_⟩
    rintro c' scope' (⟨rfl, rfl⟩ | hdone) hlimit
    · exact absurd hunlimited hlimit
    · exact h.charged c' scope' hdone hlimit
  · refine Protocol.ewp_seq (incrementWindowCounter_rate .requests scope h)
      (fun _ _ hfailed => hfailed) fun count s' _ hs' => ?_
    split
    · exact Protocol.ewp_throw fun s'' => running_stable hs'.1
    · rename_i hroom
      exact Protocol.ewp_pure fun s'' => InProgress.stable (hs'.2 hroom)

theorem checkTokenCounter_rate (scope : LimitScope) (h : InProgress policy requests t done s) :
    (rateProtocol policy requests).ewp t
      (checkTokenCounter policy scope (requests t).estimatedPromptTokens)
      (fun _ => InProgress policy requests t fun c' scope' =>
        c' = .tokens ∧ scope' = scope ∨ done c' scope') (fun _ s => t ∉ s.leased) s := by
  rw [checkTokenCounter]
  split
  · rename_i hunlimited
    refine Protocol.ewp_pure fun s' => InProgress.stable ⟨h.running, h.within, ?_⟩
    rintro c' scope' (⟨rfl, rfl⟩ | hdone) hlimit hcharge
    · exact absurd hunlimited (by simpa using ⟨hlimit, hcharge⟩)
    · exact h.charged c' scope' hdone hlimit hcharge
  · refine Protocol.ewp_seq (incrementWindowCounter_rate .tokens scope h)
      (fun _ _ hfailed => hfailed) fun count s' _ hs' => ?_
    split
    · exact Protocol.ewp_throw fun s'' => running_stable hs'.1
    · rename_i hroom
      exact Protocol.ewp_pure fun s'' => InProgress.stable (hs'.2 hroom)

-- The keys that a call gives back are those of concurrency counters.
def ConcurrencyKeys (keys : List String) : Prop :=
  ∀ key ∈ keys, ∃ scope, key = concurrencyCounterKey scope

theorem acquireConcurrencyLease_rate (scope : LimitScope)
    (h : InProgress policy requests t done s) :
    (rateProtocol policy requests).ewp t (acquireConcurrencyLease policy scope)
      (fun key s => ConcurrencyKeys key.toList ∧ InProgress policy requests t done s)
      (fun _ s => t ∉ s.leased) s := by
  rw [acquireConcurrencyLease]
  split
  · refine Protocol.ewp_pure fun s' hrely hinv => ⟨?_, InProgress.stable h hrely hinv⟩
    simp [ConcurrencyKeys]
  · refine Protocol.ewp_seq (incrementConcurrencyCounter_rate scope InProgress.stable h)
      (fun _ _ hfailed => hfailed.running) fun count s' _ hs' => ?_
    split
    · exact Protocol.ewp_seq (releaseKey_rate scope InProgress.stable hs')
        (fun _ _ hfailed => hfailed.running)
        fun _ s'' _ hs'' => Protocol.ewp_throw fun _ => running_stable hs''.running
    · refine Protocol.ewp_pure fun s'' hrely hinv => ⟨?_, InProgress.stable hs' hrely hinv⟩
      simp [ConcurrencyKeys]

theorem acquireScope_rate (scope : LimitScope) (h : InProgress policy requests t done s) :
    (rateProtocol policy requests).ewp t
      (acquireScope policy (requests t).estimatedPromptTokens scope)
      (fun key s => ConcurrencyKeys key.toList ∧
        InProgress policy requests t (fun c' scope' => scope' = scope ∨ done c' scope') s)
      (fun _ s => t ∉ s.leased) s := by
  refine Protocol.ewp_seq (checkRequestCounter_rate scope h) (fun _ _ hfailed => hfailed)
    fun _ _ _ hs => ?_
  refine Protocol.ewp_seq (checkTokenCounter_rate scope hs) (fun _ _ hfailed => hfailed)
    fun _ _ _ hs' => ?_
  refine Protocol.ewp_mono (fun key s'' _ hs'' => ⟨hs''.1, hs''.2.imp fun c' scope' hdone => ?_⟩)
    (fun _ _ _ hfailed => hfailed) (acquireConcurrencyLease_rate scope hs')
  rcases hdone with rfl | hdone
  · cases c'
    · exact .inr (.inl ⟨rfl, rfl⟩)
    · exact .inl ⟨rfl, rfl⟩
  · exact .inr (.inr hdone)

theorem rateReleaseSpecs (hstable : (rateProtocol policy requests).Stable t property) :
    ReleaseSpecs (rateProtocol policy requests) t True
      (fun keys s => ConcurrencyKeys keys ∧ property s) (fun _ _ => True) where
  holdsStable _ := fun h hrely hinv => ⟨h.1, hstable h.2 hrely hinv⟩
  reportsStable _ := Protocol.stable_true
  silent _ := trivial
  connect h := Protocol.ewp_mono (fun _ _ _ hs => ⟨h.1, hs⟩)
    (fun _ _ _ hs => ⟨trivial, ⟨h.1, hs⟩, trivial⟩) (getConnection_rate hstable h.2)
  release _ h _ := by
    obtain ⟨scope, rfl⟩ := h.1 _ List.mem_cons_self
    have hrest := fun key hkey => h.1 key (List.mem_cons_of_mem _ hkey)
    exact Protocol.ewp_mono (fun _ _ _ hs => ⟨⟨hrest, hs⟩, trivial⟩)
      (fun _ _ _ hs => ⟨⟨hrest, hs⟩, trivial⟩) (releaseKey_rate scope hstable h.2)

theorem acquireScopes_rate (scopes : List LimitScope) {acquired : List String}
    (hkeys : ConcurrencyKeys acquired) (h : InProgress policy requests t done s) :
    (rateProtocol policy requests).ewp t
      (acquireScopes policy (requests t).estimatedPromptTokens scopes acquired)
      (fun lease s => ConcurrencyKeys lease.keys ∧
        InProgress policy requests t (fun c' scope' => scope' ∈ scopes ∨ done c' scope') s)
      (fun _ s => t ∉ s.leased) s := by
  induction scopes generalizing s acquired done with
  | nil =>
      refine Protocol.ewp_pure fun s' hrely hinv => ⟨hkeys, ?_⟩
      exact InProgress.imp (InProgress.stable h hrely hinv)
        fun c' scope' hdone => by simpa using hdone
  | cons scope scopes ih =>
      rw [acquireScopes]
      refine Protocol.ewp_seq (Protocol.ewp_onError (Protocol.ewp_mono (fun _ _ _ hs => hs)
        (fun error s' _ hs' => ?_) (acquireScope_rate scope h)))
        (fun _ _ hfailed => hfailed) fun key s' _ hs' => ?_
      · apply Protocol.wp_bind
        exact Protocol.wp_mono (fun _ s'' _ hs'' => fun s₃ => running_stable hs''.1.2)
          ((rateReleaseSpecs running_stable).releaseKeysFrom none (some error) ⟨hkeys, hs'⟩ trivial)
      · have hkeys' : ConcurrencyKeys (acquired ++ key.toList) := by
          intro key' hkey'
          rcases List.mem_append.mp hkey' with hkey' | hkey'
          · exact hkeys key' hkey'
          · exact hs'.1 key' hkey'
        refine Protocol.ewp_mono (fun lease s'' _ hs'' =>
          ⟨hs''.1, hs''.2.imp fun c' scope' hdone => ?_⟩)
          (fun _ _ _ hfailed => hfailed) (ih hkeys' hs'.2)
        rw [List.mem_cons] at hdone
        tauto

-- Every counter of the scopes has been incremented by the call that gets a lease.
theorem checkAndAcquire_rate (h : InProgress policy requests t (fun _ _ => False) s) :
    (rateProtocol policy requests).ewp t (checkAndAcquire policy (requests t))
      (fun lease s => ConcurrencyKeys lease.keys ∧
        InProgress policy requests t (fun _ scope => scope ∈ (requests t).scopes) s)
      (fun _ s => t ∉ s.leased) s := by
  rw [checkAndAcquire]
  split
  · rename_i hnoop
    refine Protocol.ewp_pure fun s' hrely hinv =>
      ⟨by simp [ConcurrencyKeys, RuntimeLimitLease.noop], ?_⟩
    have hs' : InProgress policy requests t (fun _ _ => False) s' := InProgress.stable h hrely hinv
    refine ⟨hs'.running, hs'.within, fun c scope hscope hlimit => ?_⟩
    rcases hnoop with hdisabled | hscopes
    · simp only [RuntimeLimitPolicy.isDisabled, Bool.and_eq_true, decide_eq_true_eq] at hdisabled
      cases c
      · exact absurd hdisabled.1.1 hlimit
      · exact absurd hdisabled.1.2 hlimit
    · simp [hscopes] at hscope
  · refine Protocol.ewp_seq (getConnection_rate InProgress.stable h)
      (fun _ _ hfailed => hfailed.running) fun _ _ _ hs => ?_
    refine Protocol.ewp_mono (fun lease s' _ hs' =>
      ⟨hs'.1, hs'.2.imp fun _ _ hscope => .inl hscope⟩)
      (fun _ _ _ hfailed => hfailed) (acquireScopes_rate _ (by simp [ConcurrencyKeys]) hs)

theorem caller_rate (h : InProgress policy requests t (fun _ _ => False) s) :
    (rateProtocol policy requests).wp t (caller policy (requests t)) (fun _ _ => True) s := by
  have htrue : (rateProtocol policy requests).Stable t fun _ => True := Protocol.stable_true
  apply Protocol.wp_bind
  refine Protocol.wp_mono (fun result s' _ hs' => ?_) (checkAndAcquire_rate h)
  apply Protocol.wp_bind
  refine Protocol.wp_ask fun s₁ hrely hinv choice response s₂ _ hexec => ?_
  cases result with
  | error error =>
      cases hexec
      exact ⟨⟨hinv, fun u _ => OwnCalls.refl u s₁⟩, fun _ _ _ => fun _ _ _ => trivial⟩
  | ok lease =>
      cases hexec
      have hs₁ : InProgress policy requests t (fun _ scope => scope ∈ (requests t).scopes) s₁ :=
        InProgress.stable hs'.2 hrely hinv
      refine ⟨⟨RateInvariant.grant hinv hs₁.within fun c scope hscope => hs₁.charged c scope hscope,
        fun u hne => OwnCalls.grant hne s₁⟩, fun s₃ _ _ => ?_⟩
      apply Protocol.wp_bind
      exact Protocol.wp_mono (fun _ _ _ _ _ _ _ => trivial)
        ((rateReleaseSpecs htrue).releaseLease lease ⟨hs'.1, trivial⟩)

end Calls

-- The calls that a lifetime has counted and that returned a lease, then or later, each once.
def leasedCalls (s : RateState) (lifetime : Lifetime) : List Nat :=
  (lifetime.counted.map CountedCall.thread).dedup.filter fun t => t ∈ s.leased

-- What the calls with a lease have added to a counter is within the limit: each of them has seen
-- the sum of the lifetime up to its own increment.
theorem sum_charge_le {policy : RuntimeLimitPolicy} {requests : Nat → RuntimeLimitRequest}
    {s : RateState} (h : RateInvariant policy requests s) (c : RateCounter) (scope : LimitScope)
    {lifetime : Lifetime} (hlifetime : lifetime ∈ s.lifetimes (c.key scope)) :
    ((leasedCalls s lifetime).map fun t => (c.charge (requests t)).toNat).sum ≤
      (c.limit policy).toNat := by
  have hkey := h.keys c scope
  have hamounts := hkey.amounts lifetime hlifetime
  have hwithin : ∀ call ∈ lifetime.counted, decide (call.thread ∈ s.leased) = true →
      call.total ≤ (c.limit policy).toNat := by
    intro call hcall hleased
    refine h.within call.thread (of_decide_eq_true hleased) c scope call ?_
    exact List.mem_flatMap.mpr ⟨lifetime, hlifetime, by simpa using hcall⟩
  have hnonneg : ∀ call ∈ lifetime.counted, 0 ≤ call.amount := by
    intro call hcall
    have hamount := hamounts call hcall
    omega
  have hsum := sum_filter_le CountedCall.amount CountedCall.total
    (hkey.chained lifetime hlifetime) (Int.natCast_nonneg _) hnonneg hwithin
  have hcharged : ((lifetime.counted.filter fun call => call.thread ∈ s.leased).map
      CountedCall.amount) = (((lifetime.counted.filter fun call => call.thread ∈ s.leased).map
        CountedCall.thread).map fun t => (c.charge (requests t)).toNat).map Nat.cast := by
    rw [List.map_map, List.map_map]
    exact List.map_congr_left fun call hcall => hamounts call (List.mem_of_mem_filter hcall)
  have hsublist : (leasedCalls s lifetime).Sublist
      ((lifetime.counted.filter fun call => call.thread ∈ s.leased).map CountedCall.thread) := by
    have hdistinct := (List.dedup_sublist (lifetime.counted.map CountedCall.thread)).filter
      fun t => decide (t ∈ s.leased)
    rwa [List.filter_map] at hdistinct
  rw [hcharged, ← Nat.cast_list_sum, Int.ofNat_le] at hsum
  exact Nat.le_trans ((hsublist.map _).sum_le_sum fun _ _ => Nat.zero_le _) hsum

structure WindowsBounded (policy : RuntimeLimitPolicy) (requests : Nat → RuntimeLimitRequest)
    (s : RateState) : Prop where
  requestCalls : policy.requestsPerWindow ≠ 0 → ∀ scope,
    ∀ lifetime ∈ s.lifetimes (requestCounterKey scope),
      (leasedCalls s lifetime).length ≤ policy.requestsPerWindow.toNat
  tokens : policy.tokensPerWindow ≠ 0 → ∀ scope,
    ∀ lifetime ∈ s.lifetimes (tokenCounterKey scope),
      ((leasedCalls s lifetime).map fun t => (requests t).estimatedPromptTokens.toNat).sum ≤
        policy.tokensPerWindow.toNat
  counted : ∀ t ∈ s.leased, ∀ scope ∈ (requests t).scopes,
    (policy.requestsPerWindow ≠ 0 →
      ∃ lifetime ∈ s.lifetimes (requestCounterKey scope), t ∈ leasedCalls s lifetime) ∧
    (policy.tokensPerWindow ≠ 0 → (requests t).estimatedPromptTokens ≠ 0 →
      ∃ lifetime ∈ s.lifetimes (tokenCounterKey scope), t ∈ leasedCalls s lifetime)

theorem exists_lifetime_of_calls {s : RateState} {t : Nat} {key : String} (hleased : t ∈ s.leased)
    (h : calls t key s ≠ []) : ∃ lifetime ∈ s.lifetimes key, t ∈ leasedCalls s lifetime := by
  obtain ⟨call, hcall⟩ := List.exists_mem_of_ne_nil _ h
  obtain ⟨lifetime, hlifetime, hcounted⟩ := List.mem_flatMap.mp hcall
  simp only [List.mem_filter, decide_eq_true_eq] at hcounted
  obtain ⟨hcounted, rfl⟩ := hcounted
  refine ⟨lifetime, hlifetime, ?_⟩
  simp only [leasedCalls, List.mem_filter, List.mem_dedup, decide_eq_true_eq]
  exact ⟨List.mem_map_of_mem hcounted, hleased⟩

theorem RateInvariant.start (policy : RuntimeLimitPolicy) (requests : Nat → RuntimeLimitRequest) :
    RateInvariant policy requests .start := by
  refine ⟨fun c scope => ⟨?_, ?_, ?_⟩, ?_, ?_⟩ <;> simp [RateState.start, RedisServer.start]

theorem InProgress.fresh {policy : RuntimeLimitPolicy} {requests : Nat → RuntimeLimitRequest}
    {t : Nat} {s : RateState}
    (h : t ∉ s.leased ∧ ∀ c : RateCounter, ∀ scope, calls t (c.key scope) s = []) :
    InProgress policy requests t (fun _ _ => False) s := by
  refine ⟨h.1, fun c scope call hcall => ?_, fun _ _ hdone => hdone.elim⟩
  rw [h.2 c scope] at hcall
  cases hcall

theorem windows_bounded (policy : RuntimeLimitPolicy) (requests : Nat → RuntimeLimitRequest)
    (actions : List (Action LimitsChoice))
    (config : Config LimitsCommand LimitsCommand.Response
      (Except AppError RuntimeLimitLease) RateState)
    (hrun : RateState.system.run (fun t => caller policy (requests t)) actions
      (System.initial .start) = some config) :
    WindowsBounded policy requests config.state := by
  have hgood := Protocol.good_run (P := rateProtocol policy requests)
    (fun t => caller policy (requests t)) (fun _ _ _ => True)
    (fun t s _ hfresh => caller_rate (InProgress.fresh hfresh)) actions hrun
    (Protocol.meets_allowed _ (fun _ _ _ _ => trivial) (fun _ _ => trivial) actions _)
    (Protocol.good_initial _ (RateInvariant.start policy requests)
      fun t => ⟨by simp [RateState.start], fun _ _ => rfl⟩)
  have hinv : RateInvariant policy requests config.state := hgood.1
  refine ⟨fun _ scope lifetime hlifetime => ?_, fun _ scope lifetime hlifetime => ?_,
    fun t ht scope hscope => ⟨fun hlimit => ?_, fun hlimit htokens => ?_⟩⟩
  · have hsum := sum_charge_le hinv .requests scope hlifetime
    have hone : ∀ t, ((RateCounter.requests).charge (requests t)).toNat = 1 := fun _ => rfl
    simpa [hone, RateCounter.limit] using hsum
  · exact sum_charge_le hinv .tokens scope hlifetime
  · exact exists_lifetime_of_calls ht
      (hinv.charged t ht .requests scope hscope hlimit (by decide : (1 : UInt64) ≠ 0))
  · exact exists_lifetime_of_calls ht (hinv.charged t ht .tokens scope hscope hlimit htokens)

def onePerWindow : RuntimeLimitPolicy :=
  { requestsPerWindow := 1, tokensPerWindow := 0, concurrentRequests := 0, windowSeconds := 60
    leaseSeconds := 30 }

def slowAndQuick : Nat → RuntimeLimitRequest
  | 0 => { scopes := [.user ⟨7⟩, .provider ⟨9⟩], estimatedPromptTokens := 0 }
  | _ => { scopes := [.user ⟨7⟩], estimatedPromptTokens := 0 }

-- Thread 0 is between its two scopes when the window of the first one ends; thread 1 then counts
-- in the next window, and both return while that one lasts.
def acrossWindows : List (Action LimitsChoice) :=
  [.spawn 0, .call 0 {}, .call 0 {}, .env { elapsedMs := 61000 }, .spawn 1, .call 1 {}, .call 1 {},
    .call 1 {}, .call 0 {}, .call 0 {}]

theorem windows_bounded_across_windows : ∃ config,
    RateState.system.run (fun t => caller onePerWindow (slowAndQuick t)) acrossWindows
      (System.initial .start) = some config ∧
    WindowsBounded onePerWindow slowAndQuick config.state ∧ config.state.leased = [1, 0] := by
  have hrun : ((RateState.system.run (fun t => caller onePerWindow (slowAndQuick t)) acrossWindows
      (System.initial .start)).map fun config => config.state.leased) = some [1, 0] := by
    decide +kernel
  obtain ⟨config, hconfig, hleased⟩ := Option.map_eq_some_iff.mp hrun
  exact ⟨config, hconfig, windows_bounded _ _ _ _ hconfig, hleased⟩

theorem two_leases_returned_in_one_window : ∃ config,
    RateState.system.run (fun t => caller onePerWindow (slowAndQuick t)) acrossWindows
      (System.initial .start) = some config ∧
    ¬∀ scope, ∀ lifetime ∈ config.state.lifetimes (requestCounterKey scope),
      (lifetime.returned.filter fun t => scope ∈ (slowAndQuick t).scopes).length ≤
        onePerWindow.requestsPerWindow.toNat := by
  have hrun : ((RateState.system.run (fun t => caller onePerWindow (slowAndQuick t)) acrossWindows
      (System.initial .start)).map fun config =>
        ((config.state.lifetimes (requestCounterKey (.user ⟨7⟩))).map Lifetime.returned)) =
      some [[1, 0], []] := by
    decide +kernel
  obtain ⟨config, hconfig, hreturned⟩ := Option.map_eq_some_iff.mp hrun
  refine ⟨config, hconfig, fun hbounded => ?_⟩
  have hmem : [1, 0] ∈ (config.state.lifetimes (requestCounterKey (.user ⟨7⟩))).map
      Lifetime.returned := by
    rw [hreturned]
    exact List.mem_cons_self
  obtain ⟨lifetime, hlifetime, hlatest⟩ := List.mem_map.mp hmem
  have hlength := hbounded (.user ⟨7⟩) lifetime hlifetime
  rw [hlatest] at hlength
  revert hlength
  decide

end Mizan.Limits
