import Mizan.Daemon.Signature

namespace Mizan.Daemon

open Interleaving

-- What the cache remembers of the requests that were accepted.
structure NonceInvariant (remembered : NonceCache) (s : DaemonState) : Prop where
  nonces : ∀ nonce ∈ s.nonces, nonce ∈ remembered ∨
    ∃ admission ∈ s.admissions, nonce = (admission.nonceKey, admission.expiry)

-- Each nonce is there until the cache is pruned with a clock beyond its expiry.
structure ReplayInvariant (s : DaemonState) : Prop where
  kept : ∀ admission ∈ s.admissions, (admission.nonceKey, admission.expiry) ∈ s.nonces ∨
    ∃ now ∈ s.prunedAt, admission.expiry < now
  once : (s.admissions.map fun admission => (admission.nonceKey, admission.expiry)).Nodup

def NotPrunedBeyond (expiry : Int64) (s : DaemonState) : Prop :=
  ∀ now ∈ s.prunedAt, now ≤ expiry

section Admit

variable {s : DaemonState} {t : Nat} {nonceKey : String} {expiry now : Int64}

theorem mem_pruneStaleNonces {nonces : NonceCache} {nonce : String × Int64} :
    nonce ∈ pruneStaleNonces nonces now ↔ nonce ∈ nonces ∧ now ≤ nonce.2 := by
  simp [pruneStaleNonces]

theorem admitNonce_cases (nonces : NonceCache) (nonceKey : String) (expiry now : Int64) :
    ∃ kept, kept = (if needsPruning nonces then pruneStaleNonces nonces now else nonces) ∧
      (((∃ nonce ∈ kept, nonce.1 = nonceKey) ∧
          admitNonce nonces nonceKey expiry now = (false, kept)) ∨
        ((∀ nonce ∈ kept, nonce.1 ≠ nonceKey) ∧
          admitNonce nonces nonceKey expiry now = (true, kept ++ [(nonceKey, expiry)]))) := by
  refine ⟨_, rfl, ?_⟩
  rw [admitNonce]
  generalize (if needsPruning nonces then pruneStaleNonces nonces now else nonces) = kept
  by_cases hany : kept.any fun nonce => nonce.1 = nonceKey
  · exact .inl ⟨by simpa using hany, if_pos hany⟩
  · refine .inr ⟨fun nonce hnonce hkey => hany ?_, if_neg hany⟩
    exact List.any_eq_true.mpr ⟨nonce, hnonce, decide_eq_true hkey⟩

theorem mem_of_mem_kept {nonces kept : NonceCache} {nonce : String × Int64}
    (hkept : kept = if needsPruning nonces then pruneStaleNonces nonces now else nonces)
    (hnonce : nonce ∈ kept) : nonce ∈ nonces := by
  rw [hkept] at hnonce
  split at hnonce
  · exact (mem_pruneStaleNonces.mp hnonce).1
  · exact hnonce

theorem NonceInvariant.remember {remembered : NonceCache} (h : NonceInvariant remembered s) :
    NonceInvariant remembered (s.remember t nonceKey expiry now) := by
  obtain ⟨kept, hkept, ⟨_, hadmitted⟩ | ⟨_, hadmitted⟩⟩ :=
    admitNonce_cases s.nonces nonceKey expiry now
  · refine ⟨fun nonce hnonce => ?_⟩
    simp only [DaemonState.remember, hadmitted, Bool.false_eq_true, if_false] at hnonce ⊢
    exact h.nonces nonce (mem_of_mem_kept hkept hnonce)
  · refine ⟨fun nonce hnonce => ?_⟩
    simp only [DaemonState.remember, hadmitted, if_true, List.mem_append,
      List.mem_singleton] at hnonce ⊢
    obtain hnonce | rfl := hnonce
    · obtain hstart | ⟨admission, hmem, rfl⟩ := h.nonces nonce (mem_of_mem_kept hkept hnonce)
      · exact .inl hstart
      · exact .inr ⟨admission, .inl hmem, rfl⟩
    · exact .inr ⟨_, .inr rfl, rfl⟩

-- A nonce that pruning drops expires before the clock that it was dropped with.
theorem ReplayInvariant.kept_or_pruned (h : ReplayInvariant s) {kept : NonceCache}
    (hkept : kept = if needsPruning s.nonces then pruneStaleNonces s.nonces now else s.nonces)
    {admission : Admission} (hmem : admission ∈ s.admissions) :
    (admission.nonceKey, admission.expiry) ∈ kept ∨
      ∃ clock ∈ (if needsPruning s.nonces then s.prunedAt ++ [now] else s.prunedAt),
        admission.expiry < clock := by
  obtain hnonce | ⟨clock, hclock, hlt⟩ := h.kept admission hmem
  · rw [hkept]
    split
    · by_cases hstale : now ≤ admission.expiry
      · exact .inl (mem_pruneStaleNonces.mpr ⟨hnonce, hstale⟩)
      · exact .inr ⟨now, by simp, Int64.not_le.mp hstale⟩
    · exact .inl hnonce
  · refine .inr ⟨clock, ?_, hlt⟩
    split
    · exact List.mem_append_left _ hclock
    · exact hclock

theorem ReplayInvariant.remember (h : ReplayInvariant s) (hfresh : now ≤ expiry)
    (hunpruned : NotPrunedBeyond expiry s) :
    ReplayInvariant (s.remember t nonceKey expiry now) := by
  obtain ⟨kept, hkept, ⟨_, hadmitted⟩ | ⟨hnew, hadmitted⟩⟩ :=
    admitNonce_cases s.nonces nonceKey expiry now
  · refine ⟨fun admission hmem => ?_, ?_⟩
    · simp only [DaemonState.remember, hadmitted, Bool.false_eq_true, if_false] at hmem ⊢
      exact h.kept_or_pruned hkept hmem
    · simp only [DaemonState.remember, hadmitted, Bool.false_eq_true, if_false]
      exact h.once
  · have hnever : (nonceKey, expiry) ∉
        s.admissions.map fun admission => (admission.nonceKey, admission.expiry) := by
      intro hmem
      obtain ⟨admission, hadmission, heq⟩ := List.mem_map.mp hmem
      obtain ⟨hkey, hexpiry⟩ := Prod.mk.inj heq
      obtain hnonce | ⟨clock, hclock, hlt⟩ := h.kept_or_pruned hkept hadmission
      · exact hnew _ hnonce hkey
      · rw [hexpiry] at hlt
        split at hclock
        · obtain hclock | hclock := List.mem_append.mp hclock
          · exact Int64.not_le.mpr hlt (hunpruned clock hclock)
          · obtain rfl := List.mem_singleton.mp hclock
            exact Int64.not_le.mpr hlt hfresh
        · exact Int64.not_le.mpr hlt (hunpruned clock hclock)
    refine ⟨fun admission hmem => ?_, ?_⟩
    · simp only [DaemonState.remember, hadmitted, if_true, List.mem_append,
        List.mem_singleton] at hmem ⊢
      obtain hmem | rfl := hmem
      · obtain hnonce | hpruned := h.kept_or_pruned hkept hmem
        · exact .inl (.inl hnonce)
        · exact .inr hpruned
      · exact .inl (.inr rfl)
    · simp only [DaemonState.remember, hadmitted, if_true, List.map_append, List.map_singleton]
      exact List.nodup_append'.mpr ⟨h.once, List.nodup_singleton _,
        List.disjoint_singleton.mpr hnever⟩

end Admit

-- What other requests leave alone for thread `t`: the nonces that it has added.
def SameAdmissions (t : Nat) (s s' : DaemonState) : Prop :=
  ∀ admission, admission.thread = t → (admission ∈ s'.admissions ↔ admission ∈ s.admissions)

theorem SameAdmissions.remember {s : DaemonState} {t u : Nat} (hne : u ≠ t) (nonceKey : String)
    (expiry now : Int64) : SameAdmissions u s (s.remember t nonceKey expiry now) := by
  intro admission hthread
  simp only [DaemonState.remember]
  split
  · constructor
    · intro hmem
      obtain hmem | hmem := List.mem_append.mp hmem
      · exact hmem
      · obtain rfl := List.mem_singleton.mp hmem
        exact absurd hthread.symm hne
    · exact List.mem_append_left _
  · rfl

-- With `guarded`, requests take the lock only while the cache has not been pruned with a clock
-- beyond the expiry of their nonce.
def nonceProtocol (guarded : Prop) (remembered : NonceCache) : Protocol DaemonState.system where
  inv s := NonceInvariant remembered s ∧ (guarded → ReplayInvariant s)
  rely := SameAdmissions
  fresh t s := ∀ admission ∈ s.admissions, admission.thread ≠ t
  admits _ c _ s := guarded → ∀ nonceKey expiry now, c = .admitNonce nonceKey expiry now →
    NotPrunedBeyond expiry s
  admitsEnv _ _ := True
  rely_refl _ _ _ _ := Iff.rfl
  rely_trans h h' admission hthread := (h' admission hthread).trans (h admission hthread)
  fresh_rely hfresh hrely admission hmem hthread :=
    hfresh admission ((hrely admission hthread).mp hmem) hthread
  env_keeps := by
    intro choice s s' hinv _ henv
    cases henv
    exact ⟨⟨⟨hinv.1.nonces⟩, fun hguarded => ⟨(hinv.2 hguarded).kept, (hinv.2 hguarded).once⟩⟩,
      fun t admission _ => Iff.rfl⟩

section Validate

variable {guarded : Prop} {remembered : NonceCache} {sha256 : List UInt8 → List UInt8} {t : Nat}
  {s : DaemonState}

def NoneAdmitted (t : Nat) (s : DaemonState) : Prop :=
  ∀ admission ∈ s.admissions, admission.thread ≠ t

def AdmittedOnce (t : Nat) (request : DaemonRequest) (identity : DaemonNodeIdentity)
    (s : DaemonState) : Prop :=
  ∃ signature expiry, requestSignature request = .ok signature ∧
    expiry.toInt = signature.timestamp.toInt + 300 ∧
    { thread := t, nonceKey := nonceKey identity signature.nonce, expiry } ∈ s.admissions

theorem NoneAdmitted.stable :
    (nonceProtocol guarded remembered).Stable t (NoneAdmitted t) := by
  intro s s' h hrely _ admission hmem hthread
  have hrely : SameAdmissions t s s' := hrely
  exact h admission ((hrely admission hthread).mp hmem) hthread

theorem AdmittedOnce.stable {request : DaemonRequest} {identity : DaemonNodeIdentity} :
    (nonceProtocol guarded remembered).Stable t (AdmittedOnce t request identity) := by
  rintro s s' ⟨signature, expiry, hsignature, hexpiry, hmem⟩ hrely _
  have hrely : SameAdmissions t s s' := hrely
  exact ⟨signature, expiry, hsignature, hexpiry, (hrely _ rfl).mpr hmem⟩

theorem requestSignature_keeps (request : DaemonRequest) (h : NoneAdmitted t s) :
    (nonceProtocol guarded remembered).ewp t (ExceptT.mk (pure (requestSignature request)))
      (fun signature s => requestSignature request = .ok signature ∧ NoneAdmitted t s)
      (fun _ => NoneAdmitted t) s := by
  refine Protocol.ewp_mk fun s' hrely hinv => ?_
  have hs' := NoneAdmitted.stable h hrely hinv
  cases requestSignature request with
  | ok signature => exact ⟨rfl, hs'⟩
  | error error => exact hs'

theorem nowUtcEpochSeconds_keeps (h : NoneAdmitted t s) :
    (nonceProtocol guarded remembered).ewp t
      (Prog.perform .nowUtcEpochSeconds Except.ok : DaemonProg Int64) (fun _ => NoneAdmitted t)
      (fun _ => NoneAdmitted t) s := by
  refine Protocol.ewp_atomic NoneAdmitted.stable (fun _ => NoneAdmitted.stable)
    (fun _ => NoneAdmitted.stable) (fun s choice response s' hinv hs _ hexec => ?_) h
  cases hexec
  exact ⟨⟨hinv, fun _ _ => Protocol.rely_refl _ _ _⟩, hs⟩

theorem admitNonce_keeps {request : DaemonRequest} {identity : DaemonNodeIdentity}
    {signature : RequestSignature} {expiry now : Int64}
    (hsignature : requestSignature request = .ok signature)
    (hexpiry : nonceExpiry signature.timestamp now = some expiry) (h : NoneAdmitted t s) :
    (nonceProtocol guarded remembered).ewp t
      (Prog.perform (.admitNonce (nonceKey identity signature.nonce) expiry now)
        fun (admitted : Bool) => if admitted then .ok () else .error unauthorized : DaemonProg Unit)
      (fun _ => AdmittedOnce t request identity) (fun _ => NoneAdmitted t) s := by
  obtain ⟨hvalue, hfresh⟩ := toInt_nonceExpiry hexpiry
  refine Protocol.ewp_atomic NoneAdmitted.stable (fun _ => AdmittedOnce.stable)
    (fun _ => NoneAdmitted.stable) (fun s choice response s' hinv hs hadmits hexec => ?_) h
  cases hexec
  refine ⟨⟨⟨hinv.1.remember, fun hguarded => (hinv.2 hguarded).remember
    (Int64.le_iff_toInt_le.mpr hfresh) (hadmits hguarded _ _ _ rfl)⟩,
    fun u hne => SameAdmissions.remember hne _ _ _⟩, ?_⟩
  obtain ⟨kept, _, ⟨_, hadmitted⟩ | ⟨_, hadmitted⟩⟩ :=
    admitNonce_cases s.nonces (nonceKey identity signature.nonce) expiry now
  · simp only [hadmitted, Bool.false_eq_true, if_false, Protocol.outcome]
    intro admission hmem
    simp only [DaemonState.remember, hadmitted, Bool.false_eq_true, if_false] at hmem
    exact hs admission hmem
  · simp only [hadmitted, if_true, Protocol.outcome]
    refine ⟨signature, expiry, hsignature, hvalue, ?_⟩
    simp [DaemonState.remember, hadmitted]

theorem validateDaemonRequestSignature_keeps (request : DaemonRequest)
    (identity : DaemonNodeIdentity) (h : NoneAdmitted t s) :
    (nonceProtocol guarded remembered).ewp t
      (validateDaemonRequestSignature sha256 request identity)
      (fun _ => AdmittedOnce t request identity) (fun _ => NoneAdmitted t) s := by
  refine Protocol.ewp_seq (requestSignature_keeps request h) (fun _ _ hfailed => hfailed)
    fun signature s₁ _ hs₁ => ?_
  refine Protocol.ewp_seq (nowUtcEpochSeconds_keeps hs₁.2) (fun _ _ hfailed => hfailed)
    fun now s₂ _ hs₂ => ?_
  split
  · exact Protocol.ewp_throw fun _ => NoneAdmitted.stable hs₂
  · rename_i expiry hexpiry
    split
    · exact admitNonce_keeps hs₁.1 hexpiry hs₂
    · exact Protocol.ewp_throw fun _ => NoneAdmitted.stable hs₂

end Validate

abbrev DaemonConfig :=
  Config DaemonCommand DaemonCommand.Response (Except DaemonNodeHttpError Unit) DaemonState

-- The expiry of the nonce of a request that is about to take the lock of the cache.
def lockingExpiry :
    Prog DaemonCommand DaemonCommand.Response (Except DaemonNodeHttpError Unit) → Option Int64
  | .call (.admitNonce _ expiry _) _ => some expiry
  | _ => none

-- A request takes the lock only while no request has pruned the cache with a clock beyond the
-- expiry of the first request's nonce.
def LocksBeforePruning : Action DaemonChoice → DaemonConfig → Prop
  | .call t _, config => ∀ expiry, (config.threads t).bind lockingExpiry = some expiry →
      NotPrunedBeyond expiry config.state
  | _, _ => True

def locksBeforePruning : Action DaemonChoice → DaemonConfig → Bool
  | .call t _, config =>
      match (config.threads t).bind lockingExpiry with
      | none => true
      | some expiry => config.state.prunedAt.all fun now => now ≤ expiry
  | _, _ => true

theorem locksBeforePruning_sound {action : Action DaemonChoice} {config : DaemonConfig}
    (h : locksBeforePruning action config = true) : LocksBeforePruning action config := by
  cases action with
  | spawn t => trivial
  | env choice => trivial
  | call t choice =>
      intro expiry hpending now hnow
      simp only [locksBeforePruning, hpending, List.all_eq_true, decide_eq_true_eq] at h
      exact h now hnow

section Runs

variable {sha256 : List UInt8 → List UInt8} {requests : Nat → DaemonRequest}
  {identities : Nat → DaemonNodeIdentity} {nodes : List DaemonNodeRow} {remembered : NonceCache}
  {nowSeconds : Nat} {actions : List (Action DaemonChoice)} {config : DaemonConfig}

def validations (sha256 : List UInt8 → List UInt8) (requests : Nat → DaemonRequest)
    (identities : Nat → DaemonNodeIdentity) (t : Nat) :
    Prog DaemonCommand DaemonCommand.Response (Except DaemonNodeHttpError Unit) :=
  (validateDaemonRequestSignature sha256 (requests t) (identities t)).run

theorem validations_good (guarded : Prop)
    (hrun : DaemonState.system.run (validations sha256 requests identities) actions
      (System.initial (.start nodes remembered nowSeconds)) = some config)
    (hmeets : guarded → DaemonState.system.Meets (validations sha256 requests identities)
      LocksBeforePruning actions (System.initial (.start nodes remembered nowSeconds))) :
    (nonceProtocol guarded remembered).Good
      (fun t => Protocol.outcome (fun _ => AdmittedOnce t (requests t) (identities t))
        fun _ => NoneAdmitted t) config := by
  refine Protocol.good_run (validations sha256 requests identities) _
    (fun t s _ hfresh => validateDaemonRequestSignature_keeps (requests t) (identities t) hfresh)
    actions hrun ?_ (Protocol.good_initial _ ⟨⟨fun nonce hnonce => .inl hnonce⟩,
      fun _ => ⟨by simp [DaemonState.start], List.nodup_nil⟩⟩ fun t admission hmem => by cases hmem)
  by_cases hguarded : guarded
  · refine System.Meets.imp _ _ (fun action config hlocks => ?_) actions _ (hmeets hguarded)
    cases action with
    | spawn t => trivial
    | env choice => trivial
    | call t choice =>
        intro c next hthread _ nonceKey expiry now hcommand
        subst hcommand
        exact hlocks expiry (by rw [hthread]; rfl)
  · refine System.Meets.imp _ _ (fun action config _ => ?_) actions _
      (System.meets_true _ _ actions _)
    cases action with
    | spawn t => trivial
    | env choice => trivial
    | call t choice => exact fun c next _ hguarded' => absurd hguarded' hguarded

end Runs

-- The same signed request, as the nonce cache tells requests apart.
def SameSigned (requests : Nat → DaemonRequest) (identities : Nat → DaemonNodeIdentity)
    (t u : Nat) : Prop :=
  (identities t).nodeId = (identities u).nodeId ∧
    (requestSignature (requests t)).map (fun signature => (signature.timestamp, signature.nonce)) =
      (requestSignature (requests u)).map fun signature => (signature.timestamp, signature.nonce)

theorem replay_rejected_of_locks_before_pruning (sha256 : List UInt8 → List UInt8)
    (requests : Nat → DaemonRequest) (identities : Nat → DaemonNodeIdentity)
    (nodes : List DaemonNodeRow) (remembered : NonceCache) (nowSeconds : Nat)
    (actions : List (Action DaemonChoice)) (config : DaemonConfig)
    (hrun : DaemonState.system.run (validations sha256 requests identities) actions
      (System.initial (.start nodes remembered nowSeconds)) = some config) :
    ((∀ nonce ∈ config.state.nonces, nonce ∈ remembered ∨
        ∃ admission ∈ config.state.admissions,
          nonce = (admission.nonceKey, admission.expiry)) ∧
      ∀ t error, config.threads t = some (.ret (.error error)) →
        ∀ admission ∈ config.state.admissions, admission.thread ≠ t) ∧
    (DaemonState.system.Meets (validations sha256 requests identities) LocksBeforePruning actions
        (System.initial (.start nodes remembered nowSeconds)) →
      ∀ t u, SameSigned requests identities t u → config.threads t = some (.ret (.ok ())) →
        config.threads u = some (.ret (.ok ())) → t = u) := by
  constructor
  · have hgood := validations_good False hrun fun h => h.elim
    exact ⟨hgood.1.1.nonces, fun t error hthread => hgood.returned hthread⟩
  · intro hmeets t u hsame ht hu
    have hgood := validations_good True hrun fun _ => hmeets
    obtain ⟨signature, expiry, hsignature, hexpiry, hmem⟩ := hgood.returned ht
    obtain ⟨signature', expiry', hsignature', hexpiry', hmem'⟩ := hgood.returned hu
    obtain ⟨hnode, hfields⟩ := hsame
    rw [hsignature, hsignature'] at hfields
    obtain ⟨htimestamp, hnonce⟩ := Prod.mk.inj (Except.ok.inj hfields)
    have hkey : nonceKey (identities t) signature.nonce =
      nonceKey (identities u) signature'.nonce := by
      rw [nonceKey, nonceKey, hnode, hnonce]
    have hvalue : expiry = expiry' := by
      rw [htimestamp] at hexpiry
      exact Int64.toInt_inj.mp (hexpiry.trans hexpiry'.symm)
    have hadmission := List.inj_on_of_nodup_map (hgood.1.2 trivial).once hmem hmem'
      (Prod.ext hkey hvalue)
    exact congrArg Admission.thread hadmission

-- Thread 2 sends a request of its own 400 seconds later, every other thread the same one.
def replayedRequests (t : Nat) : DaemonRequest :=
  if t = 2 then
    { registration with timestamp := 1700000400, nonce := "decade" : SignedRequest }.send
      sampleSha256
  else registration.send sampleSha256

-- The nonces of 255 requests of another node, five seconds younger than the replayed one.
def busyCache : NonceCache :=
  (List.range 255).map fun place => ("00000000-0000-0000-0000-000000000008::" ++ toString place,
    1700000305)

-- A request starts and reads the clock; then it takes the lock.
def startSteps (t : Nat) : List (Action DaemonChoice) := [.spawn t, .call t {}]

def pass (elapsedSeconds : Nat) : Action DaemonChoice := .env { elapsedSeconds }

def replaySteps : List (Action DaemonChoice) :=
  startSteps 0 ++ [.call 0 {}, pass 290] ++ startSteps 1 ++ [.call 1 {}]

def pruningSteps : List (Action DaemonChoice) :=
  startSteps 0 ++ [.call 0 {}, pass 290] ++ startSteps 1 ++ [pass 100] ++ startSteps 2 ++
    [.call 2 {}, .call 1 {}]

-- The samples are signed by the token of the node, so that only their age and their nonce are left
-- to decide.
theorem validations_replayed :
    (validations sampleSha256 replayedRequests fun _ => registeredIdentity) = fun t =>
      ((if t = 2 then { registration with timestamp := 1700000400, nonce := "decade" }
        else registration : SignedRequest).accept registeredIdentity).run := by
  have htoken : registeredIdentity.tokenHash = hashToken sampleSha256 registration.token := rfl
  have hlater : SignedRequest.Presentable
      { registration with timestamp := 1700000400, nonce := "decade" } :=
    ⟨by decide, free_of_all (by decide), by decide, free_of_all (by decide)⟩
  funext t
  rw [validations, replayedRequests]
  by_cases hthread : t = 2
  · rw [if_pos hthread, if_pos hthread,
      SignedRequest.validateDaemonRequestSignature_send sampleSha256_ne_nil hlater htoken]
  · rw [if_neg hthread, if_neg hthread, SignedRequest.validateDaemonRequestSignature_send
      sampleSha256_ne_nil registration_presentable htoken]

theorem replayedRequests_one : replayedRequests 1 = replayedRequests 0 := rfl

theorem sameSigned_zero_one :
    SameSigned replayedRequests (fun _ => registeredIdentity) 0 1 := by
  rw [SameSigned, replayedRequests_one]
  exact ⟨rfl, rfl⟩

theorem replay_rejected_in_busy_cache : ∃ config,
    DaemonState.system.run (validations sampleSha256 replayedRequests fun _ => registeredIdentity)
      replaySteps (System.initial (.start [registeredNode] busyCache 1700000010)) = some config ∧
    config.threads 0 = some (.ret (.ok ())) ∧ config.threads 1 ≠ some (.ret (.ok ())) := by
  have hreturned : DaemonState.system.returned
      (validations sampleSha256 replayedRequests fun _ => registeredIdentity) replaySteps
      (System.initial (.start [registeredNode] busyCache 1700000010)) 0 = some (.ok ()) := by
    rw [validations_replayed]
    decide +kernel
  obtain ⟨config, hrun, hthread⟩ := System.exists_run_of_returned _ _ hreturned
  refine ⟨config, hrun, hthread, fun hreplayed => ?_⟩
  have hchecks : DaemonState.system.checks
      (validations sampleSha256 replayedRequests fun _ => registeredIdentity) locksBeforePruning
      replaySteps (System.initial (.start [registeredNode] busyCache 1700000010)) = true := by
    rw [validations_replayed]
    decide +kernel
  have hmeets := System.Meets.imp _ _ (fun _ _ => locksBeforePruning_sound) _ _
    (System.meets_of_checks _ _ hchecks)
  have hsame := (replay_rejected_of_locks_before_pruning sampleSha256 replayedRequests
    (fun _ => registeredIdentity) _ _ _ _ config hrun).2 hmeets 0 1 sameSigned_zero_one hthread
    hreplayed
  cases hsame

-- The replay reads the clock while its timestamp is fresh and waits for the lock; meanwhile a
-- later request prunes the cache with its own clock.
theorem replay_accepted_after_pruning : ∃ config,
    DaemonState.system.run (validations sampleSha256 replayedRequests fun _ => registeredIdentity)
      pruningSteps (System.initial (.start [registeredNode] busyCache 1700000010)) = some config ∧
    SameSigned replayedRequests (fun _ => registeredIdentity) 0 1 ∧
    config.threads 0 = some (.ret (.ok ())) ∧ config.threads 1 = some (.ret (.ok ())) := by
  have hfirst : DaemonState.system.returned
      (validations sampleSha256 replayedRequests fun _ => registeredIdentity) pruningSteps
      (System.initial (.start [registeredNode] busyCache 1700000010)) 0 = some (.ok ()) := by
    rw [validations_replayed]
    decide +kernel
  have hsecond : DaemonState.system.returned
      (validations sampleSha256 replayedRequests fun _ => registeredIdentity) pruningSteps
      (System.initial (.start [registeredNode] busyCache 1700000010)) 1 = some (.ok ()) := by
    rw [validations_replayed]
    decide +kernel
  obtain ⟨config, hrun, hthread⟩ := System.exists_run_of_returned _ _ hfirst
  obtain ⟨config', hrun', hthread'⟩ := System.exists_run_of_returned _ _ hsecond
  obtain rfl := Option.some.inj (hrun.symm.trans hrun')
  exact ⟨config, hrun, sameSigned_zero_one, hthread, hthread'⟩

end Mizan.Daemon
