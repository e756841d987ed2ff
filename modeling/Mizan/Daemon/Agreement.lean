import Mizan.Daemon.Client
import Mizan.Interleaving.Granted

namespace Mizan.Daemon

open Interleaving

-- What the control plane must be like for a call of the node with this token: the node is there
-- and not revoked, the clock is near the clock of the client, and the nonce is new.
structure Welcomes (sha256 : List UInt8 → List UInt8) (token : String) (nodeId : Uuid)
    (nowSeconds : Nat) (nonce : Uuid) (s : DaemonState) : Prop where
  node : ∃ row ∈ s.nodes, row.tokenHash = hashValue sha256 token ∧ row.revoked = false ∧
    row.status ≠ STATUS_REVOKED
  holder : ∀ row ∈ s.nodes, row.tokenHash = hashValue sha256 token → row.id = nodeId
  clock : nowSeconds ≤ s.nowSeconds + 300 ∧ s.nowSeconds ≤ nowSeconds + 300
  fresh : ∀ remembered ∈ s.nonces,
    remembered.1 ≠ nodeId.toString ++ "::" ++ nonce.toString

-- No query of the call fails, and the control plane is so at each of its steps.
def Unhindered (sha256 : List UInt8 → List UInt8) (token : String) (nodeId : Uuid)
    (nowSeconds : Nat) (nonce : Uuid) (t : Nat) :
    Action DaemonChoice → Config DaemonCommand DaemonCommand.Response
      (Except DaemonNodeHttpError AuthorizedRequest) DaemonState → Prop
  | .call u choice, config =>
      u = t → choice.fault = none ∧ Welcomes sha256 token nodeId nowSeconds nonce config.state
  | _, _ => True

-- The same as a condition on the steps of the threads.
def admitsCall (sha256 : List UInt8 → List UInt8) (token : String) (nodeId : Uuid)
    (nowSeconds : Nat) (nonce : Uuid) (t u : Nat) (_ : DaemonCommand) (choice : DaemonChoice)
    (s : DaemonState) : Prop :=
  u = t → choice.fault = none ∧ Welcomes sha256 token nodeId nowSeconds nonce s

section Steps

variable {sha256 : List UInt8 → List UInt8} {token : String} {nodeId nonce : Uuid}
  {nowSeconds t : Nat} {s : DaemonState}

theorem exists_checkedI64 {value : Int} (hlow : -2 ^ 63 ≤ value) (hhigh : value < 2 ^ 63) :
    ∃ result, checkedI64 value = some result :=
  ⟨_, if_pos ⟨hlow, hhigh⟩⟩

theorem Welcomes.findNode (h : Welcomes sha256 token nodeId nowSeconds nonce s) :
    ∃ row, s.findNode (hashValue sha256 token) = some row ∧ row.id = nodeId := by
  obtain ⟨row, hrow, hhash, hrevoked, hstatus⟩ := h.node
  have hsome : (s.findNode (hashValue sha256 token)).isSome := by
    rw [DaemonState.findNode, List.find?_isSome]
    exact ⟨row, hrow, by simp [hhash, hrevoked, hstatus]⟩
  obtain ⟨found, hfound⟩ := Option.isSome_iff_exists.mp hsome
  have hmem := List.mem_of_find?_eq_some hfound
  exact ⟨found, hfound, h.holder found hmem (findNode_tokenHash hfound)⟩

-- Both clocks fit, and neither the distance between them nor the expiry overflows.
theorem Welcomes.nonceExpiry (h : Welcomes sha256 token nodeId nowSeconds nonce s)
    (hclock : nowSeconds + 300 < 2 ^ 63) :
    ∃ expiry, nonceExpiry (asI64 nowSeconds) (asI64 s.nowSeconds) = some expiry := by
  obtain ⟨hlow, hhigh⟩ := h.clock
  have hclient := @toInt_asI64_of_bounds nowSeconds (by omega) (by omega)
  have hserver := @toInt_asI64_of_bounds s.nowSeconds (by omega) (by omega)
  have httl : DAEMON_SIGNATURE_TTL_SECONDS.toInt = 300 := rfl
  obtain ⟨delta, hdelta⟩ := @exists_checkedI64 ((s.nowSeconds : Int) - nowSeconds)
    (by omega) (by omega)
  obtain ⟨ageSeconds, hage⟩ := @exists_checkedI64 (delta.toInt.natAbs : Int)
    (by have := toInt_of_checkedI64 hdelta; omega) (by have := toInt_of_checkedI64 hdelta; omega)
  obtain ⟨expiry, hexpiry⟩ := @exists_checkedI64 ((nowSeconds : Int) + 300)
    (by omega) (by omega)
  have hyoung : ¬ageSeconds > DAEMON_SIGNATURE_TTL_SECONDS := by
    have hdistance := toInt_of_checkedI64 hdelta
    have hbound := toInt_of_checkedI64 hage
    intro hold
    have hlt := Int64.lt_iff_toInt_lt.mp hold
    omega
  refine ⟨expiry, ?_⟩
  rw [Daemon.nonceExpiry, checkedSub, hclient, hserver, hdelta, Option.bind_some, checkedAbs, hage,
    Option.bind_eq_bind, Option.bind_some, if_neg hyoung, checkedAdd, hclient, httl, hexpiry]

theorem Welcomes.admitNonce (h : Welcomes sha256 token nodeId nowSeconds nonce s)
    (expiry now : Int64) :
    (admitNonce s.nonces (nodeId.toString ++ "::" ++ nonce.toString) expiry now).1 = true := by
  have hnew : ∀ nonces : NonceCache, (∀ remembered ∈ nonces, remembered ∈ s.nonces) →
      (nonces.any fun remembered =>
        remembered.1 = nodeId.toString ++ "::" ++ nonce.toString) = false := by
    intro nonces hsub
    rw [List.any_eq_false]
    intro remembered hmem
    simpa using h.fresh remembered (hsub remembered hmem)
  have hkept : ∀ remembered ∈ pruneStaleNonces s.nonces now, remembered ∈ s.nonces :=
    fun remembered hmem => List.mem_of_mem_filter hmem
  rw [Daemon.admitNonce]
  by_cases hprune : needsPruning s.nonces
  · simp only [hprune, if_true, hnew _ hkept, Bool.false_eq_true, if_false]
  · simp only [hprune, Bool.false_eq_true, if_false, hnew s.nonces fun _ => id]

theorem nowUtcEpochSeconds_granted (hclock : nowSeconds + 300 < 2 ^ 63) :
    (Protocol.granted DaemonState.system (admitsCall sha256 token nodeId nowSeconds nonce t)).ewp t
      (Prog.perform .nowUtcEpochSeconds Except.ok : DaemonProg Int64)
      (fun now _ => ∃ expiry, nonceExpiry (asI64 nowSeconds) now = some expiry)
      (fun _ _ => False) s := by
  apply Protocol.granted_perform
  intro s choice now s' hadmits hexec
  obtain ⟨-, hwelcomes⟩ := hadmits rfl
  cases hexec
  exact hwelcomes.nonceExpiry hclock

theorem resolve_received (hsome : token ≠ "")
    (hfree : ∀ c ∈ token.toList, isWhitespace c = false) :
    (Protocol.granted DaemonState.system (admitsCall sha256 token nodeId nowSeconds nonce t)).ewp t
      (resolveDaemonNodeIdentity sha256 ("Bearer " ++ token))
      (fun identity _ => identity.nodeId = nodeId ∧ identity.tokenHash = hashValue sha256 token)
      (fun _ _ => False) s := by
  rw [resolveDaemonNodeIdentity, authorizationToken_bearer hsome hfree]
  apply Protocol.granted_perform
  intro s choice response s' hadmits hexec
  obtain ⟨hfault, hwelcomes⟩ := hadmits rfl
  obtain ⟨row, hrow, hid⟩ := hwelcomes.findNode
  cases hexec
  simp only [hfault, hrow]
  exact ⟨hid, findNode_tokenHash hrow⟩

theorem verify_signedFields (call : DaemonCall) :
    verifyDaemonSignature sha256 (hashValue sha256 token) "POST" call.path (asI64 nowSeconds)
      nonce.toString (call.bodyHash sha256)
      (signedFields sha256 token nowSeconds nonce call).signature = true := by
  rw [verifyDaemonSignature, secureEq_iff]
  rfl

theorem validate_granted {request : DaemonRequest} {identity : DaemonNodeIdentity}
    {call : DaemonCall} (hmethod : request.method = "POST") (hpath : request.path = call.path)
    (hread : requestSignature request = .ok (signedFields sha256 token nowSeconds nonce call))
    (hclock : nowSeconds + 300 < 2 ^ 63) (hnode : identity.nodeId = nodeId)
    (hhash : identity.tokenHash = hashValue sha256 token) :
    (Protocol.granted DaemonState.system (admitsCall sha256 token nodeId nowSeconds nonce t)).ewp t
      (validateDaemonRequestSignature sha256 request identity) (fun _ _ => True)
      (fun _ _ => False) s := by
  have hsignature : (Protocol.granted DaemonState.system
      (admitsCall sha256 token nodeId nowSeconds nonce t)).ewp t
        (ExceptT.mk (pure (requestSignature request)))
        (fun signature _ => signature = signedFields sha256 token nowSeconds nonce call)
        (fun _ _ => False) s := by
    rw [hread]
    exact Protocol.ewp_mk fun _ _ _ => rfl
  rw [validateDaemonRequestSignature]
  apply Protocol.ewp_seq hsignature (fun _ _ habsurd => habsurd)
  rintro signature s₁ - rfl
  apply Protocol.ewp_seq (nowUtcEpochSeconds_granted hclock) (fun _ _ habsurd => habsurd)
  rintro now s₂ - ⟨expiry, hexpiry⟩
  have htimestamp : (signedFields sha256 token nowSeconds nonce call).timestamp =
      asI64 nowSeconds := rfl
  have hnonce : (signedFields sha256 token nowSeconds nonce call).nonce = nonce.toString := rfl
  have hbody : (signedFields sha256 token nowSeconds nonce call).bodyHash =
      call.bodyHash sha256 := rfl
  simp only [htimestamp, hnonce, hbody, hexpiry, hmethod, hpath, hhash,
    verify_signedFields call, if_true]
  apply Protocol.granted_perform
  intro s choice admitted s' hadmits hexec
  obtain ⟨-, hwelcomes⟩ := hadmits rfl
  have hadmitted := hwelcomes.admitNonce expiry now
  cases hexec
  simp only [nonceKey, hnode, hnonce]
  rw [if_pos hadmitted]
  trivial

theorem daemonNodeAuth_received {transport : Transport} (htransport : transport.Faithful)
    (origin : Origin) (slashes : Nat) (call : DaemonCall)
    (hdigest : ∀ input, sha256 input ≠ []) (hclock : nowSeconds + 300 < 2 ^ 63)
    (hsome : token ≠ "") (hvisible : ∀ c ∈ token.toList, isVisible c = true)
    {request : DaemonRequest} (hrequest : transport (call.build sha256
      (origin.url ++ String.ofList (List.replicate slashes '/')) token nowSeconds nonce) =
        some request) :
    (Protocol.granted DaemonState.system (admitsCall sha256 token nodeId nowSeconds nonce t)).ewp t
      (daemonNodeAuth sha256 request)
      (fun accepted _ => accepted.request = request ∧ accepted.identity.nodeId = nodeId)
      (fun _ _ => False) s := by
  have hcarries := htransport origin call.path _ request (plainPath call)
    (controlPlaneEndpoint_origin origin slashes call) hrequest
  have hsigned := signedHeaders_of_carries hcarries hdigest hsome hvisible
  have hfree : ∀ c ∈ token.toList, isWhitespace c = false :=
    fun c hc => isWhitespace_of_isVisible (hvisible c hc)
  rw [daemonNodeAuth, hsigned.authorizationHeader]
  apply Protocol.ewp_seq (resolve_received hsome hfree) (fun _ _ habsurd => habsurd)
  rintro identity s₁ - ⟨hnode, hhash⟩
  have hread := requestSignature_received hsigned hdigest
  apply Protocol.ewp_seq (validate_granted hcarries.method hcarries.path hread hclock hnode hhash)
    (fun _ _ habsurd => habsurd)
  intro _ s₂ _ _
  exact Protocol.ewp_pure fun _ _ _ => ⟨rfl, hnode⟩

end Steps

-- Whatever else the control plane does, a call of a daemon whose node is not revoked is accepted.
theorem daemon_calls_are_accepted (sha256 : List UInt8 → List UInt8)
    (hdigest : ∀ input, sha256 input ≠ []) (transport : Transport)
    (htransport : transport.Faithful) (origin : Origin) (slashes : Nat)
    (tokenId nodeId nonce : Uuid) (call : DaemonCall) (before after : List Char)
    (hbefore : ∀ c ∈ before, isWhitespace c) (hafter : ∀ c ∈ after, isWhitespace c)
    (nowSeconds : Nat) (hclock : nowSeconds + 300 < 2 ^ 63) :
    ∃ token, readDaemonToken
        (String.ofList before ++ daemonToken tokenId ++ String.ofList after) = .ok token ∧
      ∀ (requests : Nat → DaemonRequest) (t : Nat) (start : DaemonState)
        (actions : List (Action DaemonChoice)) (config : Config DaemonCommand DaemonCommand.Response
          (Except DaemonNodeHttpError AuthorizedRequest) DaemonState)
        (result : Except DaemonNodeHttpError AuthorizedRequest),
        transport (call.build sha256 (origin.url ++ String.ofList (List.replicate slashes '/'))
          token nowSeconds nonce) = some (requests t) →
        DaemonState.system.run (fun t => (daemonNodeAuth sha256 (requests t)).run) actions
          (System.initial start) = some config →
        DaemonState.system.Meets (fun t => (daemonNodeAuth sha256 (requests t)).run)
          (Unhindered sha256 (daemonToken tokenId) nodeId nowSeconds nonce t) actions
          (System.initial start) →
        config.threads t = some (.ret result) →
        ∃ accepted, result = .ok accepted ∧ accepted.request = requests t ∧
          accepted.identity.nodeId = nodeId := by
  refine ⟨daemonToken tokenId, readDaemonToken_issued tokenId hbefore hafter, ?_⟩
  intro requests t start actions config result hrequest hrun hmeets hreturned
  obtain ⟨hsome, hvisible⟩ := daemonToken_presentable tokenId
  have hcode : ∀ s, (Protocol.granted DaemonState.system
      (admitsCall sha256 (daemonToken tokenId) nodeId nowSeconds nonce t)).wp t
        (daemonNodeAuth sha256 (requests t)).run
        (fun result _ => ∃ accepted, result = .ok accepted ∧ accepted.request = requests t ∧
          accepted.identity.nodeId = nodeId) s := by
    intro s
    refine Protocol.wp_mono ?_
      (daemonNodeAuth_received htransport origin slashes call hdigest hclock hsome hvisible
        hrequest)
    intro result s' _ houtcome
    cases result with
    | ok accepted => exact ⟨accepted, rfl, houtcome⟩
    | error error => exact houtcome.elim
  apply Protocol.granted_returned _ hcode hrun _ hreturned
  refine System.Meets.imp _ _ ?_ _ _ hmeets
  intro action config hunhindered
  cases action with
  | spawn u => trivial
  | env choice => trivial
  | call u choice => exact fun c next _ => hunhindered

section Samples

-- The condition on the steps of thread 0 as a test.
def unhindered (sha256 : List UInt8 → List UInt8) (token : String) (nodeId : Uuid)
    (nowSeconds : Nat) (nonce : Uuid) :
    Action DaemonChoice → Config DaemonCommand DaemonCommand.Response
      (Except DaemonNodeHttpError AuthorizedRequest) DaemonState → Bool
  | .call _ choice, config =>
      choice.fault.isNone &&
        (config.state.nodes.any fun row => row.tokenHash = hashValue sha256 token &&
          !row.revoked && row.status ≠ STATUS_REVOKED) &&
        (config.state.nodes.all fun row =>
          row.tokenHash ≠ hashValue sha256 token || row.id = nodeId) &&
        (nowSeconds ≤ config.state.nowSeconds + 300 &&
          config.state.nowSeconds ≤ nowSeconds + 300) &&
        (config.state.nonces.all fun remembered =>
          remembered.1 ≠ nodeId.toString ++ "::" ++ nonce.toString)
  | _, _ => true

theorem unhindered_sound {sha256 : List UInt8 → List UInt8} {token : String} {nodeId nonce : Uuid}
    {nowSeconds : Nat} {action : Action DaemonChoice}
    {config : Config DaemonCommand DaemonCommand.Response
      (Except DaemonNodeHttpError AuthorizedRequest) DaemonState}
    (h : unhindered sha256 token nodeId nowSeconds nonce action config = true) :
    Unhindered sha256 token nodeId nowSeconds nonce 0 action config := by
  cases action with
  | spawn u => trivial
  | env choice => trivial
  | call u choice =>
    intro _
    simp only [unhindered, Bool.and_eq_true, Option.isNone_iff_eq_none, List.any_eq_true,
      List.all_eq_true, Bool.or_eq_true, decide_eq_true_eq, Bool.not_eq_true', ne_eq,
      decide_not] at h
    obtain ⟨⟨⟨⟨hfault, row, hrow, ⟨hhash, hrevoked⟩, hstatus⟩, hholder⟩, hclock⟩, hfresh⟩ := h
    refine ⟨hfault, ⟨row, hrow, hhash, hrevoked, by simpa using hstatus⟩, ?_, hclock, ?_⟩
    · intro other hother hsame
      exact (hholder other hother).resolve_left fun hne => by simp [hsame] at hne
    · intro remembered hmem
      simpa using hfresh remembered hmem

def clientNonce : Uuid := ⟨11⟩

def failedJob : DaemonCall :=
  .complete ⟨5⟩ (bytes ("\x7b\"status\":\"failed\",\"response\":null," ++
    "\"error_code\":\"provider_error\",\"error_message\":\"timeout\"\x7d"))

-- The digest of the token, and the text that is signed with it.
def clientTokenHash : String := "7687fd24e6ca5107f9a14fc8b77671b696247d276cfa3b8901b9fdcd874c796c"

def signedText (path timestamp bodyHash : String) : List UInt8 :=
  bytes (clientTokenHash ++ "|POST|" ++ path ++ "|" ++ timestamp ++ "|" ++ clientNonce.toString ++
    "|" ++ bodyHash)

def clientDigests : List (List UInt8 × List UInt8) :=
  [(bytes (daemonToken ⟨7⟩),
      digestOf 0x7687fd24e6ca5107f9a14fc8b77671b696247d276cfa3b8901b9fdcd874c796c),
    (failedJob.body, digestOf 0xb9c5edb8d883125d1fa13a027532469c5afebbe1247ee68f515a1d2ae5c966d4),
    (signedText failedJob.path "1700000000"
        "b9c5edb8d883125d1fa13a027532469c5afebbe1247ee68f515a1d2ae5c966d4",
      digestOf 0xb5bb4270044a0287802e2657523a41545f3efdb50b6f1fd4335e47ebb656cd5d),
    (signedText "/daemon/jobs/lease" "1700000000" EMPTY_BODY_HASH,
      digestOf 0x6fe9079558edb52ec7498b0d4b35f2fdd03d3fc95537e05656c63ab3c30a1e21),
    (signedText "/" "1700000000" EMPTY_BODY_HASH,
      digestOf 0x0292410f142f09e3e59877ae7fcedcd3a963485a3a1c3b726e60bfbe7b6017a7),
    (signedText "/daemon/jobs/lease" "9223372036854775807" EMPTY_BODY_HASH,
      digestOf 0x334553068172cd11cd8bb4769042546cecce25b7b61e504386803d5acbe1010a)]

def clientSha256 : List UInt8 → List UInt8 := tabulated clientDigests

theorem clientSha256_ne_nil (input : List UInt8) : clientSha256 input ≠ [] :=
  tabulated_ne_nil (by decide +kernel) input

def clientNode : DaemonNodeRow :=
  { id := ⟨7⟩, status := STATUS_ACTIVE, tokenHash := hashValue clientSha256 (daemonToken ⟨7⟩)
    revoked := false }

theorem authority_free_of_all {authority : String}
    (h : (authority.toList.all fun c =>
      c ∉ ['/', '\\', '?', '#', '@', '\t', '\n', '\r']) = true) :
    ∀ c ∈ authority.toList, c ∉ ['/', '\\', '?', '#', '@', '\t', '\n', '\r'] :=
  fun c hc => of_decide_eq_true (List.all_eq_true.mp h c hc)

def mizanOrigin : Origin where
  scheme := "https"
  authority := "mizan.example.test"
  scheme_free := by decide +kernel
  authority_free := authority_free_of_all (by decide +kernel)
  authority_ne_empty := by decide

def sampleCall (url : String) (nowSeconds : Nat) (call : DaemonCall) : ClientRequest :=
  call.build clientSha256 url (daemonToken ⟨7⟩) nowSeconds clientNonce

-- What the control plane runs for a request.
def callCode (request : DaemonRequest) (_ : Nat) :
    Prog DaemonCommand DaemonCommand.Response (Except DaemonNodeHttpError AuthorizedRequest) :=
  (daemonNodeAuth clientSha256 request).run

def failedJobUrl : String := mizanOrigin.url ++ String.ofList (List.replicate 1 '/')

def failedJobRequest : DaemonRequest :=
  (sampleCall failedJobUrl 1700000000 failedJob).arrived failedJob.path

theorem failed_job_is_accepted : ∃ config accepted,
    plainTransport (sampleCall failedJobUrl 1700000000 failedJob) = some failedJobRequest ∧
    DaemonState.system.run (callCode failedJobRequest) (authSteps 0)
      (System.initial (.start [clientNode] [] 1700000010)) = some config ∧
    config.threads 0 = some (.ret (.ok accepted)) ∧ accepted.identity.nodeId = ⟨7⟩ := by
  have hblank : ∀ c ∈ [' '], isWhitespace c := List.forall_mem_singleton.mpr (by decide)
  have hnewline : ∀ c ∈ ['\n'], isWhitespace c := List.forall_mem_singleton.mpr (by decide)
  obtain ⟨token, htoken, haccepted⟩ := daemon_calls_are_accepted clientSha256 clientSha256_ne_nil
    plainTransport plainTransport_faithful mizanOrigin 1 ⟨7⟩ ⟨7⟩ clientNonce failedJob [' '] ['\n']
    hblank hnewline 1700000000 (by decide)
  have hread : readDaemonToken (String.ofList [' '] ++ daemonToken ⟨7⟩ ++ String.ofList ['\n']) =
      .ok (daemonToken ⟨7⟩) := by decide +kernel
  obtain rfl := Except.ok.inj (hread.symm.trans htoken)
  have harrived : plainTransport (sampleCall failedJobUrl 1700000000 failedJob) =
      some failedJobRequest :=
    plainTransport_origin (plainPath failedJob)
    (controlPlaneEndpoint_origin mizanOrigin 1 failedJob)
  have hreturned : (DaemonState.system.returned (callCode failedJobRequest) (authSteps 0)
      (System.initial (.start [clientNode] [] 1700000010)) 0).isSome = true := by
    decide +kernel
  obtain ⟨result, hresult⟩ := Option.isSome_iff_exists.mp hreturned
  obtain ⟨config, hrun, hthread⟩ := System.exists_run_of_returned _ _ hresult
  have hchecks : DaemonState.system.checks (callCode failedJobRequest)
      (unhindered clientSha256 (daemonToken ⟨7⟩) ⟨7⟩ 1700000000 clientNonce) (authSteps 0)
      (System.initial (.start [clientNode] [] 1700000010)) = true := by
    decide +kernel
  have hmeets := System.Meets.imp _ _ (fun _ _ => unhindered_sound) _ _
    (System.meets_of_checks _ _ hchecks)
  obtain ⟨accepted, rfl, -, hnode⟩ := haccepted (fun _ => failedJobRequest) 0 _ _ config result
    harrived hrun hmeets hthread
  exact ⟨config, accepted, harrived, hrun, hthread, hnode⟩

def queryUrl : String := "https://mizan.example.test?tenant=a"

def userInfoUrl : String := "https://user:pw@mizan.example.test"

-- A call arrives as this request, and nothing hinders the control plane, which refuses it.
def CallRefused (url : String) (nowSeconds : Nat) (request : DaemonRequest) (calls : Nat) : Prop :=
  plainTransport (sampleCall url nowSeconds .lease) = some request ∧
  ∃ config, DaemonState.system.run (callCode request)
    (.spawn 0 :: List.replicate calls (.call 0 {}))
      (System.initial (.start [clientNode] [] nowSeconds)) = some config ∧
    DaemonState.system.Meets (callCode request)
      (Unhindered clientSha256 (daemonToken ⟨7⟩) ⟨7⟩ nowSeconds clientNonce 0)
      (.spawn 0 :: List.replicate calls (.call 0 {}))
      (System.initial (.start [clientNode] [] nowSeconds)) ∧
    config.threads 0 = some (.ret (.error unauthorized))

theorem refused_of_checks {url : String} {nowSeconds : Nat} {request : DaemonRequest} {calls : Nat}
    (harrived : plainTransport (sampleCall url nowSeconds .lease) = some request)
    (hreturned : DaemonState.system.returned (callCode request)
      (.spawn 0 :: List.replicate calls (.call 0 {}))
      (System.initial (.start [clientNode] [] nowSeconds)) 0 = some (.error unauthorized))
    (hchecks : DaemonState.system.checks (callCode request)
      (unhindered clientSha256 (daemonToken ⟨7⟩) ⟨7⟩ nowSeconds clientNonce)
      (.spawn 0 :: List.replicate calls (.call 0 {}))
      (System.initial (.start [clientNode] [] nowSeconds)) = true) :
    CallRefused url nowSeconds request calls := by
  obtain ⟨config, hrun, hthread⟩ := System.exists_run_of_returned _ _ hreturned
  exact ⟨harrived, config, hrun, System.Meets.imp _ _ (fun _ _ => unhindered_sound) _ _
    (System.meets_of_checks _ _ hchecks), hthread⟩

-- A query stands where a path is put behind it, the user information of a URL comes before the
-- token, and the last clock has no room for the expiry.
theorem query_and_user_and_last_clock_are_refused :
    CallRefused queryUrl 1700000000 ((sampleCall queryUrl 1700000000 .lease).arrived "/") 2 ∧
    CallRefused userInfoUrl 1700000000
      { method := "POST", path := "/daemon/jobs/lease", body := []
        headers := (AUTHORIZATION, some "Basic dXNlcjpwdw==") ::
          (sampleCall userInfoUrl 1700000000 .lease).headers } 0 ∧
    CallRefused mizanOrigin.url (2 ^ 63 - 1)
      ((sampleCall mizanOrigin.url (2 ^ 63 - 1) .lease).arrived "/daemon/jobs/lease") 2 := by
  refine ⟨refused_of_checks ?_ ?_ ?_, refused_of_checks ?_ ?_ ?_, refused_of_checks ?_ ?_ ?_⟩
  · decide +kernel
  · decide +kernel
  · decide +kernel
  · decide +kernel
  · decide +kernel
  · decide +kernel
  · decide +kernel
  · decide +kernel
  · decide +kernel

end Samples

end Mizan.Daemon
