import Mizan.Daemon.Auth

namespace Mizan.Daemon

open Interleaving

variable {sha256 : List UInt8 → List UInt8} {t : Nat} {s : DaemonState}

-- What is left of a request once its identity is resolved and its signature is verified.
def Verified (sha256 : List UInt8 → List UInt8) (request : DaemonRequest)
    (identity : DaemonNodeIdentity) : Prop :=
  ∃ signature, requestSignature request = .ok signature ∧
    signature.signature = computeDaemonSignature sha256 identity.tokenHash request.method
      request.path signature.timestamp signature.nonce signature.bodyHash

-- The identity is that of the token that the request was sent with.
def Resolved (sha256 : List UInt8 → List UInt8) (authorization : String)
    (identity : DaemonNodeIdentity) : Prop :=
  ∃ token, authorizationToken authorization = some token ∧
    identity.tokenHash = hashValue sha256 token

theorem findNode_tokenHash {tokenHash : String} {row : DaemonNodeRow}
    (h : s.findNode tokenHash = some row) : row.tokenHash = tokenHash := by
  have hrow := List.find?_some h
  simp only [Bool.and_eq_true, decide_eq_true_eq] at hrow
  exact hrow.1.1

theorem resolveDaemonNodeIdentity_spec (authorization : String) :
    (Protocol.unconstrained DaemonState.system).ewp t
      (resolveDaemonNodeIdentity sha256 authorization)
      (fun identity _ => Resolved sha256 authorization identity) (fun _ _ => True) s := by
  rw [resolveDaemonNodeIdentity]
  split
  · exact Protocol.ewp_throw fun _ _ _ => trivial
  · rename_i token htoken
    refine Protocol.unconstrained_perform fun s' choice response s'' hexec => ?_
    cases hexec
    cases choice.fault with
    | some error => trivial
    | none =>
        cases hrow : s'.findNode (hashValue sha256 token) with
        | none => trivial
        | some row => exact ⟨token, htoken, findNode_tokenHash hrow⟩

theorem requestSignature_spec (request : DaemonRequest) :
    (Protocol.unconstrained DaemonState.system).ewp t
      (ExceptT.mk (pure (requestSignature request)))
      (fun signature _ => requestSignature request = .ok signature) (fun _ _ => True) s := by
  refine Protocol.ewp_mk fun s' _ _ => ?_
  cases requestSignature request with
  | ok signature => rfl
  | error error => trivial

theorem nowUtcEpochSeconds_spec :
    (Protocol.unconstrained DaemonState.system).ewp t
      (Prog.perform .nowUtcEpochSeconds Except.ok : DaemonProg Int64) (fun _ _ => True)
      (fun _ _ => True) s :=
  Protocol.unconstrained_perform fun _ _ _ _ _ => trivial

theorem validateDaemonRequestSignature_spec (request : DaemonRequest)
    (identity : DaemonNodeIdentity) :
    (Protocol.unconstrained DaemonState.system).ewp t
      (validateDaemonRequestSignature sha256 request identity)
      (fun _ _ => Verified sha256 request identity) (fun _ _ => True) s := by
  refine Protocol.ewp_seq (requestSignature_spec request) (fun _ _ _ => trivial)
    fun signature s₁ _ hsignature => ?_
  refine Protocol.ewp_seq nowUtcEpochSeconds_spec (fun _ _ _ => trivial) fun now s₂ _ _ => ?_
  split
  · exact Protocol.ewp_throw fun _ _ _ => trivial
  · split
    · rename_i hverify
      refine Protocol.unconstrained_perform fun _ _ admitted _ _ => ?_
      have hverified : Verified sha256 request identity :=
        ⟨signature, hsignature, (secureEq_iff.mp hverify).symm⟩
      cases admitted with
      | true => exact hverified
      | false => trivial
    · exact Protocol.ewp_throw fun _ _ _ => trivial

def Authenticated (sha256 : List UInt8 → List UInt8) (request : DaemonRequest)
    (accepted : AuthorizedRequest) : Prop :=
  accepted.request = request ∧ Verified sha256 request accepted.identity ∧
    ∃ authorization, request.header AUTHORIZATION = some authorization ∧
      Resolved sha256 authorization accepted.identity

theorem daemonNodeAuth_spec (request : DaemonRequest) :
    (Protocol.unconstrained DaemonState.system).ewp t (daemonNodeAuth sha256 request)
      (fun accepted _ => Authenticated sha256 request accepted) (fun _ _ => True) s := by
  rw [daemonNodeAuth]
  split
  · exact Protocol.ewp_throw fun _ _ _ => trivial
  · rename_i authorization hauthorization
    refine Protocol.ewp_seq (resolveDaemonNodeIdentity_spec authorization) (fun _ _ _ => trivial)
      fun identity s₁ _ hresolved => ?_
    refine Protocol.ewp_seq (validateDaemonRequestSignature_spec request identity)
      (fun _ _ _ => trivial) fun _ s₂ _ hverified => ?_
    exact Protocol.ewp_pure fun _ _ _ => ⟨rfl, hverified, authorization, hauthorization, hresolved⟩

-- The headers that the daemon signs a request with.
def thenSign (sha256 : List UInt8 → List UInt8) (token method path bodyHash : String)
    (timestamp : Int64) (nonce : String) : List (String × Option String) :=
  let tokenHash := hashToken sha256 token
  let signature :=
    computeRequestSignature sha256 tokenHash method path timestamp nonce bodyHash
  [(DAEMON_SIGNATURE_TIMESTAMP_HEADER, some (toString timestamp)),
    (DAEMON_SIGNATURE_NONCE_HEADER, some nonce),
    (DAEMON_SIGNATURE_BODY_HASH_HEADER, some bodyHash),
    (DAEMON_SIGNATURE_HEADER, some signature)]

-- The headers of a signed request, as they arrive.
structure SignedHeaders (sha256 : List UInt8 → List UInt8) (token method path bodyHash : String)
    (timestamp : Int64) (nonce : String) (request : DaemonRequest) : Prop where
  timestampHeader : request.header DAEMON_SIGNATURE_TIMESTAMP_HEADER = some (toString timestamp)
  nonceHeader : request.header DAEMON_SIGNATURE_NONCE_HEADER = some nonce
  bodyHashHeader : request.header DAEMON_SIGNATURE_BODY_HASH_HEADER = some bodyHash
  signatureHeader : request.header DAEMON_SIGNATURE_HEADER = some (computeRequestSignature sha256
    (hashToken sha256 token) method path timestamp nonce bodyHash)
  authorizationHeader : request.header AUTHORIZATION = some ("Bearer " ++ token)

-- The server reads of a request what its signer has put into it.
theorem requestSignature_of_signedHeaders {token method path bodyHash nonce : String}
    {timestamp : Int64} {request : DaemonRequest}
    (h : SignedHeaders sha256 token method path bodyHash timestamp nonce request)
    (hdigest : ∀ input, sha256 input ≠ [])
    (hbody : bodyHash ≠ "" ∧ ∀ character ∈ bodyHash.toList, isWhitespace character = false)
    (hnonce : nonce ≠ "" ∧ ∀ character ∈ nonce.toList, isWhitespace character = false) :
    requestSignature request = .ok
      { timestamp, nonce, bodyHash
        signature := computeRequestSignature sha256 (hashToken sha256 token) method path timestamp
          nonce bodyHash } := by
  have htime : toString timestamp ≠ "" := by
    intro hempty
    have hparse := parseI64_toString timestamp
    rw [hempty] at hparse
    cases hparse
  have hbodyHash : bodyHashHeader request = bodyHash := by
    rw [bodyHashHeader, h.bodyHashHeader, Option.map_some, trim_of_free hbody.2]
    rfl
  rw [requestSignature,
    headerValue_of_free h.timestampHeader htime fun _ => isWhitespace_of_mem_time,
    headerValue_of_free h.nonceHeader hnonce.1 hnonce.2,
    headerValue_of_free h.signatureHeader (hexDigest_ne_empty (hdigest _))
      fun _ => isWhitespace_of_mem_hexDigest, hbodyHash]
  simp [hbody.1, parseTimestamp, parseI64_toString, bind, Except.bind, Except.mapError, pure,
    Except.pure]

-- A request as the daemon signs and sends it.
structure SignedRequest where
  token : String
  method : String
  path : String
  body : List UInt8
  timestamp : Int64
  nonce : String
  deriving DecidableEq, Repr

namespace SignedRequest

variable (sha256) in
def signature (signed : SignedRequest) : String :=
  computeRequestSignature sha256 (hashToken sha256 signed.token) signed.method signed.path
    signed.timestamp signed.nonce (hashBytes sha256 signed.body)

variable (sha256) in
def thenSign (signed : SignedRequest) : List (String × Option String) :=
  Daemon.thenSign sha256 signed.token signed.method signed.path (hashBytes sha256 signed.body)
    signed.timestamp signed.nonce

variable (sha256) in
def send (signed : SignedRequest) : DaemonRequest :=
  { method := signed.method
    path := signed.path
    headers := signed.thenSign sha256 ++ [(AUTHORIZATION, some ("Bearer " ++ signed.token))]
    body := signed.body }

theorem signedHeaders_send (signed : SignedRequest) :
    SignedHeaders sha256 signed.token signed.method signed.path (hashBytes sha256 signed.body)
      signed.timestamp signed.nonce (signed.send sha256) where
  timestampHeader := rfl
  nonceHeader := rfl
  bodyHashHeader := rfl
  signatureHeader := rfl
  authorizationHeader := by
    simp [DaemonRequest.header, send, thenSign, Daemon.thenSign, AUTHORIZATION,
      DAEMON_SIGNATURE_TIMESTAMP_HEADER, DAEMON_SIGNATURE_NONCE_HEADER,
      DAEMON_SIGNATURE_BODY_HASH_HEADER, DAEMON_SIGNATURE_HEADER]

-- A token and a nonce that arrive as they were sent: no text in which nothing is trimmed.
structure Presentable (signed : SignedRequest) : Prop where
  token : signed.token ≠ ""
  tokenFree : ∀ character ∈ signed.token.toList, isWhitespace character = false
  nonce : signed.nonce ≠ ""
  nonceFree : ∀ character ∈ signed.nonce.toList, isWhitespace character = false

theorem requestSignature_send {signed : SignedRequest} (hdigest : ∀ input, sha256 input ≠ [])
    (hsigned : signed.Presentable) : requestSignature (signed.send sha256) =
      .ok { timestamp := signed.timestamp, nonce := signed.nonce
            signature := signed.signature sha256, bodyHash := hashBytes sha256 signed.body } :=
  requestSignature_of_signedHeaders (signedHeaders_send signed) hdigest
    ⟨hexDigest_ne_empty (hdigest _), fun _ => isWhitespace_of_mem_hexDigest⟩
    ⟨hsigned.nonce, hsigned.nonceFree⟩

-- What the gateway does with the request of a daemon whose node has this identity: all that is
-- left to decide is its age and its nonce.
def accept (signed : SignedRequest) (identity : DaemonNodeIdentity) : DaemonProg Unit := do
  let now ← Prog.perform .nowUtcEpochSeconds Except.ok
  match nonceExpiry signed.timestamp now with
  | none => throw unauthorized
  | some expiry =>
      Prog.perform (.admitNonce (nonceKey identity signed.nonce) expiry now)
        fun (admitted : Bool) => if admitted then .ok () else .error unauthorized

theorem verifyDaemonSignature_send (signed : SignedRequest) {tokenHash : String}
    (htoken : tokenHash = hashToken sha256 signed.token) :
    verifyDaemonSignature sha256 tokenHash signed.method signed.path signed.timestamp signed.nonce
      (hashBytes sha256 signed.body) (signed.signature sha256) = true := by
  rw [verifyDaemonSignature, secureEq_iff, htoken]
  rfl

theorem validateDaemonRequestSignature_send {signed : SignedRequest} {identity : DaemonNodeIdentity}
    (hdigest : ∀ input, sha256 input ≠ []) (hsigned : signed.Presentable)
    (htoken : identity.tokenHash = hashToken sha256 signed.token) :
    validateDaemonRequestSignature sha256 (signed.send sha256) identity =
      signed.accept identity := by
  have hverify := verifyDaemonSignature_send signed htoken
  rw [validateDaemonRequestSignature, requestSignature_send hdigest hsigned]
  change (Prog.perform .nowUtcEpochSeconds Except.ok : DaemonProg Int64) >>= _ = _
  refine congrArg _ (funext fun now => ?_)
  cases nonceExpiry signed.timestamp now with
  | none => rfl
  | some expiry => simp only [send, hverify, if_true]

-- The separator of the signed fields does not occur in those that the signer chooses.
structure Delimited (signed : SignedRequest) : Prop where
  method : '|' ∉ signed.method.toList
  path : '|' ∉ signed.path.toList
  nonce : '|' ∉ signed.nonce.toList

end SignedRequest

-- The handler acts on what the holder of the node's token has signed.
structure ActsOnSigned (sha256 : List UInt8 → List UInt8) (signed : SignedRequest)
    (accepted : AuthorizedRequest) : Prop where
  holder : accepted.identity.tokenHash = hashToken sha256 signed.token
  token : (accepted.request.header AUTHORIZATION).bind authorizationToken = some signed.token
  method : accepted.request.method = signed.method
  path : accepted.request.path = signed.path
  timestamp : (requestSignature accepted.request).map (·.timestamp) = .ok signed.timestamp
  nonce : (requestSignature accepted.request).map (·.nonce) = .ok signed.nonce
  body : accepted.request.body = signed.body

section Injective

variable (hinjective : Function.Injective sha256)

include hinjective

-- The verified digest covers every field but the body, of which it covers the hash that the
-- header claims.
theorem verified_fields_eq {signed : SignedRequest} {request : DaemonRequest}
    {identity : DaemonNodeIdentity} (hdelimited : signed.Delimited)
    (hverified : Verified sha256 request identity)
    (hcarried : (requestSignature request).map (·.signature) = .ok (signed.signature sha256)) :
    ∃ signature, requestSignature request = .ok signature ∧
      identity.tokenHash = hashToken sha256 signed.token ∧ request.method = signed.method ∧
      request.path = signed.path ∧ signature.timestamp = signed.timestamp ∧
      signature.nonce = signed.nonce ∧
      bodyHashHeader request = hashBytes sha256 signed.body := by
  obtain ⟨signature, hsignature, hdigest⟩ := hverified
  rw [hsignature] at hcarried
  have hsame : signature.signature = signed.signature sha256 := Except.ok.inj hcarried
  rw [hdigest] at hsame
  obtain ⟨h₁, h₂, h₃, h₄, h₅, h₆⟩ := signed_fields_eq hinjective
    (separator_not_mem_hexDigest _) hdelimited.method hdelimited.path hdelimited.nonce
    (separator_not_mem_hexDigest _) hsame
  rw [requestSignature_bodyHash hsignature] at h₆
  exact ⟨signature, hsignature, h₁, h₂, h₃, h₄, h₅, h₆⟩

theorem actsOnSigned_iff {signed : SignedRequest} {request : DaemonRequest}
    {accepted : AuthorizedRequest} (hdelimited : signed.Delimited)
    (hauthenticated : Authenticated sha256 request accepted)
    (hcarried : (requestSignature request).map (·.signature) = .ok (signed.signature sha256)) :
    ActsOnSigned sha256 signed accepted ↔
      hashBytes sha256 request.body = bodyHashHeader request := by
  obtain ⟨rfl, hverified, authorization, hauthorization, token, htoken, hhash'⟩ := hauthenticated
  obtain ⟨signature, hsignature, hhash, hmethod, hpath, htimestamp, hnonce, hheader⟩ :=
    verified_fields_eq hinjective hdelimited hverified hcarried
  rw [hheader]
  constructor
  · intro hacts
    rw [hacts.body]
  · intro hbody
    have hholder : token = signed.token := hashValue_injective hinjective (hhash'.symm.trans hhash)
    refine ⟨hhash, ?_, hmethod, hpath, ?_, ?_, hashBytes_injective hinjective hbody⟩
    · rw [hauthorization, ← hholder]
      exact htoken
    · rw [hsignature, ← htimestamp]
      rfl
    · rw [hsignature, ← hnonce]
      rfl

end Injective

theorem accepted_request_is_signed_iff_body_hash_matches (sha256 : List UInt8 → List UInt8)
    (hinjective : Function.Injective sha256) (requests : Nat → DaemonRequest)
    (start : DaemonState) (actions : List (Action DaemonChoice))
    (config : Config DaemonCommand DaemonCommand.Response
      (Except DaemonNodeHttpError AuthorizedRequest) DaemonState)
    (hrun : DaemonState.system.run (fun t => (daemonNodeAuth sha256 (requests t)).run) actions
      (System.initial start) = some config)
    (t : Nat) (accepted : AuthorizedRequest)
    (haccepted : config.threads t = some (.ret (.ok accepted)))
    (signed : SignedRequest) (hdelimited : signed.Delimited)
    (hcarried : (requestSignature (requests t)).map (·.signature) = .ok (signed.signature sha256)) :
    ActsOnSigned sha256 signed accepted ↔
      hashBytes sha256 (requests t).body = bodyHashHeader (requests t) := by
  have hspec : ∀ t s, (Protocol.unconstrained DaemonState.system).wp t
      (daemonNodeAuth sha256 (requests t)).run
      (fun result _ => ∀ accepted, result = .ok accepted →
        Authenticated sha256 (requests t) accepted) s := by
    intro t s
    refine Protocol.wp_mono (fun result s' _ houtcome => ?_) (daemonNodeAuth_spec (requests t))
    rintro accepted rfl
    exact houtcome
  exact actsOnSigned_iff hinjective hdelimited
    (Protocol.unconstrained_returned _ hspec hrun haccepted accepted rfl) hcarried

def sampleDigests : List (List UInt8 × List UInt8) :=
  [(bytes "mizan_sk_daemon_7",
      digestOf 0xb0890973c2b18dba02348dba08cbdf318ce5a61a2af5c115d5eaa70c054063ff),
    (bytes "\x7b\"hostname\":\"a\"\x7d",
      digestOf 0x80cc0a1fc7779bda3b81d5d3902feee2ca2f5b5babb3727f95f8a2e7e8d11921),
    (bytes "\x7b\"hostname\":\"b\"\x7d",
      digestOf 0x33c1fdf94b1191e70cfdb24f2931409dd0a59bdd6865d56b487d4b6137a33888),
    (bytes ("b0890973c2b18dba02348dba08cbdf318ce5a61a2af5c115d5eaa70c054063ff" ++
        "|POST|/daemon/register|1700000000|c0ffee|" ++
        "80cc0a1fc7779bda3b81d5d3902feee2ca2f5b5babb3727f95f8a2e7e8d11921"),
      digestOf 0x2a1ae24f2f66861832d02f191bac04b5eb7cf02b04602833dbe5ebc5030a6679),
    (bytes ("b0890973c2b18dba02348dba08cbdf318ce5a61a2af5c115d5eaa70c054063ff" ++
        "|POST|/daemon/register|1700000400|decade|" ++
        "80cc0a1fc7779bda3b81d5d3902feee2ca2f5b5babb3727f95f8a2e7e8d11921"),
      digestOf 0x11163de5254d52ef6397e5c7a3bab709f807b62617bc0b5e9c09059db44a0345)]

def sampleSha256 : List UInt8 → List UInt8 := tabulated sampleDigests

theorem sampleDigests_length : ∀ sample ∈ sampleDigests, sample.2.length = 32 := by
  decide

theorem sampleDigests_injective : ∀ sample ∈ sampleDigests, ∀ sample' ∈ sampleDigests,
    sample.2 = sample'.2 → sample.1 = sample'.1 := by
  decide +kernel

theorem sampleSha256_injective : Function.Injective sampleSha256 :=
  tabulated_injective sampleDigests_length sampleDigests_injective

def registration : SignedRequest :=
  { token := "mizan_sk_daemon_7", method := "POST", path := "/daemon/register"
    body := bytes "\x7b\"hostname\":\"a\"\x7d", timestamp := 1700000000, nonce := "c0ffee" }

def registeredNode : DaemonNodeRow :=
  { id := ⟨7⟩, status := "active", tokenHash := hashValue sampleSha256 "mizan_sk_daemon_7"
    revoked := false }

def registeredIdentity : DaemonNodeIdentity :=
  { nodeId := ⟨7⟩, status := "active", tokenHash := hashValue sampleSha256 "mizan_sk_daemon_7" }

def tamperedRequest : DaemonRequest :=
  { registration.send sampleSha256 with body := bytes "\x7b\"hostname\":\"b\"\x7d" }

-- The request of thread `t` starts, finds its node, reads the clock and takes the lock.
def authSteps (t : Nat) : List (Action DaemonChoice) :=
  [.spawn t, .call t {}, .call t {}, .call t {}]

theorem registration_delimited : registration.Delimited :=
  ⟨by decide, by decide, by decide⟩

theorem registration_presentable : registration.Presentable :=
  ⟨by decide, free_of_all (by decide), by decide, free_of_all (by decide)⟩

theorem sampleSha256_ne_nil (input : List UInt8) : sampleSha256 input ≠ [] :=
  tabulated_ne_nil sampleDigests_length input

theorem untouched_request_is_the_signed_one : ∃ config accepted,
    DaemonState.system.run
      (fun _ => (daemonNodeAuth sampleSha256 (registration.send sampleSha256)).run) (authSteps 0)
      (System.initial (.start [registeredNode] [] 1700000010)) = some config ∧
    config.threads 0 = some (.ret (.ok accepted)) ∧
    ActsOnSigned sampleSha256 registration accepted := by
  have hreturned : DaemonState.system.returned
      (fun _ => (daemonNodeAuth sampleSha256 (registration.send sampleSha256)).run) (authSteps 0)
      (System.initial (.start [registeredNode] [] 1700000010)) 0 =
        some (.ok
          { request := registration.send sampleSha256, identity := registeredIdentity }) := by
    decide +kernel
  obtain ⟨config, hrun, hthread⟩ := System.exists_run_of_returned _ _ hreturned
  refine ⟨config, _, hrun, hthread, ?_⟩
  exact (accepted_request_is_signed_iff_body_hash_matches sampleSha256 sampleSha256_injective
    (fun _ => registration.send sampleSha256) _ _ config hrun 0 _ hthread registration
    registration_delimited (by decide +kernel)).mpr (by decide +kernel)

-- The body is exchanged on the way, and the gateway accepts the request.
theorem exchanged_body_is_accepted : ∃ config accepted,
    DaemonState.system.run
      (fun _ => (daemonNodeAuth sampleSha256 tamperedRequest).run)
      (authSteps 0) (System.initial (.start [registeredNode] [] 1700000010)) = some config ∧
    config.threads 0 = some (.ret (.ok accepted)) ∧
    requiresBodySignature accepted.request.path = true ∧
    (requestSignature accepted.request).map (·.signature) =
      .ok (registration.signature sampleSha256) ∧
    ¬ActsOnSigned sampleSha256 registration accepted := by
  have hreturned : DaemonState.system.returned
      (fun _ => (daemonNodeAuth sampleSha256 tamperedRequest).run)
      (authSteps 0) (System.initial (.start [registeredNode] [] 1700000010)) 0 =
        some (.ok { request := tamperedRequest, identity := registeredIdentity }) := by
    decide +kernel
  obtain ⟨config, hrun, hthread⟩ := System.exists_run_of_returned _ _ hreturned
  refine ⟨config, _, hrun, hthread, by decide +kernel, by decide +kernel, fun h => ?_⟩
  have hbody := h.body
  revert hbody
  decide +kernel

end Mizan.Daemon
