import Mizan.Core.Trim
import Mizan.Daemon.NodeStore
import Mizan.Daemon.Signature
import Mizan.Daemon.Transport

namespace Mizan.Daemon

def EMPTY_BODY_HASH : String := "e3b0c44298fc1c149afbf4c8996fb92427ae41e4649b934ca495991b7852b855"

-- `str::trim_end_matches` and `str::trim_start_matches` of one character
def trimEndMatches (s : String) (c : Char) : String :=
  String.ofList (s.toList.rdropWhile fun character => character = c)

def trimStartMatches (s : String) (c : Char) : String :=
  String.ofList (s.toList.dropWhile fun character => character = c)

def controlPlaneEndpoint (controlPlaneUrl path : String) : String :=
  trimEndMatches controlPlaneUrl '/' ++ "/" ++ trimStartMatches path '/'

-- What is made of the contents of the file of the token.
def readDaemonToken (contents : String) : Except AppError String :=
  let token := trim contents
  if token = "" then .error (.invalidConfig "daemon_token_path" "daemon token file is empty")
  else .ok token

-- The calls of the daemon, with the bytes that `serde_json` makes of their payloads.
inductive DaemonCall where
  | register (payload : List UInt8)
  | heartbeat (payload : List UInt8)
  | lease
  | complete (jobId : Uuid) (payload : List UInt8)
  deriving DecidableEq, Repr

namespace DaemonCall

def path : DaemonCall → String
  | .register _ => "/daemon/register"
  | .heartbeat _ => "/daemon/heartbeat"
  | .lease => "/daemon/jobs/lease"
  | .complete jobId _ => "/daemon/jobs/" ++ jobId.toString ++ "/complete"

def body : DaemonCall → List UInt8
  | .register payload | .heartbeat payload | .complete _ payload => payload
  | .lease => []

def bodyHash (sha256 : List UInt8 → List UInt8) : DaemonCall → String
  | .register payload | .heartbeat payload | .complete _ payload => hashBytes sha256 payload
  | .lease => EMPTY_BODY_HASH

end DaemonCall

-- A call at one reading of the clock, with one fresh nonce.
def DaemonCall.build (sha256 : List UInt8 → List UInt8) (controlPlaneUrl token : String)
    (nowSeconds : Nat) (nonce : Uuid) (call : DaemonCall) : ClientRequest :=
  { url := controlPlaneEndpoint controlPlaneUrl call.path
    method := "POST"
    headers :=
      thenSign sha256 token "POST" call.path (call.bodyHash sha256) (asI64 nowSeconds)
        nonce.toString ++ [(AUTHORIZATION, some ("Bearer " ++ token))]
    body := call.body }

section Url

variable {origin : Origin} {call : DaemonCall}

theorem toList_repeat_slash (slashes : Nat) :
    (String.ofList (List.replicate slashes '/')).toList = List.replicate slashes '/' :=
  String.toList_ofList

-- The slashes behind the authority are trimmed, and nothing else.
theorem trimEndMatches_origin (origin : Origin) (slashes : Nat) :
    trimEndMatches (origin.url ++ String.ofList (List.replicate slashes '/')) '/' = origin.url := by
  have hslashes : (List.replicate slashes '/').rdropWhile (fun c => decide (c = '/')) = [] := by
    rw [List.rdropWhile_eq_nil_iff]
    intro c hc
    rw [List.eq_of_mem_replicate hc]
    rfl
  have hsome : origin.authority.toList ≠ [] := by
    rw [ne_eq, String.toList_eq_nil_iff]
    exact origin.authority_ne_empty
  obtain ⟨front, last, hlast⟩ := (List.eq_nil_or_concat origin.authority.toList).resolve_left hsome
  have hkept : origin.url.toList.rdropWhile (fun c => decide (c = '/')) = origin.url.toList := by
    have hslash : last ≠ '/' := by
      have hmem : last ∈ origin.authority.toList := by
        rw [hlast, List.concat_eq_append]
        exact List.mem_append_right _ (List.mem_singleton_self last)
      rintro rfl
      exact origin.authority_free '/' hmem List.mem_cons_self
    rw [Origin.url, String.toList_append, hlast, List.concat_eq_append, ← List.append_assoc]
    exact List.rdropWhile_concat_neg _ _ _ (by simpa using hslash)
  rw [trimEndMatches, String.toList_append, toList_repeat_slash, rdropWhile_append, if_pos hslashes,
    hkept, String.ofList_toList]

theorem isPlain_of_mem_uuid {id : Uuid} {c : Char} (hc : c ∈ id.toString.toList) :
    isPlain c = true := by
  have hdigits : ∀ digit < 16, isPlain (Nat.digitChar digit) = true := by decide
  rcases Uuid.mem_toString hc with rfl | ⟨digit, hdigit, rfl⟩
  · decide
  · exact hdigits digit hdigit

theorem toList_path (call : DaemonCall) :
    ∃ rest, call.path.toList = '/' :: 'd' :: rest ∧ ∀ c ∈ rest, isPlain c = true := by
  cases call with
  | register payload =>
    have hpath : (DaemonCall.register payload).path = "/daemon/register" := rfl
    rw [hpath]
    exact ⟨"aemon/register".toList, by decide +kernel, List.all_eq_true.mp (by decide +kernel)⟩
  | heartbeat payload =>
    have hpath : (DaemonCall.heartbeat payload).path = "/daemon/heartbeat" := rfl
    rw [hpath]
    exact ⟨"aemon/heartbeat".toList, by decide +kernel, List.all_eq_true.mp (by decide +kernel)⟩
  | lease => exact ⟨"aemon/jobs/lease".toList, rfl, List.all_eq_true.mp (by decide +kernel)⟩
  | complete jobId payload =>
    refine ⟨"aemon/jobs/".toList ++ jobId.toString.toList ++ "/complete".toList, ?_, ?_⟩
    · rw [DaemonCall.path, String.toList_append, String.toList_append]
      rfl
    · intro c hc
      rw [List.mem_append, List.mem_append] at hc
      rcases hc with (hc | hc) | hc
      · exact List.all_eq_true.mp (by decide +kernel) c hc
      · exact isPlain_of_mem_uuid hc
      · exact List.all_eq_true.mp (by decide +kernel) c hc

theorem plainPath (call : DaemonCall) : PlainPath call.path := by
  obtain ⟨rest, hchars, hrest⟩ := toList_path call
  refine ⟨⟨_, hchars⟩, fun c hc => ?_⟩
  rw [hchars] at hc
  rcases List.mem_cons.mp hc with rfl | hc
  · decide
  · rcases List.mem_cons.mp hc with rfl | hc
    · decide
    · exact hrest c hc

-- The endpoint is the path that the client signs, behind the origin.
theorem controlPlaneEndpoint_origin (origin : Origin) (slashes : Nat) (call : DaemonCall) :
    controlPlaneEndpoint (origin.url ++ String.ofList (List.replicate slashes '/')) call.path =
      origin.url ++ call.path := by
  obtain ⟨rest, hchars, -⟩ := toList_path call
  have hpath : call.path = String.ofList ('/' :: 'd' :: rest) := by
    rw [← hchars, String.ofList_toList]
  have htrimmed : trimStartMatches call.path '/' = String.ofList ('d' :: rest) := by
    rw [trimStartMatches, hchars]
    rfl
  have hjoined : "/" ++ String.ofList ('d' :: rest) = String.ofList ('/' :: 'd' :: rest) := by
    apply String.toList_inj.mp
    rw [String.toList_append]
    simp
  rw [controlPlaneEndpoint, trimEndMatches_origin, htrimmed, String.append_assoc, hjoined, hpath]

end Url

section Token

theorem isVisible_digitChar : ∀ digit < 16, isVisible (Nat.digitChar digit) = true := by
  decide

theorem isWhitespace_of_isVisible {c : Char} (h : isVisible c = true) : isWhitespace c = false := by
  simp only [isVisible, Bool.and_eq_true, decide_eq_true_eq] at h
  simp only [isWhitespace, Bool.or_eq_false_iff, Bool.and_eq_false_iff, decide_eq_false_iff_not,
    beq_eq_false_iff_ne]
  omega

theorem isVisible_of_mem_uuid {id : Uuid} {c : Char} (hc : c ∈ id.toString.toList) :
    isVisible c = true := by
  rcases Uuid.mem_toString hc with rfl | ⟨digit, hdigit, rfl⟩
  · decide
  · exact isVisible_digitChar digit hdigit

theorem isVisible_of_mem_hexDigest {digest : List UInt8} {c : Char}
    (hc : c ∈ (hexDigest digest).toList) : isVisible c = true := by
  obtain ⟨digit, hdigit, rfl⟩ := mem_hexDigest hc
  exact isVisible_digitChar digit hdigit

theorem isVisible_of_mem_time {value : Int64} {c : Char} (hc : c ∈ (toString value).toList) :
    isVisible c = true := by
  obtain rfl | hdigit := mem_time hc
  · decide
  · simp only [Char.isDigit, Bool.and_eq_true, decide_eq_true_eq] at hdigit
    have hlow : 48 ≤ c.toNat := hdigit.1
    have hhigh : c.toNat ≤ 57 := hdigit.2
    simp only [isVisible, Bool.and_eq_true, decide_eq_true_eq]
    omega

theorem daemonToken_presentable (id : Uuid) : daemonToken id ≠ "" ∧
    ∀ c ∈ (daemonToken id).toList, isVisible c = true := by
  constructor
  · intro hempty
    have hchars := congrArg String.toList hempty
    rw [daemonToken, String.toList_append] at hchars
    cases hchars
  · intro c hc
    rw [daemonToken, String.toList_append, List.mem_append] at hc
    rcases hc with hc | hc
    · exact List.all_eq_true.mp (by decide +kernel) c hc
    · exact isVisible_of_mem_uuid hc

-- The token that is issued is read back, whatever blanks stand around it in the file.
theorem readDaemonToken_issued (id : Uuid) {before after : List Char}
    (hbefore : ∀ c ∈ before, isWhitespace c) (hafter : ∀ c ∈ after, isWhitespace c) :
    readDaemonToken (String.ofList before ++ daemonToken id ++ String.ofList after) =
      .ok (daemonToken id) := by
  obtain ⟨hsome, hvisible⟩ := daemonToken_presentable id
  have hfree {c : Char} (hc : c ∈ (daemonToken id).toList) : isWhitespace c = false :=
    isWhitespace_of_isVisible (hvisible c hc)
  have htrim : trim (String.ofList before ++ daemonToken id ++ String.ofList after) =
      daemonToken id := by
    have hstart : before.dropWhile isWhitespace = [] := List.dropWhile_eq_nil_iff.mpr hbefore
    have hend : after.rdropWhile isWhitespace = [] := List.rdropWhile_eq_nil_iff.mpr hafter
    have hkept : (daemonToken id).toList.dropWhile isWhitespace = (daemonToken id).toList := by
      rw [List.dropWhile_eq_self_iff]
      intro hlength
      simpa using hfree (List.getElem_mem hlength)
    have hchars : (String.ofList before ++ daemonToken id ++ String.ofList after).toList =
        before ++ ((daemonToken id).toList ++ after) := by
      rw [String.toList_append, String.toList_append, String.toList_ofList, String.toList_ofList,
        List.append_assoc]
    have hback : (daemonToken id).toList.rdropWhile isWhitespace = (daemonToken id).toList := by
      rw [List.rdropWhile_eq_self_iff]
      intro hlast
      simpa using hfree (List.getLast_mem hlast)
    have hfront : ((daemonToken id).toList ++ after).dropWhile isWhitespace =
        (daemonToken id).toList ++ after := by
      rw [List.dropWhile_append, hkept, if_neg]
      rwa [List.isEmpty_iff, String.toList_eq_nil_iff]
    apply String.toList_inj.mp
    rw [trim_eq, toList_trimEnd, toList_trimStart, hchars, List.dropWhile_append, hstart,
      List.isEmpty_nil, if_pos rfl, hfront, rdropWhile_append, if_pos hend, hback]
  rw [readDaemonToken]
  simp only [htrim]
  rw [if_neg hsome]

end Token

section Received

variable {sha256 : List UInt8 → List UInt8} {url token : String} {nowSeconds : Nat} {nonce : Uuid}
  {call : DaemonCall}

theorem bodyHash_presentable (hdigest : ∀ input, sha256 input ≠ []) (call : DaemonCall) :
    call.bodyHash sha256 ≠ "" ∧ ∀ c ∈ (call.bodyHash sha256).toList, isVisible c = true := by
  have hhash : ∀ payload : List UInt8, hashBytes sha256 payload ≠ "" ∧
      ∀ c ∈ (hashBytes sha256 payload).toList, isVisible c = true :=
    fun payload => ⟨hexDigest_ne_empty (hdigest payload), fun _ => isVisible_of_mem_hexDigest⟩
  cases call with
  | register payload => exact hhash payload
  | heartbeat payload => exact hhash payload
  | complete jobId payload => exact hhash payload
  | lease =>
    have hempty : DaemonCall.lease.bodyHash sha256 = EMPTY_BODY_HASH := rfl
    rw [hempty]
    exact ⟨by decide, List.all_eq_true.mp (by decide +kernel)⟩

theorem header_build :
    (call.build sha256 url token nowSeconds nonce).header AUTHORIZATION =
      some ("Bearer " ++ token) := by
  simp [ClientRequest.header, DaemonCall.build, thenSign, AUTHORIZATION,
    DAEMON_SIGNATURE_TIMESTAMP_HEADER, DAEMON_SIGNATURE_NONCE_HEADER,
    DAEMON_SIGNATURE_BODY_HASH_HEADER, DAEMON_SIGNATURE_HEADER]

-- All that the client signs is text that a header carries.
theorem signedHeaders_of_carries {path : String} {received : DaemonRequest}
    (hcarries : Carries (call.build sha256 url token nowSeconds nonce) path received)
    (hdigest : ∀ input, sha256 input ≠ []) (hsome : token ≠ "")
    (hvisible : ∀ c ∈ token.toList, isVisible c = true) :
    SignedHeaders sha256 token "POST" call.path (call.bodyHash sha256) (asI64 nowSeconds)
      nonce.toString received where
  timestampHeader := hcarries.headers _ (by simp [SIGNED_HEADERS]) _ rfl
    (headerText_of_visible fun _ => isVisible_of_mem_time)
  nonceHeader := hcarries.headers _ (by simp [SIGNED_HEADERS]) _ rfl
    (headerText_of_visible fun _ => isVisible_of_mem_uuid)
  bodyHashHeader := hcarries.headers _ (by simp [SIGNED_HEADERS]) _ rfl
    (headerText_of_visible (bodyHash_presentable hdigest call).2)
  signatureHeader := hcarries.headers _ (by simp [SIGNED_HEADERS]) _ rfl
    (headerText_of_visible fun _ => isVisible_of_mem_hexDigest)
  authorizationHeader := hcarries.headers _ (by simp [SIGNED_HEADERS]) _ header_build
    (headerText_bearer hsome hvisible)

variable (sha256 token nowSeconds nonce call) in
def signedFields : RequestSignature :=
  { timestamp := asI64 nowSeconds
    nonce := nonce.toString
    signature := computeRequestSignature sha256 (hashToken sha256 token) "POST" call.path
      (asI64 nowSeconds) nonce.toString (call.bodyHash sha256)
    bodyHash := call.bodyHash sha256 }

theorem requestSignature_received {received : DaemonRequest}
    (h : SignedHeaders sha256 token "POST" call.path (call.bodyHash sha256) (asI64 nowSeconds)
      nonce.toString received) (hdigest : ∀ input, sha256 input ≠ []) :
    requestSignature received = .ok (signedFields sha256 token nowSeconds nonce call) := by
  obtain ⟨hbody, hvisible⟩ := bodyHash_presentable hdigest call
  exact requestSignature_of_signedHeaders h hdigest
    ⟨hbody, fun c hc => isWhitespace_of_isVisible (hvisible c hc)⟩
    ⟨Uuid.toString_ne_empty nonce, fun _ => isWhitespace_of_mem_uuid⟩

end Received

end Mizan.Daemon
