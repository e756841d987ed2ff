import Mizan.Auth.Acceptance

namespace Mizan.Auth

open Interleaving

section Checks

variable {crypto : Crypto} {s : AuthState}

-- Whose key an authorization is, going by the log.
def KeyOf (log : List (Registry.Entry GrantedKey)) (authorization : String) (id owner : Uuid) :
    Prop :=
  ∃ token, authorizationToken authorization = some token ∧
    Registry.Live log { token, id, owner }

-- Whose session the headers carry, going by the log and the time.
def SessionOf (log : List (Registry.Entry GrantedSession)) (now : Int64) (headers : HeaderMap)
    (userId : Uuid) : Prop :=
  ∃ token expiry, sessionTokenFromHeaders headers = some token ∧
    Registry.Live log { token, userId, expiresAt := some expiry } ∧ now < expiry

def AcceptsKey (crypto : Crypto) (s : AuthState) (authorization : String) : Prop :=
  ∃ identity, s.identity crypto authorization = .ok identity

def AcceptsSession (crypto : Crypto) (s : AuthState) (headers : HeaderMap) : Prop :=
  ∃ userId, s.sessionUser crypto headers = .ok userId

theorem findApiKey_iff {log : List (Registry.Entry GrantedKey)} {row : ApiKeyRecord}
    (hinjective : Function.Injective crypto.sha256) (h : KeysRecorded crypto s.apiKeys log)
    {token : String} :
    (∃ role, s.findApiKey (hashValue crypto token) = some (row, role)) ↔
      row ∈ s.apiKeys ∧ apiKey row.id = token ∧ row.revoked = false := by
  have hhash : ∀ other ∈ s.apiKeys, other.keyHash = hashValue crypto token ↔
      apiKey other.id = token := by
    intro other hmem
    rw [h.hashes other hmem]
    exact ⟨fun heq => Daemon.hashValue_injective hinjective heq, congrArg (hashValue crypto)⟩
  unfold AuthState.findApiKey
  constructor
  · rintro ⟨role, hfound⟩
    obtain ⟨other, hother, heq⟩ := Option.map_eq_some_iff.mp hfound
    obtain rfl : other = row := congrArg Prod.fst heq
    have hmem := List.mem_of_find?_eq_some hother
    have hselected := List.find?_some hother
    simp only [Bool.and_eq_true, decide_eq_true_eq, Bool.not_eq_true'] at hselected
    exact ⟨hmem, (hhash other hmem).mp hselected.1, hselected.2⟩
  · rintro ⟨hmem, htoken, hrevoked⟩
    have hkey := (hhash row hmem).mpr htoken
    have hfound := @Table.find?_eq_some_of_key _ _
      (fun row : ApiKeyRecord => row.keyHash = hashValue crypto token && !row.revoked) _ row
      ApiKeyRecord.keyHash h.unique hmem (by simp [hkey, hrevoked]) ?_
    · rw [hfound]
      exact ⟨_, rfl⟩
    · intro other _ hother
      simp only [Bool.and_eq_true, decide_eq_true_eq] at hother
      rw [hother.1, hkey]

theorem identity_iff {log : List (Registry.Entry GrantedKey)}
    (hinjective : Function.Injective crypto.sha256) (h : KeysRecorded crypto s.apiKeys log)
    (authorization : String) (id owner : Uuid) :
    (∃ userRole, s.identity crypto authorization =
        .ok { apiKeyId := id, userId := owner, userRole }) ↔ KeyOf log authorization id owner := by
  unfold KeyOf
  cases htoken : authorizationToken authorization with
  | none =>
      unfold AuthState.identity resolveApiKeyIdentity
      simp only [htoken]
      constructor
      · rintro ⟨role, hrole⟩
        cases hrole
      · rintro ⟨token, hnone, _⟩
        cases hnone
  | some token =>
      rw [identity_eq htoken]
      have hlive := @Registry.Records.live_iff _ _ _ _ _ _ _
        { token, id, owner } h.records not_false
      constructor
      · rintro ⟨role, hrole⟩
        cases hfound : s.findApiKey (hashValue crypto token) with
        | none =>
            rw [hfound] at hrole
            cases hrole
        | some found =>
            obtain ⟨row, userRole⟩ := found
            rw [hfound] at hrole
            cases hrole
            obtain ⟨hmem, hkey, hrevoked⟩ := (findApiKey_iff hinjective h).mp ⟨_, hfound⟩
            exact ⟨token, rfl, hlive.mpr ⟨row, hmem, by rw [grantedKey, hkey], hrevoked⟩⟩
      · rintro ⟨presented, hpresented, hgranted⟩
        cases hpresented
        obtain ⟨row, hmem, hrow, hrevoked⟩ := hlive.mp hgranted
        obtain ⟨hkey, rfl, rfl⟩ := GrantedKey.mk.inj hrow
        obtain ⟨role, hfound⟩ := (findApiKey_iff hinjective h).mpr ⟨hmem, hkey, hrevoked⟩
        rw [hfound]
        exact ⟨role, rfl⟩

theorem findSession_iff {log : List (Registry.Entry GrantedSession)} {now : Int64}
    {row : SessionRecord} (hinjective : Function.Injective crypto.sha256)
    (h : SessionsRecorded crypto now s.sessions log) {token : String} :
    s.findSession (hashValue crypto token) = some row ↔
      row ∈ s.sessions ∧ sessionToken row.id = token ∧ row.revoked = false := by
  have hhash : ∀ other ∈ s.sessions, other.sessionTokenHash = hashValue crypto token ↔
      sessionToken other.id = token := by
    intro other hmem
    rw [h.hashes other hmem]
    exact ⟨fun heq => Daemon.hashValue_injective hinjective heq, congrArg (hashValue crypto)⟩
  unfold AuthState.findSession
  constructor
  · intro hfound
    have hmem := List.mem_of_find?_eq_some hfound
    have hselected := List.find?_some hfound
    simp only [AuthState.liveSession, Bool.and_eq_true, decide_eq_true_eq,
      Bool.not_eq_true'] at hselected
    exact ⟨hmem, (hhash row hmem).mp hselected.1, hselected.2⟩
  · rintro ⟨hmem, htoken, hrevoked⟩
    have hkey := (hhash row hmem).mpr htoken
    refine Table.find?_eq_some_of_key h.unique hmem ?_ fun other _ hother => ?_
    · simp [AuthState.liveSession, hkey, hrevoked]
    · simp only [AuthState.liveSession, Bool.and_eq_true, decide_eq_true_eq] at hother
      rw [hother.1, hkey]

theorem sessionUser_iff {log : List (Registry.Entry GrantedSession)}
    (hinjective : Function.Injective crypto.sha256)
    (h : SessionsRecorded crypto (asI64 s.nowSeconds) s.sessions log) (headers : HeaderMap)
    (userId : Uuid) :
    s.sessionUser crypto headers = .ok userId ↔
      SessionOf log (asI64 s.nowSeconds) headers userId := by
  unfold SessionOf
  cases htoken : sessionTokenFromHeaders headers with
  | none =>
      unfold AuthState.sessionUser sessionUserIdFromHeader
      simp only [htoken]
      constructor
      · intro hnone
        cases hnone
      · rintro ⟨token, expiry, hnone, _⟩
        cases hnone
  | some token =>
      rw [sessionUser_eq htoken]
      constructor
      · intro huser
        cases hfound : s.findSession (hashValue crypto token) with
        | none =>
            rw [hfound] at huser
            cases huser
        | some row =>
            obtain ⟨hmem, hkey, hrevoked⟩ := (findSession_iff hinjective h).mp hfound
            rw [hfound] at huser
            dsimp only at huser
            cases hexpiry : row.expiresAt with
            | none => exact absurd hexpiry (h.expire row hmem)
            | some expiry =>
                rw [hexpiry] at huser
                dsimp only at huser
                split at huser
                · cases huser
                · rename_i hfresh
                  cases huser
                  have hlive := h.records.live row hmem hrevoked
                  rw [grantedSession, hkey, hexpiry] at hlive
                  exact ⟨token, expiry, rfl, hlive, Int64.not_le.mp hfresh⟩
      · rintro ⟨presented, expiry, hpresented, hgranted, hfresh⟩
        cases hpresented
        have hlapsed : ¬Lapsed (asI64 s.nowSeconds)
            { token, userId, expiresAt := some expiry } := by
          rintro ⟨other, hother, hle⟩
          cases hother
          exact Int64.not_le.mpr hfresh hle
        obtain ⟨row, hmem, hrow, hrevoked⟩ := (h.records.live_iff hlapsed).mp hgranted
        obtain ⟨hkey, rfl, hexpiry⟩ := GrantedSession.mk.inj hrow
        rw [(findSession_iff hinjective h).mpr ⟨hmem, hkey, hrevoked⟩]
        dsimp only
        rw [hexpiry]
        exact if_neg (Int64.not_le.mpr hfresh)

end Checks

end Mizan.Auth
