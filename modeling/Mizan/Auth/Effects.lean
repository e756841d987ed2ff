import Mizan.Auth.History
import Mizan.Interleaving.Typestate

namespace Mizan.Auth

open Interleaving

-- What an operation that issues and withdraws nothing leaves as it was.
def CredentialsKept (s s' : AuthState) : Prop :=
  s'.sessions = s.sessions ∧ s'.apiKeys = s.apiKeys ∧ s'.nowSeconds = s.nowSeconds

theorem CredentialsKept.refl (s : AuthState) : CredentialsKept s s := ⟨rfl, rfl, rfl⟩

theorem CredentialsKept.trans (s s' s'' : AuthState) (h : CredentialsKept s s')
    (h' : CredentialsKept s' s'') : CredentialsKept s s'' :=
  ⟨h'.1.trans h.1, h'.2.1.trans h.2.1, h'.2.2.trans h.2.2⟩

-- The commands that read, or write accounts only.
def AuthCommand.keepsCredentials : AuthCommand → Bool
  | .insertSession _ | .revokeSession .. | .expireSession _ | .insertApiKey _ | .revokeApiKey .. =>
      false
  | _ => true

section Commands

variable {crypto : Crypto} {s s' : AuthState} {choice : AuthChoice}

theorem attempt_kept {c : AuthCommand} {response : c.Response} (hc : c.keepsCredentials = true)
    (h : AuthState.attempt crypto c choice s = some (response, s')) : CredentialsKept s s' := by
  have h := Option.some.inj h
  have hsame := CredentialsKept.refl s
  cases c with
  | insertSession row | revokeSession tokenHash updatedAt | expireSession id | insertApiKey row
  | revokeApiKey id userId updatedAt => cases hc
  | nowV7 | nowUtcEpochSeconds =>
      cases h
      exact hsame
  | insertUser row =>
      rcases guarded_cases h with ⟨_, rfl⟩ | ⟨_, hfresh⟩
      · exact hsame
      rcases guarded_cases hfresh with ⟨_, rfl⟩ | ⟨_, hinserted⟩
      · exact hsame
      · exact of_reply hsame ⟨rfl, rfl, rfl⟩ hinserted
  | updateRole id role => exact of_reply hsame ⟨rfl, rfl, rfl⟩ h
  | findUser email => exact of_reply hsame hsame h
  | selectSession tokenHash => exact of_reply hsame hsame h
  | selectApiKey keyHash => exact of_reply hsame hsame h
  | bcryptHash password => exact of_reply hsame hsame h
  | joinVerification => exact of_reply hsame hsame h

theorem attempt_nowSeconds {c : AuthCommand} {response : c.Response}
    (h : AuthState.attempt crypto c choice s = some (response, s')) :
    s'.nowSeconds = s.nowSeconds := by
  by_cases hc : c.keepsCredentials = true
  · exact (attempt_kept hc h).2.2
  have h := Option.some.inj h
  cases c with
  | insertSession row | insertApiKey row =>
      rcases guarded_unexecuted_cases h with ⟨_, _, rfl⟩ | ⟨_, _, rfl⟩
      · rfl
      · rfl
  | revokeSession tokenHash updatedAt | expireSession id | revokeApiKey id userId updatedAt =>
      rcases unexecuted_cases h with ⟨_, rfl⟩ | ⟨_, _, rfl⟩
      · rfl
      · rfl
  | findUser | insertUser | updateRole | selectSession | selectApiKey | bcryptHash
  | joinVerification | nowV7 | nowUtcEpochSeconds => exact absurd rfl hc

end Commands

-- Programs of such commands, whatever they are answered.
def accountsOnly : Typestate AuthCommand AuthCommand.Response Unit where
  enabled _ c := c.keepsCredentials = true
  after _ _ _ := ()

def AccountsOnly {α : Type} (program : AuthM α) : Prop :=
  accountsOnly.Respects (Typestate.outcome (fun _ _ => True) fun _ _ => True) program.run ()

section Accounts

variable {crypto : Crypto} {α β : Type}

theorem accounts_perform {c : AuthCommand} {result : c.Response → Except AppError α}
    (hc : c.keepsCredentials = true) : AccountsOnly (Prog.perform c result) := by
  refine Typestate.respects_perform hc fun response => ?_
  cases result response with
  | ok value => trivial
  | error error => trivial

theorem accounts_pure (value : α) : AccountsOnly (pure value) := Typestate.respects_pure trivial

theorem accounts_throw (error : AppError) : AccountsOnly (throw error : AuthM α) :=
  Typestate.respects_throw trivial

theorem accounts_bind {program : AuthM α} {rest : α → AuthM β} (h : AccountsOnly program)
    (hrest : ∀ value, AccountsOnly (rest value)) : AccountsOnly (program >>= rest) :=
  Typestate.respects_seq h fun _ value _ => hrest value

theorem accounts_findUserByEmail (email : String) : AccountsOnly (findUserByEmail email) :=
  accounts_perform rfl

theorem accounts_unixTimestampString : AccountsOnly unixTimestampString :=
  accounts_bind (accounts_perform rfl) accounts_pure

theorem accounts_createUser (email password role : String) :
    AccountsOnly (createUser crypto email password role) := by
  refine accounts_bind (accounts_perform rfl) fun hashed => ?_
  refine accounts_bind accounts_unixTimestampString fun now => ?_
  refine accounts_bind (accounts_perform rfl) fun id => ?_
  refine accounts_bind (accounts_perform rfl) fun affected => ?_
  split
  · exact accounts_throw _
  · exact accounts_pure _

theorem accounts_promote (user : DbUser) (role words : String) :
    AccountsOnly (promote user role words) := by
  unfold promote
  split
  · exact accounts_bind (accounts_perform rfl) fun _ => accounts_pure _
  · exact accounts_pure _

theorem accounts_createAdmin (email password role : String) :
    AccountsOnly (createAdmin crypto email password role) := by
  refine Typestate.respects_bind (accounts_createUser email password role) fun _ result _ => ?_
  cases result with
  | ok response => trivial
  | error error =>
      dsimp only
      split
      · refine accounts_bind (accounts_findUserByEmail email) fun found => ?_
        cases found with
        | none => exact accounts_throw _
        | some user => exact accounts_promote user role _
      · trivial

theorem accounts_ensureAdminSeed (email password role : String) :
    AccountsOnly (ensureAdminSeed crypto email password role) := by
  unfold ensureAdminSeed
  dsimp only
  split
  · exact accounts_throw _
  · refine accounts_bind (accounts_findUserByEmail _) fun found => ?_
    cases found with
    | none => exact accounts_createAdmin _ password role
    | some user => exact accounts_promote user role _

theorem accounts_register (payload : RegisterRequest) : AccountsOnly (register crypto payload) := by
  unfold register
  dsimp only
  split
  · exact accounts_throw _
  · exact accounts_createUser _ payload.password "member"

theorem AccountsOnly.kept {program : AuthM α} (h : AccountsOnly program) (s : AuthState) :
    program.run.Throughout (AuthState.attempt crypto) (fun _ => True)
      (fun _ s' => CredentialsKept s s') s := by
  refine @Typestate.Respects.throughout _ _ _ _ _ _ accountsOnly () _ CredentialsKept
    CredentialsKept.refl CredentialsKept.trans ?_ program.run _ h s
  exact fun _ c choice s response s' hc hexec => attempt_kept hc hexec

end Accounts

-- What a program returns and leaves behind, whichever of its statements fail.
abbrev Yields {α : Type} (crypto : Crypto) (program : Prog AuthCommand AuthCommand.Response α)
    (post : α → AuthState → Prop) (s : AuthState) : Prop :=
  program.Throughout (AuthState.attempt crypto) (fun _ => True) post s

section Credentials

variable {crypto : Crypto} {s : AuthState} {α : Type} {failed : AppError → AuthState → Prop}

theorem yields_nowV7 : Yields crypto nowV7.run (Prog.ends (fun _ s' => s' = s) failed) s := by
  refine Prog.throughout_perform trivial fun choice response s' hexec => ?_
  cases hexec
  rfl

theorem yields_nowUtcEpochSeconds : Yields crypto nowUtcEpochSeconds.run
    (Prog.ends (fun now s' => now = asI64 s.nowSeconds ∧ s' = s) failed) s := by
  refine Prog.throughout_perform trivial fun choice response s' hexec => ?_
  cases hexec
  exact ⟨rfl, rfl⟩

theorem yields_unixTimestampString : Yields crypto unixTimestampString.run
    (Prog.ends (fun _ s' => s' = s) failed) s := by
  refine Prog.throughout_seq yields_nowUtcEpochSeconds fun now s' hnow => ?_
  exact hnow.2

theorem yields_answered {program : AuthM α} {post : Except AuthHttpError α → AuthState → Prop}
    (h : Yields crypto program.run (fun result => post (result.mapError fromAppError)) s) :
    Yields crypto (answered program).run post s :=
  Prog.throughout_map h

theorem yields_insertApiKey (row : ApiKeyRecord) :
    Yields crypto (Prog.perform (.insertApiKey row) (described "") : AuthM Nat).run
      (Prog.ends (fun affected s' => affected = 1 ∧
          (∀ other ∈ s.apiKeys, other.id ≠ row.id ∧ other.keyHash ≠ row.keyHash) ∧
          s' = { s with apiKeys := s.apiKeys ++ [row] })
        fun _ s' => s' = s) s := by
  refine Prog.throughout_perform trivial fun choice response s' hexec => ?_
  rcases guarded_unexecuted_cases (Option.some.inj hexec) with ⟨hfresh, rfl, rfl⟩ | ⟨_, rfl, rfl⟩
  · refine ⟨rfl, fun other hmem => ?_, rfl⟩
    simpa using List.any_eq_false.mp hfresh other hmem
  · rfl

-- A new key is stored under an id and a hash that no key has, or nothing is stored.
def KeyCreated (crypto : Crypto) (userId : Uuid) (s : AuthState) (response : ApiKeyCreateResponse)
    (s' : AuthState) : Prop :=
  ∃ label now, (∀ row ∈ s.apiKeys, row.id ≠ response.id ∧
      row.keyHash ≠ hashValue crypto (apiKey response.id)) ∧
    response.key = apiKey response.id ∧
    s' = { s with apiKeys := s.apiKeys ++ [newApiKey crypto userId response.id label now] }

theorem yields_createApiKeyForUser (userId : Uuid) (label : Option String) :
    Yields crypto (createApiKeyForUser crypto userId label).run
      (Prog.ends (KeyCreated crypto userId s) fun _ s' => s' = s) s := by
  refine Prog.throughout_seq yields_nowV7 fun id s₁ hid => ?_
  subst hid
  refine Prog.throughout_seq yields_unixTimestampString fun now s₂ hnow => ?_
  subst hnow
  refine Prog.throughout_seq (yields_insertApiKey (newApiKey crypto userId id label now))
    fun affected s₃ hinserted => ?_
  obtain ⟨rfl, hfresh, rfl⟩ := hinserted
  exact ⟨label, now, hfresh, rfl, rfl⟩

theorem yields_revokeApiKeyByOwner (userId apiKeyId : Uuid) :
    Yields crypto (revokeApiKeyByOwner userId apiKeyId).run
      (Prog.ends (fun _ s' => ∃ updatedAt, s' = s.revokeApiKey apiKeyId userId updatedAt)
        fun _ s' => s' = s) s := by
  refine Prog.throughout_seq yields_unixTimestampString fun updatedAt s₁ hnow => ?_
  subst hnow
  refine @Prog.throughout_seq _ _ _ _ _ _ _ _ _ _ _ (fun (_ : Nat) s' =>
    s' = s₁.revokeApiKey apiKeyId userId updatedAt) _ _ _ ?_ fun _ s₂ hrevoked =>
      ⟨updatedAt, hrevoked⟩
  refine Prog.throughout_perform trivial fun choice response s' hexec => ?_
  rcases unexecuted_cases (Option.some.inj hexec) with ⟨rfl, rfl⟩ | ⟨_, rfl, rfl⟩
  · rfl
  · rfl

theorem yields_insertSession (row : SessionRecord) :
    Yields crypto (Prog.perform (.insertSession row) (described "") : AuthM Nat).run
      (Prog.ends (fun affected s' => affected = 1 ∧
          (∀ other ∈ s.sessions, other.id ≠ row.id ∧
            other.sessionTokenHash ≠ row.sessionTokenHash) ∧
          s' = { s with sessions := s.sessions ++ [row] })
        fun _ s' => s' = s) s := by
  refine Prog.throughout_perform trivial fun choice response s' hexec => ?_
  rcases guarded_unexecuted_cases (Option.some.inj hexec) with ⟨hfresh, rfl, rfl⟩ | ⟨_, rfl, rfl⟩
  · refine ⟨rfl, fun other hmem => ?_, rfl⟩
    simpa using List.any_eq_false.mp hfresh other hmem
  · rfl

-- A new session is stored under an id and a hash that no session has, or nothing is stored.
def SessionCreated (crypto : Crypto) (s : AuthState) (userId : Uuid) (token expiresAt : String)
    (s' : AuthState) : Prop :=
  ∃ id now, (∀ row ∈ s.sessions, row.id ≠ id ∧
      row.sessionTokenHash ≠ hashValue crypto (sessionToken id)) ∧
    token = sessionToken id ∧ expiresAt = toString (now + SESSION_TTL_SECONDS) ∧
    s' = { s with sessions := s.sessions ++ [newSession crypto userId id now] }

theorem yields_createSession (userId : Uuid) :
    Yields crypto (createSession crypto userId).run
      (Prog.ends (fun issued => SessionCreated crypto s userId issued.token issued.expiresAt)
        fun _ s' => s' = s) s := by
  refine Prog.throughout_seq yields_nowV7 fun id s₁ hid => ?_
  subst hid
  refine Prog.throughout_seq yields_nowUtcEpochSeconds fun now s₂ hnow => ?_
  obtain ⟨-, rfl⟩ := hnow
  refine Prog.throughout_seq (yields_insertSession (newSession crypto userId id now))
    fun affected s₃ hinserted => ?_
  obtain ⟨rfl, hfresh, rfl⟩ := hinserted
  exact ⟨id, now, hfresh, rfl, rfl, rfl⟩

theorem yields_login (payload : LoginRequest) :
    Yields crypto (login crypto payload).run
      (Prog.ends (fun response =>
          SessionCreated crypto s response.userId response.accessToken response.expiresAt)
        fun _ s' => s' = s) s := by
  unfold login
  dsimp only
  split
  · exact rfl
  refine @Prog.throughout_seq _ _ _ _ _ _ _ _ _ _ _
    (fun (_ : Option DbUser) s' => s' = s) _ _ _ ?_ ?_
  · refine Prog.throughout_perform trivial fun choice response s' hexec => ?_
    rcases unexecuted_cases (Option.some.inj hexec) with ⟨rfl, rfl⟩ | ⟨_, rfl, rfl⟩
    · rfl
    · rfl
  rintro found s₁ rfl
  cases found with
  | none => exact rfl
  | some user =>
      refine @Prog.throughout_seq _ _ _ _ _ _ _ _ _ _ _ (fun (_ : Bool) s' => s' = s₁) _ _ _ ?_ ?_
      · refine @Prog.throughout_seq _ _ _ _ _ _ _ _ _ _ _ (fun (_ : Unit) s' => s' = s₁) _ _ _ ?_ ?_
        · refine Prog.throughout_perform trivial fun choice response s' hexec => ?_
          rcases unexecuted_cases (Option.some.inj hexec) with ⟨rfl, rfl⟩ | ⟨_, rfl, rfl⟩
          · rfl
          · rfl
        · rintro _ s₂ rfl
          cases described "password verification failed: "
              (crypto.bcryptVerify payload.password user.passwordHash) with
          | ok verified => exact rfl
          | error error => exact rfl
      rintro verified s₂ rfl
      split
      · exact rfl
      · exact Prog.throughout_seq (yields_createSession user.id) fun session s₃ hcreated => hcreated

theorem yields_logout (headers : HeaderMap) :
    Yields crypto (logout crypto headers).run
      (Prog.ends (fun _ s' => ∃ token updatedAt, sessionTokenFromHeaders headers = some token ∧
          s' = s.revokeSession (hashValue crypto token) updatedAt)
        fun _ s' => s' = s) s := by
  unfold logout
  split
  · exact rfl
  · rename_i token htoken
    refine yields_answered ?_
    refine Prog.throughout_mono (fun _ => id) ?_ (@Prog.throughout_seq _ _ _ _ _ _ _ _ _ _ _
      (fun _ s' => s' = s) (fun (_ : AppError) s' => s' = s) _ (fun (_ : Bool) s' => ∃ updatedAt,
        s' = s.revokeSession (hashValue crypto token) updatedAt) yields_unixTimestampString ?_)
    · intro result s' hresult
      cases result with
      | ok revoked =>
          obtain ⟨updatedAt, rfl⟩ := hresult
          exact ⟨token, updatedAt, htoken, rfl⟩
      | error error => exact hresult
    · rintro updatedAt s₁ rfl
      refine @Prog.throughout_seq _ _ _ _ _ _ _ _ _ _ _ (fun (_ : Nat) s' =>
        s' = s₁.revokeSession (hashValue crypto token) updatedAt) _ _ _ ?_
          fun _ s₂ hrevoked => ⟨updatedAt, hrevoked⟩
      refine Prog.throughout_perform trivial fun choice response s' hexec => ?_
      rcases unexecuted_cases (Option.some.inj hexec) with ⟨rfl, rfl⟩ | ⟨_, rfl, rfl⟩
      · rfl
      · rfl

theorem identity_eq {authorization token : String}
    (htoken : authorizationToken authorization = some token) :
    s.identity crypto authorization =
      match s.findApiKey (hashValue crypto token) with
      | none => .error unauthorized
      | some (row, userRole) => .ok { apiKeyId := row.id, userId := row.userId, userRole } := by
  have hselected : Prog.eval (AuthState.answer crypto)
      (Prog.perform (.selectApiKey (hashValue crypto token)) (Except.mapError databaseFailed) :
        AuthHttpM (Option (ApiKeyRecord × String))).run s =
      (.ok (s.findApiKey (hashValue crypto token)), s) := rfl
  unfold AuthState.identity resolveApiKeyIdentity
  simp only [htoken]
  rw [Prog.eval_ok hselected]
  cases s.findApiKey (hashValue crypto token) with
  | none => rfl
  | some found => rfl

theorem sessionUser_eq {headers : HeaderMap} {token : String}
    (htoken : sessionTokenFromHeaders headers = some token) :
    s.sessionUser crypto headers =
      match s.findSession (hashValue crypto token) with
      | none => .error unauthorized
      | some row =>
          match row.expiresAt with
          | none => .error
              { status := UNAUTHORIZED
                error := .invalidConfig "session" "missing or invalid session expiry" }
          | some expiry =>
              if expiry ≤ asI64 s.nowSeconds then .error unauthorized else .ok row.userId := by
  have hselected : Prog.eval (AuthState.answer crypto)
      (Prog.perform (.selectSession (hashValue crypto token)) (Except.mapError databaseFailed) :
        AuthHttpM (Option SessionRecord)).run s =
      (.ok (s.findSession (hashValue crypto token)), s) := rfl
  have hclock : Prog.eval (AuthState.answer crypto)
      (Prog.perform .nowUtcEpochSeconds Except.ok : AuthHttpM Int64).run s =
      (.ok (asI64 s.nowSeconds), s) := rfl
  unfold AuthState.sessionUser sessionUserIdFromHeader
  simp only [htoken]
  rw [Prog.eval_ok hselected]
  cases s.findSession (hashValue crypto token) with
  | none => rfl
  | some row =>
      dsimp only
      rw [Prog.eval_ok hclock]
      cases row.expiresAt with
      | none => rfl
      | some expiry =>
          dsimp only
          by_cases hexpired : expiry ≤ asI64 s.nowSeconds
          · rw [if_pos hexpired, if_pos hexpired]
            rfl
          · rw [if_neg hexpired, if_neg hexpired]
            rfl

-- The answer of a check, or that the database has failed.
def Checked {α : Type} (expected answer : Except AuthHttpError α) : Prop :=
  answer = expected ∨ ∃ message, answer = .error (databaseFailed message)

theorem yields_resolveApiKeyIdentity (authorization : String) :
    Yields crypto (resolveApiKeyIdentity crypto authorization).run
      (fun answer s' => s' = s ∧ Checked (s.identity crypto authorization) answer) s := by
  cases htoken : authorizationToken authorization with
  | none =>
      unfold AuthState.identity resolveApiKeyIdentity
      simp only [htoken]
      exact ⟨rfl, .inl rfl⟩
  | some token =>
      rw [identity_eq htoken]
      unfold resolveApiKeyIdentity
      simp only [htoken]
      rw [ExceptT.run_bind]
      refine @Prog.throughout_bind _ _ _ _ _ _ _ _ _ _ _ (fun found s' => s' = s ∧
        Checked (.ok (s.findApiKey (hashValue crypto token))) found) _ ?_ ?_
      · refine Prog.throughout_perform trivial fun choice response s' hexec => ?_
        rcases unexecuted_cases (Option.some.inj hexec) with ⟨rfl, rfl⟩ | ⟨message, rfl, rfl⟩
        · exact ⟨rfl, .inl rfl⟩
        · exact ⟨rfl, .inr ⟨message, rfl⟩⟩
      · rintro found s' ⟨rfl, rfl | ⟨message, rfl⟩⟩
        · cases s'.findApiKey (hashValue crypto token) with
          | none => exact ⟨rfl, .inl rfl⟩
          | some found => exact ⟨rfl, .inl rfl⟩
        · exact ⟨rfl, .inr ⟨message, rfl⟩⟩

-- The session that a check has found expired.
def Expired (crypto : Crypto) (s : AuthState) (headers : HeaderMap) (s' : AuthState) : Prop :=
  ∃ token row expiry, sessionTokenFromHeaders headers = some token ∧
    s.findSession (hashValue crypto token) = some row ∧ row.expiresAt = some expiry ∧
    expiry ≤ asI64 s.nowSeconds ∧ s' = s.expireSession row.id

theorem yields_sessionUserIdFromHeader (headers : HeaderMap) :
    Yields crypto (sessionUserIdFromHeader crypto headers).run
      (fun answer s' => (s' = s ∨ Expired crypto s headers s') ∧
        Checked (s.sessionUser crypto headers) answer) s := by
  cases htoken : sessionTokenFromHeaders headers with
  | none =>
      unfold AuthState.sessionUser sessionUserIdFromHeader
      simp only [htoken]
      exact ⟨.inl rfl, .inl rfl⟩
  | some token =>
      rw [sessionUser_eq htoken]
      unfold sessionUserIdFromHeader
      simp only [htoken]
      rw [ExceptT.run_bind]
      refine @Prog.throughout_bind _ _ _ _ _ _ _ _ _ _ _ (fun found s' => s' = s ∧
        Checked (.ok (s.findSession (hashValue crypto token))) found) _ ?_ ?_
      · refine Prog.throughout_perform trivial fun choice response s' hexec => ?_
        rcases unexecuted_cases (Option.some.inj hexec) with ⟨rfl, rfl⟩ | ⟨message, rfl, rfl⟩
        · exact ⟨rfl, .inl rfl⟩
        · exact ⟨rfl, .inr ⟨message, rfl⟩⟩
      · rintro found s' ⟨rfl, rfl | ⟨message, rfl⟩⟩
        · cases hfound : s'.findSession (hashValue crypto token) with
          | none => exact ⟨.inl rfl, .inl rfl⟩
          | some row =>
              dsimp only
              refine @Prog.throughout_bind _ _ _ _ _ _ _ _ _ _ _ (fun result s'' =>
                s'' = s' ∧ result = .ok (asI64 s'.nowSeconds)) _ ?_ ?_
              · refine Prog.throughout_perform trivial fun choice response s'' hexec => ?_
                cases hexec
                exact ⟨rfl, rfl⟩
              rintro result s'' ⟨rfl, rfl⟩
              cases hexpiry : row.expiresAt with
              | none => exact ⟨.inl rfl, .inl rfl⟩
              | some expiry =>
                  by_cases hexpired : expiry ≤ asI64 s''.nowSeconds
                  · simp only [ExceptT.bindCont, if_pos hexpired]
                    refine ⟨trivial, fun choice response s₃ hexec => ?_⟩
                    rcases unexecuted_cases (Option.some.inj hexec) with ⟨rfl, rfl⟩ | ⟨_, rfl, rfl⟩
                    · exact ⟨.inr ⟨token, row, expiry, htoken, hfound, hexpiry, hexpired, rfl⟩,
                        .inl rfl⟩
                    · exact ⟨.inl rfl, .inl rfl⟩
                  · simp only [ExceptT.bindCont, if_neg hexpired]
                    exact ⟨.inl rfl, .inl rfl⟩
        · exact ⟨.inl rfl, .inr ⟨message, rfl⟩⟩

end Credentials

end Mizan.Auth
