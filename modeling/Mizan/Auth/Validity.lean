import Mizan.Auth.Checks

namespace Mizan.Auth

open Interleaving

section Handlers

variable {crypto : Crypto} {world : World} {state : AuthState}

end Handlers

section Validity

variable {crypto : Crypto} {world next : World}

-- The history of a run goes on from the history that it starts with.
theorem history_run {actions : List AuthAction}
    (hrun : Machine.run (World.step crypto) actions world = some next) :
    ∃ more, next.history = world.history ++ more := by
  refine @Machine.run_invariant _ _ (World.step crypto) _ _
    (fun w => ∃ more, w.history = world.history ++ more) ?_ actions hrun ⟨[], by simp⟩
  rintro action w w' ⟨more, hmore⟩ hstep
  obtain ⟨_, answer, _, hhistory⟩ := World.step_cases hstep
  exact ⟨more ++ [⟨action.operation, answer⟩], by rw [hhistory, hmore, List.append_assoc]⟩

theorem acceptsKey_iff (hinjective : Function.Injective crypto.sha256) (h : Recorded crypto world)
    {authorization : String} {key : GrantedKey}
    (htoken : authorizationToken authorization = some key.token)
    (hissued : key ∈ Registry.issued (keyLog world.history)) :
    AcceptsKey crypto world.state authorization ↔ Registry.Live (keyLog world.history) key := by
  constructor
  · rintro ⟨⟨id, owner, role⟩, hidentity⟩
    obtain ⟨token, htoken', hlive⟩ :=
      (identity_iff hinjective h.keys authorization id owner).mp ⟨role, hidentity⟩
    cases htoken.symm.trans htoken'
    rw [h.keys.eq_of_token hissued hlive.mem_issued rfl]
    exact hlive
  · intro hlive
    obtain ⟨role, hidentity⟩ := (identity_iff hinjective h.keys authorization key.id key.owner).mpr
      ⟨key.token, htoken, hlive⟩
    exact ⟨_, hidentity⟩

theorem acceptsSession_iff (hinjective : Function.Injective crypto.sha256)
    (h : Recorded crypto world) {headers : HeaderMap} {session : GrantedSession} {seconds : Nat}
    (hclock : world.clock ≤ asI64 seconds)
    (htoken : sessionTokenFromHeaders headers = some session.token)
    (hissued : session ∈ Registry.issued (sessionLog world.history)) :
    AcceptsSession crypto (world.state.atTime seconds) headers ↔
      Registry.Live (sessionLog world.history) session ∧ ¬Lapsed (asI64 seconds) session := by
  have hsessions := (h.tick hclock).sessions
  have hchecks := fun userId => sessionUser_iff (s := world.state.atTime seconds) hinjective
    hsessions headers userId
  constructor
  · rintro ⟨userId, huser⟩
    obtain ⟨token, expiry, htoken', hlive, hfresh⟩ := (hchecks userId).mp huser
    cases htoken.symm.trans htoken'
    rw [hsessions.eq_of_token hissued hlive.mem_issued rfl]
    refine ⟨hlive, ?_⟩
    rintro ⟨other, hother, hle⟩
    cases hother
    exact Int64.not_le.mpr hfresh hle
  · rintro ⟨hlive, hlapsed⟩
    have hrows := hlive.mem_issued
    rw [← hsessions.records.issued] at hrows
    obtain ⟨row, hmem, hrow⟩ := List.mem_map.mp hrows
    obtain ⟨expiry, hexpiry⟩ := Option.ne_none_iff_exists'.mp (hsessions.expire row hmem)
    have hsession : session.expiresAt = some expiry := by rw [← hrow, ← hexpiry]; rfl
    refine ⟨session.userId, (hchecks session.userId).mpr ⟨session.token, expiry, htoken, ?_, ?_⟩⟩
    · rw [← hsession]
      exact hlive
    · exact Int64.not_le.mp fun hle => hlapsed ⟨expiry, hsession, hle⟩

-- What an operation that is not performed for a user leaves of this user's credentials.
theorem live_key_of_other {performed : Performed} {key : GrantedKey} {history : List Performed}
    (hactor : actor history performed ≠ some key.owner) :
    Registry.Live (keyLog (history ++ [performed])) key ↔ Registry.Live (keyLog history) key := by
  obtain ⟨operation, answer⟩ := performed
  cases operation with
  | ensureAdminSeed | register | login | logout | sessionUserIdFromHeader | resolveApiKeyIdentity =>
      rw [keyLog_none rfl]
  | createApiKeyForUser userId label =>
      cases answer with
      | error error => rw [keyLog_none rfl]
      | ok response =>
          rw [keyLog_some rfl, Registry.live_issue, or_iff_right]
          rintro rfl
          exact hactor rfl
  | revokeApiKeyByOwner userId apiKeyId =>
      cases answer with
      | error error => rw [keyLog_none rfl]
      | ok revoked =>
          have howner : key.owner ≠ userId := fun heq => hactor (congrArg some heq.symm)
          rw [keyLog_some rfl, Registry.live_withdraw, and_iff_left]
          simp [howner]

theorem live_session_of_other {performed : Performed} {session : GrantedSession}
    {history : List Performed}
    (hunique : ∀ other ∈ Registry.issued (sessionLog history),
      other.token = session.token → other = session)
    (hissued : session ∈ Registry.issued (sessionLog history))
    (hactor : actor history performed ≠ some session.userId) :
    Registry.Live (sessionLog (history ++ [performed])) session ↔
      Registry.Live (sessionLog history) session := by
  obtain ⟨operation, answer⟩ := performed
  cases operation with
  | ensureAdminSeed | register | createApiKeyForUser | revokeApiKeyByOwner
  | sessionUserIdFromHeader | resolveApiKeyIdentity => rw [sessionLog_none rfl]
  | login payload =>
      cases answer with
      | error error => rw [sessionLog_none rfl]
      | ok response =>
          rw [sessionLog_some rfl, Registry.live_issue, or_iff_right]
          rintro rfl
          exact hactor rfl
  | logout headers =>
      cases answer with
      | error error => rw [sessionLog_none rfl]
      | ok revoked =>
          rw [sessionLog_some rfl, Registry.live_withdraw, and_iff_left]
          -- the first session with the token of these headers is this one
          refine decide_eq_false fun htoken => hactor ?_
          have hfound : ((Registry.issued (sessionLog history)).find? fun other =>
              sessionTokenFromHeaders headers = some other.token) = some session := by
            cases hfirst : (Registry.issued (sessionLog history)).find? fun other =>
                sessionTokenFromHeaders headers = some other.token with
            | none =>
                exact absurd htoken (by simpa using List.find?_eq_none.mp hfirst session hissued)
            | some other =>
                have hother := List.find?_some hfirst
                rw [decide_eq_true_eq, htoken, Option.some.injEq] at hother
                rw [hunique other (List.mem_of_find?_eq_some hfirst) hother.symm]
          simp only [actor, hfound, Option.map_some]

-- A session token is no API key.
theorem sessionToken_ne_apiKey (id id' : Uuid) : sessionToken id ≠ apiKey id' := by
  intro h
  have hstart := congrArg (fun text => text.toList.take 8) h
  simp only [sessionToken, apiKey, String.toList_append] at hstart
  have hsession : SESSION_TOKEN_PREFIX.toList = "mizan_se".toList ++ "ss_".toList := by decide
  have hkey : API_KEY_PREFIX.toList = "mizan_sk".toList ++ "_live_".toList := by decide
  rw [hsession, hkey, List.append_assoc, List.append_assoc, List.take_left' (by decide),
    List.take_left' (by decide)] at hstart
  exact absurd hstart (by decide)

-- What holds of credentials in a world, and stays so in every run from there.
structure CredentialsValid (crypto : Crypto) (world : World) : Prop where
  key_accepted : ∀ authorization id owner,
    (∃ userRole, world.state.identity crypto authorization =
        .ok { apiKeyId := id, userId := owner, userRole }) ↔
      KeyOf (keyLog world.history) authorization id owner
  session_accepted : ∀ seconds : Nat, world.clock ≤ asI64 seconds → ∀ headers userId,
    (world.state.atTime seconds).sessionUser crypto headers = .ok userId ↔
      SessionOf (sessionLog world.history) (asI64 seconds) headers userId
  -- A check that is answered under a failing database accepts nothing else.
  key_checked : ∀ authorization choices answer state,
    (resolveApiKeyIdentity crypto authorization).run.play (AuthState.attempt crypto) choices
      world.state = some (answer, state) →
      Checked (world.state.identity crypto authorization) answer
  session_checked : ∀ (seconds : Nat) headers choices answer state,
    (sessionUserIdFromHeader crypto headers).run.play (AuthState.attempt crypto) choices
      (world.state.atTime seconds) = some (answer, state) →
      Checked ((world.state.atTime seconds).sessionUser crypto headers) answer
  key_stays_refused : ∀ actions next, Machine.run (World.step crypto) actions world = some next →
    ∀ key ∈ Registry.issued (keyLog world.history), ∀ authorization,
      authorizationToken authorization = some key.token →
      ¬AcceptsKey crypto world.state authorization → ¬AcceptsKey crypto next.state authorization
  session_stays_refused : ∀ actions next, Machine.run (World.step crypto) actions world =
    some next →
    ∀ seconds seconds' : Nat, world.clock ≤ asI64 seconds → asI64 seconds ≤ asI64 seconds' →
      next.clock ≤ asI64 seconds' →
    ∀ session ∈ Registry.issued (sessionLog world.history), ∀ headers,
      sessionTokenFromHeaders headers = some session.token →
      ¬AcceptsSession crypto (world.state.atTime seconds) headers →
      ¬AcceptsSession crypto (next.state.atTime seconds') headers
  key_of_other : ∀ action next performed, World.step crypto action world = some next →
    next.history = world.history ++ [performed] →
    ∀ key ∈ Registry.issued (keyLog world.history),
      actor world.history performed ≠ some key.owner → ∀ authorization,
      authorizationToken authorization = some key.token →
      (AcceptsKey crypto next.state authorization ↔ AcceptsKey crypto world.state authorization)
  session_of_other : ∀ action next performed, World.step crypto action world = some next →
    next.history = world.history ++ [performed] →
    ∀ session ∈ Registry.issued (sessionLog world.history),
      actor world.history performed ≠ some session.userId → ∀ headers,
      sessionTokenFromHeaders headers = some session.token →
      ∀ seconds : Nat, next.clock ≤ asI64 seconds →
      (AcceptsSession crypto (next.state.atTime seconds) headers ↔
        AcceptsSession crypto (world.state.atTime seconds) headers)
  session_is_no_key : ∀ session ∈ Registry.issued (sessionLog world.history), ∀ authorization,
    authorizationToken authorization = some session.token →
    ¬AcceptsKey crypto world.state authorization
  key_is_no_session : ∀ key ∈ Registry.issued (keyLog world.history), ∀ headers,
    sessionTokenFromHeaders headers = some key.token →
    ∀ seconds : Nat, world.clock ≤ asI64 seconds →
    ¬AcceptsSession crypto (world.state.atTime seconds) headers

-- No operation moves the clock by itself.
theorem clock_step {action : AuthAction} (hstep : World.step crypto action world = some next) :
    world.clock ≤ next.clock := by
  obtain ⟨hclock, answer, hplay, _⟩ := World.step_cases hstep
  have hkept : ∀ c choice (s : AuthState) response s', s.nowSeconds = action.nowSeconds →
      AuthState.attempt crypto c choice s = some (response, s') →
      s'.nowSeconds = action.nowSeconds := by
    intro c choice s response s' hs hexec
    rw [← hs]
    exact attempt_nowSeconds hexec
  have hthroughout := Prog.throughout_invariant hkept (action.operation.program crypto)
    (rfl : (world.state.atTime action.nowSeconds).nowSeconds = action.nowSeconds)
  have hnow := Prog.play_of_throughout hthroughout hplay
  unfold World.clock at hclock ⊢
  rw [hnow]
  exact hclock

theorem credentialsValid (hinjective : Function.Injective crypto.sha256)
    (h : Recorded crypto world) : CredentialsValid crypto world := by
  constructor
  case key_accepted =>
    exact identity_iff hinjective h.keys
  case session_accepted =>
    exact fun seconds hclock => sessionUser_iff hinjective (h.tick hclock).sessions
  case key_checked =>
    intro authorization choices answer state hplay
    exact (Prog.play_of_throughout (yields_resolveApiKeyIdentity authorization) hplay).2
  case session_checked =>
    intro seconds headers choices answer state hplay
    exact (Prog.play_of_throughout (yields_sessionUserIdFromHeader headers) hplay).2
  case key_stays_refused =>
    intro actions next hrun key hissued authorization htoken hrefused haccepted
    have hnext := recorded_run hinjective _ h hrun
    obtain ⟨more, hmore⟩ := history_run hrun
    have hnodup := hnext.keys.nodup_issued
    have hlater : key ∈ Registry.issued (keyLog next.history) := by
      rw [hmore, keyLog_append, Registry.issued_append]
      exact List.mem_append_left _ hissued
    have hlive := (acceptsKey_iff hinjective hnext htoken hlater).mp haccepted
    rw [hmore, keyLog_append] at hlive hnodup
    have hbefore := hlive.of_append (Registry.not_mem_issued_of_nodup hnodup hissued)
    exact hrefused ((acceptsKey_iff hinjective h htoken hissued).mpr hbefore)
  case session_stays_refused =>
    intro actions next hrun seconds seconds' hclock hle hclock' session hissued headers htoken
      hrefused haccepted
    have hnext := recorded_run hinjective _ h hrun
    obtain ⟨more, hmore⟩ := history_run hrun
    have hnodup := hnext.sessions.nodup_issued
    have hlater : session ∈ Registry.issued (sessionLog next.history) := by
      rw [hmore, sessionLog_append, Registry.issued_append]
      exact List.mem_append_left _ hissued
    obtain ⟨hlive, hfresh⟩ := (acceptsSession_iff hinjective hnext hclock' htoken hlater).mp
      haccepted
    rw [hmore, sessionLog_append] at hlive hnodup
    have hbefore := hlive.of_append (Registry.not_mem_issued_of_nodup hnodup hissued)
    refine hrefused ((acceptsSession_iff hinjective h hclock htoken hissued).mpr ⟨hbefore, ?_⟩)
    rintro ⟨expiry, hexpiry, hlapsed⟩
    exact hfresh ⟨expiry, hexpiry, Int64.le_trans hlapsed hle⟩
  case key_of_other =>
    intro action next performed hstep hhistory key hissued hactor authorization htoken
    have hnext := recorded_step hinjective _ _ _ h hstep
    have hlater : key ∈ Registry.issued (keyLog next.history) := by
      rw [hhistory, keyLog_append, Registry.issued_append]
      exact List.mem_append_left _ hissued
    rw [acceptsKey_iff hinjective hnext htoken hlater, acceptsKey_iff hinjective h htoken hissued,
      hhistory, live_key_of_other hactor]
  case session_of_other =>
    intro action next performed hstep hhistory session hissued hactor headers htoken seconds hclock
    have hnext := recorded_step hinjective _ _ _ h hstep
    have hbefore : world.clock ≤ asI64 seconds := Int64.le_trans (clock_step hstep) hclock
    have hlater : session ∈ Registry.issued (sessionLog next.history) := by
      rw [hhistory, sessionLog_append, Registry.issued_append]
      exact List.mem_append_left _ hissued
    have hunique : ∀ other ∈ Registry.issued (sessionLog world.history),
        other.token = session.token → other = session :=
      fun other hother htoken => h.sessions.eq_of_token hother hissued htoken
    rw [acceptsSession_iff hinjective hnext hclock htoken hlater,
      acceptsSession_iff hinjective h hbefore htoken hissued, hhistory,
      live_session_of_other hunique hissued hactor]
  case session_is_no_key =>
    rintro session hissued authorization htoken ⟨⟨id, owner, role⟩, hidentity⟩
    obtain ⟨token, htoken', hlive⟩ := (identity_iff hinjective h.keys authorization id owner).mp
      ⟨role, hidentity⟩
    cases htoken.symm.trans htoken'
    have hkey := hlive.mem_issued
    rw [← h.sessions.records.issued] at hissued
    rw [← h.keys.records.issued] at hkey
    obtain ⟨row, _, rfl⟩ := List.mem_map.mp hissued
    obtain ⟨row', _, hrow'⟩ := List.mem_map.mp hkey
    exact sessionToken_ne_apiKey row.id row'.id (GrantedKey.mk.inj hrow').1.symm
  case key_is_no_session =>
    rintro key hissued headers htoken seconds hclock ⟨userId, huser⟩
    obtain ⟨token, expiry, htoken', hlive, _⟩ :=
      (sessionUser_iff hinjective (h.tick hclock).sessions headers userId).mp huser
    cases htoken.symm.trans htoken'
    have hsession := hlive.mem_issued
    rw [← (h.tick hclock).sessions.records.issued] at hsession
    rw [← h.keys.records.issued] at hissued
    obtain ⟨row, _, rfl⟩ := List.mem_map.mp hissued
    obtain ⟨row', _, hrow'⟩ := List.mem_map.mp hsession
    exact sessionToken_ne_apiKey row'.id row.id (GrantedSession.mk.inj hrow').1

-- In every run of the credential operations, whatever users there are and whichever statements
-- fail.
theorem credentials_follow_their_lifecycle (crypto : Crypto)
    (hinjective : Function.Injective crypto.sha256) (world : World) (hstart : world.Started)
    (actions : List AuthAction) (next : World)
    (hrun : Machine.run (World.step crypto) actions world = some next) :
    CredentialsValid crypto next :=
  credentialsValid hinjective (recorded_run hinjective actions (recorded_start hstart) hrun)

end Validity

def issuedTokens : List (List UInt8 × List UInt8) :=
  [(Daemon.bytes "mizan_sess_00000000-0000-0000-0000-000000000009",
      Daemon.digestOf 0x96fb67b24562da71472f59d3f926a6b0774ce666b5c7d5a8e6d5b661da9d351d),
    (Daemon.bytes "mizan_sk_live_00000000-0000-0000-0000-00000000000a",
      Daemon.digestOf 0x0308594cb89f90779dcb96e9ee93a31ef118d046502fb90f6977bf3362b12641)]

-- The crates on the inputs of the run below.
def issuingCrypto : Crypto where
  toLowercase text := text
  sha256 := Daemon.tabulated issuedTokens
  bcryptHash salt password := "$2b$12$" ++ salt ++ password
  bcryptVerify password hash := .ok (password = "hunter2" &&
    hash = "$2b$12$abcdefghijklmnopqrstuuCEzSpXJ42scy/MOdv14p0ieHzvDXISW")

theorem issuingCrypto_injective : Function.Injective issuingCrypto.sha256 :=
  Daemon.tabulated_injective (by decide) (by decide +kernel)

def worldOfOneUser : World :=
  { state := { AuthState.start 1700000000 with
      users := [
        { id := ⟨1⟩, email := "user@mizan.local"
          passwordHash := "$2b$12$abcdefghijklmnopqrstuuCEzSpXJ42scy/MOdv14p0ieHzvDXISW"
          role := "member", createdAt := "1690000000", updatedAt := "1690000000" }] }
    history := [] }

-- The user logs in, makes an API key and revokes it a minute later.
def loginAndCreate : List AuthAction :=
  [{ operation := .login { email := "user@mizan.local", password := "hunter2" }
     choices := List.replicate 5 { uuid := ⟨9⟩ }, nowSeconds := 1700000000 },
    { operation := .createApiKeyForUser ⟨1⟩ (some "laptop")
      choices := List.replicate 3 { uuid := ⟨10⟩ }, nowSeconds := 1700000010 }]

def revocation : AuthAction :=
  { operation := .revokeApiKeyByOwner ⟨1⟩ ⟨10⟩, choices := List.replicate 2 {}
    nowSeconds := 1700000070 }

def createdKey : String := "Bearer mizan_sk_live_00000000-0000-0000-0000-00000000000a"

theorem created_key_is_accepted_until_revoked : ∃ next later,
    Machine.run (World.step issuingCrypto) loginAndCreate worldOfOneUser = some next ∧
    CredentialsValid issuingCrypto next ∧
    next.state.identity issuingCrypto createdKey =
      .ok { apiKeyId := ⟨10⟩, userId := ⟨1⟩, userRole := "member" } ∧
    World.step issuingCrypto revocation next = some later ∧
    later.state.identity issuingCrypto createdKey = .error unauthorized := by
  have hidentity : (Machine.run (World.step issuingCrypto) loginAndCreate worldOfOneUser).map
      (fun world => world.state.identity issuingCrypto createdKey) =
        some (.ok { apiKeyId := ⟨10⟩, userId := ⟨1⟩, userRole := "member" }) := by
    decide +kernel
  have hrevoked : ((Machine.run (World.step issuingCrypto) loginAndCreate worldOfOneUser).bind
      (World.step issuingCrypto revocation)).map
      (fun world => world.state.identity issuingCrypto createdKey) =
        some (.error unauthorized) := by
    decide +kernel
  obtain ⟨next, hrun, haccepted⟩ := Option.map_eq_some_iff.mp hidentity
  rw [hrun, Option.bind_some] at hrevoked
  obtain ⟨later, hstep, hrefused⟩ := Option.map_eq_some_iff.mp hrevoked
  have hvalid := credentials_follow_their_lifecycle issuingCrypto issuingCrypto_injective
    worldOfOneUser ⟨rfl, rfl, rfl⟩ loginAndCreate next hrun
  exact ⟨next, later, hrun, hvalid, haccepted, hstep, hrefused⟩

end Mizan.Auth
