import Mizan.Auth.Lifecycle

namespace Mizan.Auth

open Interleaving

section Logs

variable {history : List Performed} {performed : Performed}

theorem keyLog_append (history more : List Performed) :
    keyLog (history ++ more) = keyLog history ++ keyLog more := List.filterMap_append

theorem sessionLog_append (history more : List Performed) :
    sessionLog (history ++ more) = sessionLog history ++ sessionLog more := List.filterMap_append

theorem keyLog_none (h : keyEntry performed = none) :
    keyLog (history ++ [performed]) = keyLog history := by
  simp [keyLog, h]

theorem keyLog_some {entry : Registry.Entry GrantedKey} (h : keyEntry performed = some entry) :
    keyLog (history ++ [performed]) = keyLog history ++ [entry] := by
  simp [keyLog, h]

theorem sessionLog_none (h : sessionEntry performed = none) :
    sessionLog (history ++ [performed]) = sessionLog history := by
  simp [sessionLog, h]

theorem sessionLog_some {entry : Registry.Entry GrantedSession}
    (h : sessionEntry performed = some entry) :
    sessionLog (history ++ [performed]) = sessionLog history ++ [entry] := by
  simp [sessionLog, h]

end Logs

-- The tables of the world agree with what its callers have seen.
structure Recorded (crypto : Crypto) (world : World) : Prop where
  keys : KeysRecorded crypto world.state.apiKeys (keyLog world.history)
  sessions : SessionsRecorded crypto world.clock world.state.sessions (sessionLog world.history)

section Steps

variable {crypto : Crypto} {world : World} {state : AuthState} {performed : Performed}

theorem recorded_start (h : world.Started) : Recorded crypto world := by
  obtain ⟨hsessions, hkeys, hhistory⟩ := h
  constructor
  · rw [hkeys, hhistory]
    exact KeysRecorded.nil
  · rw [hsessions, hhistory]
    exact SessionsRecorded.nil

theorem Recorded.tick (h : Recorded crypto world) {nowSeconds : Nat}
    (hclock : world.clock ≤ asI64 nowSeconds) :
    Recorded crypto { world with state := world.state.atTime nowSeconds } :=
  { keys := h.keys
    sessions := h.sessions.mono hclock }

-- An operation that wrote neither table.
theorem Recorded.kept (h : Recorded crypto world) (hkept : CredentialsKept world.state state)
    (hkey : keyEntry performed = none) (hsession : sessionEntry performed = none) :
    Recorded crypto { state, history := world.history ++ [performed] } := by
  obtain ⟨hsessions, hkeys, hclock⟩ := hkept
  constructor
  · rw [keyLog_none hkey, hkeys]
    exact h.keys
  · have hsame : World.clock { state, history := world.history ++ [performed] } = world.clock :=
      congrArg asI64 (congrArg Nat.cast hclock)
    rw [sessionLog_none hsession, hsessions, hsame]
    exact h.sessions

theorem Recorded.writesKeys (h : Recorded crypto world) {entry : Registry.Entry GrantedKey}
    {rows : List ApiKeyRecord} (hkey : keyEntry performed = some entry)
    (hsession : sessionEntry performed = none)
    (hkeys : KeysRecorded crypto rows (keyLog world.history ++ [entry])) :
    Recorded crypto
      { state := { world.state with apiKeys := rows }
        history := world.history ++ [performed] } := by
  constructor
  · rw [keyLog_some hkey]
    exact hkeys
  · rw [sessionLog_none hsession]
    exact h.sessions

theorem Recorded.writesSessions (h : Recorded crypto world)
    {entry : Registry.Entry GrantedSession} {rows : List SessionRecord}
    (hkey : keyEntry performed = none) (hsession : sessionEntry performed = some entry)
    (hsessions : SessionsRecorded crypto world.clock rows (sessionLog world.history ++ [entry])) :
    Recorded crypto
      { state := { world.state with sessions := rows }
        history := world.history ++ [performed] } := by
  constructor
  · rw [keyLog_none hkey]
    exact h.keys
  · rw [sessionLog_some hsession]
    exact hsessions

theorem Recorded.expires (h : Recorded crypto world) {headers : HeaderMap}
    (hexpired : Expired crypto world.state headers state) (hkey : keyEntry performed = none)
    (hsession : sessionEntry performed = none) :
    Recorded crypto { state, history := world.history ++ [performed] } := by
  obtain ⟨token, row, expiry, -, hfound, hexpiry, hlapsed, rfl⟩ := hexpired
  constructor
  · rw [keyLog_none hkey]
    exact h.keys
  · rw [sessionLog_none hsession]
    exact h.sessions.expire_row (List.mem_of_find?_eq_some hfound) hexpiry hlapsed

theorem recorded_performed (hinjective : Function.Injective crypto.sha256)
    (h : Recorded crypto world) (operation : AuthOperation) {choices : List AuthChoice}
    {answer : operation.Answer}
    (hplay : (operation.program crypto).play (AuthState.attempt crypto) choices world.state =
      some (answer, state)) :
    Recorded crypto { state, history := world.history ++ [⟨operation, answer⟩] } := by
  cases operation with
  | ensureAdminSeed email password role =>
      have hkept := Prog.play_of_throughout
        (AccountsOnly.kept (accounts_ensureAdminSeed email password role) world.state) hplay
      exact h.kept hkept rfl rfl
  | register payload =>
      have hkept := Prog.play_of_throughout
        (AccountsOnly.kept (accounts_register payload) world.state) hplay
      exact h.kept hkept rfl rfl
  | login payload =>
      have hlogin := Prog.play_of_throughout (yields_login payload) hplay
      cases answer with
      | ok response =>
          obtain ⟨id, now, hfresh, htoken, hexpires, rfl⟩ := hlogin
          refine h.writesSessions rfl rfl ?_
          rw [htoken, hexpires, Daemon.parseI64_toString]
          exact h.sessions.insert hfresh
      | error error =>
          subst hlogin
          exact h.kept (CredentialsKept.refl _) rfl rfl
  | logout headers =>
      have hlogout := Prog.play_of_throughout (yields_logout headers) hplay
      cases answer with
      | ok revoked =>
          obtain ⟨token, updatedAt, htoken, rfl⟩ := hlogout
          refine h.writesSessions rfl rfl ?_
          rw [htoken]
          exact h.sessions.revoke hinjective updatedAt
      | error error =>
          subst hlogout
          exact h.kept (CredentialsKept.refl _) rfl rfl
  | sessionUserIdFromHeader headers =>
      obtain ⟨rfl | hexpired, -⟩ :=
        Prog.play_of_throughout (yields_sessionUserIdFromHeader headers) hplay
      · exact h.kept (CredentialsKept.refl _) rfl rfl
      · exact h.expires hexpired rfl rfl
  | createApiKeyForUser userId label =>
      have hcreate := Prog.play_of_throughout (yields_createApiKeyForUser userId label) hplay
      cases answer with
      | ok response =>
          obtain ⟨label', now, hfresh, hkey, rfl⟩ := hcreate
          refine h.writesKeys rfl rfl ?_
          rw [hkey]
          exact h.keys.insert hfresh
      | error error =>
          subst hcreate
          exact h.kept (CredentialsKept.refl _) rfl rfl
  | revokeApiKeyByOwner userId apiKeyId =>
      have hrevoke := Prog.play_of_throughout (yields_revokeApiKeyByOwner userId apiKeyId) hplay
      cases answer with
      | ok revoked =>
          obtain ⟨updatedAt, rfl⟩ := hrevoke
          exact h.writesKeys rfl rfl (h.keys.revoke apiKeyId userId updatedAt)
      | error error =>
          subst hrevoke
          exact h.kept (CredentialsKept.refl _) rfl rfl
  | resolveApiKeyIdentity authorization =>
      obtain ⟨rfl, -⟩ := Prog.play_of_throughout (yields_resolveApiKeyIdentity authorization) hplay
      exact h.kept (CredentialsKept.refl _) rfl rfl

theorem World.step_cases {action : AuthAction} {next : World}
    (h : World.step crypto action world = some next) :
    world.clock ≤ asI64 action.nowSeconds ∧ ∃ answer,
      (action.operation.program crypto).play (AuthState.attempt crypto) action.choices
        (world.state.atTime action.nowSeconds) = some (answer, next.state) ∧
      next.history = world.history ++ [⟨action.operation, answer⟩] := by
  unfold World.step at h
  split at h
  · rename_i hclock
    obtain ⟨⟨answer, state⟩, hplay, rfl⟩ := Option.map_eq_some_iff.mp h
    exact ⟨hclock, answer, hplay, rfl⟩
  · cases h

theorem recorded_step (hinjective : Function.Injective crypto.sha256) (action : AuthAction)
    (world next : World) (h : Recorded crypto world)
    (hstep : World.step crypto action world = some next) : Recorded crypto next := by
  obtain ⟨hclock, answer, hplay, hhistory⟩ := World.step_cases hstep
  have hnext := recorded_performed hinjective (h.tick hclock) action.operation hplay
  rw [← hhistory] at hnext
  exact hnext

theorem recorded_run (hinjective : Function.Injective crypto.sha256) (actions : List AuthAction)
    {next : World} (h : Recorded crypto world)
    (hrun : Machine.run (World.step crypto) actions world = some next) : Recorded crypto next :=
  Machine.run_invariant (recorded_step hinjective) actions hrun h

end Steps

end Mizan.Auth
