import Mizan.Auth.Credentials
import Mizan.Interleaving.Eval
import Mizan.Machine.Run
import Mizan.Registry.Log

namespace Mizan.Auth

open Interleaving

-- The handlers that need a session ask `session_user_id_from_header` for its user and then work for
-- this user. The two parts are operations of their own here, so that others may come in between.
inductive AuthOperation where
  | ensureAdminSeed (email password role : String)
  | register (payload : RegisterRequest)
  | login (payload : LoginRequest)
  | logout (headers : HeaderMap)
  | sessionUserIdFromHeader (headers : HeaderMap)
  | createApiKeyForUser (userId : Uuid) (label : Option String)
  | revokeApiKeyByOwner (userId apiKeyId : Uuid)
  | resolveApiKeyIdentity (authorization : String)
  deriving DecidableEq, Repr

namespace AuthOperation

abbrev Answer : AuthOperation → Type
  | .ensureAdminSeed .. => Except AppError Unit
  | .register _ => Except AppError RegisterResponse
  | .login _ => Except AppError LoginResponse
  | .logout _ => Except AuthHttpError Bool
  | .sessionUserIdFromHeader _ => Except AuthHttpError Uuid
  | .createApiKeyForUser .. => Except AppError ApiKeyCreateResponse
  | .revokeApiKeyByOwner .. => Except AppError Bool
  | .resolveApiKeyIdentity _ => Except AuthHttpError ApiKeyIdentity

def program (crypto : Crypto) : (operation : AuthOperation) →
    Prog AuthCommand AuthCommand.Response operation.Answer
  | .ensureAdminSeed email password role => (Auth.ensureAdminSeed crypto email password role).run
  | .register payload => (Auth.register crypto payload).run
  | .login payload => (Auth.login crypto payload).run
  | .logout headers => (Auth.logout crypto headers).run
  | .sessionUserIdFromHeader headers => (Auth.sessionUserIdFromHeader crypto headers).run
  | .createApiKeyForUser userId label => (Auth.createApiKeyForUser crypto userId label).run
  | .revokeApiKeyByOwner userId apiKeyId => (Auth.revokeApiKeyByOwner userId apiKeyId).run
  | .resolveApiKeyIdentity authorization => (Auth.resolveApiKeyIdentity crypto authorization).run

end AuthOperation

-- What its caller has seen of an operation.
structure Performed where
  operation : AuthOperation
  answer : operation.Answer

structure GrantedKey where
  token : String
  id : Uuid
  owner : Uuid
  deriving DecidableEq, Repr

structure GrantedSession where
  token : String
  userId : Uuid
  expiresAt : Option Int64
  deriving DecidableEq, Repr

def keyEntry : Performed → Option (Registry.Entry GrantedKey)
  | ⟨.createApiKeyForUser owner _, answer⟩ =>
      match answer with
      | .ok response => some (.issue { token := response.key, id := response.id, owner })
      | .error _ => none
  | ⟨.revokeApiKeyByOwner owner id, answer⟩ =>
      match answer with
      | .ok _ => some (.withdraw fun key => key.id = id && key.owner = owner)
      | .error _ => none
  | _ => none

def sessionEntry : Performed → Option (Registry.Entry GrantedSession)
  | ⟨.login _, answer⟩ =>
      match answer with
      | .ok response => some (.issue
          { token := response.accessToken
            userId := response.userId
            expiresAt := (Daemon.parseI64 response.expiresAt).toOption })
      | .error _ => none
  | ⟨.logout headers, answer⟩ =>
      match answer with
      | .ok _ => some (.withdraw fun session =>
          sessionTokenFromHeaders headers = some session.token)
      | .error _ => none
  | _ => none

def keyLog (history : List Performed) : List (Registry.Entry GrantedKey) :=
  history.filterMap keyEntry

def sessionLog (history : List Performed) : List (Registry.Entry GrantedSession) :=
  history.filterMap sessionEntry

-- Whom an operation is performed for.
def actor (history : List Performed) : Performed → Option Uuid
  | ⟨.login _, answer⟩ =>
      match answer with
      | .ok response => some response.userId
      | .error _ => none
  | ⟨.logout headers, _⟩ | ⟨.sessionUserIdFromHeader headers, _⟩ =>
      ((Registry.issued (sessionLog history)).find? fun session =>
        sessionTokenFromHeaders headers = some session.token).map GrantedSession.userId
  | ⟨.createApiKeyForUser userId _, _⟩ | ⟨.revokeApiKeyByOwner userId _, _⟩ => some userId
  | ⟨.resolveApiKeyIdentity authorization, _⟩ =>
      ((Registry.issued (keyLog history)).find? fun key =>
        authorizationToken authorization = some key.token).map GrantedKey.owner
  | ⟨.ensureAdminSeed .., _⟩ | ⟨.register _, _⟩ => none

namespace AuthState

variable (crypto : Crypto)

-- A statement that fails has changed nothing.
def attempt (c : AuthCommand) (choice : AuthChoice) (s : AuthState) :
    Option (c.Response × AuthState) :=
  some (exec crypto c { choice with executed := false } s)

-- No statement fails.
def answer (c : AuthCommand) (s : AuthState) : c.Response × AuthState := exec crypto c {} s

-- What a check answers when no statement fails.
def identity (s : AuthState) (authorization : String) : Except AuthHttpError ApiKeyIdentity :=
  (Prog.eval (answer crypto) (resolveApiKeyIdentity crypto authorization).run s).1

def sessionUser (s : AuthState) (headers : HeaderMap) : Except AuthHttpError Uuid :=
  (Prog.eval (answer crypto) (sessionUserIdFromHeader crypto headers).run s).1

def atTime (s : AuthState) (nowSeconds : Nat) : AuthState := { s with nowSeconds }

end AuthState

structure World where
  state : AuthState
  history : List Performed

structure AuthAction where
  operation : AuthOperation
  choices : List AuthChoice
  nowSeconds : Nat

namespace World

-- Any users, who have no credentials yet.
def Started (world : World) : Prop :=
  world.state.sessions = [] ∧ world.state.apiKeys = [] ∧ world.history = []

def clock (world : World) : Int64 := asI64 world.state.nowSeconds

-- One operation, at a time that is no earlier than the one before.
def step (crypto : Crypto) (action : AuthAction) (world : World) : Option World :=
  if world.clock ≤ asI64 action.nowSeconds then
    ((action.operation.program crypto).play (AuthState.attempt crypto) action.choices
      (world.state.atTime action.nowSeconds)).map fun (answer, state) =>
        { state, history := world.history ++ [⟨action.operation, answer⟩] }
  else none

end World

end Mizan.Auth
