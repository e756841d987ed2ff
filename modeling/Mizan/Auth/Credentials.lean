import Mizan.Auth.Operations
import Mizan.Daemon.Request

namespace Mizan.Auth

open Interleaving

structure AuthHttpError where
  status : Nat
  error : AppError
  deriving DecidableEq, Repr

def UNAUTHORIZED : Nat := 401
def INTERNAL_SERVER_ERROR : Nat := 500

def statusOf : AppError → Nat
  | .invalidConfig .. => 400
  | .notFound _ => 404
  | .unauthorized => UNAUTHORIZED
  | .forbidden => 403
  | .provider _ => 502
  | .limitExceeded _ => 429
  | .insufficientCredit => 402
  | _ => INTERNAL_SERVER_ERROR

def fromAppError (error : AppError) : AuthHttpError := { status := statusOf error, error }

def unauthorized : AuthHttpError := { status := UNAUTHORIZED, error := .unauthorized }

def databaseFailed (message : String) : AuthHttpError :=
  { status := INTERNAL_SERVER_ERROR, error := .infrastructure message }

abbrev AuthHttpM (α : Type) :=
  ExceptT AuthHttpError (Prog AuthCommand AuthCommand.Response) α

-- `.map_err(from_app_error)`
def answered {α : Type} (program : AuthM α) : AuthHttpM α := program.adapt fromAppError

-- A header value that is no visible ASCII text has no text.
abbrev HeaderMap := List (String × Option String)

def HeaderMap.text (headers : HeaderMap) (name : String) : Option String :=
  (headers.find? fun header => header.1 = name).bind (·.2)

def SESSION_HEADER : String := "x-session-token"

-- The two modules have the same function each.
def authorizationToken (rawAuthorization : String) : Option String :=
  Daemon.authorizationToken rawAuthorization

def sessionTokenFromHeaders (headers : HeaderMap) : Option String :=
  ((headers.text Daemon.AUTHORIZATION).bind authorizationToken).or
    (((headers.text SESSION_HEADER).map trim).filter (· ≠ ""))

section Programs

variable (crypto : Crypto)

def sessionUserIdFromHeader (headers : HeaderMap) : AuthHttpM Uuid :=
  match sessionTokenFromHeaders headers with
  | none => throw unauthorized
  | some rawToken => do
      match ← Prog.perform (.selectSession (hashValue crypto rawToken))
          (Except.mapError databaseFailed) with
      | none => throw unauthorized
      | some row => do
          let now : Int64 ← Prog.perform .nowUtcEpochSeconds Except.ok
          match row.expiresAt with
          | none =>
              throw
                { status := UNAUTHORIZED
                  error := .invalidConfig "session" "missing or invalid session expiry" }
          | some expiry =>
              if expiry ≤ now then do
                -- whether this succeeds makes no difference to the caller
                Prog.perform (.expireSession row.id) fun _ => .ok ()
                throw unauthorized
              else pure row.userId

structure ApiKeyIdentity where
  apiKeyId : Uuid
  userId : Uuid
  userRole : String
  deriving DecidableEq, Repr

def resolveApiKeyIdentity (authorization : String) : AuthHttpM ApiKeyIdentity :=
  match authorizationToken authorization with
  | none => throw unauthorized
  | some token => do
      match ← Prog.perform (.selectApiKey (hashValue crypto token))
          (Except.mapError databaseFailed) with
      | none => throw unauthorized
      | some (row, userRole) => pure { apiKeyId := row.id, userId := row.userId, userRole }

def logout (headers : HeaderMap) : AuthHttpM Bool :=
  match sessionTokenFromHeaders headers with
  | none => throw unauthorized
  | some rawToken => answered do
      let updatedAt ← unixTimestampString
      let rowsAffected ← Prog.perform (.revokeSession (hashValue crypto rawToken) updatedAt)
        (described "")
      pure (rowsAffected > 0)

structure ApiKeyCreateResponse where
  id : Uuid
  key : String
  label : Option String
  createdAt : String
  deriving DecidableEq, Repr

def apiKey (id : Uuid) : String := API_KEY_PREFIX ++ id.toString

def newApiKey (userId id : Uuid) (label : Option String) (now : String) : ApiKeyRecord :=
  { id, userId, keyHash := hashValue crypto (apiKey id), label, revoked := false
    createdAt := now, updatedAt := now }

def createApiKeyForUser (userId : Uuid) (label : Option String) : AuthM ApiKeyCreateResponse := do
  let id ← nowV7
  let now ← unixTimestampString
  let affected ← Prog.perform (.insertApiKey (newApiKey crypto userId id label now)) (described "")
  if affected ≠ 1 then throw (.infrastructure "unable to create API key")
  else pure { id, key := apiKey id, label, createdAt := now }

def revokeApiKeyByOwner (userId apiKeyId : Uuid) : AuthM Bool := do
  let updatedAt ← unixTimestampString
  let rowsAffected ← Prog.perform (.revokeApiKey apiKeyId userId updatedAt) (described "")
  pure (rowsAffected = 1)

end Programs

end Mizan.Auth
