import Mizan.Auth.Store

namespace Mizan.Auth

open Interleaving

abbrev AuthM (α : Type) := ExceptT AppError (Prog AuthCommand AuthCommand.Response) α

def described {α : Type} (words : String) : Except String α → Except AppError α :=
  Except.mapError fun error => .infrastructure s!"{words}{error}"

section Programs

variable (crypto : Crypto)

def normalizeEmail (email : String) : String := crypto.toLowercase (trim email)

def containsText (text pattern : String) : Bool :=
  text.toList.tails.any fun rest => pattern.toList.isPrefixOf rest

def isUniqueConstraintError (message : String) : Bool :=
  let normalized := crypto.toLowercase message
  containsText normalized "unique" &&
    (containsText normalized "constraint" || containsText normalized "already exists")

def hashValue (value : String) : String := Daemon.hashValue crypto.sha256 value

structure DbUser where
  id : Uuid
  passwordHash : String
  role : String
  deriving DecidableEq, Repr

def findUserByEmail (email : String) : AuthM (Option DbUser) :=
  Prog.perform (.findUser email) fun response =>
    (described "" response).map fun row => row.map fun user =>
      { id := user.id, passwordHash := user.passwordHash, role := user.role }

def nowUtcEpochSeconds : AuthM Int64 := Prog.perform .nowUtcEpochSeconds .ok

def unixTimestampString : AuthM String := do
  let now ← nowUtcEpochSeconds
  pure (toString now)

def nowV7 : AuthM Uuid := Prog.perform .nowV7 .ok

structure RegisterResponse where
  userId : Uuid
  email : String
  role : String
  deriving DecidableEq, Repr

def newUser (email hashed role : String) (id : Uuid) (now : String) : UserRecord :=
  { id, email, passwordHash := hashed, role, createdAt := now, updatedAt := now }

def insertUserError (message : String) : AppError :=
  if isUniqueConstraintError crypto message then
    .invalidConfig "email" EMAIL_ALREADY_REGISTERED_ERROR
  else .infrastructure message

def createUser (email password role : String) : AuthM RegisterResponse := do
  let hashed ← Prog.perform (.bcryptHash password) (described "password hash failed: ")
  let now ← unixTimestampString
  let id ← nowV7
  let affected ← Prog.perform (.insertUser (newUser email hashed role id now))
    (Except.mapError (insertUserError crypto))
  if affected ≠ 1 then throw (.infrastructure "unable to insert user")
  else pure { userId := id, email, role }

-- The role of an account that exists already, with the words for a failure.
def promote (user : DbUser) (role words : String) : AuthM Unit :=
  if user.role ≠ role then do
    let _ ← Prog.perform (.updateRole user.id role) (described words)
    pure ()
  else pure ()

def createAdmin (email password role : String) : AuthM Unit := ExceptT.mk do
  match ← (createUser crypto email password role).run with
  | .ok _ => pure (.ok ())
  | .error error =>
      if error = .invalidConfig "email" EMAIL_ALREADY_REGISTERED_ERROR then
        (do
          match ← findUserByEmail email with
          | none =>
              throw (.infrastructure "admin user existed concurrently but cannot be resolved")
          | some user =>
              promote user role "cannot update seeded admin role after duplicate insert: " :
          AuthM Unit).run
      else pure (.error error)

def ensureAdminSeed (email password role : String) : AuthM Unit :=
  let email := normalizeEmail crypto email
  if email.isEmpty ∨ password.isEmpty then
    throw (.invalidConfig "admin seed"
      "MIZAN_ADMIN_EMAIL and MIZAN_ADMIN_PASSWORD must be non-empty")
  else do
    match ← findUserByEmail email with
    | some user => promote user role "cannot update seeded admin role: "
    | none => createAdmin crypto email password role

structure RegisterRequest where
  email : String
  password : String
  deriving DecidableEq, Repr

def register (payload : RegisterRequest) : AuthM RegisterResponse :=
  let email := normalizeEmail crypto payload.email
  if email.isEmpty ∨ payload.password.isEmpty then
    throw (.invalidConfig "auth" "email and password are required")
  else createUser crypto email payload.password "member"

structure LoginRequest where
  email : String
  password : String
  deriving DecidableEq, Repr

structure LoginResponse where
  accessToken : String
  tokenType : String
  expiresAt : String
  userId : Uuid
  role : String
  deriving DecidableEq, Repr

structure IssuedSession where
  token : String
  expiresAt : String
  deriving DecidableEq, Repr

def sessionToken (id : Uuid) : String := SESSION_TOKEN_PREFIX ++ id.toString

def newSession (userId id : Uuid) (now : Int64) : SessionRecord :=
  { id, userId, sessionTokenHash := hashValue crypto (sessionToken id)
    expiresAt := some (now + SESSION_TTL_SECONDS), revoked := false
    createdAt := toString now, updatedAt := toString now }

def createSession (userId : Uuid) : AuthM IssuedSession := do
  let id ← nowV7
  let now ← nowUtcEpochSeconds
  let affected ← Prog.perform (.insertSession (newSession crypto userId id now)) (described "")
  if affected ≠ 1 then throw (.infrastructure "unable to create session")
  else pure { token := sessionToken id, expiresAt := toString (now + SESSION_TTL_SECONDS) }

-- `bcrypt::verify` on a thread of its own.
def verifyPassword (password hash : String) : AuthM Bool := do
  Prog.perform .joinVerification (described "password verification task failed: ")
  ExceptT.mk (pure (described "password verification failed: " (crypto.bcryptVerify password hash)))

def login (payload : LoginRequest) : AuthM LoginResponse :=
  let email := normalizeEmail crypto payload.email
  if email.isEmpty ∨ payload.password.isEmpty then
    throw (.invalidConfig "auth" "email and password are required")
  else do
    match ← findUserByEmail email with
    | none => throw .unauthorized
    | some user =>
        let verified ← verifyPassword crypto payload.password user.passwordHash
        if ¬verified then throw .unauthorized
        else do
          let session ← createSession crypto user.id
          pure
            { accessToken := session.token
              tokenType := "Bearer"
              expiresAt := session.expiresAt
              userId := user.id
              role := user.role }

end Programs

end Mizan.Auth
