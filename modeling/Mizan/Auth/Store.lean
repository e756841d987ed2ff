import Mizan.Core.Numeric
import Mizan.Core.Text
import Mizan.Daemon.Digest
import Mizan.Interleaving.Fault
import Mizan.Interleaving.Pool
import Mizan.Table.Update

namespace Mizan.Auth

open Interleaving

-- What the crates and the standard library compute: Unicode lower case, SHA-256, and bcrypt, whose
-- hash depends on a random salt.
structure Crypto where
  toLowercase : String → String
  sha256 : List UInt8 → List UInt8
  bcryptHash : (salt : String) → (password : String) → String
  bcryptVerify : (password : String) → (hash : String) → Except String Bool

def SESSION_TOKEN_PREFIX : String := "mizan_sess_"
def API_KEY_PREFIX : String := "mizan_sk_live_"
def SESSION_TTL_SECONDS : Int64 := 60 * 60 * 24 * 30
def EMAIL_ALREADY_REGISTERED_ERROR : String := "email is already registered"

structure UserRecord where
  id : Uuid
  email : String
  passwordHash : String
  role : String
  createdAt : String
  updatedAt : String
  deriving DecidableEq, Repr

-- `expires_at` is only ever the text of an `i64`, which is read back with `str::parse`.
structure SessionRecord where
  id : Uuid
  userId : Uuid
  sessionTokenHash : String
  expiresAt : Option Int64
  revoked : Bool
  createdAt : String
  updatedAt : String
  deriving DecidableEq, Repr

structure ApiKeyRecord where
  id : Uuid
  userId : Uuid
  keyHash : String
  label : Option String
  revoked : Bool
  createdAt : String
  updatedAt : String
  deriving DecidableEq, Repr

inductive AuthCommand where
  | findUser (email : String)
  | insertUser (row : UserRecord)
  | updateRole (id : Uuid) (role : String)
  | insertSession (row : SessionRecord)
  | revokeSession (tokenHash updatedAt : String)
  | selectSession (tokenHash : String)
  | expireSession (id : Uuid)
  | insertApiKey (row : ApiKeyRecord)
  | revokeApiKey (id userId : Uuid) (updatedAt : String)
  | selectApiKey (keyHash : String)
  | bcryptHash (password : String)
  | joinVerification
  | nowV7
  | nowUtcEpochSeconds

def AuthCommand.Response : AuthCommand → Type
  | .findUser _ => Except String (Option UserRecord)
  | .insertUser _ => Except String Nat
  | .updateRole .. => Except String Nat
  | .insertSession _ => Except String Nat
  | .revokeSession .. => Except String Nat
  | .selectSession _ => Except String (Option SessionRecord)
  | .expireSession _ => Except String Nat
  | .insertApiKey _ => Except String Nat
  | .revokeApiKey .. => Except String Nat
  | .selectApiKey _ => Except String (Option (ApiKeyRecord × String))
  | .bcryptHash _ => Except String String
  | .joinVerification => Except String Unit
  | .nowV7 => Uuid
  | .nowUtcEpochSeconds => Int64

structure AuthChoice where
  fault : Option String := none
  executed : Bool := false
  uuid : Uuid := ⟨0⟩
  salt : String := ""
  nowSeconds : Option Nat := none
  deriving DecidableEq, Repr

structure AuthState where
  users : List UserRecord
  sessions : List SessionRecord
  apiKeys : List ApiKeyRecord
  nowSeconds : Nat
  -- the threads that have asked for something
  begun : List Nat
  deriving DecidableEq, Repr

def UNIQUE_USER_EMAIL : String := "UNIQUE constraint failed: users.email"
def UNIQUE_USER_ID : String := "UNIQUE constraint failed: users.id"
def UNIQUE_SESSION : String := "UNIQUE constraint failed: sessions.session_token_hash"
def UNIQUE_API_KEY : String := "UNIQUE constraint failed: api_keys.key_hash"

namespace AuthState

def start (nowSeconds : Nat) : AuthState :=
  { users := [], sessions := [], apiKeys := [], nowSeconds, begun := [] }

-- LEFT JOIN users, COALESCE(u.role, 'member')
def roleOf (s : AuthState) (userId : Uuid) : String :=
  ((s.users.find? fun user => user.id = userId).map UserRecord.role).getD "member"

def findApiKey (s : AuthState) (keyHash : String) : Option (ApiKeyRecord × String) :=
  (s.apiKeys.find? fun row => row.keyHash = keyHash && !row.revoked).map fun row =>
    (row, s.roleOf row.userId)

def liveSession (tokenHash : String) (row : SessionRecord) : Bool :=
  row.sessionTokenHash = tokenHash && !row.revoked

def findSession (s : AuthState) (tokenHash : String) : Option SessionRecord :=
  s.sessions.find? (liveSession tokenHash)

def liveApiKey (id userId : Uuid) (row : ApiKeyRecord) : Bool :=
  row.id = id && row.userId = userId && !row.revoked

def updateRole (s : AuthState) (id : Uuid) (role : String) : AuthState :=
  { s with
    users := Table.update (fun user => user.id = id) (fun user => { user with role }) s.users }

def revokeSession (s : AuthState) (tokenHash updatedAt : String) : AuthState :=
  { s with
    sessions := Table.update (liveSession tokenHash)
      (fun row => { row with revoked := true, updatedAt }) s.sessions }

def expireSession (s : AuthState) (id : Uuid) : AuthState :=
  { s with
    sessions := Table.update (fun row => row.id = id)
      (fun row => { row with revoked := true }) s.sessions }

def revokeApiKey (s : AuthState) (id userId : Uuid) (updatedAt : String) : AuthState :=
  { s with
    apiKeys := Table.update (liveApiKey id userId)
      (fun row => { row with revoked := true, updatedAt }) s.apiKeys }

def exec (crypto : Crypto) : (c : AuthCommand) → AuthChoice → AuthState → c.Response × AuthState
  | .findUser email, choice, s =>
      reply choice.fault choice.executed (s.users.find? fun user => user.email = email) s s
  | .insertUser row, choice, s =>
      if s.users.any fun user => user.email = row.email then
        (.error (choice.fault.getD UNIQUE_USER_EMAIL), s)
      else if s.users.any fun user => user.id = row.id then
        (.error (choice.fault.getD UNIQUE_USER_ID), s)
      else reply choice.fault choice.executed 1 s { s with users := s.users ++ [row] }
  | .updateRole id role, choice, s =>
      reply choice.fault choice.executed (Table.affected (fun user => user.id = id) s.users) s
        (s.updateRole id role)
  | .insertSession row, choice, s =>
      if s.sessions.any fun other =>
          other.id = row.id || other.sessionTokenHash = row.sessionTokenHash then
        (.error (choice.fault.getD UNIQUE_SESSION), s)
      else reply choice.fault choice.executed 1 s { s with sessions := s.sessions ++ [row] }
  | .revokeSession tokenHash updatedAt, choice, s =>
      reply choice.fault choice.executed (Table.affected (liveSession tokenHash) s.sessions) s
        (s.revokeSession tokenHash updatedAt)
  | .selectSession tokenHash, choice, s =>
      reply choice.fault choice.executed (s.findSession tokenHash) s s
  | .expireSession id, choice, s =>
      reply choice.fault choice.executed (Table.affected (fun row => row.id = id) s.sessions) s
        (s.expireSession id)
  | .insertApiKey row, choice, s =>
      if s.apiKeys.any fun other => other.id = row.id || other.keyHash = row.keyHash then
        (.error (choice.fault.getD UNIQUE_API_KEY), s)
      else reply choice.fault choice.executed 1 s { s with apiKeys := s.apiKeys ++ [row] }
  | .revokeApiKey id userId updatedAt, choice, s =>
      reply choice.fault choice.executed (Table.affected (liveApiKey id userId) s.apiKeys) s
        (s.revokeApiKey id userId updatedAt)
  | .selectApiKey keyHash, choice, s =>
      reply choice.fault choice.executed (s.findApiKey keyHash) s s
  | .bcryptHash password, choice, s =>
      reply choice.fault choice.executed (crypto.bcryptHash choice.salt password) s s
  | .joinVerification, choice, s => reply choice.fault choice.executed () s s
  | .nowV7, choice, s => (choice.uuid, s)
  | .nowUtcEpochSeconds, _, s => (asI64 s.nowSeconds, s)

def begin (s : AuthState) (t : Nat) : AuthState := { s with begun := t :: s.begun }

-- A restart keeps the tables, so it is no step of its own.
def system (crypto : Crypto) : System AuthCommand AuthCommand.Response AuthChoice AuthState where
  exec t c choice s := some (exec crypto c choice (s.begin t))
  env choice s := some { s with nowSeconds := choice.nowSeconds.getD s.nowSeconds }

end AuthState

end Mizan.Auth
