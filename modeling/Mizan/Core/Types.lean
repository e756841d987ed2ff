import Mathlib.Algebra.Order.Ring.Int
import Mathlib.Tactic.Common

namespace Mizan

structure Uuid where
  value : BitVec 128
  deriving DecidableEq, Repr

namespace Uuid

private def hexDigits (value : Nat) (count : Nat) : List Char :=
  (List.range count).map fun place => Nat.digitChar (value / 16 ^ (count - 1 - place) % 16)

-- The hyphenated lower-case form.
def toString (id : Uuid) : String :=
  let digits := hexDigits id.value.toNat 32
  String.ofList (digits.take 8 ++ '-' :: (digits.drop 8).take 4 ++ '-' :: (digits.drop 12).take 4 ++
    '-' :: (digits.drop 16).take 4 ++ '-' :: digits.drop 20)

private theorem mem_hexDigits {c : Char} {value count : Nat} (h : c ∈ hexDigits value count) :
    ∃ digit < 16, c = Nat.digitChar digit := by
  obtain ⟨place, _, rfl⟩ := List.mem_map.mp h
  exact ⟨_, Nat.mod_lt _ (by decide), rfl⟩

theorem mem_toString {c : Char} {id : Uuid} (h : c ∈ id.toString.toList) :
    c = '-' ∨ ∃ digit < 16, c = Nat.digitChar digit := by
  simp only [toString, String.toList_ofList, List.mem_append, List.mem_cons] at h
  rcases h with ((((h | h | h) | h | h) | h | h) | h | h)
  all_goals first
    | exact .inl h
    | exact .inr (mem_hexDigits (List.mem_of_mem_take h))
    | exact .inr (mem_hexDigits (List.mem_of_mem_drop h))
    | exact .inr (mem_hexDigits (List.mem_of_mem_drop (List.mem_of_mem_take h)))

end Uuid

inductive AppError where
  | config (key source : String)
  | invalidConfig (key message : String)
  | infrastructure (message : String)
  | io (source : String)
  | notFound (message : String)
  | unauthorized
  | forbidden
  | limitExceeded (message : String)
  | insufficientCredit
  | provider (message : String)
  deriving DecidableEq, Repr

namespace AppError

def toString : AppError → String
  | .config key source => s!"configuration error for {key}: {source}"
  | .invalidConfig key message => s!"invalid configuration for {key}: {message}"
  | .infrastructure message => s!"infrastructure error: {message}"
  | .io source => s!"io error: {source}"
  | .notFound message => s!"not found: {message}"
  | .unauthorized => "unauthorized"
  | .forbidden => "forbidden"
  | .limitExceeded message => s!"limit exceeded: {message}"
  | .insufficientCredit => "insufficient credit"
  | .provider message => s!"upstream provider error: {message}"

def publicCode : AppError → String
  | .config .. => "configuration_error"
  | .invalidConfig .. => "invalid_configuration"
  | .infrastructure _ => "infrastructure_error"
  | .io _ => "io_error"
  | .notFound _ => "not_found"
  | .unauthorized => "unauthorized"
  | .forbidden => "forbidden"
  | .limitExceeded _ => "limit_exceeded"
  | .insufficientCredit => "insufficient_credit"
  | .provider _ => "provider_error"

end AppError

structure ErrorEnvelope where
  code : String
  message : String
  deriving DecidableEq, Repr

def ErrorEnvelope.ofAppError (error : AppError) : ErrorEnvelope :=
  { code := error.publicCode, message := error.toString }

structure RequestContext where
  requestId : Uuid
  traceId : Uuid
  userId : Option Uuid
  apiKeyId : Option Uuid
  provider : Option String
  providerId : Option Uuid
  route : Option String
  routeId : Option Uuid
  method : Option String
  path : Option String
  model : Option String
  streaming : Bool
  deriving DecidableEq, Repr

inductive DatabaseBackend where
  | sqlite
  | postgres
  deriving DecidableEq, Repr

theorem except_bind_eq_ok {ε α β : Type} {first : Except ε α} {rest : α → Except ε β} {value : β}
    (h : first >>= rest = .ok value) : ∃ middle, first = .ok middle ∧ rest middle = .ok value := by
  cases first with
  | error error => cases h
  | ok middle => exact ⟨middle, rfl, h⟩

theorem ok_of_mapError {ε ε' α : Type} {result : Except ε α} {f : ε → ε'} {value : α}
    (h : result.mapError f = .ok value) : result = .ok value := by
  cases result with
  | error error => cases h
  | ok other => exact congrArg Except.ok (Except.ok.inj h)

-- The characters with the Unicode property White_Space, which `str::trim` strips.
def isWhitespace (c : Char) : Bool :=
  (0x9 ≤ c.toNat && c.toNat ≤ 0xD) || c.toNat == 0x20 || c.toNat == 0x85 || c.toNat == 0xA0 ||
    c.toNat == 0x1680 || (0x2000 ≤ c.toNat && c.toNat ≤ 0x200A) || c.toNat == 0x2028 ||
    c.toNat == 0x2029 || c.toNat == 0x202F || c.toNat == 0x205F || c.toNat == 0x3000

def trimChars (chars : List Char) : List Char :=
  ((chars.dropWhile isWhitespace).reverse.dropWhile isWhitespace).reverse

def trim (s : String) : String := String.ofList (trimChars s.toList)

end Mizan
