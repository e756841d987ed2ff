import Mizan.Limits.Types
import Mizan.Interleaving.Pool

namespace Mizan.Limits

structure RedisEntry where
  value : Int
  expiresAtMs : Option Nat
  deriving DecidableEq, Repr

structure RedisServer where
  store : String → Option RedisEntry
  nowMs : Nat

namespace RedisServer

def start : RedisServer := { store := fun _ => none, nowMs := 0 }

def set (server : RedisServer) (key : String) (entry : Option RedisEntry) : RedisServer :=
  { server with store := Function.update server.store key entry }

def NOT_AN_INTEGER : String := "ERR value is not an integer or out of range"
def WOULD_OVERFLOW : String := "ERR increment or decrement would overflow"

-- INCRBY, which keeps the expiry of the key.
def incrby (server : RedisServer) (key : String) (amount : UInt64) :
    Except String (Int × RedisServer) :=
  let entry := (server.store key).getD { value := 0, expiresAtMs := none }
  let current := entry.value + amount.toNat
  if 2 ^ 63 ≤ amount.toNat then .error NOT_AN_INTEGER
  else if 2 ^ 63 ≤ current then .error WOULD_OVERFLOW
  else .ok (current, server.set key (some { entry with value := current }))

def expire (server : RedisServer) (key : String) (ttlSeconds : Nat) : RedisServer :=
  server.set key ((server.store key).map fun entry =>
    { entry with expiresAtMs := some (server.nowMs + ttlSeconds * 1000) })

-- A script sees integers as Lua numbers, which keep 53 significant bits and round ties to even.
def luaNumber (n : Int) : Int :=
  if n.natAbs < 2 ^ 53 then n
  else
    let unit := 2 ^ (n.natAbs.log2 - 52)
    let quotient := n.natAbs / unit
    let remainder := n.natAbs % unit
    let up := unit < 2 * remainder ∨ unit = 2 * remainder ∧ quotient % 2 = 1
    n.sign * ((if up then quotient + 1 else quotient) * unit : Nat)

-- A Lua number that a script returns becomes an integer again. The only one here that is too
-- large for an `i64` is 2^63, for which the conversion is taken to saturate.
def integerReply (n : Int) : Int := min n (2 ^ 63 - 1)

-- The script of `increment_window_counter`: the increment that creates the key sets its expiry.
def evalIncrement (server : RedisServer) (key : String) (amount : UInt64) (ttlSeconds : Nat) :
    Except String (Int × RedisServer) :=
  match server.incrby key amount with
  | .error error => .error error
  | .ok (current, server') =>
      .ok (integerReply (luaNumber current),
        if luaNumber current = luaNumber amount.toNat then server'.expire key ttlSeconds
        else server')

-- The script of `release_key`.
def evalRelease (server : RedisServer) (key : String) : Int × RedisServer :=
  match server.store key with
  | none => (0, server)
  | some entry =>
      let current := entry.value - 1
      let reply := integerReply (luaNumber current)
      if luaNumber current ≤ 0 then (reply, server.set key none)
      else (reply, server.set key (some { entry with value := current }))

def expired (nowMs : Nat) (entry : RedisEntry) : Bool :=
  entry.expiresAtMs.any fun at' => at' < nowMs

-- Time passes, and the keys whose expiry it passes are gone.
def advance (server : RedisServer) (elapsedMs : Nat) : RedisServer :=
  { store := fun key => (server.store key).filter fun entry =>
      !expired (server.nowMs + elapsedMs) entry
    nowMs := server.nowMs + elapsedMs }

section LuaNumber

variable {n : Int}

theorem luaNumber_of_lt (h : n.natAbs < 2 ^ 53) : luaNumber n = n := if_pos h

-- Rounding never takes a number below the power of two that it has reached.
theorem le_luaNumber (h : 2 ^ 53 ≤ n) : 2 ^ 53 ≤ luaNumber n := by
  have habs : ¬n.natAbs < 2 ^ 53 := by omega
  have hsign : n.sign = 1 := Int.sign_eq_one_of_pos (by omega)
  have hlog : 53 ≤ n.natAbs.log2 := (Nat.le_log2 (by omega)).mpr (by omega)
  have hpower : 2 ^ n.natAbs.log2 ≤ n.natAbs := Nat.log2_self_le (by omega)
  have hsplit : 2 ^ n.natAbs.log2 = 2 ^ 52 * 2 ^ (n.natAbs.log2 - 52) := by
    rw [← Nat.pow_add]
    congr 1
    omega
  have hquotient : 2 ^ 52 ≤ n.natAbs / 2 ^ (n.natAbs.log2 - 52) := by
    rw [Nat.le_div_iff_mul_le (Nat.two_pow_pos _), ← hsplit]
    exact hpower
  have hunit : 2 ≤ 2 ^ (n.natAbs.log2 - 52) :=
    Nat.le_self_pow (by omega) 2
  have hrounded : ∀ quotient, n.natAbs / 2 ^ (n.natAbs.log2 - 52) ≤ quotient →
      2 ^ 53 ≤ quotient * 2 ^ (n.natAbs.log2 - 52) := fun quotient hle =>
    Nat.mul_le_mul (Nat.le_trans hquotient hle) hunit
  simp only [luaNumber, if_neg habs, hsign, Int.one_mul]
  split
  · exact Int.ofNat_le.mpr (hrounded _ (Nat.le_succ _))
  · exact Int.ofNat_le.mpr (hrounded _ (Nat.le_refl _))

theorem luaNumber_nonpos (h : n ≤ 0) : luaNumber n ≤ 0 := by
  rw [luaNumber]
  split
  · exact h
  · rename_i hlarge
    have hsign : n.sign = -1 := Int.sign_eq_neg_one_of_neg (by omega)
    have hnonpos : ∀ k : Nat, -1 * (k : Int) ≤ 0 := fun k => by omega
    rw [hsign]
    exact hnonpos _

-- The rounding does not matter for a comparison with a small number.
theorem luaNumber_le_iff {m : Int} (hnonneg : 0 ≤ m) (hsmall : m < 2 ^ 53) :
    luaNumber n ≤ m ↔ n ≤ m := by
  by_cases hexact : n.natAbs < 2 ^ 53
  · rw [luaNumber_of_lt hexact]
  · by_cases hneg : n ≤ 0
    · have hnonpos := luaNumber_nonpos hneg
      omega
    · have hlarge := le_luaNumber (by omega : 2 ^ 53 ≤ n)
      omega

@[simp] theorem luaNumber_nonpos_iff : luaNumber n ≤ 0 ↔ n ≤ 0 :=
  luaNumber_le_iff (Int.le_refl 0) (by decide)

theorem integerReply_le_iff (limit : UInt32) :
    integerReply (luaNumber n) ≤ limit.toNat ↔ n ≤ limit.toNat := by
  have hlimit : limit.toNat < 2 ^ 32 := limit.toNat_lt
  have hnumber : luaNumber n ≤ (limit.toNat : Int) ↔ n ≤ limit.toNat :=
    luaNumber_le_iff (by omega) (by omega)
  rw [integerReply]
  omega

theorem integerReply_nonneg (h : 0 ≤ n) : 0 ≤ integerReply (luaNumber n) := by
  have hnumber : ¬luaNumber n < 0 := by
    by_cases hexact : n.natAbs < 2 ^ 53
    · rw [luaNumber_of_lt hexact]
      omega
    · have hlarge := le_luaNumber (by omega : 2 ^ 53 ≤ n)
      omega
  rw [integerReply]
  omega

theorem luaNumber_neg : luaNumber (-n) = -luaNumber n := by
  simp only [luaNumber, Int.natAbs_neg, Int.sign_neg]
  split
  · rfl
  · rw [Int.neg_mul]

theorem integerReply_nonneg_iff : 0 ≤ integerReply (luaNumber n) ↔ 0 ≤ n := by
  refine ⟨fun h => ?_, integerReply_nonneg⟩
  by_cases hexact : n.natAbs < 2 ^ 53
  · rw [luaNumber_of_lt hexact, integerReply] at h
    omega
  · by_cases hnonneg : 0 ≤ n
    · exact hnonneg
    · have hlarge := le_luaNumber (by omega : 2 ^ 53 ≤ -n)
      rw [luaNumber_neg] at hlarge
      rw [integerReply] at h
      omega

theorem integerReply_lt : integerReply n < 2 ^ 63 := by
  rw [integerReply]
  omega

end LuaNumber

end RedisServer

-- No key of the server expires while this time passes.
def KeysLive (elapsedMs : Nat) (server : RedisServer) : Prop :=
  ∀ key entry, server.store key = some entry →
    ¬RedisServer.expired (server.nowMs + elapsedMs) entry

theorem advance_of_keysLive {server : RedisServer} {elapsedMs : Nat}
    (h : KeysLive elapsedMs server) : (server.advance elapsedMs).store = server.store := by
  funext key
  cases hentry : server.store key with
  | none => simp [RedisServer.advance, hentry]
  | some entry => simp [RedisServer.advance, hentry, Option.filter, h key entry hentry]

-- The calls of `mizan-limits`. `ended` is the moment at which `check_and_acquire` returns.
inductive LimitsCommand where
  | getConnection
  | evalIncrement (key : String) (ttlSeconds : UInt32) (amount : UInt64)
  | evalRelease (key : String)
  | ended (result : Except AppError RuntimeLimitLease)

def LimitsCommand.Response : LimitsCommand → Type
  | .getConnection => Except String Unit
  | .evalIncrement .. => Except String Int
  | .evalRelease _ => Except String Int
  | .ended _ => Unit

-- Whether a command fails, and whether the server has run its script all the same.
structure LimitsChoice where
  fault : Option String := none
  executed : Bool := false
  elapsedMs : Nat := 0
  deriving DecidableEq, Repr

-- The server and the history of its counters, which no call reads: who has incremented the
-- key since it was created and was not undone, and whether the limit had room for it; when
-- each call has returned; and the leases that were returned and not released yet.
structure LimitsState where
  server : RedisServer
  counted : String → List (Nat × Bool)
  endedAtMs : Nat → Option Nat
  leases : List (Nat × String)

namespace LimitsState

def start : LimitsState :=
  { server := .start, counted := fun _ => [], endedAtMs := fun _ => none, leases := [] }

def reply {α : Type} (choice : LimitsChoice) (value : α) (s s' : LimitsState) :
    Except String α × LimitsState :=
  match choice.fault with
  | none => (.ok value, s')
  | some error => (.error error, if choice.executed then s' else s)

def increment (s : LimitsState) (server : RedisServer) (t : Nat) (key : String) (granted : Bool) :
    LimitsState :=
  { s with server, counted := Function.update s.counted key (s.counted key ++ [(t, granted)]) }

-- The increment that a release of thread `t` undoes.
def uncount (t : Nat) (counted : List (Nat × Bool)) : List (Nat × Bool) :=
  if (t, false) ∈ counted then counted.erase (t, false) else counted.erase (t, true)

def release (s : LimitsState) (server : RedisServer) (t : Nat) (key : String) : LimitsState :=
  { s with
    server
    counted := Function.update s.counted key
      (if (server.store key).isNone then [] else uncount t (s.counted key))
    leases := s.leases.erase (t, key) }

def finish (s : LimitsState) (t : Nat) (keys : List String) : LimitsState :=
  { s with
    endedAtMs := Function.update s.endedAtMs t (some s.server.nowMs)
    leases := s.leases ++ keys.map fun key => (t, key) }

def exec (policy : RuntimeLimitPolicy) (t : Nat) :
    (c : LimitsCommand) → LimitsChoice → LimitsState → c.Response × LimitsState
  | .getConnection, choice, s => reply choice () s s
  | .evalIncrement key ttlSeconds amount, choice, s =>
      match s.server.evalIncrement key amount ttlSeconds.toNat with
      | .error error => (.error (choice.fault.getD error), s)
      | .ok (count, server) =>
          reply choice count s
            (s.increment server t key (count ≤ policy.concurrentRequests.toNat))
  | .evalRelease key, choice, s =>
      reply choice (s.server.evalRelease key).1 s (s.release (s.server.evalRelease key).2 t key)
  | .ended (.ok lease), _, s => ((), s.finish t lease.keys)
  | .ended (.error _), _, s => ((), s.finish t [])

def advance (choice : LimitsChoice) (s : LimitsState) : LimitsState :=
  { s with
    server := s.server.advance choice.elapsedMs
    counted := fun key =>
      if ((s.server.advance choice.elapsedMs).store key).isNone then [] else s.counted key }

def system (policy : RuntimeLimitPolicy) :
    Interleaving.System LimitsCommand LimitsCommand.Response LimitsChoice LimitsState where
  exec t c choice s := some (exec policy t c choice s)
  env choice s := some (s.advance choice)

end LimitsState

end Mizan.Limits
