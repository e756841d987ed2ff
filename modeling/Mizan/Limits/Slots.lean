import Mizan.Limits.Calls
import Mizan.Limits.Leases

namespace Mizan.Limits

open Interleaving

-- An increment whose caller was told the count: what the counter stood for just before, of which
-- only `held` are leases, and whether the caller was turned away.
structure Attempt where
  thread : Nat
  key : String
  held : Nat
  pending : Nat
  undoing : Nat
  stray : Nat
  rejected : Bool
  deriving DecidableEq, Repr

-- The server and what no call reads, which means something for the counters of leases only: the
-- calls that were granted a slot of a counter and have not given it back, those that were turned
-- away and have not undone their increment, the increments that nobody is going to undo, because
-- the caller never learnt of them or because the undoing was lost, and the calls of
-- `check_and_acquire` that have returned a lease.
structure SlotState where
  server : RedisServer
  granted : String → List Nat
  undoing : String → List Nat
  stray : String → Nat
  returned : List Nat
  attempts : List Attempt

namespace SlotState

def start : SlotState :=
  { server := .start, granted := fun _ => [], undoing := fun _ => [], stray := fun _ => 0
    returned := [], attempts := [] }

-- The leases of a counter, and the slots of calls that may still fail at another scope.
def leased (s : SlotState) (key : String) : List Nat :=
  (s.granted key).filter fun t => t ∈ s.returned

def pending (s : SlotState) (key : String) : List Nat :=
  (s.granted key).filter fun t => t ∉ s.returned

def count (s : SlotState) (server : RedisServer) (t : Nat) (key : String) (rejected : Bool) :
    SlotState :=
  { s with
    server
    granted := if rejected then s.granted else Function.update s.granted key (t :: s.granted key)
    undoing := if rejected then Function.update s.undoing key (t :: s.undoing key) else s.undoing
    attempts := s.attempts ++
      [{ thread := t, key, held := (s.leased key).length, pending := (s.pending key).length
         undoing := (s.undoing key).length, stray := s.stray key, rejected }] }

def lose (s : SlotState) (key : String) : SlotState :=
  { s with stray := Function.update s.stray key (s.stray key + 1) }

def giveBack (s : SlotState) (t : Nat) (key : String) : SlotState :=
  if t ∈ s.undoing key then
    { s with undoing := Function.update s.undoing key ((s.undoing key).erase t) }
  else { s with granted := Function.update s.granted key ((s.granted key).erase t) }

def exec (policy : RuntimeLimitPolicy) (t : Nat) :
    (c : LimitsCommand) → LimitsChoice → SlotState → c.Response × SlotState
  | .getConnection, choice, s =>
      (match choice.fault with
        | none => .ok ()
        | some error => .error error, s)
  | .evalIncrement key ttlSeconds amount, choice, s =>
      match s.server.evalIncrement key amount ttlSeconds.toNat with
      | .error error => (.error (choice.fault.getD error), s)
      | .ok (count, server) =>
          match choice.fault with
          | none => (.ok count, s.count server t key (policy.concurrentRequests.toNat < count))
          | some error =>
              (.error error, if choice.executed then { s.lose key with server } else s)
  | .evalRelease key, choice, s =>
      match choice.fault with
      | none => (.ok (s.server.evalRelease key).1,
          { s.giveBack t key with server := (s.server.evalRelease key).2 })
      | some error =>
          (.error error,
            if choice.executed then
              { s.giveBack t key with server := (s.server.evalRelease key).2 }
            else (s.giveBack t key).lose key)
  | .ended (.ok _), _, s => ((), { s with returned := t :: s.returned })
  | .ended (.error _), _, s => ((), s)

def system (policy : RuntimeLimitPolicy) :
    Interleaving.System LimitsCommand LimitsCommand.Response LimitsChoice SlotState where
  exec t c choice s := some (exec policy t c choice s)
  env choice s := some { s with server := s.server.advance choice.elapsedMs }

-- What a counter of leases stands for.
def taken (s : SlotState) (scope : LimitScope) : Nat :=
  (s.granted (concurrencyCounterKey scope)).length +
    (s.undoing (concurrencyCounterKey scope)).length + s.stray (concurrencyCounterKey scope)

end SlotState

variable {policy : RuntimeLimitPolicy} {s s' : SlotState} {t u : Nat} {key : String}

-- The counter is full of nothing but leases, if it is full.
def FullOfLeases (policy : RuntimeLimitPolicy) (s : SlotState) (key : String) : Prop :=
  policy.concurrentRequests.toNat ≤ counterValue s.server key →
    s.pending key = [] ∧ s.undoing key = [] ∧ s.stray key = 0

structure SlotInvariant (policy : RuntimeLimitPolicy) (s : SlotState) : Prop where
  value : ∀ scope, counterValue s.server (concurrencyCounterKey scope) = s.taken scope
  attempts : ∀ attempt ∈ s.attempts, ∀ scope, attempt.key = concurrencyCounterKey scope →
    attempt.rejected = true → policy.concurrentRequests.toNat ≤ attempt.held

-- What the calls of other clients leave alone for thread `t`.
structure OthersSlots (t : Nat) (s s' : SlotState) : Prop where
  granted : ∀ key, (s'.granted key).count t = (s.granted key).count t
  undoing : ∀ key, (s'.undoing key).count t = (s.undoing key).count t
  attempts : s.attempts ⊆ s'.attempts

theorem OthersSlots.refl (t : Nat) (s : SlotState) : OthersSlots t s s :=
  ⟨fun _ => rfl, fun _ => rfl, fun _ h => h⟩

theorem OthersSlots.trans {s'' : SlotState} (h : OthersSlots t s s') (h' : OthersSlots t s' s'') :
    OthersSlots t s s'' :=
  ⟨fun key => (h'.granted key).trans (h.granted key),
    fun key => (h'.undoing key).trans (h.undoing key),
    List.Subset.trans h.attempts h'.attempts⟩

section Steps

theorem length_granted (s : SlotState) (key : String) :
    (s.granted key).length = (s.leased key).length + (s.pending key).length := by
  simp only [SlotState.leased, SlotState.pending, decide_not]
  exact List.length_eq_length_filter_add _

theorem count_granted (server : RedisServer) (rejected : Bool) (u : Nat) (key' : String) :
    ((s.count server t key rejected).granted key').count u =
      (s.granted key').count u + if rejected = false ∧ u = t ∧ key' = key then 1 else 0 := by
  cases rejected with
  | true => simp [SlotState.count]
  | false =>
      by_cases hkey : key' = key
      · subst hkey
        simp [SlotState.count, List.count_cons, @eq_comm _ t u]
      · simp [SlotState.count, hkey]

theorem count_undoing (server : RedisServer) (rejected : Bool) (u : Nat) (key' : String) :
    ((s.count server t key rejected).undoing key').count u =
      (s.undoing key').count u + if rejected = true ∧ u = t ∧ key' = key then 1 else 0 := by
  cases rejected with
  | false => simp [SlotState.count]
  | true =>
      by_cases hkey : key' = key
      · subst hkey
        simp [SlotState.count, List.count_cons, @eq_comm _ t u]
      · simp [SlotState.count, hkey]

theorem taken_count (server : RedisServer) (rejected : Bool) (scope : LimitScope) :
    (s.count server t key rejected).taken scope =
      s.taken scope + if concurrencyCounterKey scope = key then 1 else 0 := by
  by_cases hkey : concurrencyCounterKey scope = key
  · subst hkey
    cases rejected <;> simp [SlotState.count, SlotState.taken] <;> omega
  · cases rejected <;> simp [SlotState.count, SlotState.taken, hkey]

theorem SlotInvariant.count (h : SlotInvariant policy s) {amount : UInt64} {ttlSeconds : Nat}
    {count : Int} {server : RedisServer}
    (hincr : s.server.evalIncrement key amount ttlSeconds = .ok (count, server))
    (hamount : ∀ scope, key = concurrencyCounterKey scope → amount = 1)
    (hleases : ∀ scope, key = concurrencyCounterKey scope → FullOfLeases policy s key) :
    SlotInvariant policy (s.count server t key (policy.concurrentRequests.toNat < count)) := by
  obtain ⟨hvalue', hcount, -, hothers⟩ := evalIncrement_value hincr
  refine ⟨fun scope => ?_, fun attempt hattempt scope hscope => ?_⟩
  · rw [taken_count]
    have hvalue := h.value scope
    by_cases hkey : concurrencyCounterKey scope = key
    · subst hkey
      have hone : amount.toNat = 1 := by rw [hamount scope rfl]; rfl
      simp only [SlotState.count, if_true]
      omega
    · simpa [SlotState.count, hkey, counterValue, hothers _ hkey] using hvalue
  · rcases List.mem_append.mp hattempt with hattempt | hattempt
    · exact h.attempts attempt hattempt scope hscope
    · obtain rfl := List.mem_singleton.mp hattempt
      simp only at hscope ⊢
      subst hscope
      intro hrejected
      have hone : amount.toNat = 1 := by rw [hamount scope rfl]; rfl
      have hvalue := h.value scope
      have hlimit := @RedisServer.integerReply_le_iff
        (counterValue server (concurrencyCounterKey scope)) policy.concurrentRequests
      rw [decide_eq_true_eq, hcount] at hrejected
      have hfull : (policy.concurrentRequests.toNat : Int) ≤
          counterValue s.server (concurrencyCounterKey scope) := by
        omega
      obtain ⟨hpending, hundoing, hstray⟩ := hleases scope rfl hfull
      have hlength := length_granted s (concurrencyCounterKey scope)
      rw [SlotState.taken, hundoing, hstray] at hvalue
      rw [hpending] at hlength
      simp only [List.length_nil] at hvalue hlength
      omega

theorem OthersSlots.count (hne : u ≠ t) (server : RedisServer) (key : String) (rejected : Bool) :
    OthersSlots u s (s.count server t key rejected) := by
  refine ⟨fun key' => ?_, fun key' => ?_, fun attempt hattempt => ?_⟩
  · rw [count_granted]
    simp [hne]
  · rw [count_undoing]
    simp [hne]
  · exact List.mem_append_left _ hattempt

theorem taken_lose (scope : LimitScope) : (s.lose key).taken scope =
    s.taken scope + if concurrencyCounterKey scope = key then 1 else 0 := by
  by_cases hkey : concurrencyCounterKey scope = key
  · subst hkey
    simp only [SlotState.lose, SlotState.taken, Function.update_self, if_true]
    omega
  · simp [SlotState.lose, SlotState.taken, hkey]

theorem SlotInvariant.lose (h : SlotInvariant policy s) {amount : UInt64} {ttlSeconds : Nat}
    {count : Int} {server : RedisServer}
    (hincr : s.server.evalIncrement key amount ttlSeconds = .ok (count, server))
    (hamount : ∀ scope, key = concurrencyCounterKey scope → amount = 1) :
    SlotInvariant policy { s.lose key with server } := by
  obtain ⟨hvalue', -, -, hothers⟩ := evalIncrement_value hincr
  refine ⟨fun scope => ?_, h.attempts⟩
  have hvalue := h.value scope
  have htaken := @taken_lose s key scope
  change counterValue server (concurrencyCounterKey scope) = ((s.lose key).taken scope : Int)
  rw [htaken]
  by_cases hkey : concurrencyCounterKey scope = key
  · subst hkey
    have hone : amount.toNat = 1 := by rw [hamount scope rfl]; rfl
    simp only [if_true]
    omega
  · rw [if_neg hkey, counterValue, hothers _ hkey]
    exact hvalue

-- The decrement of a counter that stands for something.
theorem evalRelease_value {server : RedisServer} (h : 1 ≤ counterValue server key) :
    counterValue (server.evalRelease key).2 key = counterValue server key - 1 := by
  rw [counterValue] at h
  cases hentry : server.store key with
  | none => simp [hentry] at h
  | some entry =>
      simp only [hentry, Option.getD_some] at h
      by_cases hlast : entry.value - 1 ≤ 0
      · simp only [RedisServer.evalRelease, hentry, RedisServer.luaNumber_nonpos_iff, hlast,
          if_true,
          counterValue, RedisServer.set, Function.update_self, Option.getD_none, Option.getD_some]
        omega
      · simp [RedisServer.evalRelease, hentry, hlast, counterValue, RedisServer.set]

-- The slot that a thread gives back is one of its own.
theorem taken_giveBack {scope : LimitScope}
    (hown : t ∈ s.undoing (concurrencyCounterKey scope) ∨
      t ∈ s.granted (concurrencyCounterKey scope))
    (scope' : LimitScope) : (s.giveBack t (concurrencyCounterKey scope)).taken scope' +
      (if concurrencyCounterKey scope' = concurrencyCounterKey scope then 1 else 0) =
        s.taken scope' := by
  by_cases hkey : concurrencyCounterKey scope' = concurrencyCounterKey scope
  · by_cases hundoing : t ∈ s.undoing (concurrencyCounterKey scope)
    · have hpositive := List.length_pos_of_mem hundoing
      simp only [SlotState.giveBack, hundoing, if_true, SlotState.taken, hkey, Function.update_self,
        List.length_erase_of_mem]
      omega
    · have hgranted := hown.resolve_left hundoing
      have hpositive := List.length_pos_of_mem hgranted
      simp only [SlotState.giveBack, hundoing, if_false, SlotState.taken, hkey,
        Function.update_self,
        List.length_erase_of_mem hgranted, if_true]
      omega
  · by_cases hundoing : t ∈ s.undoing (concurrencyCounterKey scope) <;>
      simp [SlotState.giveBack, SlotState.taken, hundoing, hkey]

theorem giveBack_server (key : String) : (s.giveBack t key).server = s.server := by
  rw [SlotState.giveBack]
  split <;> rfl

theorem giveBack_attempts (key : String) : (s.giveBack t key).attempts = s.attempts := by
  rw [SlotState.giveBack]
  split <;> rfl

theorem SlotInvariant.release (h : SlotInvariant policy s) {scope : LimitScope}
    (hown : t ∈ s.undoing (concurrencyCounterKey scope) ∨
      t ∈ s.granted (concurrencyCounterKey scope)) :
    SlotInvariant policy { s.giveBack t (concurrencyCounterKey scope) with
      server := (s.server.evalRelease (concurrencyCounterKey scope)).2 } := by
  refine ⟨fun scope' => ?_, ?_⟩
  · have hvalue := h.value scope'
    have htaken := taken_giveBack hown scope'
    change counterValue (s.server.evalRelease (concurrencyCounterKey scope)).2
      (concurrencyCounterKey scope') =
        ((s.giveBack t (concurrencyCounterKey scope)).taken scope' : Int)
    by_cases hkey : concurrencyCounterKey scope' = concurrencyCounterKey scope
    · rw [if_pos hkey] at htaken
      have hpositive : 1 ≤ counterValue s.server (concurrencyCounterKey scope) := by
        rw [← hkey]
        omega
      rw [hkey] at hvalue ⊢
      rw [evalRelease_value hpositive]
      omega
    · rw [if_neg hkey] at htaken
      rw [counterValue, evalRelease_store _ hkey]
      rw [counterValue] at hvalue
      omega
  · simp only [giveBack_attempts]
    exact h.attempts

theorem SlotInvariant.abandon (h : SlotInvariant policy s) {scope : LimitScope}
    (hown : t ∈ s.undoing (concurrencyCounterKey scope) ∨
      t ∈ s.granted (concurrencyCounterKey scope)) :
    SlotInvariant policy
      ((s.giveBack t (concurrencyCounterKey scope)).lose (concurrencyCounterKey scope)) := by
  refine ⟨fun scope' => ?_, ?_⟩
  · have hvalue := h.value scope'
    have htaken := taken_giveBack hown scope'
    rw [taken_lose, htaken, ← hvalue, SlotState.lose]
    simp only [giveBack_server]
  · simp only [SlotState.lose, giveBack_attempts]
    exact h.attempts

theorem count_giveBack_undoing (u : Nat) (key' : String) :
    ((s.giveBack t key).undoing key').count u =
      (s.undoing key').count u - if t ∈ s.undoing key ∧ u = t ∧ key' = key then 1 else 0 := by
  by_cases hundoing : t ∈ s.undoing key
  · by_cases hkey : key' = key
    · subst hkey
      simp [SlotState.giveBack, hundoing, List.count_erase, @eq_comm _ t u]
    · simp [SlotState.giveBack, hundoing, hkey]
  · simp [SlotState.giveBack, hundoing]

theorem count_giveBack_granted (u : Nat) (key' : String) :
    ((s.giveBack t key).granted key').count u =
      (s.granted key').count u - if t ∉ s.undoing key ∧ u = t ∧ key' = key then 1 else 0 := by
  by_cases hundoing : t ∈ s.undoing key
  · simp [SlotState.giveBack, hundoing]
  · by_cases hkey : key' = key
    · subst hkey
      simp [SlotState.giveBack, hundoing, List.count_erase, @eq_comm _ t u]
    · simp [SlotState.giveBack, hundoing, hkey]

-- A call that returns a lease changes what its slots are, and no counter.
theorem ended_keeps (hinv : SlotInvariant policy s) {result : Except AppError RuntimeLimitLease}
    {choice : LimitsChoice}
    (h : SlotState.exec policy t (.ended result) choice s = ((), s')) :
    SlotInvariant policy s' ∧ ∀ u, OthersSlots u s s' := by
  cases result with
  | error error =>
      cases h
      exact ⟨hinv, fun u => OthersSlots.refl u s⟩
  | ok lease =>
      cases h
      exact ⟨⟨hinv.value, hinv.attempts⟩, fun u => ⟨fun _ => rfl, fun _ => rfl, fun _ h => h⟩⟩

theorem OthersSlots.giveBack (hne : u ≠ t) (key : String) :
    OthersSlots u s (s.giveBack t key) := by
  refine ⟨fun key' => ?_, fun key' => ?_, ?_⟩
  · simp [count_giveBack_granted, hne]
  · simp [count_giveBack_undoing, hne]
  · rw [giveBack_attempts]
    exact fun _ h => h

end Steps

end Mizan.Limits
