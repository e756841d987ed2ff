import Mizan.Limits.Counter
import Mizan.Interleaving.Fault
import Mizan.RunningTotal.Chain

namespace Mizan.Limits

open Interleaving RunningTotal

inductive RateCounter where
  | requests
  | tokens
  deriving DecidableEq, Repr

namespace RateCounter

def key : RateCounter → LimitScope → String
  | .requests => requestCounterKey
  | .tokens => tokenCounterKey

def limit (policy : RuntimeLimitPolicy) : RateCounter → UInt32
  | .requests => policy.requestsPerWindow
  | .tokens => policy.tokensPerWindow

-- What a call adds to the counter of each of its scopes.
def charge (request : RuntimeLimitRequest) : RateCounter → UInt64
  | .requests => 1
  | .tokens => request.estimatedPromptTokens

theorem eq_of_key_eq {c c' : RateCounter} {scope scope' : LimitScope}
    (h : c.key scope = c'.key scope') : c = c' := by
  have hne : ∀ scope scope', requestCounterKey scope ≠ tokenCounterKey scope' := fun scope scope' =>
    append_ne_append_of_take_ne 13 (by decide) (by decide) (by decide)
  cases c <;> cases c'
  · rfl
  · exact absurd h (hne scope scope')
  · exact absurd h.symm (hne scope' scope)
  · rfl

theorem key_ne_concurrencyCounterKey (c : RateCounter) (scope scope' : LimitScope) :
    c.key scope ≠ concurrencyCounterKey scope' := by
  cases c
  · exact (concurrencyCounterKey_ne_requestCounterKey scope' scope).symm
  · exact (concurrencyCounterKey_ne_tokenCounterKey scope' scope).symm

end RateCounter

-- An increment, with the value that it has left in the counter.
structure CountedCall where
  thread : Nat
  amount : Int
  total : Int
  deriving DecidableEq, Repr

-- A key from its creation to its end: the increments, and the calls that returned a lease
-- while it existed.
structure Lifetime where
  counted : List CountedCall
  returned : List Nat
  deriving DecidableEq, Repr

-- The server and what no call reads: the lifetimes of each key, the latest one first, and the
-- calls that have returned a lease.
structure RateState where
  server : RedisServer
  lifetimes : String → List Lifetime
  leased : List Nat

namespace RateState

def start : RateState := { server := .start, lifetimes := fun _ => [], leased := [] }

def increment (s : RateState) (server : RedisServer) (t : Nat) (key : String) (amount : UInt64) :
    RateState :=
  let call : CountedCall :=
    { thread := t, amount := amount.toNat, total := counterValue server key }
  let lifetimes :=
    if (s.server.store key).isNone then { counted := [call], returned := [] } :: s.lifetimes key
    else (s.lifetimes key).modifyHead fun lifetime =>
      { lifetime with counted := lifetime.counted ++ [call] }
  { s with server, lifetimes := Function.update s.lifetimes key lifetimes }

def grant (s : RateState) (t : Nat) : RateState :=
  { s with
    leased := s.leased ++ [t]
    lifetimes := fun key =>
      if (s.server.store key).isNone then s.lifetimes key
      else (s.lifetimes key).modifyHead fun lifetime =>
        { lifetime with returned := lifetime.returned ++ [t] } }

def exec (t : Nat) : (c : LimitsCommand) → LimitsChoice → RateState → c.Response × RateState
  | .getConnection, choice, s => reply choice.fault choice.executed () s s
  | .evalIncrement key ttlSeconds amount, choice, s =>
      match s.server.evalIncrement key amount ttlSeconds.toNat with
      | .error error => (.error (choice.fault.getD error), s)
      | .ok (count, server) =>
          reply choice.fault choice.executed count s (s.increment server t key amount)
  | .evalRelease key, choice, s =>
      reply choice.fault choice.executed (s.server.evalRelease key).1 s
        { s with server := (s.server.evalRelease key).2 }
  | .ended (.ok _), _, s => ((), s.grant t)
  | .ended (.error _), _, s => ((), s)

def system : Interleaving.System LimitsCommand LimitsCommand.Response LimitsChoice RateState where
  exec t c choice s := some (exec t c choice s)
  env choice s := some { s with server := s.server.advance choice.elapsedMs }

-- The increments of a key by one thread, in any of its lifetimes.
def calls (t : Nat) (key : String) (s : RateState) : List CountedCall :=
  (s.lifetimes key).flatMap fun lifetime => lifetime.counted.filter fun call => call.thread = t

end RateState

open RateState

variable {policy : RuntimeLimitPolicy} {requests : Nat → RuntimeLimitRequest}

-- A counter that exists shows the sum of the increments of its latest lifetime.
structure KeyInvariant (requests : Nat → RuntimeLimitRequest) (c : RateCounter)
    (scope : LimitScope) (s : RateState) : Prop where
  chained : ∀ lifetime ∈ s.lifetimes (c.key scope),
    Chained CountedCall.amount CountedCall.total 0 lifetime.counted
  current : ∀ entry, s.server.store (c.key scope) = some entry →
    ∃ lifetime earlier, s.lifetimes (c.key scope) = lifetime :: earlier ∧
      entry.value = final CountedCall.total 0 lifetime.counted
  amounts : ∀ lifetime ∈ s.lifetimes (c.key scope), ∀ call ∈ lifetime.counted,
    call.amount = (c.charge (requests call.thread)).toNat

-- Thread `t` has seen no counter above its limit.
def Within (policy : RuntimeLimitPolicy) (t : Nat) (s : RateState) : Prop :=
  ∀ c : RateCounter, ∀ scope, ∀ call ∈ calls t (c.key scope) s,
    call.total ≤ (c.limit policy).toNat

-- Thread `t` has incremented a counter that the policy limits.
def Charged (policy : RuntimeLimitPolicy) (requests : Nat → RuntimeLimitRequest) (t : Nat)
    (c : RateCounter) (scope : LimitScope) (s : RateState) : Prop :=
  c.limit policy ≠ 0 → c.charge (requests t) ≠ 0 → calls t (c.key scope) s ≠ []

structure RateInvariant (policy : RuntimeLimitPolicy) (requests : Nat → RuntimeLimitRequest)
    (s : RateState) : Prop where
  keys : ∀ c scope, KeyInvariant requests c scope s
  within : ∀ t ∈ s.leased, Within policy t s
  charged : ∀ t ∈ s.leased, ∀ c, ∀ scope ∈ (requests t).scopes, Charged policy requests t c scope s

-- What the steps of other calls leave alone for thread `t`.
structure OwnCalls (t : Nat) (s s' : RateState) : Prop where
  calls : ∀ c : RateCounter, ∀ scope, calls t (c.key scope) s' = calls t (c.key scope) s
  leased : t ∈ s'.leased ↔ t ∈ s.leased

namespace OwnCalls

variable {t : Nat} {s s' s'' : RateState}

theorem refl (t : Nat) (s : RateState) : OwnCalls t s s := ⟨fun _ _ => rfl, Iff.rfl⟩

theorem trans (h : OwnCalls t s s') (h' : OwnCalls t s' s'') : OwnCalls t s s'' :=
  ⟨fun c scope => (h'.calls c scope).trans (h.calls c scope), h'.leased.trans h.leased⟩

theorem within (h : OwnCalls t s s') (hwithin : Within policy t s) : Within policy t s' := by
  intro c scope call hcall
  rw [h.calls] at hcall
  exact hwithin c scope call hcall

theorem charged (h : OwnCalls t s s') {c : RateCounter} {scope : LimitScope}
    (hcharged : Charged policy requests t c scope s) : Charged policy requests t c scope s' := by
  intro hlimit hcharge
  rw [h.calls]
  exact hcharged hlimit hcharge

end OwnCalls

section Steps

variable {s s' : RateState} {t u : Nat} {key : String}

-- A step that nobody but the granted calls can tell from the one before.
theorem RateInvariant.of_own (h : RateInvariant policy requests s)
    (hkeys : ∀ c scope, KeyInvariant requests c scope s')
    (hown : ∀ u, OwnCalls u s s') : RateInvariant policy requests s' := by
  refine ⟨hkeys, fun u hu => ?_, fun u hu c scope hscope => ?_⟩
  · exact (hown u).within (h.within u ((hown u).leased.mp hu))
  · exact (hown u).charged (h.charged u ((hown u).leased.mp hu) c scope hscope)

-- A step that changes no counter of the windows.
theorem RateInvariant.frame (h : RateInvariant policy requests s)
    (hleased : s'.leased = s.leased)
    (hlifetimes : ∀ c : RateCounter, ∀ scope, s'.lifetimes (c.key scope) =
      s.lifetimes (c.key scope))
    (hstore : ∀ c : RateCounter, ∀ scope entry, s'.server.store (c.key scope) = some entry →
      s.server.store (c.key scope) = some entry) :
    RateInvariant policy requests s' ∧ ∀ u, OwnCalls u s s' := by
  have hown : ∀ u, OwnCalls u s s' := fun u =>
    ⟨fun c scope => by rw [RateState.calls, hlifetimes, RateState.calls], by rw [hleased]⟩
  refine ⟨h.of_own (fun c scope => ?_) hown, hown⟩
  obtain ⟨hchained, hcurrent, hamounts⟩ := h.keys c scope
  refine ⟨?_, fun entry hentry => ?_, ?_⟩
  · rw [hlifetimes]
    exact hchained
  · rw [hlifetimes]
    exact hcurrent entry (hstore c scope entry hentry)
  · rw [hlifetimes]
    exact hamounts

theorem counted_modifyHead {f : Lifetime → Lifetime} (hcounted : ∀ l, (f l).counted = l.counted)
    (lifetimes : List Lifetime) :
    (lifetimes.modifyHead f).map Lifetime.counted = lifetimes.map Lifetime.counted := by
  cases lifetimes with
  | nil => rfl
  | cons first rest => simp [hcounted]

theorem counted_grant (s : RateState) (t : Nat) (key : String) :
    ((s.grant t).lifetimes key).map Lifetime.counted = (s.lifetimes key).map Lifetime.counted := by
  simp only [grant]
  split
  · rfl
  · apply counted_modifyHead
    intro lifetime
    rfl

theorem calls_eq_of_counted {key : String}
    (h : (s'.lifetimes key).map Lifetime.counted = (s.lifetimes key).map Lifetime.counted)
    (u : Nat) : calls u key s' = calls u key s := by
  have hmap : ∀ s : RateState, calls u key s = ((s.lifetimes key).map Lifetime.counted).flatMap
      fun counted => counted.filter fun call => call.thread = u := by
    intro s
    rw [List.flatMap_map]
    rfl
  rw [hmap, hmap, h]

theorem KeyInvariant.grant {c : RateCounter} {scope : LimitScope}
    (h : KeyInvariant requests c scope s) (t : Nat) :
    KeyInvariant requests c scope (s.grant t) := by
  have hcounted := counted_grant s t (c.key scope)
  have hmem : ∀ lifetime ∈ (s.grant t).lifetimes (c.key scope),
      ∃ lifetime' ∈ s.lifetimes (c.key scope), lifetime'.counted = lifetime.counted := by
    intro lifetime hlifetime
    have hmapped := List.mem_map_of_mem (f := Lifetime.counted) hlifetime
    rw [hcounted] at hmapped
    exact List.mem_map.mp hmapped
  refine ⟨fun lifetime hlifetime => ?_, fun entry hentry => ?_, fun lifetime hlifetime => ?_⟩
  · obtain ⟨lifetime', hlifetime', heq⟩ := hmem lifetime hlifetime
    rw [← heq]
    exact h.chained lifetime' hlifetime'
  · obtain ⟨lifetime, earlier, hcurrent, hvalue⟩ := h.current entry hentry
    have hexists : ((s.server.store (c.key scope)).isNone) = false := by
      rw [show s.server.store (c.key scope) = some entry from hentry]
      rfl
    refine ⟨{ lifetime with returned := lifetime.returned ++ [t] }, earlier, ?_, hvalue⟩
    simp only [RateState.grant, hexists, Bool.false_eq_true, if_false, hcurrent,
      List.modifyHead_cons]
  · obtain ⟨lifetime', hlifetime', heq⟩ := hmem lifetime hlifetime
    rw [← heq]
    exact h.amounts lifetime' hlifetime'

theorem calls_grant (s : RateState) (t u : Nat) (key : String) :
    calls u key (s.grant t) = calls u key s :=
  calls_eq_of_counted (counted_grant s t key) u

-- A call that has counted in every window it is limited by returns a lease.
theorem RateInvariant.grant (h : RateInvariant policy requests s) (hwithin : Within policy t s)
    (hcharged : ∀ c, ∀ scope ∈ (requests t).scopes, Charged policy requests t c scope s) :
    RateInvariant policy requests (s.grant t) := by
  have hmem : ∀ u, u ∈ (s.grant t).leased → u ∈ s.leased ∨ u = t := by simp [RateState.grant]
  refine ⟨fun c scope => (h.keys c scope).grant t, fun u hu => ?_, fun u hu c scope hscope => ?_⟩
  · intro c scope call hcall
    rw [calls_grant] at hcall
    rcases hmem u hu with hu | rfl
    · exact h.within u hu c scope call hcall
    · exact hwithin c scope call hcall
  · intro hlimit hcharge
    rw [calls_grant]
    rcases hmem u hu with hu | rfl
    · exact h.charged u hu c scope hscope hlimit hcharge
    · exact hcharged c scope hscope hlimit hcharge

theorem OwnCalls.grant (hne : u ≠ t) (s : RateState) : OwnCalls u s (s.grant t) :=
  ⟨fun c scope => calls_grant s t u (c.key scope), by simp [RateState.grant, hne]⟩

section Increment

variable {c : RateCounter} {scope : LimitScope} (t : Nat) (amount : UInt64) (server : RedisServer)

def newCall (t : Nat) (amount : UInt64) (server : RedisServer) (key : String) : CountedCall :=
  { thread := t, amount := amount.toNat, total := counterValue server key }

-- An increment continues the latest lifetime of its key, or begins one where the key is absent.
-- `before` is what the continued lifetime has counted so far.
theorem lifetimes_increment (h : KeyInvariant requests c scope s) :
    ∃ before returned earlier,
      (s.increment server t (c.key scope) amount).lifetimes (c.key scope) =
        { counted := before ++ [newCall t amount server (c.key scope)], returned } :: earlier ∧
      counterValue s.server (c.key scope) = final CountedCall.total 0 before ∧
      Chained CountedCall.amount CountedCall.total 0 before ∧
      (∀ call ∈ before, call.amount = (c.charge (requests call.thread)).toNat) ∧
      (∀ lifetime ∈ earlier, lifetime ∈ s.lifetimes (c.key scope)) ∧
      ∀ u, calls u (c.key scope) s = (before.filter fun call => call.thread = u) ++
        earlier.flatMap fun lifetime => lifetime.counted.filter fun call => call.thread = u := by
  cases hentry : s.server.store (c.key scope) with
  | none =>
      refine ⟨[], [], s.lifetimes (c.key scope), ?_, ?_, trivial, by simp, fun _ hl => hl, ?_⟩
      · simp [RateState.increment, hentry, newCall]
      · simp [counterValue, hentry, final]
      · intro u
        rfl
  | some entry =>
      obtain ⟨lifetime, earlier, hcurrent, hvalue⟩ := h.current entry hentry
      have hmem : lifetime ∈ s.lifetimes (c.key scope) := by simp [hcurrent]
      refine ⟨lifetime.counted, lifetime.returned, earlier, ?_, ?_, h.chained lifetime hmem,
        h.amounts lifetime hmem, fun l hl => by simp [hcurrent, hl], fun u => ?_⟩
      · simp [RateState.increment, hentry, hcurrent, newCall]
      · simpa [counterValue, hentry] using hvalue
      · simp [calls, hcurrent]

theorem mem_calls_increment (h : KeyInvariant requests c scope s) (call : CountedCall) :
    call ∈ calls t (c.key scope) (s.increment server t (c.key scope) amount) ↔
      call ∈ calls t (c.key scope) s ∨ call = newCall t amount server (c.key scope) := by
  obtain ⟨before, returned, earlier, hlifetimes, -, -, -, -, hcalls⟩ :=
    lifetimes_increment t amount server h
  have hnew : [newCall t amount server (c.key scope)].filter (fun call => call.thread = t) =
      [newCall t amount server (c.key scope)] := by simp [newCall]
  rw [hcalls, RateState.calls, hlifetimes, List.flatMap_cons, List.filter_append, hnew]
  simp only [List.mem_append, List.mem_singleton]
  tauto

theorem calls_increment_of_ne (h : KeyInvariant requests c scope s) (hne : u ≠ t) :
    calls u (c.key scope) (s.increment server t (c.key scope) amount) =
      calls u (c.key scope) s := by
  obtain ⟨before, returned, earlier, hlifetimes, -, -, -, -, hcalls⟩ :=
    lifetimes_increment t amount server h
  have hnew : [newCall t amount server (c.key scope)].filter (fun call => call.thread = u) =
    [] := by
    simp [newCall, Ne.symm hne]
  rw [hcalls, RateState.calls, hlifetimes, List.flatMap_cons, List.filter_append, hnew,
    List.append_nil]

theorem lifetimes_increment_of_ne {key key' : String} (hne : key' ≠ key) :
    (s.increment server t key amount).lifetimes key' = s.lifetimes key' := by
  simp [RateState.increment, hne]

theorem OwnCalls.increment (h : ∀ scope, KeyInvariant requests c scope s) (hne : u ≠ t) :
    OwnCalls u s (s.increment server t (c.key scope) amount) := by
  refine ⟨fun c' scope' => ?_, Iff.rfl⟩
  by_cases hkey : c'.key scope' = c.key scope
  · rw [hkey]
    exact calls_increment_of_ne t amount server (h scope) hne
  · rw [RateState.calls, lifetimes_increment_of_ne t amount server hkey, RateState.calls]

variable {t amount server} in
theorem KeyInvariant.increment {ttlSeconds : Nat} {count : Int}
    (h : KeyInvariant requests c scope s)
    (hincr : s.server.evalIncrement (c.key scope) amount ttlSeconds = .ok (count, server))
    (hamount : amount = c.charge (requests t)) :
    KeyInvariant requests c scope (s.increment server t (c.key scope) amount) := by
  obtain ⟨before, returned, earlier, hlifetimes, hvalue, hchained, hamounts, hearlier, -⟩ :=
    lifetimes_increment t amount server h
  obtain ⟨htotal, -, -, -⟩ := evalIncrement_value hincr
  refine ⟨fun lifetime hlifetime => ?_, fun entry hentry => ?_, fun lifetime hlifetime => ?_⟩
  · rw [hlifetimes] at hlifetime
    rcases List.mem_cons.mp hlifetime with rfl | hlifetime
    · rw [chained_concat]
      refine ⟨hchained, ?_⟩
      rw [newCall, htotal, hvalue]
    · exact h.chained lifetime (hearlier lifetime hlifetime)
  · refine ⟨_, earlier, hlifetimes, ?_⟩
    have hentry : server.store (c.key scope) = some entry := hentry
    rw [final_concat, newCall, counterValue, hentry]
    rfl
  · rw [hlifetimes] at hlifetime
    rcases List.mem_cons.mp hlifetime with rfl | hlifetime
    · intro call hcall
      rcases List.mem_append.mp hcall with hcall | hcall
      · exact hamounts call hcall
      · rw [List.mem_singleton.mp hcall, newCall, hamount]
    · exact h.amounts lifetime (hearlier lifetime hlifetime)

variable {t amount server} in
theorem RateInvariant.increment {ttlSeconds : Nat} {count : Int}
    (h : RateInvariant policy requests s)
    (hincr : s.server.evalIncrement (c.key scope) amount ttlSeconds = .ok (count, server))
    (hamount : amount = c.charge (requests t)) (hrunning : t ∉ s.leased) :
    RateInvariant policy requests (s.increment server t (c.key scope) amount) := by
  obtain ⟨-, -, -, hothers⟩ := evalIncrement_value hincr
  have hother : ∀ u ∈ s.leased, OwnCalls u s (s.increment server t (c.key scope) amount) := by
    intro u hu
    have hne : u ≠ t := fun heq => hrunning (heq ▸ hu)
    exact OwnCalls.increment t amount server (fun scope => h.keys c scope) hne
  refine ⟨fun c' scope' => ?_, fun u hu => (hother u hu).within (h.within u hu),
    fun u hu c' scope' hscope => (hother u hu).charged (h.charged u hu c' scope' hscope)⟩
  by_cases hkey : c'.key scope' = c.key scope
  · obtain rfl := RateCounter.eq_of_key_eq hkey
    have hincrement := (h.keys c' scope).increment hincr hamount
    refine ⟨?_, ?_, ?_⟩
    · rw [hkey]
      exact hincrement.chained
    · rw [hkey]
      exact hincrement.current
    · rw [hkey]
      exact hincrement.amounts
  · obtain ⟨hchained, hcurrent, hamounts⟩ := h.keys c' scope'
    have hlifetimes := lifetimes_increment_of_ne (s := s) t amount server hkey
    refine ⟨?_, fun entry hentry => ?_, ?_⟩
    · rw [hlifetimes]
      exact hchained
    · rw [hlifetimes]
      exact hcurrent entry (by rw [← hothers _ hkey]; exact hentry)
    · rw [hlifetimes]
      exact hamounts

end Increment

end Steps

end Mizan.Limits
