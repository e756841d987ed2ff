import Mizan.Core.Types

namespace Mizan

inductive LimitScope where
  | apiKey (id : Uuid)
  | user (id : Uuid)
  | provider (id : Uuid)
  deriving DecidableEq, Repr

def LimitScope.keyPart : LimitScope → String
  | .apiKey id => "api_key:" ++ id.toString
  | .user id => "user:" ++ id.toString
  | .provider id => "provider:" ++ id.toString

def requestCounterKey (scope : LimitScope) : String := "mizan:limit:rpm:" ++ scope.keyPart

def tokenCounterKey (scope : LimitScope) : String := "mizan:limit:tpm:" ++ scope.keyPart

def concurrencyCounterKey (scope : LimitScope) : String :=
  "mizan:limit:concurrency:" ++ scope.keyPart

theorem append_ne_append_of_take_ne {a b c d : String} (n : Nat) (ha : n ≤ a.toList.length)
    (hb : n ≤ b.toList.length) (hne : a.toList.take n ≠ b.toList.take n) : a ++ c ≠ b ++ d := by
  intro h
  have hchars := congrArg (fun s => s.toList.take n) h
  simp only [String.toList_append, List.take_append_of_le_length ha,
    List.take_append_of_le_length hb] at hchars
  exact hne hchars

theorem concurrencyCounterKey_ne_requestCounterKey (scope scope' : LimitScope) :
    concurrencyCounterKey scope ≠ requestCounterKey scope' :=
  append_ne_append_of_take_ne 13 (by decide) (by decide) (by decide)

theorem concurrencyCounterKey_ne_tokenCounterKey (scope scope' : LimitScope) :
    concurrencyCounterKey scope ≠ tokenCounterKey scope' :=
  append_ne_append_of_take_ne 13 (by decide) (by decide) (by decide)

structure RuntimeLimitPolicy where
  requestsPerWindow : UInt32
  tokensPerWindow : UInt32
  concurrentRequests : UInt32
  windowSeconds : UInt32
  leaseSeconds : UInt32
  deriving DecidableEq, Repr

def RuntimeLimitPolicy.isDisabled (policy : RuntimeLimitPolicy) : Bool :=
  policy.requestsPerWindow = 0 && policy.tokensPerWindow = 0 && policy.concurrentRequests = 0

structure RuntimeLimitRequest where
  scopes : List LimitScope
  estimatedPromptTokens : UInt64
  deriving DecidableEq, Repr

structure RuntimeLimitLease where
  keys : List String
  deriving DecidableEq, Repr

def RuntimeLimitLease.noop : RuntimeLimitLease := { keys := [] }

end Mizan
