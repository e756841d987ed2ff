import Mizan.Limits.Charges
import Mizan.Limits.Leases
import Mizan.Limits.Rate

namespace Mizan.Limits

open Interleaving LimitsState

section Judged

variable {policy : RuntimeLimitPolicy} {α β : Type} {choices : List LimitsChoice}
  {s s' : LimitsState} {first second : List Charge}

-- A call with nobody beside it, each of its commands answered under the next of the choices.
def playAlone (policy : RuntimeLimitPolicy) (program : LimitsProg α) (choices : List LimitsChoice)
    (s : LimitsState) : Option (Except AppError α × LimitsState) :=
  program.run.play ((LimitsState.system policy).exec 0) choices s

-- Redis runs and answers every command.
def Answered (choices : List LimitsChoice) : Prop := ∀ choice ∈ choices, choice.fault = none

instance (choices : List LimitsChoice) : Decidable (Answered choices) :=
  inferInstanceAs (Decidable (∀ choice ∈ choices, _))

-- The program goes on exactly where every command is answered and its charges fit, and then it has
-- made them and no others.
structure Judged (policy : RuntimeLimitPolicy) (charges : List Charge) (program : LimitsProg α) :
    Prop where
  passed : ∀ {choices s value s'}, playAlone policy program choices s = some (.ok value, s') →
    Answered choices ∧ FitInTurn charges (counterValue s.server) ∧
      counterValue s'.server = applyCharges charges (counterValue s.server)
  refused : ∀ {choices s error s'}, playAlone policy program choices s = some (.error error, s') →
    ¬(Answered choices ∧ FitInTurn charges (counterValue s.server))

theorem answered_append {before after : List LimitsChoice} :
    Answered (before ++ after) ↔ Answered before ∧ Answered after := by
  simp only [Answered, List.mem_append, or_imp, forall_and]

theorem judged_pure (value : α) : Judged policy [] (pure value : LimitsProg α) := by
  refine ⟨fun {choices s value' s'} h => ?_, fun {choices s error s'} h => ?_⟩
  · cases choices with
    | nil =>
        cases h
        exact ⟨by simp [Answered], trivial, rfl⟩
    | cons => cases h
  · cases choices <;> cases h

theorem judged_seq {program : LimitsProg α} {rest : α → LimitsProg β}
    (h : Judged policy first program) (hrest : ∀ value, Judged policy second (rest value)) :
    Judged policy (first ++ second) (program >>= rest) := by
  refine ⟨fun {choices s value s'} hplay => ?_, fun {choices s error s'} hplay => ?_⟩
  · obtain ⟨_, herror, _⟩ | ⟨before, after, middle, s₁, rfl, hbefore, hafter⟩ :=
      Prog.exists_play_of_seq hplay
    · cases herror
    · obtain ⟨hanswered, hfits, hvalues⟩ := h.passed hbefore
      obtain ⟨hanswered', hfits', hvalues'⟩ := (hrest middle).passed hafter
      rw [hvalues] at hfits' hvalues'
      refine ⟨answered_append.mpr ⟨hanswered, hanswered'⟩, fitInTurn_append.mpr ⟨hfits, hfits'⟩, ?_⟩
      rw [hvalues', applyCharges, applyCharges, applyCharges, List.foldl_append]
  · rintro ⟨hanswered, hfits⟩
    rw [fitInTurn_append] at hfits
    obtain ⟨_, _, hfirst⟩ | ⟨before, after, middle, s₁, rfl, hbefore, hafter⟩ :=
      Prog.exists_play_of_seq hplay
    · exact h.refused hfirst ⟨hanswered, hfits.1⟩
    · have hvalues := (h.passed hbefore).2.2
      refine (hrest middle).refused hafter ⟨(answered_append.mp hanswered).2, ?_⟩
      rw [hvalues]
      exact hfits.2

theorem judged_onError {cleanup : Prog LimitsCommand LimitsCommand.Response Unit}
    {program : LimitsProg α} (h : Judged policy first program) :
    Judged policy first (Prog.onError cleanup program) := by
  refine ⟨fun {choices s value s'} hplay => ?_, fun {choices s error s'} hplay => ?_⟩
  · obtain ⟨value', hvalue, hfirst⟩ | ⟨_, _, error, _, _, herror, _⟩ :=
      Prog.exists_play_of_onError hplay
    · cases hvalue
      exact h.passed hfirst
    · cases herror
  · rintro ⟨hanswered, hfits⟩
    obtain ⟨_, hvalue, _⟩ | ⟨before, after, _, middle, rfl, _, hfirst⟩ :=
      Prog.exists_play_of_onError hplay
    · cases hvalue
    · exact h.refused hfirst ⟨(answered_append.mp hanswered).1, hfits⟩

theorem judged_getConnection : Judged policy [] getConnection := by
  refine ⟨fun {choices s value s'} hplay => ?_, fun {choices s error s'} hplay => ?_⟩
  · obtain ⟨choice, response, rfl, hexec, hresult⟩ := Prog.exists_play_of_perform hplay
    obtain ⟨hfault, -, rfl⟩ | ⟨error, rfl, -⟩ := limitsReply_cases (Option.some.inj hexec)
    · exact ⟨by simpa [Answered] using hfault, trivial, rfl⟩
    · cases hresult
  · rintro ⟨hanswered, -⟩
    obtain ⟨choice, response, rfl, hexec, hresult⟩ := Prog.exists_play_of_perform hplay
    have hfault := hanswered choice List.mem_cons_self
    obtain ⟨rfl, -⟩ := reply_of_no_fault hfault (Option.some.inj hexec)
    cases hresult

-- Redis refuses an increment that is no signed number or leads past the largest one.
theorem evalIncrement_ok_iff {server : RedisServer} {key : String} {amount : UInt64}
    {ttlSeconds : Nat} : (∃ result, server.evalIncrement key amount ttlSeconds = .ok result) ↔
      amount.toNat < 2 ^ 63 ∧ counterValue server key + amount.toNat < 2 ^ 63 := by
  simp only [RedisServer.evalIncrement, RedisServer.incrby, counterValue]
  by_cases hamount : 2 ^ 63 ≤ amount.toNat
  · rw [if_pos hamount]
    simp
    omega
  · rw [if_neg hamount]
    by_cases hcurrent : 2 ^ 63 ≤
      ((server.store key).getD { value := 0, expiresAtMs := none }).value +
        amount.toNat
    · rw [if_pos hcurrent]
      simp
      omega
    · rw [if_neg hcurrent]
      simp
      omega

-- What one increment leaves, and what its caller learns of it.
theorem play_increment {key : String} {ttlSeconds : UInt32} {amount : UInt64}
    {result : Except AppError UInt64}
    (h : playAlone policy (incrementWindowCounter key ttlSeconds amount) choices s =
      some (result, s')) :
    ∃ choice, choices = [choice] ∧
      ((∃ error, result = .error error ∧
          ¬(choice.fault = none ∧ amount.toNat < 2 ^ 63 ∧
            counterValue s.server key + amount.toNat < 2 ^ 63 ∧
            0 ≤ counterValue s.server key + amount.toNat)) ∨
        (choice.fault = none ∧ amount.toNat < 2 ^ 63 ∧
          0 ≤ counterValue s.server key + amount.toNat ∧
          (∃ count, result = .ok count ∧ ∀ limit : UInt32, count > limit.toUInt64 ↔
            limit.toNat < counterValue s.server key + amount.toNat) ∧
          counterValue s'.server = Function.update (counterValue s.server) key
            (counterValue s.server key + amount.toNat))) := by
  obtain ⟨choice, response, rfl, hexec, rfl⟩ := Prog.exists_play_of_perform h
  refine ⟨choice, rfl, ?_⟩
  by_cases hfault : choice.fault = none
  · obtain ⟨error, rfl, rfl⟩ | ⟨count, server, hincr, rfl, rfl⟩ :=
      evalIncrement_outcome hfault (Option.some.inj hexec)
    · refine .inl ⟨_, rfl, fun ⟨_, hamount, hcurrent, _⟩ => ?_⟩
      obtain ⟨⟨count, server⟩, hincr⟩ := evalIncrement_ok_iff.mpr ⟨hamount, hcurrent⟩
      have hexec := Option.some.inj hexec
      rw [exec, hincr] at hexec
      simp only [LimitsState.reply, hfault] at hexec
      have hresponse : (.ok count : Except String Int) = .error error := congrArg Prod.fst hexec
      cases hresponse
    · have hruns := evalIncrement_ok_iff.mp ⟨_, hincr⟩
      obtain ⟨hvalue, hcount, -, hothers⟩ := evalIncrement_value hincr
      rw [hvalue] at hcount
      by_cases hnonneg : 0 ≤ counterValue s.server key + amount.toNat
      · have hreply : 0 ≤ count := by
          rw [hcount]
          exact RedisServer.integerReply_nonneg hnonneg
        refine .inr ⟨hfault, hruns.1, hnonneg, ⟨_, if_pos hreply, fun limit => ?_⟩, ?_⟩
        · rw [hcount]
          exact lt_countOf hnonneg
        · funext key'
          by_cases hkey : key' = key
          · rw [hkey, Function.update_self]
            exact hvalue
          · rw [Function.update_of_ne hkey, counterValue, counterValue]
            exact congrArg _ (congrArg (Option.getD · _) (hothers key' hkey))
      · have hreply : ¬0 ≤ count := by
          rw [hcount, RedisServer.integerReply_nonneg_iff]
          exact hnonneg
        exact .inl ⟨_, if_neg hreply, fun h => hnonneg h.2.2.2⟩
  · refine .inl ?_
    obtain ⟨error, rfl, rfl⟩ | ⟨count, server, hincr, rfl, hresponse⟩ :=
      evalIncrement_cases (Option.some.inj hexec)
    · exact ⟨_, rfl, fun h => hfault h.1⟩
    · obtain rfl | ⟨error, rfl⟩ := hresponse
      · have hexec := Option.some.inj hexec
        rw [exec, hincr] at hexec
        cases hchoice : choice.fault with
        | none => exact absurd hchoice hfault
        | some error =>
            simp only [LimitsState.reply, hchoice] at hexec
            have hresponse : (.error error : Except String Int) = .ok count :=
              congrArg Prod.fst hexec
            cases hresponse
      · exact ⟨_, rfl, fun h => hfault h.1⟩

theorem judged_charge {charge : Charge} {ttlSeconds : UInt32} {failing : LimitsProg α} {value : α}
    (hfailing : ∀ choices s value s', playAlone policy failing choices s ≠ some (.ok value, s')) :
    Judged policy [charge] (do
      let count ← incrementWindowCounter charge.key ttlSeconds charge.amount
      if count > charge.limit.toUInt64 then failing else pure value) := by
  have hlimit : charge.limit.toNat < 2 ^ 32 := charge.limit.toNat_lt
  refine ⟨fun {choices s value' s'} hplay => ?_, fun {choices s error s'} hplay => ?_⟩
  · obtain ⟨_, herror, _⟩ | ⟨before, after, count, s₁, rfl, hbefore, hafter⟩ :=
      Prog.exists_play_of_seq hplay
    · cases herror
    · obtain ⟨choice, rfl, ⟨_, herror, _⟩ | ⟨hfault, hamount, hnonneg, ⟨_, hcount, hover⟩,
        hvalues⟩⟩ :=
        play_increment hbefore
      · cases herror
      · cases hcount
        split at hafter
        · exact absurd hafter (hfailing _ _ _ _)
        · rename_i hroom
          rw [hover] at hroom
          obtain ⟨hanswered, -, hsame⟩ := (judged_pure value).passed hafter
          refine ⟨answered_append.mpr ⟨by simpa [Answered] using hfault, hanswered⟩,
            ⟨⟨hamount, hnonneg, by omega⟩, trivial⟩, ?_⟩
          rw [hsame]
          exact hvalues
  · rintro ⟨hanswered, ⟨hamount, hnonneg, hroom⟩, -⟩
    obtain ⟨error', -, hfirst⟩ | ⟨before, after, count, s₁, rfl, hbefore, hafter⟩ :=
      Prog.exists_play_of_seq hplay
    · obtain ⟨choice, rfl, ⟨_, -, hrefused⟩ | ⟨_, _, _, ⟨_, hcount, _⟩, _⟩⟩ := play_increment hfirst
      · exact hrefused ⟨hanswered choice List.mem_cons_self, hamount, by omega, hnonneg⟩
      · cases hcount
    · obtain ⟨choice, rfl, ⟨_, herror, _⟩ | ⟨_, _, _, ⟨_, hcount, hover⟩, _⟩⟩ :=
        play_increment hbefore
      · cases herror
      · cases hcount
        rw [if_neg (by rw [hover]; omega)] at hafter
        exact (judged_pure value).refused hafter ⟨(answered_append.mp hanswered).2, trivial⟩

theorem throw_not_ok (error : AppError) (choices : List LimitsChoice) (s : LimitsState) (value : α)
    (s' : LimitsState) :
    playAlone policy (throw error : LimitsProg α) choices s ≠ some (.ok value, s') := by
  intro h
  cases choices <;> cases h

theorem judged_checkRequestCounter (scope : LimitScope) :
    Judged policy (requestCharges policy scope) (checkRequestCounter policy scope) := by
  rw [requestCharges, checkRequestCounter]
  split
  · exact judged_pure ()
  · exact judged_charge (throw_not_ok _)

theorem judged_checkTokenCounter (tokens : UInt64) (scope : LimitScope) :
    Judged policy (tokenCharges policy tokens scope) (checkTokenCounter policy scope tokens) := by
  rw [tokenCharges, checkTokenCounter]
  split
  · exact judged_pure ()
  · exact judged_charge (throw_not_ok _)

theorem judged_acquireConcurrencyLease (scope : LimitScope) :
    Judged policy (concurrencyCharges policy scope) (acquireConcurrencyLease policy scope) := by
  rw [concurrencyCharges, acquireConcurrencyLease]
  split
  · exact judged_pure none
  · refine judged_charge fun choices s value s' hplay => ?_
    obtain ⟨_, herror, _⟩ | ⟨_, after, _, middle, _, _, hafter⟩ := Prog.exists_play_of_seq hplay
    · cases herror
    · exact throw_not_ok _ _ _ _ _ hafter

theorem judged_acquireScope (tokens : UInt64) (scope : LimitScope) :
    Judged policy (scopeCharges policy tokens scope) (acquireScope policy tokens scope) := by
  rw [scopeCharges, List.append_assoc]
  exact judged_seq (judged_checkRequestCounter scope) fun _ =>
    judged_seq (judged_checkTokenCounter tokens scope) fun _ => judged_acquireConcurrencyLease scope

theorem judged_acquireScopes (tokens : UInt64) (scopes : List LimitScope) (acquired : List String) :
    Judged policy (scopes.flatMap (scopeCharges policy tokens))
      (acquireScopes policy tokens scopes acquired) := by
  induction scopes generalizing acquired with
  | nil => exact judged_pure _
  | cons scope scopes ih =>
      rw [List.flatMap_cons]
      exact judged_seq (judged_onError (judged_acquireScope tokens scope)) fun key => ih _

theorem charges_eq_nil {request : RuntimeLimitRequest}
    (h : policy.isDisabled = true ∨ request.scopes = []) : charges policy request = [] := by
  rcases h with hdisabled | hscopes
  · simp only [RuntimeLimitPolicy.isDisabled, Bool.and_eq_true, decide_eq_true_eq] at hdisabled
    obtain ⟨⟨hrequests, htokens⟩, hconcurrent⟩ := hdisabled
    simp [charges, scopeCharges, requestCharges, tokenCharges, concurrencyCharges, hrequests,
      htokens,
      hconcurrent]
  · rw [charges, hscopes]
    rfl

theorem judged_checkAndAcquire (request : RuntimeLimitRequest) :
    Judged policy (charges policy request) (checkAndAcquire policy request) := by
  rw [checkAndAcquire]
  split
  · rename_i hnoop
    rw [charges_eq_nil hnoop]
    exact judged_pure _
  · exact judged_seq judged_getConnection fun _ => judged_acquireScopes _ _ _

end Judged

section Windows

variable {policy : RuntimeLimitPolicy} {request : RuntimeLimitRequest} {α : Type}
  {counts : String → Prop} {s s' : LimitsState}

-- The programs that increment no other counters than these and decrement counters of leases only.
def counting (counts : String → Prop) : Typestate LimitsCommand LimitsCommand.Response Unit where
  enabled _ c := (∀ key ttlSeconds amount, c = .evalIncrement key ttlSeconds amount → counts key) ∧
    ∀ key, c = .evalRelease key → ∃ scope, key = concurrencyCounterKey scope
  after _ _ _ := ()

-- No counter of a window is decremented, and only those of the kind are incremented.
def WindowsGrow (counts : String → Prop) (s s' : LimitsState) : Prop :=
  ∀ c : RateCounter, ∀ scope, counterValue s.server (c.key scope) ≤
    counterValue s'.server (c.key scope) ∧
    (¬counts (c.key scope) →
      counterValue s'.server (c.key scope) = counterValue s.server (c.key scope))

theorem WindowsGrow.refl (s : LimitsState) : WindowsGrow counts s s :=
  fun _ _ => ⟨Int.le_refl _, fun _ => rfl⟩

theorem WindowsGrow.trans {s'' : LimitsState} (h : WindowsGrow counts s s')
    (h' : WindowsGrow counts s' s'') : WindowsGrow counts s s'' :=
  fun c scope => ⟨Int.le_trans (h c scope).1 (h' c scope).1,
    fun hother => ((h' c scope).2 hother).trans ((h c scope).2 hother)⟩

theorem WindowsGrow.increment {key : String} {amount : UInt64} {ttlSeconds : Nat} {count : Int}
    {server : RedisServer} {granted : Bool}
    (hincr : s.server.evalIncrement key amount ttlSeconds = .ok (count, server))
    (hcounts : counts key) :
    WindowsGrow counts s (s.increment server 0 key granted) := by
  obtain ⟨hvalue, -, -, hothers⟩ := evalIncrement_value hincr
  intro c scope
  by_cases hkey : c.key scope = key
  · rw [hkey]
    refine ⟨?_, fun hother => absurd hcounts hother⟩
    change counterValue s.server key ≤ counterValue server key
    omega
  · have hsame : counterValue (s.increment server 0 key granted).server (c.key scope) =
        counterValue s.server (c.key scope) := by
      simp only [counterValue, LimitsState.increment, hothers _ hkey]
    rw [hsame]
    exact ⟨Int.le_refl _, fun _ => rfl⟩

theorem WindowsGrow.release (scope : LimitScope) : WindowsGrow counts s (s.release
    (s.server.evalRelease (concurrencyCounterKey scope)).2 0 (concurrencyCounterKey scope)) := by
  intro c scope'
  have hsame : counterValue (s.release (s.server.evalRelease (concurrencyCounterKey scope)).2 0
      (concurrencyCounterKey scope)).server (c.key scope') =
      counterValue s.server (c.key scope') := by
    simp only [counterValue, LimitsState.release,
      evalRelease_store _ (c.key_ne_concurrencyCounterKey scope' scope)]
  rw [hsame]
  exact ⟨Int.le_refl _, fun _ => rfl⟩

theorem windowsGrow_exec {p : Unit} {c : LimitsCommand} {choice : LimitsChoice}
    {response : c.Response}
    (henabled : (counting counts).enabled p c)
    (hexec : (LimitsState.system policy).exec 0 c choice s = some (response, s')) :
    WindowsGrow counts s s' := by
  have hexec := Option.some.inj hexec
  cases c with
  | getConnection =>
      obtain ⟨-, -, rfl⟩ | ⟨error, -, rfl | ⟨-, rfl⟩⟩ := limitsReply_cases hexec <;>
        exact WindowsGrow.refl s'
  | evalIncrement key ttlSeconds amount =>
      obtain ⟨error, -, rfl⟩ | ⟨count, server, hincr, rfl, -⟩ := evalIncrement_cases hexec
      · exact WindowsGrow.refl s'
      · exact WindowsGrow.increment hincr (henabled.1 key ttlSeconds amount rfl)
  | evalRelease key =>
      obtain ⟨scope, rfl⟩ := henabled.2 key rfl
      obtain ⟨-, -, rfl⟩ | ⟨error, -, rfl | ⟨-, rfl⟩⟩ := limitsReply_cases hexec
      · exact WindowsGrow.release scope
      · exact WindowsGrow.refl s'
      · exact WindowsGrow.release scope
  | ended result =>
      cases result with
      | ok lease =>
          cases hexec
          exact WindowsGrow.refl _
      | error error =>
          cases hexec
          exact WindowsGrow.refl _

theorem windowsGrow_play {program : Prog LimitsCommand LimitsCommand.Response α}
    {final : Unit → α → Prop} (h : (counting counts).Respects final program ())
    {choices : List LimitsChoice} {value : α}
    (hplay : program.play ((LimitsState.system policy).exec 0) choices s = some (value, s')) :
    WindowsGrow counts s s' := by
  have hthroughout : program.Throughout ((LimitsState.system policy).exec 0) (fun _ => True)
      (fun _ s' => WindowsGrow counts s s') s :=
    h.throughout WindowsGrow.refl (fun _ _ _ => WindowsGrow.trans)
      (fun _ _ _ _ _ _ => windowsGrow_exec) s
  have hgrown := Prog.play_of_throughout hthroughout hplay
  exact hgrown

-- What a program of this kind may return: of a failure nothing is known.
def Counts (counts : String → Prop) (final : α → Prop) (program : LimitsProg α) : Prop :=
  (counting counts).Respects (Typestate.outcome (fun _ => final) fun _ _ => True) program.run ()

theorem counts_pure {final : α → Prop} {value : α} (h : final value) :
    Counts counts final (pure value) := Typestate.respects_pure h

theorem counts_throw {final : α → Prop} (error : AppError) :
    Counts counts final (throw error : LimitsProg α) := Typestate.respects_throw trivial

theorem counts_seq {β : Type} {middle : α → Prop} {final : β → Prop} {program : LimitsProg α}
    {rest : α → LimitsProg β} (h : Counts counts middle program)
    (hrest : ∀ value, middle value → Counts counts final (rest value)) :
    Counts counts final (program >>= rest) :=
  Typestate.respects_seq h fun _ value hvalue => hrest value hvalue

theorem counts_getConnection : Counts counts (fun _ => True) getConnection := by
  refine Typestate.respects_perform ⟨by simp, by simp⟩ fun response => ?_
  cases infrastructure response <;> trivial

theorem counts_increment {key : String} {ttlSeconds : UInt32} {amount : UInt64} (h : counts key) :
    Counts counts (fun _ => True) (incrementWindowCounter key ttlSeconds amount) := by
  refine Typestate.respects_perform ⟨fun key' _ _ heq => ?_, by simp⟩ fun response => ?_
  · cases heq
    exact h
  · cases countOf response <;> trivial

theorem counts_releaseKey (scope : LimitScope) :
    Counts counts (fun _ => True) (releaseKey (concurrencyCounterKey scope)) := by
  refine Typestate.respects_perform ⟨by simp, fun key heq => ?_⟩ fun response => ?_
  · cases heq
    exact ⟨scope, rfl⟩
  · cases infrastructure response <;> trivial

theorem respects_releaseKeysFrom {keys : List String} (hkeys : ConcurrencyKeys keys)
    (firstError : Option AppError) :
    (counting counts).Respects (fun _ _ => True) (releaseKeysFrom firstError keys) () := by
  induction keys generalizing firstError with
  | nil => cases firstError <;> trivial
  | cons key keys ih =>
      obtain ⟨scope, rfl⟩ := hkeys key List.mem_cons_self
      have hrest : ConcurrencyKeys keys := fun key hkey => hkeys key (List.mem_cons_of_mem _ hkey)
      rw [releaseKeysFrom]
      refine Typestate.respects_bind (counts_releaseKey scope) fun _ result _ => ?_
      cases result with
      | ok value => exact ih hrest firstError
      | error error => exact ih hrest (firstError.or (some error))

-- An enabled check counts in its own window, and a disabled one nowhere.
theorem counts_checkRequestCounter {scope : LimitScope}
    (h : ∀ charge ∈ requestCharges policy scope, counts charge.key) :
    Counts counts (fun _ => True) (checkRequestCounter policy scope) := by
  rw [checkRequestCounter]
  rw [requestCharges] at h
  split
  · exact counts_pure trivial
  · rename_i henabled
    rw [if_neg henabled] at h
    refine counts_seq (counts_increment (h _ List.mem_cons_self)) fun count _ => ?_
    split
    · exact counts_throw _
    · exact counts_pure trivial

theorem counts_checkTokenCounter {tokens : UInt64} {scope : LimitScope}
    (h : ∀ charge ∈ tokenCharges policy tokens scope, counts charge.key) :
    Counts counts (fun _ => True) (checkTokenCounter policy scope tokens) := by
  rw [checkTokenCounter]
  rw [tokenCharges] at h
  split
  · exact counts_pure trivial
  · rename_i henabled
    rw [if_neg henabled] at h
    refine counts_seq (counts_increment (h _ List.mem_cons_self)) fun count _ => ?_
    split
    · exact counts_throw _
    · exact counts_pure trivial

theorem counts_acquireConcurrencyLease {scope : LimitScope}
    (h : ∀ charge ∈ concurrencyCharges policy scope, counts charge.key) :
    Counts counts (fun key => ConcurrencyKeys key.toList)
    (acquireConcurrencyLease policy scope) := by
  rw [acquireConcurrencyLease]
  rw [concurrencyCharges] at h
  split
  · exact counts_pure (by simp [ConcurrencyKeys])
  · rename_i henabled
    rw [if_neg henabled] at h
    refine counts_seq (counts_increment (h _ List.mem_cons_self)) fun count _ => ?_
    split
    · exact counts_seq (counts_releaseKey scope) fun _ _ => counts_throw _
    · exact counts_pure (by simp [ConcurrencyKeys])

theorem counts_acquireScopes {tokens : UInt64} {scopes : List LimitScope} {acquired : List String}
    (h : ∀ charge ∈ scopes.flatMap (scopeCharges policy tokens), counts charge.key)
    (hkeys : ConcurrencyKeys acquired) :
    Counts counts (fun _ => True) (acquireScopes policy tokens scopes acquired) := by
  induction scopes generalizing acquired with
  | nil => exact counts_pure trivial
  | cons scope scopes ih =>
      rw [List.flatMap_cons] at h
      have hfirst : ∀ charge ∈ scopeCharges policy tokens scope, counts charge.key :=
        fun charge hcharge => h charge (List.mem_append_left _ hcharge)
      simp only [scopeCharges, List.mem_append] at hfirst
      have hscope : Counts counts (fun key => ConcurrencyKeys key.toList)
          (acquireScope policy tokens scope) :=
        counts_seq (counts_checkRequestCounter fun charge hcharge =>
            hfirst charge (.inl (.inl hcharge))) fun _ _ =>
          counts_seq (counts_checkTokenCounter fun charge hcharge =>
              hfirst charge (.inl (.inr hcharge))) fun _ _ =>
            counts_acquireConcurrencyLease fun charge hcharge => hfirst charge (.inr hcharge)
      rw [acquireScopes]
      refine counts_seq (Typestate.respects_onError hscope fun _ error _ => ?_) fun key hkey => ?_
      · exact Typestate.respects_bind (respects_releaseKeysFrom hkeys none) fun _ _ _ => trivial
      · refine ih (fun charge hcharge => h charge (List.mem_append_right _ hcharge))
          fun key' hkey' => ?_
        rcases List.mem_append.mp hkey' with hkey' | hkey'
        · exact hkeys key' hkey'
        · exact hkey key' hkey'

theorem counts_checkAndAcquire (h : ∀ charge ∈ charges policy request, counts charge.key) :
    Counts counts (fun _ => True) (checkAndAcquire policy request) := by
  rw [checkAndAcquire]
  split
  · exact counts_pure trivial
  · exact counts_seq counts_getConnection fun _ _ =>
      counts_acquireScopes h (by simp [ConcurrencyKeys])

end Windows

section Refusal

variable {policy : RuntimeLimitPolicy} {request : RuntimeLimitRequest} {tokens : UInt64}
  {scope : LimitScope} {charge : Charge} {choices : List LimitsChoice} {s s' : LimitsState}

def windowChargesOf (policy : RuntimeLimitPolicy) (tokens : UInt64) (scope : LimitScope) :
    List Charge :=
  requestCharges policy scope ++ tokenCharges policy tokens scope

-- The charges to the counters of requests and of tokens, which no call takes back.
def windowCharges (policy : RuntimeLimitPolicy) (request : RuntimeLimitRequest) : List Charge :=
  request.scopes.flatMap (windowChargesOf policy request.estimatedPromptTokens)

-- The call reaches Redis, and Redis runs the first increment of a window that it is sent.
def ChargesWindow (policy : RuntimeLimitPolicy) (request : RuntimeLimitRequest)
    (choices : List LimitsChoice) (values : String → Int) : Prop :=
  ∃ charge ∈ (windowCharges policy request).head?, ∃ connected sent rest,
    choices = connected :: sent :: rest ∧ connected.fault = none ∧ sent.runsScript = true ∧
      charge.amount.toNat < 2 ^ 63 ∧ values charge.key + charge.amount.toNat < 2 ^ 63

def UsesNoQuota (s s' : LimitsState) : Prop :=
  ∀ c : RateCounter, ∀ scope,
    counterValue s'.server (c.key scope) = counterValue s.server (c.key scope)

-- Which windows are limited does not depend on the scope.
theorem windowChargesOf_eq_nil_iff {scope' : LimitScope} :
    windowChargesOf policy tokens scope = [] ↔ windowChargesOf policy tokens scope' = [] := by
  simp only [windowChargesOf, requestCharges, tokenCharges, List.append_eq_nil_iff]
  by_cases hrequests : policy.requestsPerWindow = 0 <;>
    by_cases htokens : policy.tokensPerWindow = 0 ∨ tokens = 0 <;> simp [hrequests, htokens]

theorem windowCharges_cases :
    (∀ scope ∈ request.scopes, windowChargesOf policy request.estimatedPromptTokens scope = []) ∨
    ∃ scope scopes charge rest, request.scopes = scope :: scopes ∧
      windowChargesOf policy request.estimatedPromptTokens scope = charge :: rest ∧
      (windowCharges policy request).head? = some charge := by
  cases hscopes : request.scopes with
  | nil => exact .inl (by simp)
  | cons scope scopes =>
      cases hcharges : windowChargesOf policy request.estimatedPromptTokens scope with
      | nil => exact .inl fun scope' _ => windowChargesOf_eq_nil_iff.mp hcharges
      | cons charge rest =>
          refine .inr ⟨scope, scopes, charge, rest, rfl, hcharges, ?_⟩
          rw [windowCharges, hscopes, List.flatMap_cons, hcharges]
          rfl

theorem windowCharge_key {rest : List Charge}
    (h : windowChargesOf policy tokens scope = charge :: rest) :
    (∃ c : RateCounter, charge.key = c.key scope) ∧ 0 < charge.amount.toNat := by
  rw [windowChargesOf, requestCharges, tokenCharges] at h
  by_cases hrequests : policy.requestsPerWindow = 0
  · rw [if_pos hrequests, List.nil_append] at h
    split at h
    · cases h
    · rename_i henabled
      cases h
      refine ⟨⟨.tokens, rfl⟩, ?_⟩
      rw [not_or] at henabled
      exact Nat.pos_of_ne_zero fun hzero => henabled.2 (UInt64.toNat_inj.mp hzero)
  · rw [if_neg hrequests] at h
    cases h
    exact ⟨⟨.requests, rfl⟩, (by decide : 0 < (1 : UInt64).toNat)⟩

-- The first window that a call is charged to is charged before anything else, and a call that
-- cannot charge it has acquired nothing to give back.
theorem acquireScopes_first {rest : List Charge} {scopes : List LimitScope}
    (h : windowChargesOf policy tokens scope = charge :: rest) :
    ∃ ttlSeconds next, (acquireScopes policy tokens (scope :: scopes) []).run =
        .call (.evalIncrement charge.key ttlSeconds charge.amount) next ∧
      ∀ error, next (.error error) = .ret (.error (.infrastructure error)) := by
  rw [windowChargesOf, requestCharges, tokenCharges] at h
  rw [acquireScopes, acquireScope, checkRequestCounter, checkTokenCounter]
  by_cases hrequests : policy.requestsPerWindow = 0
  · rw [if_pos hrequests, List.nil_append] at h
    rw [if_pos hrequests]
    split at h
    · cases h
    · rename_i henabled
      cases h
      rw [if_neg henabled]
      exact ⟨_, _, rfl, fun _ => rfl⟩
  · rw [if_neg hrequests] at h
    rw [if_neg hrequests]
    cases h
    exact ⟨_, _, rfl, fun _ => rfl⟩

theorem exec_increment_cases {key : String} {ttlSeconds : UInt32} {amount : UInt64}
    {choice : LimitsChoice} {response : Except String Int}
    (h : exec policy 0 (.evalIncrement key ttlSeconds amount) choice s = (response, s')) :
    ((choice.runsScript = true ∧ amount.toNat < 2 ^ 63 ∧
        counterValue s.server key + amount.toNat < 2 ^ 63) ∧
      counterValue s'.server key = counterValue s.server key + amount.toNat) ∨
    (¬(choice.runsScript = true ∧ amount.toNat < 2 ^ 63 ∧
        counterValue s.server key + amount.toNat < 2 ^ 63) ∧
      s' = s ∧ ∃ error, response = .error error) := by
  simp only [exec] at h
  split at h
  · rename_i error hincr
    cases h
    refine .inr ⟨?_, rfl, _, rfl⟩
    rintro ⟨_, hruns⟩
    obtain ⟨result, hok⟩ := evalIncrement_ok_iff.mpr hruns
    rw [hincr] at hok
    cases hok
  · rename_i count server hincr
    have hruns := evalIncrement_ok_iff.mp ⟨_, hincr⟩
    have hvalue := (evalIncrement_value hincr).1
    simp only [LimitsState.reply, LimitsChoice.runsScript] at h ⊢
    cases hfault : choice.fault with
    | none =>
        simp only [hfault] at h
        cases h
        exact .inl ⟨⟨rfl, hruns⟩, hvalue⟩
    | some error =>
        simp only [hfault] at h
        by_cases hexecuted : choice.executed = true
        · simp only [hexecuted, if_true] at h
          cases h
          exact .inl ⟨⟨by simp [hexecuted], hruns⟩, hvalue⟩
        · simp only [hexecuted] at h
          cases h
          exact .inr ⟨fun h => by simp [hexecuted] at h, rfl, error, rfl⟩

-- Either the first charge is made, and nothing afterwards takes it back, or the call ends with it.
theorem acquireScopes_charges {rest : List Charge} {scopes : List LimitScope}
    {result : Except AppError RuntimeLimitLease}
    (h : windowChargesOf policy tokens scope = charge :: rest)
    (hplay : playAlone policy (acquireScopes policy tokens (scope :: scopes) []) choices s =
      some (result, s')) :
    ∃ sent remaining, choices = sent :: remaining ∧
      (((sent.runsScript = true ∧ charge.amount.toNat < 2 ^ 63 ∧
          counterValue s.server charge.key + charge.amount.toNat < 2 ^ 63) ∧
        counterValue s.server charge.key < counterValue s'.server charge.key) ∨
      (¬(sent.runsScript = true ∧ charge.amount.toNat < 2 ^ 63 ∧
          counterValue s.server charge.key + charge.amount.toNat < 2 ^ 63) ∧ s' = s)) := by
  have hrespects : Counts (fun _ => True) (fun _ => True)
      (acquireScopes policy tokens (scope :: scopes) []) :=
    counts_acquireScopes (fun _ _ => trivial) (by simp [ConcurrencyKeys])
  obtain ⟨⟨c, hkey⟩, hpositive⟩ := windowCharge_key h
  obtain ⟨ttlSeconds, next, hrun, hfailed⟩ :=
    @acquireScopes_first policy tokens scope charge rest scopes h
  rw [Counts, hrun] at hrespects
  rw [playAlone, hrun] at hplay
  cases choices with
  | nil => cases hplay
  | cons sent remaining =>
      refine ⟨sent, remaining, rfl, ?_⟩
      simp only [Prog.play] at hplay
      split at hplay
      · cases hplay
      · rename_i response s₁ hexec
        obtain ⟨hruns, hvalue⟩ | ⟨hfails, rfl, error, rfl⟩ :=
          exec_increment_cases (Option.some.inj hexec)
        · refine .inl ⟨hruns, ?_⟩
          have hgrown := (windowsGrow_play (hrespects.2 response) hplay c scope).1
          rw [← hkey] at hgrown
          omega
        · refine .inr ⟨hfails, ?_⟩
          rw [hfailed error] at hplay
          cases remaining with
          | nil =>
              cases hplay
              rfl
          | cons => cases hplay

-- A call that charges no window leaves them all alone.
theorem checkAndAcquire_unlimited {result : Except AppError RuntimeLimitLease}
    (h : ∀ scope ∈ request.scopes, windowChargesOf policy request.estimatedPromptTokens scope = [])
    (hplay : playAlone policy (checkAndAcquire policy request) choices s = some (result, s')) :
    UsesNoQuota s s' := by
  have hkeys : ∀ charge ∈ charges policy request,
      ∃ scope, charge.key = concurrencyCounterKey scope := by
    intro charge hcharge
    obtain ⟨scope, hscope, hmem⟩ := List.mem_flatMap.mp hcharge
    have hnone := h scope hscope
    rw [windowChargesOf] at hnone
    rw [scopeCharges, hnone, List.nil_append, concurrencyCharges] at hmem
    split at hmem
    · cases hmem
    · rw [List.mem_singleton.mp hmem]
      exact ⟨scope, rfl⟩
  have hrespects : Counts (fun key => ∃ scope, key = concurrencyCounterKey scope) (fun _ => True)
      (checkAndAcquire policy request) := counts_checkAndAcquire hkeys
  intro c scope
  refine (windowsGrow_play hrespects hplay c scope).2 ?_
  rintro ⟨scope', hkey⟩
  exact c.key_ne_concurrencyCounterKey scope scope' hkey

theorem getConnection_play {result : Except AppError Unit}
    (h : playAlone policy getConnection choices s = some (result, s')) :
    ∃ choice, choices = [choice] ∧ s' = s ∧ (result = .ok () → choice.fault = none) := by
  obtain ⟨choice, response, rfl, hexec, rfl⟩ := Prog.exists_play_of_perform h
  refine ⟨choice, rfl, ?_⟩
  obtain ⟨hfault, -, rfl⟩ | ⟨error, rfl, hstate⟩ := limitsReply_cases (Option.some.inj hexec)
  · exact ⟨rfl, fun _ => hfault⟩
  · have hsame : s' = s := hstate.elim id fun h => h.2
    exact ⟨hsame, fun hok => by cases hok⟩

-- A call takes quota exactly where its first charge to a window is made.
theorem usesNoQuota_iff {result : Except AppError RuntimeLimitLease}
    (hplay : playAlone policy (checkAndAcquire policy request) choices s = some (result, s')) :
    UsesNoQuota s s' ↔ ¬ChargesWindow policy request choices (counterValue s.server) := by
  obtain hnone | ⟨scope, scopes, charge, rest, hscopes, hcharges, hhead⟩ :=
    @windowCharges_cases policy request
  · have hwindows : windowCharges policy request = [] := List.flatMap_eq_nil_iff.mpr hnone
    refine iff_of_true (checkAndAcquire_unlimited hnone hplay) ?_
    rintro ⟨charge, hcharge, -⟩
    simp [hwindows] at hcharge
  · have henabled : ¬(policy.isDisabled = true ∨ request.scopes = []) := by
      intro hnoop
      have hmem : charge ∈ charges policy request := by
        rw [charges, hscopes, List.flatMap_cons, scopeCharges, ← windowChargesOf, hcharges]
        exact List.mem_append_left _ (List.mem_append_left _ List.mem_cons_self)
      rw [charges_eq_nil hnoop] at hmem
      cases hmem
    obtain ⟨⟨c, hkey⟩, -⟩ := windowCharge_key hcharges
    rw [checkAndAcquire, if_neg henabled] at hplay
    obtain ⟨error, -, hfirst⟩ | ⟨before, after, _, s₁, rfl, hbefore, hafter⟩ :=
      Prog.exists_play_of_seq hplay
    · obtain ⟨choice, rfl, rfl, -⟩ := getConnection_play hfirst
      refine iff_of_true (fun _ _ => rfl) ?_
      rintro ⟨_, _, _, _, _, hchoices, _⟩
      cases hchoices
    · obtain ⟨connected, rfl, rfl, hconnected⟩ := getConnection_play hbefore
      rw [hscopes] at hafter
      obtain ⟨sent, remaining, rfl, ⟨⟨hruns, hamount, hvalue⟩, hgrown⟩ | ⟨hfails, rfl⟩⟩ :=
        acquireScopes_charges hcharges hafter
      · refine iff_of_false (fun hsame => ?_) fun hnone => hnone ?_
        · have hwindow := hsame c scope
          rw [← hkey] at hwindow
          omega
        · exact ⟨charge, hhead, connected, sent, remaining, rfl, hconnected rfl, hruns, hamount,
            hvalue⟩
      · refine iff_of_true (fun _ _ => rfl) ?_
        rintro ⟨charge', hhead', _, _, _, hchoices, -, hruns⟩
        rw [hhead] at hhead'
        cases hhead'
        cases hchoices
        exact hfails hruns

theorem refusal_uses_no_quota_iff (policy : RuntimeLimitPolicy) (request : RuntimeLimitRequest)
    (choices : List LimitsChoice) (s s' : LimitsState)
    (result : Except AppError RuntimeLimitLease)
    (hplay : playAlone policy (checkAndAcquire policy request) choices s = some (result, s')) :
    (∀ error, result = .error error → UsesNoQuota s s') ↔
      ¬ChargesWindow policy request choices (counterValue s.server) ∨
        Answered choices ∧ Room (charges policy request) (counterValue s.server) := by
  have hjudged : Judged policy (charges policy request) (checkAndAcquire policy request) :=
    judged_checkAndAcquire request
  have hroom := @fitInTurn_iff_room _ (counterValue s.server) (uniform_charges policy request)
  have hquota := usesNoQuota_iff hplay
  by_cases hwindow : ChargesWindow policy request choices (counterValue s.server)
  · cases result with
    | ok lease =>
        obtain ⟨hanswered, hfits, -⟩ := hjudged.passed hplay
        exact ⟨fun _ => .inr ⟨hanswered, hroom.mp hfits⟩, fun _ _ herror => by cases herror⟩
    | error error =>
        refine ⟨fun h => absurd hwindow (hquota.mp (h error rfl)), fun h => ?_⟩
        obtain hnone | ⟨hanswered, hfits⟩ := h
        · exact absurd hwindow hnone
        · exact absurd ⟨hanswered, hroom.mpr hfits⟩ (hjudged.refused hplay)
  · exact ⟨fun _ => .inl hwindow, fun _ _ _ => hquota.mpr hwindow⟩

end Refusal

-- The same user twice, under a limit of one call at a time: the second lease is refused.
def twiceTheUser : RuntimeLimitRequest :=
  { scopes := [.user ⟨7⟩, .user ⟨7⟩], estimatedPromptTokens := 40 }

theorem refused_lease_uses_no_quota : ∃ error s',
    playAlone oneAtATime (checkAndAcquire oneAtATime twiceTheUser) [{}, {}, {}, {}, {}] .start =
      some (.error error, s') ∧ UsesNoQuota .start s' := by
  have hresult : (playAlone oneAtATime (checkAndAcquire oneAtATime twiceTheUser)
      [{}, {}, {}, {}, {}] .start).map Prod.fst =
      some (.error (.limitExceeded ("concurrent_requests exceeded for " ++
        LimitScope.keyPart (.user ⟨7⟩)))) := by
    decide +kernel
  obtain ⟨⟨result, s'⟩, hplay, rfl⟩ := Option.map_eq_some_iff.mp hresult
  refine ⟨_, s', hplay, (refusal_uses_no_quota_iff _ _ _ _ _ _ hplay).mpr (.inl ?_) _ rfl⟩
  rintro ⟨charge, hcharge, -⟩
  have hwindows : windowCharges oneAtATime twiceTheUser = [] := by decide
  simp [hwindows] at hcharge

def tenTokens : RuntimeLimitPolicy :=
  { requestsPerWindow := 0, tokensPerWindow := 10, concurrentRequests := 0, windowSeconds := 60
    leaseSeconds := 30 }

def providerRequest (tokens : UInt64) : RuntimeLimitRequest :=
  { scopes := [.provider ⟨9⟩], estimatedPromptTokens := tokens }

-- A request of eleven tokens is refused and leaves no room for one of a single token, which an
-- untouched window would have taken.
theorem oversized_request_uses_quota : ∃ error s' error',
    playAlone tenTokens (checkAndAcquire tenTokens (providerRequest 11)) [{}, {}] .start =
      some (.error error, s') ∧ ¬UsesNoQuota .start s' ∧
    (playAlone tenTokens (checkAndAcquire tenTokens (providerRequest 1)) [{}, {}] s').map Prod.fst =
      some (.error error') ∧
    (playAlone tenTokens (checkAndAcquire tenTokens (providerRequest 1)) [{}, {}] .start).map
      Prod.fst = some (.ok .noop) := by
  have hresult : (playAlone tenTokens (checkAndAcquire tenTokens (providerRequest 11)) [{}, {}]
      .start).map (fun (result, s') => (result,
        counterValue s'.server (tokenCounterKey (.provider ⟨9⟩)),
        (playAlone tenTokens (checkAndAcquire tenTokens (providerRequest 1)) [{}, {}] s').map
          Prod.fst)) =
      some (.error (.limitExceeded ("tokens_per_window exceeded for " ++
          LimitScope.keyPart (.provider ⟨9⟩))), 11,
        some (.error (.limitExceeded ("tokens_per_window exceeded for " ++
          LimitScope.keyPart (.provider ⟨9⟩))))) := by
    decide +kernel
  obtain ⟨⟨result, s'⟩, hplay, hafter⟩ := Option.map_eq_some_iff.mp hresult
  simp only [Prod.mk.injEq] at hafter
  obtain ⟨rfl, hvalue, hlater⟩ := hafter
  refine ⟨_, s', _, hplay, fun hsame => ?_, hlater, by decide +kernel⟩
  have htokens := hsame .tokens (.provider ⟨9⟩)
  rw [show RateCounter.tokens.key = tokenCounterKey from rfl, hvalue] at htokens
  cases htokens

end Mizan.Limits
