import Mizan.Gateway.Served
import Mizan.Machine.Run

namespace Mizan.Gateway

open Interleaving Billing Dispatch

-- The commands at which a future can be dropped. The others run to their end at once.
def GatewayCommand.awaits : GatewayCommand → Bool
  | .upstreamNext | .chatCompletions _ | .recordUsage _ => true
  | .elapsedMs | .observeGateway _ | .recordRequestLog _ | .releaseLimitLease _ => false

def HandlerCommand.awaits : HandlerCommand → Bool
  | .gateway command => command.awaits
  | .nowV7 | .nowUtcEpochSeconds => false
  | _ => true

-- What the server holds of a request: the future of its handler, the stream of its response
-- between two polls or within one, or nothing any more.
inductive Connection where
  | handler (program : Handling GatewayOutcome)
  | body (state : StreamBuildState)
  | polling (state : StreamBuildState) (program : Serving (Option (Event × StreamBuildState)))
  | gone

namespace Connection

def ofHandler : Handling GatewayOutcome → Connection
  | .ret (.response _) => .gone
  | .ret (.stream state) => .body state
  | program => .handler program

def ofPoll (state : StreamBuildState) :
    Serving (Option (Event × StreamBuildState)) → Connection
  | .ret none => .gone
  | .ret (some (_, state')) => .body state'
  | program => .polling state program

end Connection

structure ServedRequest where
  connection : Connection
  effects : RequestEffects

inductive ServerAction where
  | answer (choice : HandlerChoice)
  | poll
  | drop (choice : HandlerChoice)

-- `impl Drop for StreamBuildState`
def RequestEffects.dropped (effects : RequestEffects) (state : StreamBuildState) : RequestEffects :=
  { effects with released := effects.released ++ state.limitLease.toList }

-- The locals of the handler have no `Drop` that gives a lease back, and the blocking task of
-- `acquire_runtime_limits` runs to its end without anybody waiting for its result.
def RequestEffects.abandoned (effects : RequestEffects) (choice : HandlerChoice) :
    HandlerCommand → RequestEffects
  | .acquireRuntimeLimits .. =>
      { effects with obtained := effects.obtained ++ choice.limits.toOption.toList }
  | _ => effects

namespace ServedRequest

def accepted (config : GatewayConfig) (request : GatewayRequest) (metrics : MetricsRegistry) :
    ServedRequest :=
  { connection := .ofHandler (chatCompletionsImpl config request), effects := .start metrics }

def step (backend : DatabaseBackend) : ServerAction → ServedRequest → Option ServedRequest
  | .answer choice, ⟨.handler (.call c next), effects⟩ =>
      (RequestEffects.handle backend c choice effects).map fun (response, effects') =>
        ⟨.ofHandler (next response), effects'⟩
  | .answer choice, ⟨.polling state (.call c next), effects⟩ =>
      (RequestEffects.exec backend c choice effects).map fun (response, effects') =>
        ⟨.ofPoll state (next response), effects'⟩
  | .poll, ⟨.body state, effects⟩ => some ⟨.ofPoll state state.poll, effects⟩
  | .drop choice, ⟨.handler (.call c _), effects⟩ =>
      if c.awaits then some ⟨.gone, effects.abandoned choice c⟩ else none
  | .drop _, ⟨.body state, effects⟩ => some ⟨.gone, effects.dropped state⟩
  | .drop _, ⟨.polling state (.call c _), effects⟩ =>
      if c.awaits then some ⟨.gone, effects.dropped state⟩ else none
  | _, _ => none

end ServedRequest

-- The handler future is not dropped once it holds a lease, nor while the task that takes one
-- runs on without it.
def DropsBeforeLease : ServerAction → ServedRequest → Prop
  | .drop choice, ⟨.handler (.call c _), effects⟩ => (effects.abandoned choice c).obtained = []
  | _, _ => True

section Leases

variable {backend : DatabaseBackend} {metrics : MetricsRegistry} {state : StreamBuildState}
  {e : RequestEffects}

-- The lease is in the state of the stream or has been given back.
structure Held (state : StreamBuildState) (e : RequestEffects) : Prop where
  phase : state.emitDone = true ∨ ∃ other : StreamBuildState, state = other.ended
  leases : e.obtained = e.released ++ state.limitLease.toList

-- What a poll leaves behind.
def AfterPoll : Option (Event × StreamBuildState) → RequestEffects → Prop
  | none, e => e.released = e.obtained
  | some (_, state), e => Held state e

-- What holds of a request as long as its handler was not dropped with a lease.
def Sound (backend : DatabaseBackend) (metrics : MetricsRegistry) : ServedRequest → Prop
  | ⟨.handler program, e⟩ =>
      Awaits backend (.start metrics) program (Handled (.start metrics)) e
  | ⟨.body state, e⟩ => Held state e
  | ⟨.polling state program, e⟩ =>
      program.Throughout (RequestEffects.exec backend) (Held state) AfterPoll e
  | ⟨.gone, e⟩ => e.released = e.obtained

theorem Held.same {e' : RequestEffects} (h : Held state e) (hsame : SameLeases e e') :
    Held state e' :=
  ⟨h.phase, by rw [hsame.1, hsame.2, h.leases]⟩

theorem Held.poll (h : Held state e) :
    state.poll.Throughout (RequestEffects.exec backend) (Held state) AfterPoll e := by
  have hleases := h.leases
  rcases h.phase with hopen | ⟨other, hended⟩
  · refine Prog.throughout_mono (fun e' hsame => h.same hsame) ?_
      (StreamBuildState.poll_open hopen)
    rintro _ e' ⟨event, state', rfl, ⟨-, hopen', hlease, rfl⟩ | ⟨rfl, haccounted⟩⟩
    · exact ⟨.inl hopen', by rw [hlease, hleases]⟩
    · have hobtained := haccounted.obtained
      have hreleased := haccounted.released
      rw [List.append_nil] at hobtained
      refine ⟨.inr ⟨state, rfl⟩, ?_⟩
      rw [hobtained, hreleased, hleases]
      simp [StreamBuildState.ended]
  · subst hended
    refine Prog.throughout_mono (fun e' hsame => h.same hsame) ?_ StreamBuildState.poll_ended
    rintro _ e' ⟨rfl, rfl⟩
    have hnone : e'.obtained = e'.released ++ [] := hleases
    rw [List.append_nil] at hnone
    exact hnone.symm

theorem Sound.ofHandler {program : Handling GatewayOutcome}
    (h : Awaits backend (.start metrics) program (Handled (.start metrics)) e) :
    Sound backend metrics ⟨.ofHandler program, e⟩ := by
  cases program with
  | call c next => exact h
  | ret outcome =>
      cases outcome with
      | response response =>
          obtain ⟨leases, -, haccounted⟩ := h
          have hobtained : e.obtained = leases := haccounted.obtained
          have hreleased : e.released = leases := haccounted.released
          exact hreleased.trans hobtained.symm
      | stream state =>
          obtain ⟨lease, hlease, hopen, rfl⟩ := h
          exact ⟨.inl hopen, by simp [hlease, RequestEffects.start]⟩

theorem Sound.ofPoll {program : Serving (Option (Event × StreamBuildState))}
    (h : program.Throughout (RequestEffects.exec backend) (Held state) AfterPoll e) :
    Sound backend metrics ⟨.ofPoll state program, e⟩ := by
  cases program with
  | call c next => exact h
  | ret polled =>
      cases polled with
      | none => exact h
      | some polled => exact h

theorem Held.dropped (h : Held state e) : (e.dropped state).released = (e.dropped state).obtained :=
  h.leases.symm

theorem abandoned_released (choice : HandlerChoice) (c : HandlerCommand) :
    (e.abandoned choice c).released = e.released := by
  cases c <;> rfl

theorem Sound.answer {choice : HandlerChoice} {served served' : ServedRequest}
    (h : Sound backend metrics served)
    (hstep : served.step backend (.answer choice) = some served') :
    Sound backend metrics served' := by
  obtain ⟨connection, e⟩ := served
  cases connection with
  | handler program =>
      cases program with
      | ret outcome => cases hstep
      | call c next =>
          obtain ⟨⟨response, e'⟩, hexec, rfl⟩ := Option.map_eq_some_iff.mp hstep
          exact Sound.ofHandler (h.2 choice response e' hexec)
  | polling state program =>
      cases program with
      | ret polled => cases hstep
      | call c next =>
          obtain ⟨⟨response, e'⟩, hexec, rfl⟩ := Option.map_eq_some_iff.mp hstep
          exact Sound.ofPoll (h.2 choice response e' hexec)
  | body state => cases hstep
  | gone => cases hstep

theorem Sound.poll {served served' : ServedRequest} (h : Sound backend metrics served)
    (hstep : served.step backend .poll = some served') : Sound backend metrics served' := by
  obtain ⟨connection, e⟩ := served
  cases connection with
  | body state =>
      cases hstep
      exact Sound.ofPoll (Held.poll h)
  | handler program => cases hstep
  | polling state program => cases hstep
  | gone => cases hstep

-- What a drop leaves behind. The handler has given nothing back by then.
theorem Sound.drop {choice : HandlerChoice} {served served' : ServedRequest}
    (h : Sound backend metrics served)
    (hstep : served.step backend (.drop choice) = some served') :
    served'.connection = .gone ∧
      ((DropsBeforeLease (.drop choice) served ∧
          served'.effects.released = served'.effects.obtained) ∨
        (¬DropsBeforeLease (.drop choice) served ∧
          served'.effects.released ≠ served'.effects.obtained)) := by
  obtain ⟨connection, e⟩ := served
  cases connection with
  | handler program =>
      cases program with
      | ret outcome => cases hstep
      | call c next =>
          simp only [ServedRequest.step] at hstep
          split at hstep
          · cases hstep
            have hreleased : (e.abandoned choice c).released = [] := by
              rw [abandoned_released]
              exact h.1
            refine ⟨rfl, ?_⟩
            by_cases hnone : (e.abandoned choice c).obtained = []
            · exact .inl ⟨hnone, by rw [hreleased, hnone]⟩
            · refine .inr ⟨hnone, fun heq => hnone ?_⟩
              rw [← heq, hreleased]
          · cases hstep
  | body state =>
      cases hstep
      exact ⟨rfl, .inl ⟨trivial, Held.dropped h⟩⟩
  | polling state program =>
      cases program with
      | ret polled => cases hstep
      | call c next =>
          simp only [ServedRequest.step] at hstep
          split at hstep
          · cases hstep
            exact ⟨rfl, .inl ⟨trivial, Held.dropped h.1⟩⟩
          · cases hstep
  | gone => cases hstep

theorem gone_stays {actions : List ServerAction} {served : ServedRequest} {connection : Connection}
    (hgone : served.connection = .gone)
    (hrun : Machine.run (ServedRequest.step backend) actions served = some ⟨connection, e⟩) :
    actions = [] ∧ served.effects = e := by
  obtain ⟨_, effects⟩ := served
  subst hgone
  cases actions with
  | nil =>
      cases hrun
      exact ⟨rfl, rfl⟩
  | cons action actions =>
      obtain ⟨middle, hstep, -⟩ := Machine.run_cons hrun
      cases action <;> cases hstep

-- A run from a sound request to its end.
theorem Sound.run (actions : List ServerAction) {served : ServedRequest}
    (h : Sound backend metrics served)
    (hrun : Machine.run (ServedRequest.step backend) actions served = some ⟨.gone, e⟩) :
    e.released = e.obtained ↔
      Machine.Meets (ServedRequest.step backend) DropsBeforeLease actions served := by
  induction actions generalizing served with
  | nil =>
      cases hrun
      exact ⟨fun _ => trivial, fun _ => h⟩
  | cons action actions ih =>
      obtain ⟨middle, hstep, hrest⟩ := Machine.run_cons hrun
      rw [Machine.meets_cons hstep]
      cases action with
      | answer choice =>
          rw [ih (h.answer hstep) hrest]
          exact ⟨fun hmeets => ⟨trivial, hmeets⟩, fun hmeets => hmeets.2⟩
      | poll =>
          rw [ih (h.poll hstep) hrest]
          exact ⟨fun hmeets => ⟨trivial, hmeets⟩, fun hmeets => hmeets.2⟩
      | drop choice =>
          obtain ⟨hgone, houtcome⟩ := h.drop hstep
          obtain ⟨rfl, rfl⟩ := gone_stays hgone hrest
          rcases houtcome with ⟨hallowed, hreleased⟩ | ⟨hnot, hreleased⟩
          · exact ⟨fun _ => ⟨hallowed, trivial⟩, fun _ => hreleased⟩
          · exact ⟨fun heq => absurd heq hreleased, fun hmeets => absurd hmeets.1 hnot⟩

end Leases

theorem leases_released_iff_dropped_before_lease (backend : DatabaseBackend)
    (config : GatewayConfig) (request : GatewayRequest) (metrics : MetricsRegistry)
    (actions : List ServerAction) (e : RequestEffects)
    (hrun : Machine.run (ServedRequest.step backend) actions (.accepted config request metrics) =
      some ⟨.gone, e⟩) :
    e.released = e.obtained ↔ Machine.Meets (ServedRequest.step backend) DropsBeforeLease actions
      (.accepted config request metrics) :=
  Sound.run actions (Sound.ofHandler (chatCompletionsImpl_handled config request)) hrun

-- The streamed request up to the call of its upstream, with its lease.
def untilUpstream : List ServerAction :=
  [.answer { route := .ok pricedRoute }, .answer {}, .answer {}, .answer {},
    .answer { limits := .ok userLease }]

-- The client leaves while the stream waits for the next chunk.
theorem lease_released_when_stream_dropped : ∃ e,
    Machine.run (ServedRequest.step .sqlite) (untilUpstream ++ [.answer {}, .poll, .drop {}])
      (.accepted servedConfig streamedRequest {}) = some ⟨.gone, e⟩ ∧ e.obtained = [userLease] ∧
    e.released = e.obtained := by
  refine ⟨_, rfl, rfl, (leases_released_iff_dropped_before_lease .sqlite servedConfig
    streamedRequest {} (untilUpstream ++ [.answer {}, .poll, .drop {}]) _ rfl).mpr ?_⟩
  iterate 8 refine (Machine.meets_cons rfl).mpr ⟨trivial, ?_⟩
  trivial

-- The client leaves while the handler waits for the upstream to answer.
theorem lease_kept_when_handler_dropped : ∃ e,
    Machine.run (ServedRequest.step .sqlite) (untilUpstream ++ [.drop {}])
      (.accepted servedConfig streamedRequest {}) = some ⟨.gone, e⟩ ∧ e.obtained = [userLease] ∧
    ¬e.released = e.obtained :=
  ⟨_, rfl, rfl, by decide⟩

end Mizan.Gateway
