import Mizan.Core.Hyphenated
import Mizan.Daemon.Lifecycle
import Mizan.Dispatch.Programs
import Mizan.Interleaving.Typestate

namespace Mizan.Fleet

open Interleaving
open Daemon (DaemonCommand DaemonChoice DaemonNodeHttpError DaemonNodeIdentity DaemonNodeRow
  DaemonProg DaemonRequest DaemonState DbDaemonNode NodeChoice NodeCodec NodeCommand NodeM NodeState
  NonceCache)
open Dispatch (DispatchChoice DispatchCommand DispatchJob DispatchProg DispatchState)

-- What the daemon nodes and those who administer them ask of the server, in one system: the
-- authentication of a request, the table of the nodes and the table of their jobs.
inductive FleetCommand (codec : NodeCodec) where
  | auth (command : DaemonCommand)
  | node (command : NodeCommand codec)
  | dispatch (command : DispatchCommand)

def FleetCommand.Response {codec : NodeCodec} : FleetCommand codec → Type
  | .auth command => command.Response
  | .node command => command.Response
  | .dispatch command => command.Response

structure FleetChoice where
  auth : DaemonChoice := {}
  node : NodeChoice := {}
  dispatch : DispatchChoice := {}

-- The clock is that of the jobs. `identified` is a history that no request reads: which request
-- was taken for which node.
structure FleetState where
  nodes : List DbDaemonNode
  nonces : NonceCache
  dispatch : DispatchState
  identified : List (Nat × Uuid)

-- The node that an answer of the authentication names.
def identifiedNode : (c : DaemonCommand) → c.Response → Option Uuid
  | .fetchNode _, response =>
      match (response : Except String (Option DaemonNodeRow)) with
      | .ok row => row.map DaemonNodeRow.id
      | .error _ => none
  | .nowUtcEpochSeconds, _ => none
  | .admitNonce .., _ => none

namespace FleetState

def start (nowSeconds : Nat) : FleetState :=
  { nodes := [], nonces := [], dispatch := DispatchState.start nowSeconds, identified := [] }

def nodeState (s : FleetState) : NodeState :=
  { nodes := s.nodes, nowSeconds := s.dispatch.nowSeconds }

def daemonState (codec : NodeCodec) (s : FleetState) : DaemonState :=
  DaemonState.start (s.nodes.filterMap (Daemon.identityRow codec)) s.nonces s.dispatch.nowSeconds

def exec {codec : NodeCodec} (t : Nat) : (c : FleetCommand codec) → FleetChoice → FleetState →
    Option (c.Response × FleetState)
  | .auth c, choice, s =>
      let (response, daemon) := DaemonState.exec t c choice.auth (s.daemonState codec)
      some (response, { s with
        nonces := daemon.nonces
        identified := s.identified ++ (identifiedNode c response).toList.map fun id => (t, id) })
  | .node c, choice, s =>
      let (response, nodes) := NodeState.exec c choice.node s.nodeState
      some (response, { s with nodes := nodes.nodes })
  | .dispatch c, choice, s =>
      (DispatchState.exec t c choice.dispatch s.dispatch).map fun (response, dispatch) =>
        (response, { s with dispatch })

def system (codec : NodeCodec) :
    System (FleetCommand codec) FleetCommand.Response FleetChoice FleetState where
  exec := exec
  env choice s :=
    (DispatchState.system.env choice.dispatch s.dispatch).map fun dispatch => { s with dispatch }

section Exec

variable {codec : NodeCodec} {t : Nat} {choice : FleetChoice} {s s' : FleetState}

theorem exec_auth {c : DaemonCommand} {response : c.Response}
    (h : exec t (FleetCommand.auth c : FleetCommand codec) choice s = some (response, s')) :
    ∃ daemon, DaemonState.exec t c choice.auth (s.daemonState codec) = (response, daemon) ∧
      s' = { s with
        nonces := daemon.nonces
        identified := s.identified ++ (identifiedNode c response).toList.map fun id =>
          (t, id) } := by
  obtain ⟨hresponse, hstate⟩ := Prod.mk.inj (Option.some.inj h)
  subst hresponse
  exact ⟨_, rfl, hstate.symm⟩

theorem exec_node {c : NodeCommand codec} {response : c.Response}
    (h : exec t (.node c) choice s = some (response, s')) :
    ∃ after, NodeState.exec c choice.node s.nodeState = (response, after) ∧
      s' = { s with nodes := after.nodes } := by
  obtain ⟨hresponse, hstate⟩ := Prod.mk.inj (Option.some.inj h)
  subst hresponse
  exact ⟨_, rfl, hstate.symm⟩

theorem exec_dispatch {c : DispatchCommand} {response : c.Response}
    (h : exec t (FleetCommand.dispatch c : FleetCommand codec) choice s = some (response, s')) :
    ∃ after, DispatchState.exec t c choice.dispatch s.dispatch = some (response, after) ∧
      s' = { s with dispatch := after } := by
  obtain ⟨⟨answer, after⟩, hexec, hresult⟩ := Option.map_eq_some_iff.mp h
  obtain ⟨hresponse, hstate⟩ := Prod.mk.inj hresult
  subst hresponse
  exact ⟨after, hexec, hstate.symm⟩

-- Between two steps nothing happens but that time passes.
theorem env_system (h : (system codec).env choice s = some s') :
    s' = { s with
      dispatch := { s.dispatch with
        nowSeconds := choice.dispatch.nowSeconds.getD s.dispatch.nowSeconds
        instantMs := s.dispatch.instantMs + choice.dispatch.elapsedMs } } := by
  simp only [system, Option.map_eq_some_iff] at h
  obtain ⟨after, hafter, rfl⟩ := h
  rw [← Option.some.inj hafter]

end Exec

end FleetState

section Programs

variable {codec : NodeCodec}

abbrev FleetProg (codec : NodeCodec) (α : Type) :=
  Prog (FleetCommand codec) FleetCommand.Response α

def onAuth {α : Type} (program : DaemonProg α) : FleetProg codec (Except DaemonNodeHttpError α) :=
  Prog.embed .auth (fun _ response => response) program.run

def onNodes {α : Type} (program : NodeM codec α) : FleetProg codec (Except AppError α) :=
  Prog.embed .node (fun _ response => response) program.run

def onDispatch {α : Type} (program : DispatchProg α) : FleetProg codec (Except AppError α) :=
  Prog.embed .dispatch (fun _ response => response) program.run

inductive FleetOp (codec : NodeCodec) where
  | createNode (identityUserId : Uuid) (payload : Daemon.DaemonNodeCreateRequest)
  | revokeNode (actorUserId nodeId : Uuid)
  | register (request : DaemonRequest) (payload : Daemon.DaemonRegistrationRequest codec)
  | heartbeat (request : DaemonRequest) (payload : Daemon.DaemonHeartbeatRequest codec)
  | ping (request : DaemonRequest)
  | leaseNext (request : DaemonRequest)
  | completeJob (request : DaemonRequest) (jobId : Uuid)
      (payload : Dispatch.DispatchJobCompleteRequest)
  | dispatch (input : Dispatch.DispatchJobInput) (polls : Nat)

inductive FleetAnswer (codec : NodeCodec) where
  | refused (error : DaemonNodeHttpError)
  | node (answer : Except AppError (Daemon.NodeAnswer codec))
  | leased (answer : Except AppError (Option Dispatch.DispatchJobLeaseResponse))
  | completed (answer : Except AppError String)
  | dispatched (answer : Except AppError Dispatch.DispatchJobResult)

-- The middleware, and then the handler of the route for the node that it has found.
def authenticated (sha256 : List UInt8 → List UInt8) (request : DaemonRequest)
    (handler : DaemonNodeIdentity → FleetProg codec (FleetAnswer codec)) :
    FleetProg codec (FleetAnswer codec) := do
  match ← onAuth (Daemon.daemonNodeAuth sha256 request) with
  | .error error => pure (.refused error)
  | .ok authorized => handler authorized.identity

def FleetOp.program (crypto : Auth.Crypto) (dispatchCodec : Dispatch.Codec) :
    FleetOp codec → FleetProg codec (FleetAnswer codec)
  | .createNode identityUserId payload => do
      let answer ← onNodes ((Daemon.NodeJob.create identityUserId payload).program crypto)
      pure (.node answer)
  | .revokeNode actorUserId nodeId => do
      let answer ← onNodes ((Daemon.NodeJob.revoke actorUserId nodeId).program crypto)
      pure (.node answer)
  | .register request payload =>
      authenticated crypto.sha256 request fun identity => do
        let answer ← onNodes ((Daemon.NodeJob.register identity payload).program crypto)
        pure (.node answer)
  | .heartbeat request payload =>
      authenticated crypto.sha256 request fun identity => do
        let answer ← onNodes ((Daemon.NodeJob.heartbeat identity payload).program crypto)
        pure (.node answer)
  | .ping request =>
      authenticated crypto.sha256 request fun identity => do
        let answer ← onNodes ((Daemon.NodeJob.ping identity).program crypto)
        pure (.node answer)
  | .leaseNext request =>
      authenticated crypto.sha256 request fun identity => do
        let answer ← onDispatch (Dispatch.leaseNextJobForNode dispatchCodec identity.nodeId)
        pure (.leased answer)
  | .completeJob request jobId payload =>
      authenticated crypto.sha256 request fun identity => do
        let answer ← onDispatch (Dispatch.completeJob dispatchCodec identity.nodeId jobId payload)
        pure (.completed answer)
  | .dispatch input polls => do
      let answer ← onDispatch (Dispatch.dispatchToDaemonNode dispatchCodec input polls)
      pure (.dispatched answer)

def fleetPrograms (crypto : Auth.Crypto) (dispatchCodec : Dispatch.Codec)
    (ops : Nat → FleetOp codec) (t : Nat) : FleetProg codec (FleetAnswer codec) :=
  (ops t).program crypto dispatchCodec

end Programs

end Mizan.Fleet
