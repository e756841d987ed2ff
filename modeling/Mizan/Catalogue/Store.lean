import Mizan.Connections.Create
import Mizan.Interleaving.Fault
import Mizan.Interleaving.Prog
import Mizan.Interleaving.Pool
import Mizan.Table.Update

namespace Mizan.Catalogue

open Interleaving
open Connections (AdminAuditInput ProviderConnectionRow)

structure ModelRouteRow where
  id : String
  providerConnectionId : String
  publicModel : String
  upstreamModel : String
  maxTokens : Option Int64
  pricingInputPer1mTokens : Int64
  pricingOutputPer1mTokens : Int64
  enabled : Bool
  createdAt : String
  updatedAt : String
  deriving DecidableEq, Repr

inductive CatalogueCommand where
  | insertConnection (row : ProviderConnectionRow)
  | deleteConnection (id : Uuid)
  | selectEnabledConnection (id : Uuid)
  | insertRoute (row : ModelRouteRow)
  | deleteRoute (id : Uuid)
  | recordAdminAudit (audit : AdminAuditInput)
  | nowV7
  | nowUtcEpochSeconds

def CatalogueCommand.Response : CatalogueCommand → Type
  | .insertConnection _ | .insertRoute _ | .recordAdminAudit _ => Except String Unit
  | .deleteConnection _ | .deleteRoute _ => Except String Nat
  | .selectEnabledConnection _ => Except String Bool
  | .nowV7 => Uuid
  | .nowUtcEpochSeconds => Int64

structure CatalogueChoice where
  uuid : Uuid := ⟨0⟩
  fault : Option String := none
  executed : Bool := false
  nowSeconds : Option Nat := none
  deriving DecidableEq, Repr

-- Two histories that no handler reads: the ids whose rows a statement has deleted.
structure CatalogueState where
  connections : List ProviderConnectionRow
  routes : List ModelRouteRow
  adminAuditLogs : List AdminAuditInput
  nowSeconds : Nat
  deletedConnections : List String
  deletedRoutes : List String
  deriving DecidableEq, Repr

def UNIQUE_CONNECTION : String := "UNIQUE constraint failed: provider_connections.name"
def UNIQUE_ROUTE : String := "UNIQUE constraint failed: model_routes.public_model"
def FOREIGN_KEY : String := "FOREIGN KEY constraint failed"

namespace CatalogueState

def start (nowSeconds : Nat) : CatalogueState :=
  { connections := [], routes := [], adminAuditLogs := [], nowSeconds, deletedConnections := []
    deletedRoutes := [] }

-- The primary key and the unique name.
def connectionConflicts (row other : ProviderConnectionRow) : Bool :=
  other.id = row.id || other.name = row.name

-- The primary key and the unique public model.
def routeConflicts (row other : ModelRouteRow) : Bool :=
  other.id = row.id || other.publicModel = row.publicModel

def hasConnection (s : CatalogueState) (id : String) : Bool :=
  s.connections.any fun row => row.id = id

def insertConnection (s : CatalogueState) (row : ProviderConnectionRow) : CatalogueState :=
  { s with connections := s.connections ++ [row] }

def insertRoute (s : CatalogueState) (row : ModelRouteRow) : CatalogueState :=
  { s with routes := s.routes ++ [row] }

-- The routes of a connection go with it.
def deleteConnection (s : CatalogueState) (id : String) : CatalogueState :=
  { s with
    connections := s.connections.filter fun row => row.id ≠ id
    routes := s.routes.filter fun route => route.providerConnectionId ≠ id
    deletedConnections := s.deletedConnections ++ [id] }

def deleteRoute (s : CatalogueState) (id : String) : CatalogueState :=
  { s with
    routes := s.routes.filter fun route => route.id ≠ id
    deletedRoutes := s.deletedRoutes ++ [id] }

def exec : (c : CatalogueCommand) → CatalogueChoice → CatalogueState → c.Response × CatalogueState
  | .insertConnection row, choice, s =>
      if s.connections.any (connectionConflicts row) then
        (.error (choice.fault.getD UNIQUE_CONNECTION), s)
      else reply choice.fault choice.executed () s (s.insertConnection row)
  | .deleteConnection id, choice, s =>
      reply choice.fault choice.executed
        (Table.affected (fun row : ProviderConnectionRow => row.id = id.toString) s.connections) s
        (s.deleteConnection id.toString)
  | .selectEnabledConnection id, choice, s =>
      reply choice.fault choice.executed
        (s.connections.any fun row => row.id = id.toString && row.enabled) s s
  | .insertRoute row, choice, s =>
      if s.routes.any (routeConflicts row) then (.error (choice.fault.getD UNIQUE_ROUTE), s)
      else if !s.hasConnection row.providerConnectionId then
        (.error (choice.fault.getD FOREIGN_KEY), s)
      else reply choice.fault choice.executed () s (s.insertRoute row)
  | .deleteRoute id, choice, s =>
      reply choice.fault choice.executed
        (Table.affected (fun row : ModelRouteRow => row.id = id.toString) s.routes) s
        (s.deleteRoute id.toString)
  | .recordAdminAudit audit, choice, s =>
      reply choice.fault choice.executed () s
        { s with adminAuditLogs := s.adminAuditLogs ++ [audit] }
  | .nowV7, choice, s => (choice.uuid, s)
  | .nowUtcEpochSeconds, _, s => (asI64 s.nowSeconds, s)

def system : System CatalogueCommand CatalogueCommand.Response CatalogueChoice CatalogueState where
  exec _ c choice s := some (exec c choice s)
  env choice s := some { s with nowSeconds := choice.nowSeconds.getD s.nowSeconds }

end CatalogueState

end Mizan.Catalogue
