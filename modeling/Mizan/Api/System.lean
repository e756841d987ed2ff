import Mizan.Auth.History
import Mizan.Billing.Books
import Mizan.Catalogue.Programs
import Mizan.Fleet.System

namespace Mizan

open Interleaving

-- The rows that a row of the catalogue takes along, by the foreign keys of `usage_events`.
abbrev GoneParent := EventParent × String

def UsageEventRecord.unlinkAll (gone : List GoneParent) (row : UsageEventRecord) :
    UsageEventRecord :=
  gone.foldl (fun row parent => row.unlink parent.1 parent.2) row

def Database.unlinkAll (gone : List GoneParent) (database : Database) : Database :=
  gone.foldl (fun database parent => database.unlink parent.1 parent.2) database

namespace Api

open Auth (AuthChoice AuthCommand AuthOperation AuthState)
open Billing (Books Job SqlChoice SqlCommand)
open Catalogue (CatalogueAnswer CatalogueChoice CatalogueCommand CatalogueOp CatalogueState
  ControlPlane)
open Daemon (NodeCodec)
open Fleet (FleetAnswer FleetChoice FleetCommand FleetOp FleetState)

-- Everything that the server asks of its database and of what is around it.
inductive ApiCommand (codec : NodeCodec) where
  | billing (command : SqlCommand)
  | catalogue (command : CatalogueCommand)
  | auth (command : AuthCommand)
  | fleet (command : FleetCommand codec)

def ApiCommand.Response {codec : NodeCodec} : ApiCommand codec → Type
  | .billing command => command.Response
  | .catalogue command => command.Response
  | .auth command => command.Response
  | .fleet command => command.Response

structure ApiChoice where
  billing : SqlChoice := {}
  catalogue : CatalogueChoice := {}
  auth : AuthChoice := {}
  fleet : FleetChoice := {}

-- `gone` is a history that no request reads: the rows that have been removed from the catalogue.
structure ApiState (σ : Type) where
  books : σ
  catalogue : CatalogueState
  auth : AuthState
  fleet : FleetState
  gone : List GoneParent

def missing (before after : List String) : List String := before.filter fun id => id ∉ after

-- The connections and routes that a statement has removed, by itself or by a cascade.
def goneRows (before after : CatalogueState) : List GoneParent :=
  (missing (before.connections.map Connections.ProviderConnectionRow.id)
    (after.connections.map Connections.ProviderConnectionRow.id)).map (EventParent.provider, ·) ++
  (missing (before.routes.map Catalogue.ModelRouteRow.id)
    (after.routes.map Catalogue.ModelRouteRow.id)).map (EventParent.route, ·)

namespace ApiState

variable {σ : Type} (books : Books σ)

def start (database : Database) (users : AuthState) (nowSeconds : Nat) : ApiState σ :=
  { books := books.start database, catalogue := CatalogueState.start nowSeconds, auth := users
    fleet := FleetState.start nowSeconds, gone := [] }

def database (s : ApiState σ) : Database := books.tables.database s.books

-- ON DELETE SET NULL, in the statement that removes the rows.
def afterCatalogue (s : ApiState σ) (catalogue : CatalogueState) : ApiState σ :=
  let gone := goneRows s.catalogue catalogue
  { s with
    catalogue
    books := books.tables.withDatabase s.books ((s.database books).unlinkAll gone)
    gone := s.gone ++ gone }

def exec {codec : NodeCodec} (crypto : Auth.Crypto) (t : Nat) :
    (c : ApiCommand codec) → ApiChoice → ApiState σ → Option (c.Response × ApiState σ)
  | .billing c, choice, s =>
      (books.system.exec t c choice.billing s.books).map fun (response, after) =>
        (response, { s with books := after })
  | .catalogue c, choice, s =>
      let (response, catalogue) := CatalogueState.exec c choice.catalogue s.catalogue
      some (response, s.afterCatalogue books catalogue)
  | .auth c, choice, s =>
      ((AuthState.system crypto).exec t c choice.auth s.auth).map fun (response, auth) =>
        (response, { s with auth })
  | .fleet c, choice, s =>
      ((FleetState.system codec).exec t c choice.fleet s.fleet).map fun (response, fleet) =>
        (response, { s with fleet })

def system (codec : NodeCodec) (crypto : Auth.Crypto) :
    System (ApiCommand codec) ApiCommand.Response ApiChoice (ApiState σ) where
  exec := exec books crypto
  env choice s := do
    let after ← books.system.env choice.billing s.books
    let catalogue ← CatalogueState.system.env choice.catalogue s.catalogue
    let auth ← (AuthState.system crypto).env choice.auth s.auth
    let fleet ← (FleetState.system codec).env choice.fleet s.fleet
    pure { s with books := after, catalogue, auth, fleet }

end ApiState

section Programs

variable {codec : NodeCodec}

inductive ApiOp (codec : NodeCodec) where
  | billing (job : Job)
  | catalogue (op : CatalogueOp)
  | auth (operation : AuthOperation)
  | fleet (op : FleetOp codec)

inductive ApiAnswer (codec : NodeCodec) where
  | billing (answer : Except AppError Billing.JobResult)
  | catalogue (answer : Except AppError CatalogueAnswer)
  | auth (performed : Auth.Performed)
  | fleet (answer : FleetAnswer codec)

abbrev ApiProg (codec : NodeCodec) (α : Type) := Prog (ApiCommand codec) ApiCommand.Response α

def ApiOp.program (backend : DatabaseBackend) (plane : ControlPlane)
    (dispatchCodec : Dispatch.Codec) :
    ApiOp codec → ApiProg codec (ApiAnswer codec)
  | .billing job => do
      let answer ← Prog.embed .billing (fun _ response => response) (job.program backend).run
      pure (.billing answer)
  | .catalogue op => do
      let answer ← Prog.embed .catalogue (fun _ response => response)
        (op.program plane.codec plane.crypto plane.words plane.providerSecretKey).run
      pure (.catalogue answer)
  | .auth operation => do
      let answer ← Prog.embed .auth (fun _ response => response) (operation.program plane.words)
      pure (.auth { operation, answer })
  | .fleet op => do
      let answer ← Prog.embed .fleet (fun _ response => response)
        (op.program plane.words dispatchCodec)
      pure (.fleet answer)

-- The handlers that delete a row of the catalogue.
def ApiOp.deletes : ApiOp codec → Prop
  | .catalogue (.deleteProviderConnection ..) | .catalogue (.deleteModelRoute ..) => True
  | _ => False

def apiPrograms (backend : DatabaseBackend) (plane : ControlPlane) (dispatchCodec : Dispatch.Codec)
    (ops : Nat → ApiOp codec) (t : Nat) : ApiProg codec (ApiAnswer codec) :=
  (ops t).program backend plane dispatchCodec

end Programs

end Api

end Mizan
