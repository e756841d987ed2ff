import Mizan.Catalogue.Programs
import Mizan.Interleaving.Rely
import Mathlib.Data.List.Nodup

namespace Mizan.Catalogue

open Interleaving
open Connections (ProviderConnectionCreateRequest ProviderConnectionRow)

section Asked

variable (plane : ControlPlane) (ops : Nat → CatalogueOp)

-- A row that a request has been given leave to store: its checks have passed, and its key is
-- encrypted for it.
def RegisteredFrom (payload : ProviderConnectionCreateRequest) (row : ProviderConnectionRow) :
    Prop :=
  ∃ (id : Uuid) (now : Int64), payload.checkedRow plane.codec plane.crypto
    (readings plane.providerSecretKey id (toString now)) = .ok row

def RoutedFrom (payload : ModelRouteCreateRequest) (row : ModelRouteRow) : Prop :=
  ∃ (id : Uuid) (now : Int64), payload.check = .ok () ∧ row = payload.row id (toString now)

-- The statements that the handlers of these requests may issue.
def Asked : CatalogueCommand → Prop
  | .insertConnection row => ∃ t actor payload, ops t = .createProviderConnection actor payload ∧
      RegisteredFrom plane payload row
  | .insertRoute row => ∃ t actor payload, ops t = .createModelRoute actor payload ∧
      RoutedFrom payload row
  | .deleteConnection id => ∃ t actor, ops t = .deleteProviderConnection actor id
  | .deleteRoute id => ∃ t actor, ops t = .deleteModelRoute actor id
  | _ => True

structure CatalogueInvariant (s : CatalogueState) : Prop where
  connectionIds : (s.connections.map ProviderConnectionRow.id).Nodup
  names : (s.connections.map ProviderConnectionRow.name).Nodup
  routeIds : (s.routes.map ModelRouteRow.id).Nodup
  publicModels : (s.routes.map ModelRouteRow.publicModel).Nodup
  parents : ∀ route ∈ s.routes, ∃ connection ∈ s.connections,
    connection.id = route.providerConnectionId
  registered : ∀ row ∈ s.connections, Asked plane ops (.insertConnection row)
  routed : ∀ route ∈ s.routes, Asked plane ops (.insertRoute route)
  deletedConnections : ∀ id ∈ s.deletedConnections, ∃ uuid : Uuid, id = uuid.toString ∧
    Asked plane ops (.deleteConnection uuid)
  deletedRoutes : ∀ id ∈ s.deletedRoutes, ∃ uuid : Uuid, id = uuid.toString ∧
    Asked plane ops (.deleteRoute uuid)

end Asked

-- A row stays until it is deleted, a route until it or its connection is.
def Kept (row : ProviderConnectionRow) (s : CatalogueState) : Prop :=
  row ∈ s.connections ∨ row.id ∈ s.deletedConnections

def KeptRoute (route : ModelRouteRow) (s : CatalogueState) : Prop :=
  route ∈ s.routes ∨ route.id ∈ s.deletedRoutes ∨
    route.providerConnectionId ∈ s.deletedConnections

structure Progress (s s' : CatalogueState) : Prop where
  connections : ∀ row ∈ s.connections, Kept row s'
  routes : ∀ route ∈ s.routes, KeptRoute route s'
  deletedConnections : s.deletedConnections ⊆ s'.deletedConnections
  deletedRoutes : s.deletedRoutes ⊆ s'.deletedRoutes

theorem Progress.refl (s : CatalogueState) : Progress s s :=
  ⟨fun _ => .inl, fun _ => .inl, List.Subset.refl _, List.Subset.refl _⟩

theorem Progress.kept {s s' : CatalogueState} (h : Progress s s') {row : ProviderConnectionRow}
    (hkept : Kept row s) : Kept row s' := by
  rcases hkept with hmem | hdeleted
  · exact h.connections row hmem
  · exact .inr (h.deletedConnections hdeleted)

theorem Progress.keptRoute {s s' : CatalogueState} (h : Progress s s') {route : ModelRouteRow}
    (hkept : KeptRoute route s) : KeptRoute route s' := by
  rcases hkept with hmem | hdeleted | hgone
  · exact h.routes route hmem
  · exact .inr (.inl (h.deletedRoutes hdeleted))
  · exact .inr (.inr (h.deletedConnections hgone))

theorem Progress.trans {s s' s'' : CatalogueState} (h : Progress s s') (h' : Progress s' s'') :
    Progress s s'' :=
  ⟨fun row hmem => h'.kept (h.connections row hmem),
    fun route hmem => h'.keptRoute (h.routes route hmem),
    List.Subset.trans h.deletedConnections h'.deletedConnections,
    List.Subset.trans h.deletedRoutes h'.deletedRoutes⟩

section Statements

variable {plane : ControlPlane} {ops : Nat → CatalogueOp} {s s' : CatalogueState}

theorem nodup_concat {ids : List String} {id : String} (hids : ids.Nodup)
    (hfresh : ∀ other ∈ ids, other ≠ id) : (ids ++ [id]).Nodup := by
  rw [List.nodup_append]
  refine ⟨hids, List.nodup_singleton id, fun first hfirst last hlast heq => ?_⟩
  rw [List.mem_singleton.mp hlast] at heq
  exact hfresh first hfirst heq

theorem insertConnection_keeps (h : CatalogueInvariant plane ops s) {row : ProviderConnectionRow}
    (hasked : Asked plane ops (.insertConnection row))
    (hfresh : s.connections.any (CatalogueState.connectionConflicts row) = false) :
    CatalogueInvariant plane ops (s.insertConnection row) ∧
    Progress s (s.insertConnection row) := by
  have hnew : ∀ other ∈ s.connections, other.id ≠ row.id ∧ other.name ≠ row.name := by
    intro other hmem
    have hother := List.any_eq_false.mp hfresh other hmem
    simpa [CatalogueState.connectionConflicts] using hother
  refine ⟨⟨?_, ?_, h.routeIds, h.publicModels, ?_, ?_, h.routed, h.deletedConnections,
    h.deletedRoutes⟩, ?_⟩
  · simp only [CatalogueState.insertConnection, List.map_append, List.map_cons, List.map_nil]
    apply nodup_concat h.connectionIds
    intro id hid
    obtain ⟨other, hmem, rfl⟩ := List.mem_map.mp hid
    exact (hnew other hmem).1
  · simp only [CatalogueState.insertConnection, List.map_append, List.map_cons, List.map_nil]
    apply nodup_concat h.names
    intro name hname
    obtain ⟨other, hmem, rfl⟩ := List.mem_map.mp hname
    exact (hnew other hmem).2
  · intro route hroute
    obtain ⟨connection, hmem, hid⟩ := h.parents route hroute
    exact ⟨connection, List.mem_append_left _ hmem, hid⟩
  · intro other hmem
    rcases List.mem_append.mp hmem with hold | hlast
    · exact h.registered other hold
    · rw [List.mem_singleton.mp hlast]
      exact hasked
  · exact ⟨fun other hmem => .inl (List.mem_append_left _ hmem), fun _ => .inl,
      List.Subset.refl _, List.Subset.refl _⟩

theorem insertRoute_keeps (h : CatalogueInvariant plane ops s) {route : ModelRouteRow}
    (hasked : Asked plane ops (.insertRoute route))
    (hfresh : s.routes.any (CatalogueState.routeConflicts route) = false)
    (hparent : s.hasConnection route.providerConnectionId = true) :
    CatalogueInvariant plane ops (s.insertRoute route) ∧ Progress s (s.insertRoute route) := by
  have hnew : ∀ other ∈ s.routes, other.id ≠ route.id ∧ other.publicModel ≠ route.publicModel := by
    intro other hmem
    have hother := List.any_eq_false.mp hfresh other hmem
    simpa [CatalogueState.routeConflicts] using hother
  refine ⟨⟨h.connectionIds, h.names, ?_, ?_, ?_, h.registered, ?_, h.deletedConnections,
    h.deletedRoutes⟩, ?_⟩
  · simp only [CatalogueState.insertRoute, List.map_append, List.map_cons, List.map_nil]
    apply nodup_concat h.routeIds
    intro id hid
    obtain ⟨other, hmem, rfl⟩ := List.mem_map.mp hid
    exact (hnew other hmem).1
  · simp only [CatalogueState.insertRoute, List.map_append, List.map_cons, List.map_nil]
    apply nodup_concat h.publicModels
    intro model hmodel
    obtain ⟨other, hmem, rfl⟩ := List.mem_map.mp hmodel
    exact (hnew other hmem).2
  · intro other hmem
    rcases List.mem_append.mp hmem with hold | hlast
    · exact h.parents other hold
    · rw [List.mem_singleton.mp hlast]
      simp only [CatalogueState.hasConnection, List.any_eq_true, decide_eq_true_eq] at hparent
      exact hparent
  · intro other hmem
    rcases List.mem_append.mp hmem with hold | hlast
    · exact h.routed other hold
    · rw [List.mem_singleton.mp hlast]
      exact hasked
  · exact ⟨fun _ => .inl, fun other hmem => .inl (List.mem_append_left _ hmem),
      List.Subset.refl _, List.Subset.refl _⟩

theorem deleteConnection_keeps (h : CatalogueInvariant plane ops s) {id : Uuid}
    (hasked : Asked plane ops (.deleteConnection id)) :
    CatalogueInvariant plane ops (s.deleteConnection id.toString) ∧
      Progress s (s.deleteConnection id.toString) := by
  refine ⟨⟨?_, ?_, ?_, ?_, ?_, ?_, ?_, ?_, h.deletedRoutes⟩, ?_⟩
  · exact h.connectionIds.sublist (List.filter_sublist.map ProviderConnectionRow.id)
  · exact h.names.sublist (List.filter_sublist.map ProviderConnectionRow.name)
  · exact h.routeIds.sublist (List.filter_sublist.map ModelRouteRow.id)
  · exact h.publicModels.sublist (List.filter_sublist.map ModelRouteRow.publicModel)
  · intro route hroute
    obtain ⟨hold, hother⟩ := List.mem_filter.mp hroute
    obtain ⟨connection, hmem, hid⟩ := h.parents route hold
    rw [← hid] at hother
    exact ⟨connection, List.mem_filter.mpr ⟨hmem, hother⟩, hid⟩
  · exact fun row hmem => h.registered row (List.mem_of_mem_filter hmem)
  · exact fun route hmem => h.routed route (List.mem_of_mem_filter hmem)
  · intro other hmem
    rcases List.mem_append.mp hmem with hold | hlast
    · exact h.deletedConnections other hold
    · exact ⟨id, List.mem_singleton.mp hlast, hasked⟩
  · have hlast : id.toString ∈ (s.deleteConnection id.toString).deletedConnections :=
      List.mem_append_right _ (List.mem_singleton_self _)
    refine ⟨fun row hmem => ?_, fun route hmem => ?_, List.subset_append_left _ _,
      List.Subset.refl _⟩
    · by_cases hid : row.id = id.toString
      · exact .inr (by rw [hid]; exact hlast)
      · exact .inl (List.mem_filter.mpr ⟨hmem, decide_eq_true hid⟩)
    · by_cases hid : route.providerConnectionId = id.toString
      · exact .inr (.inr (by rw [hid]; exact hlast))
      · exact .inl (List.mem_filter.mpr ⟨hmem, decide_eq_true hid⟩)

theorem deleteRoute_keeps (h : CatalogueInvariant plane ops s) {id : Uuid}
    (hasked : Asked plane ops (.deleteRoute id)) :
    CatalogueInvariant plane ops (s.deleteRoute id.toString) ∧
      Progress s (s.deleteRoute id.toString) := by
  refine ⟨⟨h.connectionIds, h.names, ?_, ?_, ?_, h.registered, ?_, h.deletedConnections, ?_⟩, ?_⟩
  · exact h.routeIds.sublist (List.filter_sublist.map ModelRouteRow.id)
  · exact h.publicModels.sublist (List.filter_sublist.map ModelRouteRow.publicModel)
  · exact fun route hmem => h.parents route (List.mem_of_mem_filter hmem)
  · exact fun route hmem => h.routed route (List.mem_of_mem_filter hmem)
  · intro other hmem
    rcases List.mem_append.mp hmem with hold | hlast
    · exact h.deletedRoutes other hold
    · exact ⟨id, List.mem_singleton.mp hlast, hasked⟩
  · refine ⟨fun _ => .inl, fun route hmem => ?_, List.Subset.refl _, List.subset_append_left _ _⟩
    by_cases hid : route.id = id.toString
    · refine .inr (.inl ?_)
      rw [hid]
      exact List.mem_append_right _ (List.mem_singleton_self _)
    · exact .inl (List.mem_filter.mpr ⟨hmem, decide_eq_true hid⟩)

-- Every statement that is asked for keeps the invariant, also one whose answer is lost.
theorem exec_keeps (h : CatalogueInvariant plane ops s) {c : CatalogueCommand}
    {choice : CatalogueChoice} {response : c.Response} (hasked : Asked plane ops c)
    (hexec : CatalogueState.exec c choice s = (response, s')) :
    CatalogueInvariant plane ops s' ∧ Progress s s' := by
  have hsame : CatalogueInvariant plane ops s ∧ Progress s s := ⟨h, Progress.refl s⟩
  cases c with
  | nowV7 | nowUtcEpochSeconds =>
    cases hexec
    exact hsame
  | insertConnection row =>
    obtain ⟨_, rfl⟩ | ⟨hfresh, hinserted⟩ := guarded_cases hexec
    · exact hsame
    · exact of_reply hsame (insertConnection_keeps h hasked hfresh) hinserted
  | deleteConnection id => exact of_reply hsame (deleteConnection_keeps h hasked) hexec
  | selectEnabledConnection id => exact of_reply hsame hsame hexec
  | insertRoute route =>
    obtain ⟨_, rfl⟩ | ⟨hfresh, hguarded⟩ := guarded_cases hexec
    · exact hsame
    · obtain ⟨_, rfl⟩ | ⟨hparent, hinserted⟩ := guarded_cases hguarded
      · exact hsame
      · rw [Bool.not_eq_false'] at hparent
        exact of_reply hsame (insertRoute_keeps h hasked hfresh hparent) hinserted
  | deleteRoute id => exact of_reply hsame (deleteRoute_keeps h hasked) hexec
  | recordAdminAudit audit =>
    have hrecorded : CatalogueInvariant plane ops
          { s with adminAuditLogs := s.adminAuditLogs ++ [audit] } ∧
        Progress s { s with adminAuditLogs := s.adminAuditLogs ++ [audit] } :=
      ⟨⟨h.connectionIds, h.names, h.routeIds, h.publicModels, h.parents, h.registered, h.routed,
          h.deletedConnections, h.deletedRoutes⟩,
        ⟨fun _ => .inl, fun _ => .inl, List.Subset.refl _, List.Subset.refl _⟩⟩
    exact of_reply hsame hrecorded hexec

end Statements

end Mizan.Catalogue
