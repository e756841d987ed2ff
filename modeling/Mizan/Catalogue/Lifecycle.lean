import Mizan.Catalogue.Invariant
import Mizan.Connections.Registration
import Mizan.Daemon.Request

namespace Mizan.Catalogue

open Interleaving
open Connections (AUTH_MODE_API_KEY ProviderConnectionCreateRequest ProviderConnectionRow
  decryptProviderApiKey)

section Handlers

variable {plane : ControlPlane} {ops : Nat → CatalogueOp} {t : Nat} {s : CatalogueState} {α : Type}

def catalogueProtocol (plane : ControlPlane) (ops : Nat → CatalogueOp) :
    Protocol CatalogueState.system where
  inv := CatalogueInvariant plane ops
  rely _ := Progress
  fresh _ _ := True
  admits _ _ _ _ := True
  admitsEnv _ _ := True
  rely_refl _ := Progress.refl
  rely_trans := Progress.trans
  fresh_rely _ _ := trivial
  env_keeps := by
    intro choice s s' hinv _ henv
    cases henv
    exact ⟨⟨hinv.connectionIds, hinv.names, hinv.routeIds, hinv.publicModels, hinv.parents,
        hinv.registered, hinv.routed, hinv.deletedConnections, hinv.deletedRoutes⟩,
      fun _ => ⟨fun _ => .inl, fun _ => .inl, List.Subset.refl _, List.Subset.refl _⟩⟩

-- A statement that the handler may issue, and what its answer says of the tables from then on.
theorem statement_spec {c : CatalogueCommand} {result : c.Response → Except AppError α}
    {post : α → CatalogueState → Prop} (hasked : Asked plane ops c)
    (hpost : ∀ value, (catalogueProtocol plane ops).Stable t (post value))
    (h : ∀ s choice response s' value, CatalogueState.exec c choice s = (response, s') →
      result response = .ok value → post value s') :
    (catalogueProtocol plane ops).ewp t (Prog.perform c result) post (fun _ _ => True) s := by
  apply Protocol.ewp_answered Protocol.stable_true hpost _ trivial
  intro s₁ choice response s₂ hinv _ _ hexec
  obtain ⟨hinv', hprogress⟩ := exec_keeps hinv hasked (Option.some.inj hexec)
  exact ⟨⟨hinv', fun _ _ => hprogress⟩, fun value =>
    h s₁ choice response s₂ value (Option.some.inj hexec)⟩

theorem stable_kept (row : ProviderConnectionRow) :
    (catalogueProtocol plane ops).Stable t (Kept row) := fun hkept hrely _ => hrely.kept hkept

theorem stable_keptRoute (route : ModelRouteRow) :
    (catalogueProtocol plane ops).Stable t (KeptRoute route) :=
  fun hkept hrely _ => hrely.keptRoute hkept

theorem stable_deletedConnection (id : String) :
    (catalogueProtocol plane ops).Stable t fun s => id ∈ s.deletedConnections :=
  fun hmem hrely _ => hrely.deletedConnections hmem

theorem stable_deletedRoute (id : String) :
    (catalogueProtocol plane ops).Stable t fun s => id ∈ s.deletedRoutes :=
  fun hmem hrely _ => hrely.deletedRoutes hmem

-- What nobody takes away is there after the audit entry as before it.
theorem recordAudit_spec {audit : Connections.AdminAuditInput} {pre : CatalogueState → Prop}
    (hpre : ∀ s s', pre s → Progress s s' → pre s') (hs : pre s) :
    (catalogueProtocol plane ops).ewp t (recordAudit audit) (fun _ => pre) (fun _ _ => True) s := by
  have hstable : (catalogueProtocol plane ops).Stable t pre :=
    fun hbefore hrely _ => hpre _ _ hbefore hrely
  have hasked : Asked plane ops (.recordAdminAudit audit) := trivial
  apply Protocol.ewp_answered hstable (fun _ => hstable) _ hs
  intro s choice response s' hinv hbefore _ hexec
  obtain ⟨hinv', hmoved⟩ := exec_keeps hinv hasked (Option.some.inj hexec)
  exact ⟨⟨hinv', fun _ _ => hmoved⟩, fun _ _ => hpre s s' hbefore hmoved⟩

theorem nowV7_spec :
    (catalogueProtocol plane ops).ewp t nowV7 (fun _ _ => True) (fun _ _ => True) s :=
  statement_spec trivial (fun _ => Protocol.stable_true) fun _ _ _ _ _ _ _ => trivial

theorem unixTimestampString_spec :
    (catalogueProtocol plane ops).ewp t unixTimestampString
      (fun now _ => ∃ seconds : Int64, now = toString seconds) (fun _ _ => True) s := by
  refine statement_spec trivial (fun _ _ _ hnow _ _ => hnow) ?_
  intro s choice response s' now _ hnow
  exact ⟨response, (Except.ok.inj hnow).symm⟩

theorem insertConnection_kept {row : ProviderConnectionRow} {choice : CatalogueChoice}
    {s' : CatalogueState} {value : Unit} {response : Except String Unit}
    (h : CatalogueState.exec (.insertConnection row) choice s = (response, s'))
    (hok : response = .ok value) : Kept row s' := by
  subst hok
  obtain ⟨_, rfl⟩ := ok_of_reply (ok_of_guarded h).2
  exact .inl (List.mem_append_right _ (List.mem_singleton_self row))

theorem insertRoute_kept {route : ModelRouteRow} {choice : CatalogueChoice} {s' : CatalogueState}
    {value : Unit} {response : Except String Unit}
    (h : CatalogueState.exec (.insertRoute route) choice s = (response, s'))
    (hok : response = .ok value) : KeptRoute route s' := by
  subst hok
  obtain ⟨_, rfl⟩ := ok_of_reply (ok_of_guarded (ok_of_guarded h).2).2
  exact .inl (List.mem_append_right _ (List.mem_singleton_self route))

-- What a request was told, and what has become of it.
def Told (plane : ControlPlane) (op : CatalogueOp) (answer : CatalogueAnswer)
    (s : CatalogueState) : Prop :=
  match op, answer with
  | .createProviderConnection _ payload, .connectionCreated response =>
      ∃ row, RegisteredFrom plane payload row ∧ response = row.response ∧ Kept row s
  | .deleteProviderConnection _ id, .removed status =>
      status = { id := id.toString, removed := true } ∧ id.toString ∈ s.deletedConnections
  | .createModelRoute _ payload, .routeCreated response =>
      ∃ route, RoutedFrom payload route ∧ response = route.response ∧ KeptRoute route s
  | .deleteModelRoute _ id, .removed status =>
      status = { id := id.toString, removed := true } ∧ id.toString ∈ s.deletedRoutes
  | _, _ => False

theorem createProviderConnection_spec {actor : Uuid} {payload : ProviderConnectionCreateRequest}
    (hop : ops t = .createProviderConnection actor payload) :
    (catalogueProtocol plane ops).ewp t
      (createProviderConnection plane.codec plane.crypto plane.words plane.providerSecretKey actor
        payload)
      (fun response s => Told plane (.createProviderConnection actor payload)
        (.connectionCreated response) s) (fun _ _ => True) s := by
  apply Protocol.ewp_seq nowV7_spec fun _ _ _ => trivial
  intro id s _ _
  apply Protocol.ewp_seq unixTimestampString_spec fun _ _ _ => trivial
  rintro now s _ ⟨seconds, rfl⟩
  cases hrow : payload.checkedRow plane.codec plane.crypto
      (readings plane.providerSecretKey id (toString seconds)) with
  | error error => exact fun _ _ _ => trivial
  | ok row =>
    have hasked : Asked plane ops (.insertConnection row) :=
      ⟨t, actor, payload, hop, id, seconds, hrow⟩
    have hinserted : (catalogueProtocol plane ops).ewp t
        (Prog.perform (.insertConnection row) (Except.mapError fun error =>
          Connections.mapDuplicateNameError plane.words error "provider connection"))
        (fun _ => Kept row) (fun _ _ => True) s := by
      apply statement_spec hasked fun _ => stable_kept row
      intro s choice response s' value hexec hok
      exact insertConnection_kept hexec (ok_of_mapError hok)
    apply Protocol.ewp_seq hinserted fun _ _ _ => trivial
    intro _ s _ hkept
    apply Protocol.ewp_seq (recordAudit_spec
      (fun _ _ hkept hprogress => hprogress.kept hkept) hkept)
      fun _ _ _ => trivial
    intro _ s _ hkept s' hrely _
    exact ⟨row, ⟨id, seconds, hrow⟩, rfl, hrely.kept hkept⟩

theorem createModelRoute_spec {actor : Uuid} {payload : ModelRouteCreateRequest}
    (hop : ops t = .createModelRoute actor payload) :
    (catalogueProtocol plane ops).ewp t (createModelRoute plane.codec plane.words actor payload)
      (fun response s => Told plane (.createModelRoute actor payload) (.routeCreated response) s)
      (fun _ _ => True) s := by
  unfold createModelRoute
  cases hcheck : payload.check with
  | error error => exact fun _ _ _ => trivial
  | ok _ =>
    have hselect : (catalogueProtocol plane ops).ewp t
        (Prog.perform (.selectEnabledConnection payload.providerConnectionId) infrastructure)
        (fun _ _ => True) (fun _ _ => True) s :=
      statement_spec trivial (fun _ => Protocol.stable_true) fun _ _ _ _ _ _ _ => trivial
    apply Protocol.ewp_seq hselect fun _ _ _ => trivial
    intro providerExists s _ _
    cases providerExists with
    | false => exact fun _ _ _ => trivial
    | true =>
      apply Protocol.ewp_seq nowV7_spec fun _ _ _ => trivial
      intro id s _ _
      apply Protocol.ewp_seq unixTimestampString_spec fun _ _ _ => trivial
      rintro now s _ ⟨seconds, rfl⟩
      have hrouted : RoutedFrom payload (payload.row id (toString seconds)) :=
        ⟨id, seconds, hcheck, rfl⟩
      have hinserted : (catalogueProtocol plane ops).ewp t
          (Prog.perform (.insertRoute (payload.row id (toString seconds)))
            (Except.mapError (mapDuplicateModelError plane.words)))
          (fun _ => KeptRoute (payload.row id (toString seconds))) (fun _ _ => True) s := by
        have hasked : Asked plane ops (.insertRoute (payload.row id (toString seconds))) :=
          ⟨t, actor, payload, hop, hrouted⟩
        apply statement_spec hasked fun _ => stable_keptRoute _
        intro s choice response s' value hexec hok
        exact insertRoute_kept hexec (ok_of_mapError hok)
      apply Protocol.ewp_seq hinserted fun _ _ _ => trivial
      intro _ s _ hkept
      apply Protocol.ewp_seq
        (recordAudit_spec (fun _ _ hkept hprogress => hprogress.keptRoute hkept) hkept)
        fun _ _ _ => trivial
      intro _ s _ hkept s' hrely _
      exact ⟨_, hrouted, rfl, hrely.keptRoute hkept⟩

theorem deleteProviderConnection_spec {actor id : Uuid}
    (hop : ops t = .deleteProviderConnection actor id) :
    (catalogueProtocol plane ops).ewp t (deleteProviderConnection plane.codec actor id)
      (fun status s => Told plane (.deleteProviderConnection actor id) (.removed status) s)
      (fun _ _ => True) s := by
  have hdeleted : (catalogueProtocol plane ops).ewp t
      (Prog.perform (.deleteConnection id) infrastructure)
      (fun _ s => id.toString ∈ s.deletedConnections) (fun _ _ => True) s := by
    have hasked : Asked plane ops (.deleteConnection id) := ⟨t, actor, hop⟩
    apply statement_spec hasked fun _ => stable_deletedConnection _
    intro s choice response s' value hexec hok
    obtain ⟨_, rfl⟩ | ⟨error, rfl, _⟩ := reply_cases hexec
    · exact List.mem_append_right _ (List.mem_singleton_self _)
    · cases hok
  apply Protocol.ewp_seq hdeleted fun _ _ _ => trivial
  intro removed s _ hgone
  by_cases hnone : removed = 0
  · rw [if_pos hnone]
    exact fun _ _ _ => trivial
  · rw [if_neg hnone]
    apply Protocol.ewp_seq
      (recordAudit_spec (fun _ _ hmem hprogress => hprogress.deletedConnections hmem) hgone)
      fun _ _ _ => trivial
    intro _ s _ hgone s' hrely _
    exact ⟨rfl, hrely.deletedConnections hgone⟩

theorem deleteModelRoute_spec {actor id : Uuid} (hop : ops t = .deleteModelRoute actor id) :
    (catalogueProtocol plane ops).ewp t (deleteModelRoute plane.codec actor id)
      (fun status s => Told plane (.deleteModelRoute actor id) (.removed status) s)
      (fun _ _ => True) s := by
  have hdeleted : (catalogueProtocol plane ops).ewp t
      (Prog.perform (.deleteRoute id) infrastructure)
      (fun _ s => id.toString ∈ s.deletedRoutes) (fun _ _ => True) s := by
    have hasked : Asked plane ops (.deleteRoute id) := ⟨t, actor, hop⟩
    apply statement_spec hasked fun _ => stable_deletedRoute _
    intro s choice response s' value hexec hok
    obtain ⟨_, rfl⟩ | ⟨error, rfl, _⟩ := reply_cases hexec
    · exact List.mem_append_right _ (List.mem_singleton_self _)
    · cases hok
  apply Protocol.ewp_seq hdeleted fun _ _ _ => trivial
  intro removed s _ hgone
  by_cases hnone : removed = 0
  · rw [if_pos hnone]
    exact fun _ _ _ => trivial
  · rw [if_neg hnone]
    apply Protocol.ewp_seq
      (recordAudit_spec (fun _ _ hmem hprogress => hprogress.deletedRoutes hmem) hgone)
      fun _ _ _ => trivial
    intro _ s _ hgone s' hrely _
    exact ⟨rfl, hrely.deletedRoutes hgone⟩

end Handlers

end Mizan.Catalogue
