import Mizan.Auth.Effects
import Mizan.Registry.Records

namespace Mizan.Auth

open Interleaving

def grantedKey (row : ApiKeyRecord) : GrantedKey :=
  { token := apiKey row.id, id := row.id, owner := row.userId }

def grantedSession (row : SessionRecord) : GrantedSession :=
  { token := sessionToken row.id, userId := row.userId, expiresAt := row.expiresAt }

-- An API key does not lapse.
structure KeysRecorded (crypto : Crypto) (rows : List ApiKeyRecord)
    (log : List (Registry.Entry GrantedKey)) : Prop where
  hashes : ∀ row ∈ rows, row.keyHash = hashValue crypto (apiKey row.id)
  unique : (rows.map ApiKeyRecord.keyHash).Nodup
  records : Registry.Records grantedKey ApiKeyRecord.revoked (fun _ => False) rows log

def Lapsed (now : Int64) (session : GrantedSession) : Prop :=
  ∃ expiry, session.expiresAt = some expiry ∧ expiry ≤ now

structure SessionsRecorded (crypto : Crypto) (now : Int64) (rows : List SessionRecord)
    (log : List (Registry.Entry GrantedSession)) : Prop where
  hashes : ∀ row ∈ rows, row.sessionTokenHash = hashValue crypto (sessionToken row.id)
  unique : (rows.map SessionRecord.sessionTokenHash).Nodup
  ids : (rows.map SessionRecord.id).Nodup
  expire : ∀ row ∈ rows, row.expiresAt ≠ none
  records : Registry.Records grantedSession SessionRecord.revoked (Lapsed now) rows log

theorem nodup_concat {α : Type} {values : List α} {value : α} (h : values.Nodup)
    (hfresh : ∀ other ∈ values, other ≠ value) : (values ++ [value]).Nodup := by
  rw [List.nodup_append]
  refine ⟨h, by simp, fun other hother last hlast => ?_⟩
  rw [List.mem_singleton.mp hlast]
  exact hfresh other hother

namespace KeysRecorded

variable {crypto : Crypto} {rows : List ApiKeyRecord} {log : List (Registry.Entry GrantedKey)}

theorem nil : KeysRecorded crypto [] [] :=
  { hashes := by simp
    unique := List.nodup_nil
    records := .nil }

theorem insert (h : KeysRecorded crypto rows log) {userId id : Uuid} {label : Option String}
    {now : String}
    (hfresh : ∀ row ∈ rows, row.id ≠ id ∧ row.keyHash ≠ hashValue crypto (apiKey id)) :
    KeysRecorded crypto (rows ++ [newApiKey crypto userId id label now])
      (log ++ [.issue { token := apiKey id, id, owner := userId }]) := by
  constructor
  · intro row hmem
    rcases List.mem_append.mp hmem with hold | hnew
    · exact h.hashes row hold
    · rw [List.mem_singleton.mp hnew]
      rfl
  · rw [List.map_append]
    refine nodup_concat h.unique fun hash hmem => ?_
    obtain ⟨row, hrow, rfl⟩ := List.mem_map.mp hmem
    exact (hfresh row hrow).2
  · refine @Registry.Records.insert _ _ grantedKey _ _ _ (newApiKey crypto userId id label now) _
      h.records ?_ rfl
    intro row hmem hsame
    exact (hfresh row hmem).1 (GrantedKey.mk.inj hsame).2.1

theorem revoke (h : KeysRecorded crypto rows log) (id userId : Uuid) (updatedAt : String) :
    KeysRecorded crypto
      (Table.update (AuthState.liveApiKey id userId)
        (fun row => { row with revoked := true, updatedAt }) rows)
      (log ++ [.withdraw fun key => key.id = id && key.owner = userId]) := by
  constructor
  · intro row hmem
    rcases Table.mem_update_cases hmem with ⟨before, hbefore, _, rfl⟩ | ⟨hold, _⟩
    · exact h.hashes before hbefore
    · exact h.hashes row hold
  · have hsame : ∀ row : ApiKeyRecord,
      ({ row with revoked := true, updatedAt } : ApiKeyRecord).keyHash =
        row.keyHash := fun _ => rfl
    rw [Table.map_update hsame]
    exact h.unique
  · exact h.records.withdraw (fun _ => rfl) (fun _ => rfl) fun _ _ => rfl

theorem nodup_issued (h : KeysRecorded crypto rows log) : (Registry.issued log).Nodup := by
  refine List.Nodup.of_map (fun key => hashValue crypto key.token) ?_
  have hhashes : rows.map (fun row => hashValue crypto (grantedKey row).token) =
      rows.map ApiKeyRecord.keyHash :=
    List.map_congr_left fun row hmem => (h.hashes row hmem).symm
  rw [← h.records.issued, List.map_map]
  exact hhashes ▸ h.unique

-- The token of a granted key is the token of no other.
theorem eq_of_token (h : KeysRecorded crypto rows log) {key other : GrantedKey}
    (hkey : key ∈ Registry.issued log) (hother : other ∈ Registry.issued log)
    (htoken : key.token = other.token) : key = other := by
  rw [← h.records.issued] at hkey hother
  obtain ⟨row, hrow, rfl⟩ := List.mem_map.mp hkey
  obtain ⟨row', hrow', rfl⟩ := List.mem_map.mp hother
  have hhash : row.keyHash = row'.keyHash := by
    rw [h.hashes row hrow, h.hashes row' hrow']
    exact congrArg (hashValue crypto) htoken
  rw [Table.eq_of_key h.unique hrow hrow' hhash]

end KeysRecorded

namespace SessionsRecorded

variable {crypto : Crypto} {now now' : Int64} {rows : List SessionRecord}
  {log : List (Registry.Entry GrantedSession)}

theorem nil : SessionsRecorded crypto now [] [] :=
  { hashes := by simp
    unique := List.nodup_nil
    ids := List.nodup_nil
    expire := by simp
    records := .nil }

theorem mono (h : SessionsRecorded crypto now rows log) (hle : now ≤ now') :
    SessionsRecorded crypto now' rows log :=
  { h with
    records := h.records.mono fun _ ⟨expiry, hexpiry, hlapsed⟩ =>
      ⟨expiry, hexpiry, Int64.le_trans hlapsed hle⟩ }

theorem insert (h : SessionsRecorded crypto now rows log) {userId id : Uuid} {issuedAt : Int64}
    (hfresh : ∀ row ∈ rows, row.id ≠ id ∧
      row.sessionTokenHash ≠ hashValue crypto (sessionToken id)) :
    SessionsRecorded crypto now (rows ++ [newSession crypto userId id issuedAt])
      (log ++ [.issue (grantedSession (newSession crypto userId id issuedAt))]) := by
  constructor
  · intro row hmem
    rcases List.mem_append.mp hmem with hold | hnew
    · exact h.hashes row hold
    · rw [List.mem_singleton.mp hnew]
      rfl
  · rw [List.map_append]
    refine nodup_concat h.unique fun hash hmem => ?_
    obtain ⟨row, hrow, rfl⟩ := List.mem_map.mp hmem
    exact (hfresh row hrow).2
  · rw [List.map_append]
    refine nodup_concat h.ids fun other hmem => ?_
    obtain ⟨row, hrow, rfl⟩ := List.mem_map.mp hmem
    exact (hfresh row hrow).1
  · intro row hmem
    rcases List.mem_append.mp hmem with hold | hnew
    · exact h.expire row hold
    · rw [List.mem_singleton.mp hnew]
      simp [newSession]
  · refine h.records.insert ?_ rfl
    intro row hmem hsame
    have hhash := (hfresh row hmem).2
    rw [h.hashes row hmem] at hhash
    exact hhash (congrArg (hashValue crypto) (GrantedSession.mk.inj hsame).1)

-- An update of other columns than these.
theorem update (h : SessionsRecorded crypto now rows log) {selects : SessionRecord → Bool}
    {set : SessionRecord → SessionRecord} {log' : List (Registry.Entry GrantedSession)}
    (hid : ∀ row, (set row).id = row.id)
    (hhash : ∀ row, (set row).sessionTokenHash = row.sessionTokenHash)
    (hexpiry : ∀ row, (set row).expiresAt = row.expiresAt)
    (hrecords : Registry.Records grantedSession SessionRecord.revoked (Lapsed now)
      (Table.update selects set rows) log') :
    SessionsRecorded crypto now (Table.update selects set rows) log' := by
  constructor
  · intro row hmem
    rcases Table.mem_update_cases hmem with ⟨before, hbefore, _, rfl⟩ | ⟨hold, _⟩
    · rw [hhash, hid]
      exact h.hashes before hbefore
    · exact h.hashes row hold
  · rw [Table.map_update hhash]
    exact h.unique
  · rw [Table.map_update hid]
    exact h.ids
  · intro row hmem
    rcases Table.mem_update_cases hmem with ⟨before, hbefore, _, rfl⟩ | ⟨hold, _⟩
    · rw [hexpiry]
      exact h.expire before hbefore
    · exact h.expire row hold
  · exact hrecords

theorem revoke (hinjective : Function.Injective crypto.sha256)
    (h : SessionsRecorded crypto now rows log) {token : String} (updatedAt : String) :
    SessionsRecorded crypto now
      (Table.update (AuthState.liveSession (hashValue crypto token))
        (fun row => { row with revoked := true, updatedAt }) rows)
      (log ++ [.withdraw fun session => some token = some session.token]) := by
  refine h.update (fun _ => rfl) (fun _ => rfl) (fun _ => rfl) ?_
  refine h.records.withdraw (fun _ => rfl) (fun _ => rfl) fun row hmem => ?_
  have hhash : row.sessionTokenHash = hashValue crypto token ↔
      some token = some (grantedSession row).token := by
    rw [h.hashes row hmem, Option.some.injEq]
    constructor
    · exact fun heq => (Daemon.hashValue_injective hinjective heq).symm
    · exact fun heq => (congrArg (hashValue crypto) heq).symm
  simp only [AuthState.liveSession, hhash]

theorem expire_row (h : SessionsRecorded crypto now rows log) {row : SessionRecord} {expiry : Int64}
    (hmem : row ∈ rows) (hexpiry : row.expiresAt = some expiry) (hlapsed : expiry ≤ now) :
    SessionsRecorded crypto now
      (Table.update (fun other => other.id = row.id) (fun other => { other with revoked := true })
        rows) log := by
  refine h.update (fun _ => rfl) (fun _ => rfl) (fun _ => rfl) ?_
  refine h.records.lapse (fun _ => rfl) (fun _ => rfl) fun other hother hselected => ?_
  have hid : other.id = row.id := by simpa using hselected
  rw [Table.eq_of_key h.ids hother hmem hid]
  exact ⟨expiry, hexpiry, hlapsed⟩

theorem nodup_issued (h : SessionsRecorded crypto now rows log) : (Registry.issued log).Nodup := by
  refine List.Nodup.of_map (fun session => hashValue crypto session.token) ?_
  have hhashes : rows.map (fun row => hashValue crypto (grantedSession row).token) =
      rows.map SessionRecord.sessionTokenHash :=
    List.map_congr_left fun row hmem => (h.hashes row hmem).symm
  rw [← h.records.issued, List.map_map]
  exact hhashes ▸ h.unique

theorem eq_of_token (h : SessionsRecorded crypto now rows log) {session other : GrantedSession}
    (hsession : session ∈ Registry.issued log) (hother : other ∈ Registry.issued log)
    (htoken : session.token = other.token) : session = other := by
  rw [← h.records.issued] at hsession hother
  obtain ⟨row, hrow, rfl⟩ := List.mem_map.mp hsession
  obtain ⟨row', hrow', rfl⟩ := List.mem_map.mp hother
  have hhash : row.sessionTokenHash = row'.sessionTokenHash := by
    rw [h.hashes row hrow, h.hashes row' hrow']
    exact congrArg (hashValue crypto) htoken
  rw [Table.eq_of_key h.unique hrow hrow' hhash]

end SessionsRecorded

end Mizan.Auth
