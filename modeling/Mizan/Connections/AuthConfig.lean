import Mizan.Core.Text
import Mizan.Json.Value

namespace Mizan.Connections

open Json (Codec Free Value)

def AUTH_MODE_API_KEY : String := "api_key"
def AUTH_MODE_SUBSCRIPTION_CLI : String := "subscription_cli"
def AUTH_MODE_BROWSER_SESSION : String := "browser_session"

def authModes : List String :=
  [AUTH_MODE_API_KEY, AUTH_MODE_SUBSCRIPTION_CLI, AUTH_MODE_BROWSER_SESSION]

def normalizeAuthMode (rawMode : Option String) : Except AppError String :=
  let mode := ((rawMode.map trim).filter (· ≠ "")).getD AUTH_MODE_API_KEY
  if mode ∈ authModes then .ok mode
  else .error (.invalidConfig "provider_connection.auth_mode"
    "auth_mode must be api_key, subscription_cli, or browser_session")

def FORBIDDEN_KEYS : List String := ["api_key", "access_token", "refresh_token", "password"]

def configError (message : String) : AppError :=
  .invalidConfig "provider_connection.auth_config_json" message

-- The members of the object that `as_object` finds.
def requireObject (config : Value) : Except AppError (List (String × Value)) :=
  match config.asObject with
  | some members => .ok members
  | none => .error (configError "auth_config_json must be a JSON object")

-- `contains_key` looks at the members of the object and at nothing that they hold.
def refuseSecrets (members : List (String × Value)) : Except AppError Unit :=
  if ∃ forbiddenKey ∈ FORBIDDEN_KEYS, forbiddenKey ∈ members.map Prod.fst then
    .error (configError
      "auth_config_json must store references or non-secret metadata, not raw secrets")
  else .ok ()

def normalizeAuthConfig (codec : Codec) (authMode : String) (rawConfig : Option Value) :
    Except AppError (Option String) :=
  if authMode = AUTH_MODE_API_KEY then .ok none
  else match rawConfig with
  | none => .error (configError "auth_config_json is required for non-api provider auth modes")
  | some config => do
    let members ← requireObject config
    refuseSecrets members
    let text ← (codec.toString config).mapError fun error =>
      configError s!"auth_config_json is not serializable: {error}"
    pure (some text)

-- An object with no secret among its own members.
def Plain : Value → Prop
  | .object members => ∀ name ∈ FORBIDDEN_KEYS, name ∉ members.map Prod.fst
  | _ => False

instance (config : Value) : Decidable (Plain config) := by
  unfold Plain
  cases config <;> infer_instance

section AuthConfig

variable {codec : Codec} {authMode : String} {config : Value}

theorem normalizeAuthConfig_object (codec : Codec) (members : List (String × Value))
    (hmode : authMode ≠ AUTH_MODE_API_KEY) :
    normalizeAuthConfig codec authMode (some (.object members)) =
      (refuseSecrets members).bind fun _ =>
      ((codec.toString (.object members)).mapError fun error =>
        configError s!"auth_config_json is not serializable: {error}").map some := by
  rw [normalizeAuthConfig, if_neg hmode]
  rfl

theorem normalizeAuthConfig_plain {text : String} (hmode : authMode ≠ AUTH_MODE_API_KEY)
    (hplain : Plain config) (htext : codec.toString config = .ok text) :
    normalizeAuthConfig codec authMode (some config) = .ok (some text) := by
  cases config with
  | object members =>
    have hrefuse : refuseSecrets members = .ok () := by
      rw [refuseSecrets, if_neg]
      rintro ⟨name, hname, hmem⟩
      exact hplain name hname hmem
    rw [normalizeAuthConfig_object codec members hmode, hrefuse, htext]
    rfl
  | _ => exact hplain.elim

theorem plain_of_normalizeAuthConfig {stored : Option String} (hmode : authMode ≠ AUTH_MODE_API_KEY)
    (hstored : normalizeAuthConfig codec authMode (some config) = .ok stored) : Plain config := by
  cases config with
  | object members =>
    intro name hname hmem
    rw [normalizeAuthConfig_object codec members hmode, refuseSecrets,
      if_pos ⟨name, hname, hmem⟩] at hstored
    cases hstored
  | _ =>
    rw [normalizeAuthConfig, if_neg hmode] at hstored
    cases hstored

-- An object below the one that is checked may still have a secret: the code keeps the rule exactly
-- where the object is refused, or where nothing below it has one and the reader keeps it.
theorem auth_config_keeps_out_secrets_iff (codec : Codec) (authMode : String) (config : Value)
    (hmode : authMode ≠ AUTH_MODE_API_KEY) (hcodec : codec.Faithful config) :
    (∀ stored, normalizeAuthConfig codec authMode (some config) = .ok stored →
        Free FORBIDDEN_KEYS config ∧
          ∃ text, stored = some text ∧ codec.fromStr text = .ok config) ↔
      ¬Plain config ∨
        (∀ members, config = .object members → ∀ name value, (name, value) ∈ members →
          Free FORBIDDEN_KEYS value) ∧ codec.Readable config := by
  obtain ⟨text, htext, hreadable⟩ := hcodec
  constructor
  · intro hrule
    by_cases hplain : Plain config
    · have hstored := normalizeAuthConfig_plain hmode hplain htext
      obtain ⟨hfree, text', htext', hback⟩ := hrule _ hstored
      cases htext'
      refine Or.inr ⟨?_, hreadable.mp hback⟩
      rintro members rfl
      exact (Json.free_object_iff.mp hfree).2
    · exact Or.inl hplain
  · intro hwhen stored hstored
    have hplain := plain_of_normalizeAuthConfig hmode hstored
    rw [normalizeAuthConfig_plain hmode hplain htext] at hstored
    cases hstored
    obtain ⟨hbelow, hread⟩ := hwhen.resolve_left (fun h => h hplain)
    refine ⟨?_, text, rfl, hreadable.mpr hread⟩
    cases config with
    | object members => exact Json.free_object_iff.mpr ⟨hplain, hbelow members rfl⟩
    | _ => exact hplain.elim

end AuthConfig

-- Writes and reads the text of one value.
def textCodec (config : Value) (text : String) : Codec where
  toString _ := .ok text
  fromStr input := if input = text then .ok config else .error "expected value at line 1 column 1"
  limit := 128
  reserved := ["$serde_json::private::RawValue"]

theorem textCodec_faithful {config : Value} {text : String}
    (hread : (textCodec config text).Readable config) : (textCodec config text).Faithful config :=
  ⟨text, rfl, fun _ => hread, fun _ => if_pos rfl⟩

def nestedConfig : Value :=
  .object [("account", .object [("access_token", .string "ya29")]), ("cli", .string "gemini")]

def nestedCodec : Codec :=
  textCodec nestedConfig
    "\x7b\"account\":\x7b\"access_token\":\"ya29\"\x7d,\"cli\":\"gemini\"\x7d"

-- The secret of the nested account is stored in clear.
theorem nested_secret_is_accepted :
    normalizeAuthConfig nestedCodec AUTH_MODE_SUBSCRIPTION_CLI (some nestedConfig) =
        .ok (some
          "\x7b\"account\":\x7b\"access_token\":\"ya29\"\x7d,\"cli\":\"gemini\"\x7d") ∧
      ¬Free FORBIDDEN_KEYS nestedConfig :=
  ⟨normalizeAuthConfig_plain (by decide) (by decide) rfl, by decide⟩

def referenceConfig : Value :=
  .object [("cli", .string "gemini"), ("scopes", .array [.string "read", .number (.posInt 1)])]

def referenceCodec : Codec :=
  textCodec referenceConfig "\x7b\"cli\":\"gemini\",\"scopes\":[\"read\",1]\x7d"

theorem referenceConfig_readable : referenceCodec.Readable referenceConfig := by
  refine ⟨by decide, fun inner hinner => ?_⟩
  rw [← Json.mem_parts_iff] at hinner
  simp only [referenceConfig, Value.parts, Json.partsOfMembers, Json.partsOfElements,
    List.mem_cons, List.cons_append, List.nil_append, List.append_nil, List.not_mem_nil,
    or_false] at hinner
  rcases hinner with rfl | rfl | rfl | rfl | rfl <;> simp [Codec.Keeps, referenceCodec, textCodec]

theorem reference_config_keeps_out_secrets : Free FORBIDDEN_KEYS referenceConfig ∧
    ∃ text, some "\x7b\"cli\":\"gemini\",\"scopes\":[\"read\",1]\x7d" = some text ∧
      referenceCodec.fromStr text = .ok referenceConfig :=
  (auth_config_keeps_out_secrets_iff referenceCodec AUTH_MODE_BROWSER_SESSION referenceConfig
    (by decide) (textCodec_faithful referenceConfig_readable)).mpr
      (Or.inr ⟨fun members hmembers name value hvalue => by
        cases hmembers
        rcases List.mem_cons.mp hvalue with hhead | htail
        · obtain ⟨rfl, rfl⟩ := Prod.mk.inj hhead
          decide
        · obtain ⟨rfl, rfl⟩ := Prod.mk.inj (List.mem_singleton.mp htail)
          decide, referenceConfig_readable⟩) _
      (normalizeAuthConfig_plain (by decide) (by decide) rfl)

end Mizan.Connections
