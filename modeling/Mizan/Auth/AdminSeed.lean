import Mizan.Auth.Operations
import Mizan.Interleaving.Rely

namespace Mizan.Auth

open Interleaving

inductive AuthJob where
  | ensureAdminSeed (email password role : String)
  | register (payload : RegisterRequest)
  | login (payload : LoginRequest)
  deriving DecidableEq, Repr

inductive AuthAnswer where
  | seeded
  | registered (response : RegisterResponse)
  | loggedIn (response : LoginResponse)
  deriving DecidableEq, Repr

def AuthJob.program (crypto : Crypto) : AuthJob → AuthM AuthAnswer
  | .ensureAdminSeed email password role => do
      Auth.ensureAdminSeed crypto email password role
      pure .seeded
  | .register payload => do
      let response ← Auth.register crypto payload
      pure (.registered response)
  | .login payload => do
      let response ← Auth.login crypto payload
      pure (.loggedIn response)

def ADMIN : String := "admin"

abbrev AuthConfig :=
  Config AuthCommand AuthCommand.Response (Except AppError AuthAnswer) AuthState

def programs (crypto : Crypto) (jobs : Nat → AuthJob) (t : Nat) :
    Prog AuthCommand AuthCommand.Response (Except AppError AuthAnswer) :=
  ((jobs t).program crypto).run

-- A run of `ensure_admin_seed` that has begun was configured with this email and password.
def Configured (crypto : Crypto) (jobs : Nat → AuthJob) (email password : String)
    (s : AuthState) : Prop :=
  ∃ t ∈ s.begun, ∃ written role, jobs t = .ensureAdminSeed written password role ∧
    normalizeEmail crypto written = email

def HashConfigured (crypto : Crypto) (jobs : Nat → AuthJob) (user : UserRecord)
    (s : AuthState) : Prop :=
  ∃ password salt, user.passwordHash = crypto.bcryptHash salt password ∧
    Configured crypto jobs user.email password s

-- Nobody is an admin under a password that was not configured for the account.
def AdminsConfigured (crypto : Crypto) (jobs : Nat → AuthJob) (s : AuthState) : Prop :=
  ∀ user ∈ s.users, user.role = ADMIN → HashConfigured crypto jobs user s

-- An account that a seed run makes an admin has a password that was configured for it.
def PromotesSeeded (crypto : Crypto) (jobs : Nat → AuthJob) (action : Action AuthChoice)
    (config : AuthConfig) : Prop :=
  ∀ t choice id next, action = .call t choice →
    config.threads t = some (.call (.updateRole id ADMIN) next) →
      ∀ user ∈ config.state.users, user.id = id → HashConfigured crypto jobs user config.state

section Steps

variable {crypto : Crypto} {jobs : Nat → AuthJob} {s s' : AuthState} {t : Nat}

theorem Configured.mono {email password : String} (h : Configured crypto jobs email password s)
    (hbegun : s.begun ⊆ s'.begun) : Configured crypto jobs email password s' := by
  obtain ⟨u, hu, hjob⟩ := h
  exact ⟨u, hbegun hu, hjob⟩

theorem HashConfigured.mono {user : UserRecord} (h : HashConfigured crypto jobs user s)
    (hbegun : s.begun ⊆ s'.begun) : HashConfigured crypto jobs user s' := by
  obtain ⟨password, salt, hhash, hconfigured⟩ := h
  exact ⟨password, salt, hhash, hconfigured.mono hbegun⟩

theorem AdminsConfigured.mono (h : AdminsConfigured crypto jobs s) (husers : s'.users = s.users)
    (hbegun : s.begun ⊆ s'.begun) : AdminsConfigured crypto jobs s' := by
  intro user hmem hrole
  rw [husers] at hmem
  exact (h user hmem hrole).mono hbegun

def AuthCommand.writesUsers : AuthCommand → Bool
  | .insertUser _ | .updateRole .. => true
  | _ => false

theorem exec_users {c : AuthCommand} {choice : AuthChoice} {response : c.Response}
    (hc : c.writesUsers = false) (h : AuthState.exec crypto c choice s = (response, s')) :
    s'.users = s.users ∧ s'.begun = s.begun := by
  have hsame : s.users = s.users ∧ s.begun = s.begun := ⟨rfl, rfl⟩
  cases c with
  | insertUser row => cases hc
  | updateRole id role => cases hc
  | nowV7 | nowUtcEpochSeconds =>
      cases h
      exact ⟨rfl, rfl⟩
  | insertSession row =>
      obtain ⟨_, rfl⟩ | ⟨_, hinserted⟩ := guarded_cases h
      · exact ⟨rfl, rfl⟩
      · exact of_reply hsame ⟨rfl, rfl⟩ hinserted
  | insertApiKey row =>
      obtain ⟨_, rfl⟩ | ⟨_, hinserted⟩ := guarded_cases h
      · exact ⟨rfl, rfl⟩
      · exact of_reply hsame ⟨rfl, rfl⟩ hinserted
  | findUser email => exact of_reply hsame hsame h
  | revokeSession tokenHash updatedAt =>
      exact of_reply hsame ⟨rfl, rfl⟩ h
  | selectSession tokenHash => exact of_reply hsame hsame h
  | expireSession id => exact of_reply hsame ⟨rfl, rfl⟩ h
  | revokeApiKey id userId updatedAt =>
      exact of_reply hsame ⟨rfl, rfl⟩ h
  | selectApiKey keyHash => exact of_reply hsame hsame h
  | bcryptHash password => exact of_reply hsame hsame h
  | joinVerification => exact of_reply hsame hsame h

theorem AdminsConfigured.begin (h : AdminsConfigured crypto jobs s) (t : Nat) :
    AdminsConfigured crypto jobs (s.begin t) :=
  h.mono rfl (List.subset_cons_self t s.begun)

theorem AdminsConfigured.insertUser (h : AdminsConfigured crypto jobs s) {row : UserRecord}
    (hrow : row.role = ADMIN → HashConfigured crypto jobs row s) {choice : AuthChoice}
    {response : Except String Nat}
    (hexec : AuthState.exec crypto (.insertUser row) choice s = (response, s')) :
    AdminsConfigured crypto jobs s' ∧ s'.begun = s.begun := by
  have hinserted : AdminsConfigured crypto jobs { s with users := s.users ++ [row] } := by
    intro user hmem hrole
    rcases List.mem_append.mp hmem with hold | hnew
    · exact (h user hold hrole).mono (List.Subset.refl _)
    · obtain rfl := List.mem_singleton.mp hnew
      exact (hrow hrole).mono (List.Subset.refl _)
  obtain ⟨_, rfl⟩ | ⟨_, hfresh⟩ := guarded_cases hexec
  · exact ⟨h, rfl⟩
  obtain ⟨_, rfl⟩ | ⟨_, hrow⟩ := guarded_cases hfresh
  · exact ⟨h, rfl⟩
  obtain ⟨_, rfl⟩ | ⟨_, _, rfl | rfl⟩ := reply_cases hrow
  · exact ⟨hinserted, rfl⟩
  · exact ⟨h, rfl⟩
  · exact ⟨hinserted, rfl⟩

theorem AdminsConfigured.updateRole (h : AdminsConfigured crypto jobs s) {id : Uuid} {role : String}
    (hpromoted : role = ADMIN →
      ∀ user ∈ s.users, user.id = id → HashConfigured crypto jobs user s)
    {choice : AuthChoice} {response : Except String Nat}
    (hexec : AuthState.exec crypto (.updateRole id role) choice s = (response, s')) :
    AdminsConfigured crypto jobs s' ∧ s'.begun = s.begun := by
  have hupdated : AdminsConfigured crypto jobs (s.updateRole id role) := by
    intro user hmem hrole
    obtain ⟨before, hbefore, hid, rfl⟩ | ⟨hold, _⟩ := Table.mem_update_cases hmem
    · have hid : before.id = id := by simpa using hid
      obtain ⟨password, salt, hhash, hconfigured⟩ := hpromoted hrole before hbefore hid
      exact ⟨password, salt, hhash, hconfigured⟩
    · exact h user hold hrole
  obtain ⟨_, rfl⟩ | ⟨_, _, rfl | rfl⟩ := reply_cases hexec
  · exact ⟨hupdated, rfl⟩
  · exact ⟨h, rfl⟩
  · exact ⟨hupdated, rfl⟩

end Steps

def seedProtocol (crypto : Crypto) (jobs : Nat → AuthJob) :
    Protocol (AuthState.system crypto) where
  inv := AdminsConfigured crypto jobs
  rely _ s s' := s.begun ⊆ s'.begun
  fresh _ _ := True
  admits _ c _ s := ∀ id, c = .updateRole id ADMIN → ∀ user ∈ s.users, user.id = id →
    HashConfigured crypto jobs user s
  admitsEnv _ _ := True
  rely_refl _ s := List.Subset.refl s.begun
  rely_trans := List.Subset.trans
  fresh_rely _ _ := trivial
  env_keeps hinv _ henv := by
    cases henv
    exact ⟨hinv.mono rfl (List.Subset.refl _), fun _ => List.Subset.refl _⟩

section Programs

variable {crypto : Crypto} {jobs : Nat → AuthJob} {s : AuthState} {t : Nat} {α : Type}

-- One command: what it answers, and that nobody becomes an admin who should not.
theorem statement_spec {c : AuthCommand} {result : c.Response → Except AppError α}
    {post : α → AuthState → Prop}
    (hpost : ∀ value, (seedProtocol crypto jobs).Stable t (post value))
    (h : ∀ s choice response s', AdminsConfigured crypto jobs (s.begin t) →
      (∀ id, c = .updateRole id ADMIN → ∀ user ∈ s.users, user.id = id →
        HashConfigured crypto jobs user s) →
      AuthState.exec crypto c choice (s.begin t) = (response, s') →
      (AdminsConfigured crypto jobs s' ∧ s'.begun = (s.begin t).begun) ∧
        ∀ value, result response = .ok value → post value s') :
    (seedProtocol crypto jobs).ewp t (Prog.perform c result) post (fun _ _ => True) s := by
  refine @Protocol.ewp_answered _ _ _ _ _ _ _ (seedProtocol crypto jobs) t c result
    (fun _ => True) post Protocol.stable_true hpost
    (fun s₁ choice response s₂ hinv _ hadmits hexec => ?_) s trivial
  have hinv : AdminsConfigured crypto jobs s₁ := hinv
  obtain ⟨⟨hinv', hbegun⟩, hresult⟩ :=
    h s₁ choice response s₂ (hinv.begin t) hadmits (Option.some.inj hexec)
  have hrely : s₁.begun ⊆ s₂.begun := by
    rw [hbegun]
    exact List.subset_cons_self t s₁.begun
  exact ⟨⟨hinv', fun _ _ => hrely⟩, hresult⟩

-- A command that does not touch the users, and what is known of its answer.
theorem answer_spec {c : AuthCommand} (hc : c.writesUsers = false)
    {result : c.Response → Except AppError α} {post : α → AuthState → Prop}
    (hpost : ∀ value, (seedProtocol crypto jobs).Stable t (post value))
    (h : ∀ s choice response s', AdminsConfigured crypto jobs s →
      AuthState.exec crypto c choice s = (response, s') → ∀ value,
        result response = .ok value → post value s') :
    (seedProtocol crypto jobs).ewp t (Prog.perform c result) post (fun _ _ => True) s := by
  refine statement_spec hpost fun s₁ choice response s₂ hinv _ hexec => ?_
  obtain ⟨husers, hbegun⟩ := exec_users hc hexec
  refine ⟨⟨hinv.mono husers ?_, hbegun⟩, h _ choice response s₂ hinv hexec⟩
  rw [hbegun]
  exact List.Subset.refl _

-- Such a command leaves what is known of the seed runs.
theorem keep_spec {c : AuthCommand} (hc : c.writesUsers = false)
    {result : c.Response → Except AppError α} {known : AuthState → Prop}
    (hknown : ∀ s s', known s → s.begun ⊆ s'.begun → known s') (hs : known s) :
    (seedProtocol crypto jobs).ewp t (Prog.perform c result) (fun _ => known) (fun _ _ => True)
      s := by
  refine @Protocol.ewp_answered _ _ _ _ _ _ _ (seedProtocol crypto jobs) t c result known
    (fun _ => known) (fun h hbegun _ => hknown _ _ h hbegun)
    (fun _ _ _ h hbegun _ => hknown _ _ h hbegun)
    (fun s₁ choice response s₂ hinv hs₁ _ hexec => ?_) s hs
  obtain ⟨husers, hbegun⟩ := exec_users hc (Option.some.inj hexec)
  have hrely : s₁.begun ⊆ s₂.begun := by
    rw [hbegun]
    exact List.subset_cons_self t s₁.begun
  have hinv : AdminsConfigured crypto jobs s₁ := hinv
  exact ⟨⟨hinv.mono husers hrely, fun _ _ => hrely⟩, fun _ _ => hknown _ _ hs₁ hrely⟩

theorem pass_spec {c : AuthCommand} (hc : c.writesUsers = false)
    {result : c.Response → Except AppError α} :
    (seedProtocol crypto jobs).ewp t (Prog.perform c result) (fun _ _ => True) (fun _ _ => True)
      s :=
  keep_spec hc (fun _ _ _ _ => trivial) trivial

theorem described_ok {words : String} {response : Except String α} {value : α}
    (h : described words response = .ok value) : response = .ok value := by
  cases response with
  | ok result => exact congrArg Except.ok (Except.ok.inj h)
  | error error => cases h

-- The password that the account was given, as far as it makes somebody an admin.
def FoundConfigured (crypto : Crypto) (jobs : Nat → AuthJob) (email : String)
    (found : Option DbUser) (s : AuthState) : Prop :=
  ∀ user, found = some user → user.role = ADMIN → ∃ password salt,
    user.passwordHash = crypto.bcryptHash salt password ∧ Configured crypto jobs email password s

theorem FoundConfigured.mono {email : String} {found : Option DbUser} {s s' : AuthState}
    (h : FoundConfigured crypto jobs email found s) (hbegun : s.begun ⊆ s'.begun) :
    FoundConfigured crypto jobs email found s' := by
  intro user huser hrole
  obtain ⟨password, salt, hhash, hconfigured⟩ := h user huser hrole
  exact ⟨password, salt, hhash, hconfigured.mono hbegun⟩

theorem findUserByEmail_spec (email : String) :
    (seedProtocol crypto jobs).ewp t (findUserByEmail email) (FoundConfigured crypto jobs email)
      (fun _ _ => True) s := by
  refine answer_spec rfl (fun found s s' h hbegun _ => h.mono hbegun)
    (fun s choice response s' hinv hexec found hfound user huser hrole => ?_)
  obtain ⟨hresponse, rfl⟩ | ⟨error, hresponse, _⟩ := reply_cases hexec
  · rw [hresponse] at hfound
    rw [huser] at hfound
    obtain ⟨row, hrow, hmapped⟩ := Option.map_eq_some_iff.mp (Except.ok.inj hfound)
    subst hmapped
    have hmem := List.mem_of_find?_eq_some hrow
    have hemail : row.email = email := by simpa using List.find?_some hrow
    obtain ⟨password, salt, hhash, hconfigured⟩ := hinv row hmem hrole
    rw [hemail] at hconfigured
    exact ⟨password, salt, hhash, hconfigured⟩
  · rw [hresponse] at hfound
    cases hfound

theorem bcryptHash_spec (password words : String) :
    (seedProtocol crypto jobs).ewp t (Prog.perform (.bcryptHash password) (described words))
      (fun hashed _ => ∃ salt, hashed = crypto.bcryptHash salt password) (fun _ _ => True) s := by
  refine answer_spec rfl (fun _ _ _ h _ _ => h)
    fun s choice response s' _ hexec hashed hhashed => ?_
  have hok := described_ok hhashed
  obtain ⟨hresponse, _⟩ | ⟨error, hresponse, _⟩ := reply_cases hexec
  · exact ⟨choice.salt, Except.ok.inj (hok.symm.trans hresponse)⟩
  · cases hok.symm.trans hresponse

theorem insertUser_spec {row : UserRecord} {result : Except String Nat → Except AppError α}
    (hrow : row.role = ADMIN → ∀ s, t ∈ s.begun → HashConfigured crypto jobs row s) :
    (seedProtocol crypto jobs).ewp t (Prog.perform (.insertUser row) result) (fun _ _ => True)
      (fun _ _ => True) s := by
  refine statement_spec (fun _ => Protocol.stable_true) fun s₁ choice response s₂ hinv _ hexec => ?_
  have hbegun : t ∈ (s₁.begin t).begun := List.mem_cons_self
  exact ⟨hinv.insertUser (fun hrole => hrow hrole _ hbegun) hexec, fun _ _ => trivial⟩

theorem createUser_spec {email password role : String}
    (hjob : role = ADMIN → ∃ written, jobs t = .ensureAdminSeed written password role ∧
      normalizeEmail crypto written = email) :
    (seedProtocol crypto jobs).ewp t (createUser crypto email password role) (fun _ _ => True)
      (fun _ _ => True) s := by
  refine Protocol.ewp_seq (bcryptHash_spec password _) (fun _ _ _ => trivial)
    fun hashed s₁ _ hhashed => ?_
  obtain ⟨salt, hhash⟩ := hhashed
  have hnow : (seedProtocol crypto jobs).ewp t unixTimestampString (fun _ _ => True)
      (fun _ _ => True) s₁ :=
    Protocol.ewp_seq (pass_spec rfl) (fun _ _ _ => trivial) fun _ _ _ _ =>
      Protocol.ewp_pure fun _ _ _ => trivial
  refine Protocol.ewp_seq hnow (fun _ _ _ => trivial) fun now s₂ _ _ => ?_
  refine Protocol.ewp_seq (pass_spec rfl) (fun _ _ _ => trivial) fun id s₃ _ _ => ?_
  refine Protocol.ewp_seq (insertUser_spec fun hrole s hbegun => ?_) (fun _ _ _ => trivial)
    fun affected s₄ _ _ => ?_
  · obtain ⟨written, hseed, hemail⟩ := hjob hrole
    exact ⟨password, salt, hhash, t, hbegun, written, role, hseed, hemail⟩
  · split
    · exact Protocol.ewp_throw fun _ _ _ => trivial
    · exact Protocol.ewp_pure fun _ _ _ => trivial

theorem promote_spec (user : DbUser) (role words : String) :
    (seedProtocol crypto jobs).ewp t (promote user role words) (fun _ _ => True)
      (fun _ _ => True) s := by
  rw [promote]
  split
  · refine Protocol.ewp_seq (statement_spec (fun _ => Protocol.stable_true)
      fun s₁ choice response s₂ hinv hadmits hexec => ?_) (fun _ _ _ => trivial)
      fun _ s₁ _ _ => Protocol.ewp_pure fun _ _ _ => trivial
    refine ⟨hinv.updateRole (fun hrole row hmem hid => ?_) hexec, fun _ _ => trivial⟩
    have hadmitted := hadmits user.id (by rw [hrole]) row hmem hid
    exact hadmitted.mono (List.subset_cons_self t s₁.begun)
  · exact Protocol.ewp_pure fun _ _ _ => trivial

theorem createAdmin_spec {email password role : String}
    (hjob : ∃ written, jobs t = .ensureAdminSeed written password role ∧
      normalizeEmail crypto written = email) :
    (seedProtocol crypto jobs).ewp t (createAdmin crypto email password role) (fun _ _ => True)
      (fun _ _ => True) s := by
  have hcreated := @createUser_spec crypto jobs s t email password role fun _ => hjob
  refine Protocol.wp_bind (Protocol.wp_mono (fun result s₁ _ _ => ?_) hcreated)
  cases result with
  | ok response => exact fun _ _ _ => trivial
  | error error =>
      simp only
      split
      · refine Protocol.ewp_seq (findUserByEmail_spec email) (fun _ _ _ => trivial)
          fun found s₂ _ _ => ?_
        cases found with
        | none => exact Protocol.ewp_throw fun _ _ _ => trivial
        | some user => exact promote_spec user role _
      · exact fun _ _ _ => trivial

theorem ensureAdminSeed_spec {email password role : String}
    (hjob : jobs t = .ensureAdminSeed email password role) :
    (seedProtocol crypto jobs).ewp t (ensureAdminSeed crypto email password role)
      (fun _ _ => True) (fun _ _ => True) s := by
  rw [ensureAdminSeed]
  split
  · exact Protocol.ewp_throw fun _ _ _ => trivial
  · refine Protocol.ewp_seq (findUserByEmail_spec _) (fun _ _ _ => trivial) fun found s₁ _ _ => ?_
    cases found with
    | none => exact createAdmin_spec ⟨email, hjob, rfl⟩
    | some user => exact promote_spec user role _

theorem register_spec (payload : RegisterRequest) :
    (seedProtocol crypto jobs).ewp t (register crypto payload) (fun _ _ => True)
      (fun _ _ => True) s := by
  rw [register]
  split
  · exact Protocol.ewp_throw fun _ _ _ => trivial
  · exact createUser_spec fun hrole => absurd hrole (by decide)

theorem createSession_spec (userId : Uuid) {known : AuthState → Prop}
    (hknown : ∀ s s', known s → s.begun ⊆ s'.begun → known s') (hs : known s) :
    (seedProtocol crypto jobs).ewp t (createSession crypto userId) (fun _ => known)
      (fun _ _ => True) s := by
  refine Protocol.ewp_seq (keep_spec rfl hknown hs) (fun _ _ _ => trivial) fun id s₁ _ hs₁ => ?_
  refine Protocol.ewp_seq (keep_spec rfl hknown hs₁) (fun _ _ _ => trivial) fun now s₂ _ hs₂ => ?_
  refine Protocol.ewp_seq (keep_spec rfl hknown hs₂) (fun _ _ _ => trivial) fun rows s₃ _ hs₃ => ?_
  split
  · exact Protocol.ewp_throw fun _ _ _ => trivial
  · exact Protocol.ewp_pure fun s₄ hbegun _ => hknown _ _ hs₃ hbegun

theorem verifyPassword_spec (password hash : String) {known : AuthState → Prop}
    (hknown : ∀ s s', known s → s.begun ⊆ s'.begun → known s') (hs : known s) :
    (seedProtocol crypto jobs).ewp t (verifyPassword crypto password hash)
      (fun verified s => crypto.bcryptVerify password hash = .ok verified ∧ known s)
      (fun _ _ => True) s := by
  refine Protocol.ewp_seq (keep_spec rfl hknown hs) (fun _ _ _ => trivial) fun _ s₁ _ hs₁ => ?_
  refine Protocol.ewp_mk fun s₂ hbegun _ => ?_
  cases hverify : crypto.bcryptVerify password hash with
  | ok verified => exact ⟨rfl, hknown _ _ hs₁ hbegun⟩
  | error error => trivial

theorem login_spec (hbcrypt : ∀ salt password other,
    crypto.bcryptVerify other (crypto.bcryptHash salt password) = .ok true ↔ other = password)
    (payload : LoginRequest) :
    (seedProtocol crypto jobs).ewp t (login crypto payload)
      (fun response s => response.role = ADMIN →
        Configured crypto jobs (normalizeEmail crypto payload.email) payload.password s)
      (fun _ _ => True) s := by
  rw [login]
  split
  · exact Protocol.ewp_throw fun _ _ _ => trivial
  refine Protocol.ewp_seq (findUserByEmail_spec _) (fun _ _ _ => trivial)
    fun found s₁ _ hfound => ?_
  cases found with
  | none => exact Protocol.ewp_throw fun _ _ _ => trivial
  | some user =>
      refine Protocol.ewp_seq (verifyPassword_spec payload.password user.passwordHash
        (fun _ _ => FoundConfigured.mono) hfound)
          (fun _ _ _ => trivial) fun verified s₂ _ hverified => ?_
      obtain ⟨hverify, hs₂⟩ := hverified
      split
      · exact Protocol.ewp_throw fun _ _ _ => trivial
      · rename_i htrue
        have hverified : verified = true := by simpa using htrue
        refine Protocol.ewp_seq (createSession_spec user.id (fun _ _ => FoundConfigured.mono) hs₂)
          (fun _ _ _ => trivial) fun session s₃ _ hs₃ => ?_
        refine Protocol.ewp_pure fun s₄ hbegun _ hrole => ?_
        obtain ⟨password, salt, hhash, hconfigured⟩ := hs₃.mono hbegun user rfl hrole
        rw [hverified, hhash] at hverify
        rw [(hbcrypt salt password payload.password).mp hverify]
        exact hconfigured

end Programs

-- What the login of thread `t` proves about the password that it was made with.
def AdminLogin (crypto : Crypto) (jobs : Nat → AuthJob) (t : Nat)
    (answer : Except AppError AuthAnswer) (s : AuthState) : Prop :=
  ∀ payload response, jobs t = .login payload → answer = .ok (.loggedIn response) →
    response.role = ADMIN →
      Configured crypto jobs (normalizeEmail crypto payload.email) payload.password s

-- A program that proves nothing about a login.
theorem silent_spec {crypto : Crypto} {jobs : Nat → AuthJob} {t : Nat} {s : AuthState} {α : Type}
    (hjob : ∀ payload, jobs t ≠ .login payload) {program : AuthM α} {answer : α → AuthAnswer}
    (h : (seedProtocol crypto jobs).ewp t program (fun _ _ => True) (fun _ _ => True) s) :
    (seedProtocol crypto jobs).wp t (do let value ← program; pure (answer value) :
      AuthM AuthAnswer).run (AdminLogin crypto jobs t) s := by
  have hanswered : (seedProtocol crypto jobs).ewp t
      (do let value ← program; pure (answer value) : AuthM AuthAnswer) (fun _ _ => True)
      (fun _ _ => True) s :=
    Protocol.ewp_seq h (fun _ _ h => h) fun _ _ _ _ => Protocol.ewp_pure fun _ _ _ => trivial
  exact Protocol.wp_mono (fun _ _ _ _ payload _ hlogin => absurd hlogin (hjob payload)) hanswered

theorem program_spec {crypto : Crypto} (hbcrypt : ∀ salt password other,
    crypto.bcryptVerify other (crypto.bcryptHash salt password) = .ok true ↔ other = password)
    (jobs : Nat → AuthJob) (t : Nat) (s : AuthState) :
    (seedProtocol crypto jobs).wp t (programs crypto jobs t) (AdminLogin crypto jobs t) s := by
  rw [programs]
  cases hjob : jobs t with
  | ensureAdminSeed email password role =>
      exact silent_spec (by simp [hjob]) (ensureAdminSeed_spec hjob)
  | register payload => exact silent_spec (by simp [hjob]) (register_spec payload)
  | login payload =>
      have hlogin := @login_spec crypto jobs s t hbcrypt payload
      refine Protocol.wp_mono (fun answer s _ hanswer payload' response hpayload hok hrole => ?_)
        (Protocol.ewp_seq hlogin (fun _ _ h => h) fun response s₁ _ hresponse =>
          @Protocol.ewp_pure _ _ _ _ _ _ _ _ _ (AuthAnswer.loggedIn response)
            (fun answer s => ∀ response, answer = .loggedIn response → response.role = ADMIN →
              Configured crypto jobs (normalizeEmail crypto payload.email) payload.password s)
            _ _ fun s₂ hbegun _ response' hanswer hrole => ?_)
      · cases hjob.symm.trans hpayload
        subst hok
        exact hanswer response rfl hrole
      · cases hanswer
        exact (hresponse hrole).mono hbegun

-- An admin logs in with a password configured for the account, wherever the seed runs only make
-- those accounts admins that have one.
theorem admin_login_was_configured (crypto : Crypto) (hbcrypt : ∀ salt password other,
      crypto.bcryptVerify other (crypto.bcryptHash salt password) = .ok true ↔ other = password)
    (jobs : Nat → AuthJob) (nowSeconds : Nat) (actions : List (Action AuthChoice))
    (config : AuthConfig)
    (hrun : (AuthState.system crypto).run (programs crypto jobs) actions
      (System.initial (.start nowSeconds)) = some config)
    (hmeets : (AuthState.system crypto).Meets (programs crypto jobs) (PromotesSeeded crypto jobs)
      actions (System.initial (.start nowSeconds)))
    (t : Nat) (payload : LoginRequest) (response : LoginResponse)
    (hjob : jobs t = .login payload)
    (hthread : config.threads t = some (.ret (.ok (.loggedIn response))))
    (hadmin : response.role = ADMIN) :
    Configured crypto jobs (normalizeEmail crypto payload.email) payload.password config.state := by
  have hallowed : (AuthState.system crypto).Meets (programs crypto jobs)
      (seedProtocol crypto jobs).Allowed actions (System.initial (.start nowSeconds)) := by
    refine System.Meets.imp _ _ (fun action config h => ?_) actions _ hmeets
    cases action with
    | spawn u => trivial
    | env choice => trivial
    | call u choice =>
        intro c next hcall id hc
        subst hc
        exact h u choice id next rfl hcall
  have hinitial : AdminsConfigured crypto jobs (.start nowSeconds) := by
    intro user hmem
    cases hmem
  have hgood := Protocol.good_run _ (AdminLogin crypto jobs)
    (fun t s _ _ => program_spec hbcrypt jobs t s) actions hrun hallowed
    (Protocol.good_initial _ hinitial fun _ => trivial)
  exact hgood.returned hthread payload response hjob rfl hadmin

def samplePassword : String := "hunter2"
def sampleSalt : String := "abcdefghijklmnopqrstuu"
def sampleHash : String := "$2b$12$abcdefghijklmnopqrstuuCEzSpXJ42scy/MOdv14p0ieHzvDXISW"

-- The crates on the inputs of the runs below.
def sampleCrypto : Crypto where
  toLowercase text := text
  sha256 := Daemon.tabulated
    [(Daemon.bytes "mizan_sess_00000000-0000-0000-0000-000000000009",
      Daemon.digestOf 0x96fb67b24562da71472f59d3f926a6b0774ce666b5c7d5a8e6d5b661da9d351d)]
  bcryptHash salt password :=
    if salt = sampleSalt ∧ password = samplePassword then sampleHash else "$2x$" ++ password
  bcryptVerify password hash :=
    .ok (if hash = sampleHash then password = samplePassword else hash = "$2x$" ++ password)

theorem sampleCrypto_verifies (salt password other : String) :
    sampleCrypto.bcryptVerify other (sampleCrypto.bcryptHash salt password) = .ok true ↔
      other = password := by
  have hother : ∀ text : String, "$2x$" ++ text ≠ sampleHash := by
    intro text h
    have hstarts := congrArg (fun text => text.toList.take 3) h
    rw [String.toList_append] at hstarts
    exact absurd hstarts (by simp [sampleHash])
  simp only [sampleCrypto]
  by_cases hsample : salt = sampleSalt ∧ password = samplePassword
  · simp [hsample]
  · rw [if_neg hsample, if_neg (hother password)]
    simp [String.append_right_inj, eq_comm]

def seed : AuthJob := .ensureAdminSeed "admin@mizan.local" samplePassword ADMIN

-- The seed creates the account and its owner logs in.
def seededJobs : Nat → AuthJob
  | 0 => seed
  | _ => .login { email := "admin@mizan.local", password := samplePassword }

-- Somebody registers the account under a password of their own before the seed runs.
def squattedJobs : Nat → AuthJob
  | 0 => .register { email := "admin@mizan.local", password := samplePassword }
  | 1 => .ensureAdminSeed "admin@mizan.local" "configured" ADMIN
  | _ => .login { email := "admin@mizan.local", password := samplePassword }

def sampleChoice : AuthChoice := { uuid := ⟨9⟩, salt := sampleSalt }

def callsOf (t calls : Nat) : List (Action AuthChoice) :=
  .spawn t :: List.replicate calls (.call t sampleChoice)

def sampleLogin : LoginResponse :=
  { accessToken := "mizan_sess_00000000-0000-0000-0000-000000000009", tokenType := "Bearer"
    expiresAt := "1702592000", userId := ⟨9⟩, role := ADMIN }

def promotesNobody : Action AuthChoice → AuthConfig → Bool
  | .call t _, config =>
      match config.threads t with
      | some (.call (.updateRole ..) _) => false
      | _ => true
  | _, _ => true

theorem promotesNobody_sound {crypto : Crypto} {jobs : Nat → AuthJob}
    {action : Action AuthChoice} {config : AuthConfig}
    (h : promotesNobody action config = true) : PromotesSeeded crypto jobs action config := by
  intro t choice id next haction hthread
  subst haction
  simp [promotesNobody, hthread] at h

theorem seeded_admin_logs_in : ∃ config,
    (AuthState.system sampleCrypto).run (programs sampleCrypto seededJobs)
      (callsOf 0 5 ++ callsOf 1 5) (System.initial (.start 1700000000)) = some config ∧
    config.threads 1 = some (.ret (.ok (.loggedIn sampleLogin))) ∧
    Configured sampleCrypto seededJobs "admin@mizan.local" samplePassword config.state := by
  have hreturned : (AuthState.system sampleCrypto).returned (programs sampleCrypto seededJobs)
      (callsOf 0 5 ++ callsOf 1 5) (System.initial (.start 1700000000)) 1 =
        some (.ok (.loggedIn sampleLogin)) := by decide +kernel
  obtain ⟨config, hrun, hthread⟩ := System.exists_run_of_returned _ _ hreturned
  have hchecks : (AuthState.system sampleCrypto).checks (programs sampleCrypto seededJobs)
      promotesNobody (callsOf 0 5 ++ callsOf 1 5) (System.initial (.start 1700000000)) = true := by
    decide +kernel
  have hmeets : (AuthState.system sampleCrypto).Meets (programs sampleCrypto seededJobs)
      (PromotesSeeded sampleCrypto seededJobs) (callsOf 0 5 ++ callsOf 1 5)
      (System.initial (.start 1700000000)) :=
    System.Meets.imp _ _ (fun _ _ => promotesNobody_sound) _ _
      (System.meets_of_checks _ _ hchecks)
  have hconfigured := admin_login_was_configured sampleCrypto sampleCrypto_verifies seededJobs
    1700000000 _ config hrun hmeets 1 _ sampleLogin rfl hthread rfl
  have hemail : normalizeEmail sampleCrypto "admin@mizan.local" = "admin@mizan.local" := by
    decide +kernel
  rw [hemail] at hconfigured
  exact ⟨config, hrun, hthread, hconfigured⟩

theorem squatter_logs_in_as_admin : ∃ config,
    (AuthState.system sampleCrypto).run (programs sampleCrypto squattedJobs)
      (callsOf 0 4 ++ callsOf 1 2 ++ callsOf 2 5) (System.initial (.start 1700000000)) =
        some config ∧
    config.threads 2 = some (.ret (.ok (.loggedIn sampleLogin))) ∧ sampleLogin.role = ADMIN ∧
    ¬Configured sampleCrypto squattedJobs "admin@mizan.local" samplePassword config.state := by
  have hreturned : (AuthState.system sampleCrypto).returned (programs sampleCrypto squattedJobs)
      (callsOf 0 4 ++ callsOf 1 2 ++ callsOf 2 5) (System.initial (.start 1700000000)) 2 =
        some (.ok (.loggedIn sampleLogin)) := by decide +kernel
  obtain ⟨config, hrun, hthread⟩ := System.exists_run_of_returned _ _ hreturned
  refine ⟨config, hrun, hthread, rfl, ?_⟩
  rintro ⟨t, _, written, role, hjob, _⟩
  match t, hjob with
  | 1, hjob => exact absurd (AuthJob.ensureAdminSeed.inj hjob).2.1 (by decide)

end Mizan.Auth
