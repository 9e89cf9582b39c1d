import AdminPlatform.Services.Audit
import AdminPlatform.Services.Rbac

/-! # The auth service

`app/services/auth_service.py`: login, token refresh, logout, the resolution of the admin
behind a token, and the password reset. An admin has at most one session, which is the
refresh token whose `jti` the admin's row points to. An access token belongs to it through
its `rjti`.

What a request set on a loaded admin and did not save is lost with the request. -/

namespace AdminPlatform
open AdminPlatform.Lib

structure LoginRequest where
  email : String
  password : String

structure TokenResponse where
  accessToken : EncodedToken
  refreshToken : EncodedToken
  tokenType : String := "bearer"
  deriving DecidableEq

structure VerifyOtpRequest where
  email : String
  otp : String

structure UpdatePasswordRequest where
  email : String
  newPassword : String

namespace AuthService

/-! ## Issuing a session -/

/-- A token the platform has just made; to decode one that does not decode is an error of its
own. -/
def orJwtError {α : Type} : Option α → Db α
  | some a => return a
  | none => throw .jwt

def issueTokens (env : Env) (req : Request) (admin : PlatformAdmin) (permissions : List String) :
    Db (TokenResponse × String) := do
  let roles ← RbacService.rolesForAdmin admin.id
  let refreshToken := createRefreshToken env.settings req.now req.refreshJti admin.id
  let payload ← orJwtError (decodeToken req.now refreshToken)
  let accessToken ← orJwtError
    (createAccessToken env.settings req.now req.accessJti admin.id refreshToken permissions
      admin.email admin.username (RbacService.sorted roles))
  return ({ accessToken := accessToken, refreshToken := refreshToken }, payload.jti)

/-- `loaded` is the admin as read, `admin` as it is now. -/
def issueSession (env : Env) (req : Request) (loaded admin : PlatformAdmin)
    (permissions : List String) : Db TokenResponse := do
  let (token, refreshJti) ← issueTokens env req admin permissions
  let _ ← AuthRepository.saveAdmin loaded { admin with currentRefreshJti := some refreshJti }
  return token

/-! ## Login -/

/-- `admin.locked_until > now`. -/
def locked (now : Instant) (admin : PlatformAdmin) : Bool :=
  admin.lockedUntil.any fun lockedUntil => now < lockedUntil

/-- A lock that has run out is lifted, and the count starts again. -/
def liftLock (admin : PlatformAdmin) : PlatformAdmin :=
  if admin.lockedUntil.isSome then
    { admin with lockedUntil := none, failedLoginAttempts := 0 }
  else admin

/-- A wrong password is counted; the count that reaches the maximum locks the account. -/
def rejectPassword (env : Env) (req : Request) (loaded admin : PlatformAdmin) :
    Db TokenResponse := do
  let failedLoginAttempts := admin.failedLoginAttempts + 1
  if env.settings.maxFailedLoginAttempts ≤ failedLoginAttempts then
    let _ ← AuthRepository.saveAdmin loaded
      { admin with
        lockedUntil := some (req.now + Instant.minutes env.settings.lockoutMinutes)
        failedLoginAttempts := 0 }
    raise .accountLocked
  else
    let _ ← AuthRepository.saveAdmin loaded
      { admin with failedLoginAttempts := failedLoginAttempts }
    raise .invalidCredentials

def login (env : Env) (req : Request) (credentials : LoginRequest) : Db TokenResponse := do
  match ← AuthRepository.getAdminByEmail credentials.email with
  | none => raise .invalidCredentials
  | some loaded =>
      when (locked req.now loaded) (raise .accountLocked)
      let admin := liftLock loaded
      if env.bcrypt.verifyPassword credentials.password admin.hashedPassword then
        when (admin.status ≠ .active) (raise .accountInactive)
        let permissions ← RbacService.permissionsForAdmin admin.id
        issueSession env req loaded { admin with failedLoginAttempts := 0, lockedUntil := none }
          (RbacService.sorted permissions)
      else
        rejectPassword env req loaded admin

/-! ## The admin behind a token -/

def getAdminById (adminId : Uuid) : Db PlatformAdmin := do
  match ← AuthRepository.getAdminById adminId with
  | none => raise .authentication
  | some admin =>
      when (admin.status ≠ .active) (raise .accountInactive)
      return admin

/-- The session a token says it belongs to. -/
def presented (payload : TokenPayload) : Option String :=
  if payload.type = "access" then payload.rjti else some payload.jti

/-- Reject tokens that don't belong to the admin's current session. -/
def requireCurrentSession (admin : PlatformAdmin) (payload : TokenPayload) : Db Unit := do
  when (admin.currentRefreshJti = none ∨ payload.type ∉ ["access", "refresh"])
    (raise .authentication)
  when (presented payload ≠ admin.currentRefreshJti) (raise .authentication)

/-- Resolve and validate the admin behind a decoded token payload. -/
def getAdminFromPayload (payload : TokenPayload) : Db PlatformAdmin := do
  match payload.userId with
  | none => raise .authentication
  | some adminId =>
      let admin ← getAdminById adminId
      requireCurrentSession admin payload
      return admin

def refresh (env : Env) (req : Request) (refreshToken : EncodedToken) : Db TokenResponse := do
  match decodeToken req.now refreshToken with
  | none => raise .authentication
  | some data =>
      when (data.type ≠ "refresh") (raise .authentication)
      let admin ← getAdminFromPayload data
      let permissions ← RbacService.permissionsForAdmin admin.id
      issueSession env req admin admin (RbacService.sorted permissions)

/-- Clear the current-session pointer so no token for this admin validates. `held` is the
admin where the request has loaded it before. -/
def clearCurrentSession (payload : TokenPayload) (held : Option PlatformAdmin) : Db Unit := do
  match payload.userId with
  | none => raise .authentication
  | some adminId =>
      match ← AuthRepository.getAdminById adminId held with
      | none => raise .authentication
      | some admin =>
          let _ ← AuthRepository.saveAdmin admin { admin with currentRefreshJti := none }
          return ()

/-- End the current session so neither the access nor refresh token works again. -/
def logout (req : Request) (accessToken : EncodedToken) (held : Option PlatformAdmin := none) :
    Db Unit := do
  match decodeToken req.now accessToken with
  | none => raise .authentication
  | some payload =>
      when (payload.type ≠ "access") (raise .authentication)
      clearCurrentSession payload held

/-! ## Password reset -/

/-- Hardcoded until real OTP delivery is wired up. -/
def otpCode : String := "12345"

/-- Request an OTP, returning normally for unknown and inactive accounts. -/
def generateOtp (env : Env) (req : Request) (email : String) : Db Unit := do
  match (← AuthRepository.getAdminByEmail email).filter (fun a => a.status = .active) with
  | none => return ()
  | some _ =>
      let expiry := req.now + Instant.minutes env.settings.otpExpiryMinutes
      let window := Instant.minutes env.settings.otpThrottleWindowMinutes
      match ← OtpRepository.get email with
      | none =>
          drop (OtpRepository.saveNew
            { email := email, expiresAt := expiry, requestCount := 1
              windowStartedAt := req.now, verified := false })
      | some row =>
          if row.windowStartedAt + window ≤ req.now then
            drop (OtpRepository.save row
              { row with
                expiresAt := expiry, requestCount := 1, windowStartedAt := req.now
                verified := false })
          else if env.settings.otpMaxRequestsPerWindow ≤ row.requestCount then
            raise .otpThrottled
          else
            drop (OtpRepository.save row
              { row with
                requestCount := row.requestCount + 1, expiresAt := expiry, verified := false })

/-- Verify the OTP, with one failure for any invalid case. -/
def verifyOtp (req : Request) (payload : VerifyOtpRequest) : Db Unit := do
  let admin ← AuthRepository.getAdminByEmail payload.email
  when (!admin.any (fun a => a.status = .active) ∨ payload.otp ≠ otpCode) (raise .invalidOtp)
  match (← OtpRepository.get payload.email).filter (fun row => req.now < row.expiresAt) with
  | none => raise .invalidOtp
  | some row => drop (OtpRepository.save row { row with verified := true })

/-- Whether a password is the admin's, or one of those before it. -/
def reused (env : Env) (password : String) (admin : PlatformAdmin)
    (recent : List PasswordHistory) : Bool :=
  env.bcrypt.verifyPassword password admin.hashedPassword ||
    recent.any fun entry => env.bcrypt.verifyPassword password entry.hashedPassword

/-- Set a new password, with one failure for unknown and inactive accounts. -/
def updatePassword (env : Env) (req : Request) (payload : UpdatePasswordRequest) :
    Db PlatformAdmin := do
  let depth := env.settings.passwordHistoryDepth
  match (← AuthRepository.getAdminByEmail payload.email).filter (fun a => a.status = .active) with
  | none => raise .passwordResetFailed
  | some admin =>
      let row ← OtpRepository.get payload.email
      when (!row.any fun row => row.verified && req.now < row.expiresAt)
        (raise .passwordResetFailed)
      let recent ← PasswordHistoryRepository.recentForAdmin admin.id depth
      when (reused env payload.newPassword admin recent) (raise .passwordReuse)
      let _ ← PasswordHistoryRepository.add req.newId admin.id admin.hashedPassword req.now
      PasswordHistoryRepository.trim admin.id depth
      let updated ← AuthRepository.updateAdminPassword admin
        { admin with failedLoginAttempts := 0, lockedUntil := none, currentRefreshJti := none }
        (env.bcrypt.hashPassword req.salt payload.newPassword)
      OtpRepository.delete payload.email
      return updated

/-! ## Which tokens are accepted -/

/-- The admin behind a payload is active, and the payload belongs to the admin's session. -/
structure Accepts (s : Database) (payload : TokenPayload) (admin : PlatformAdmin) : Prop where
  userId : payload.userId = some admin.id
  found : s.admins.find? admin.id = some admin
  active : admin.status = .active
  kind : payload.type ∈ ["access", "refresh"]
  current : admin.currentRefreshJti.isSome
  presented : AuthService.presented payload = admin.currentRefreshJti

section Run
variable {env : Env} {req : Request} {s s' : Database}

theorem requireCurrentSession_isCheck (admin : PlatformAdmin) (payload : TokenPayload)
    (s : Database) :
    (requireCurrentSession admin payload).IsCheck s
      (¬ (payload.type ∈ ["access", "refresh"] ∧ admin.currentRefreshJti.isSome ∧
        presented payload = admin.currentRefreshJti)) := by
  unfold requireCurrentSession
  rcases Db.isCheck_raise (admin.currentRefreshJti = none ∨ payload.type ∉ ["access", "refresh"])
    .authentication s with ⟨hbad, e, hrun⟩ | ⟨hgood, hrun⟩
  · refine .inl ⟨?_, e, Db.run_bind_error _ hrun⟩
    rintro ⟨hkind, hcurrent, -⟩
    rcases of_decide_eq_true hbad with hnone | hother
    · rw [hnone] at hcurrent
      cases hcurrent
    · exact hother hkind
  · obtain ⟨hcurrent, hkind⟩ := not_or.mp (of_decide_eq_false (Bool.eq_false_iff.mpr hgood))
    rw [Db.IsCheck, Db.Refused, Db.run_bind_ok _ hrun]
    refine (Db.isCheck_raise _ _ s).congr ?_
    simp only [ne_eq, decide_eq_true_eq, not_and]
    exact ⟨fun h _ _ => h, fun h => h (not_not.mp hkind) (Option.isSome_iff_ne_none.mpr hcurrent)⟩

theorem getAdminById_reads (adminId : Uuid) (s : Database) :
    (getAdminById adminId).Reads s
      (fun admin => s.admins.find? adminId = some admin ∧ admin.status = .active) := by
  show Db.Reads (query _ >>= _) s _
  refine Db.Reads.bind (P := fun a => a = s.admins.find? adminId) (.query rfl) ?_
  rintro _ rfl
  cases hfind : s.admins.find? adminId with
  | none => exact .throw _
  | some admin =>
      refine (Db.isCheck_raise _ _ s).reads.bind fun _ hactive => .pure ⟨rfl, ?_⟩
      simpa using hactive

/-- **Which payloads are accepted**, and for whom. -/
theorem getAdminFromPayload_reads (payload : TokenPayload) (s : Database) :
    (getAdminFromPayload payload).Reads s (Accepts s payload) := by
  unfold getAdminFromPayload
  cases huser : payload.userId with
  | none => exact .throw _
  | some adminId =>
      refine (getAdminById_reads adminId s).bind fun admin ⟨hfind, hactive⟩ => ?_
      refine (requireCurrentSession_isCheck admin payload s).reads.bind fun _ hcheck => ?_
      obtain ⟨hkind, hcurrent, hpresented⟩ := not_not.mp hcheck
      obtain rfl : admin.id = adminId := (Table.find?_eq_some.mp hfind).2
      exact .pure ⟨huser, hfind, hactive, hkind, hcurrent, hpresented⟩

theorem run_getAdminFromPayload_iff {payload : TokenPayload} {admin : PlatformAdmin} :
    (getAdminFromPayload payload).run s = (.ok admin, s) ↔ Accepts s payload admin := by
  constructor
  · intro h
    rcases getAdminFromPayload_reads payload s with ⟨e, hrun⟩ | ⟨a, hrun, haccepts⟩
    · rw [hrun] at h
      cases h
    · rw [hrun] at h
      obtain ⟨⟨⟩, -⟩ := Prod.mk.inj h
      exact haccepts
  · rintro ⟨huser, hfind, hactive, hkind, hcurrent, hpresented⟩
    have hid : (getAdminById admin.id).run s = (.ok admin, s) := by
      show (query _ >>= _ : Db PlatformAdmin).run s = _
      rw [Db.run_query_bind, hfind]
      simp only [hactive]
      rfl
    have hcheck : (requireCurrentSession admin payload).run s = (.ok (), s) := by
      rcases requireCurrentSession_isCheck admin payload s with ⟨hbad, -⟩ | ⟨-, hrun⟩
      · exact absurd ⟨hkind, hcurrent, hpresented⟩ hbad
      · exact hrun
    rw [getAdminFromPayload, huser]
    show (getAdminById admin.id >>= _ : Db PlatformAdmin).run s = _
    rw [Db.run_bind_ok _ hid, Db.run_bind_ok _ hcheck]
    rfl

/-! ## What issuing a session does -/

def refreshPayload (env : Env) (req : Request) (admin : PlatformAdmin) : TokenPayload where
  userId := some admin.id
  jti := req.refreshJti.str
  exp := (req.now + Instant.days env.settings.refreshTokenExpireDays).timestamp
  type := "refresh"
  extra := none

def accessPayload (env : Env) (req : Request) (admin : PlatformAdmin)
    (permissions roles : List String) : TokenPayload where
  userId := some admin.id
  jti := req.accessJti.str
  exp := (req.now + Instant.minutes env.settings.accessTokenExpireMinutes).timestamp
  type := "access"
  extra := some
    { rjti := req.refreshJti.str
      rexp := (refreshPayload env req admin).exp
      email := admin.email
      username := admin.username
      roles := RbacService.sorted roles
      permissions := permissions }

/-- The pair of tokens a session consists of. -/
def tokens (env : Env) (req : Request) (s : Database) (admin : PlatformAdmin) : TokenResponse where
  accessToken := .signed
    (accessPayload env req admin (RbacService.sorted (RbacService.permissions s admin.id))
      (RbacService.roles s admin.id))
  refreshToken := .signed (refreshPayload env req admin)

/-- A refresh token just made decodes. -/
theorem decodeToken_refresh (env : Env) (req : Request) (admin : PlatformAdmin) :
    decodeToken req.now (createRefreshToken env.settings req.now req.refreshJti admin.id) =
      some (refreshPayload env req admin) :=
  decodeToken_createToken _ _ _ _ _ _

theorem createAccessToken_eq (env : Env) (req : Request) (admin : PlatformAdmin)
    (permissions roles : List String) :
    createAccessToken env.settings req.now req.accessJti admin.id
        (createRefreshToken env.settings req.now req.refreshJti admin.id) permissions
        admin.email admin.username (RbacService.sorted roles) =
      some (.signed (accessPayload env req admin permissions roles)) := by
  rw [createAccessToken, decodeToken_refresh]
  rfl

theorem run_issueTokens (admin : PlatformAdmin) :
    (issueTokens env req admin (RbacService.sorted (RbacService.permissions s admin.id))).run s =
      (.ok (tokens env req s admin, req.refreshJti.str), s) := by
  have hroles : (RbacService.rolesForAdmin admin.id).run s =
      (.ok (RbacService.roles s admin.id), s) := rfl
  have hsome : ∀ {α : Type} (a : α), (orJwtError (some a)).run s = (.ok a, s) := fun _ => rfl
  rw [issueTokens, Db.run_bind_ok _ hroles]
  dsimp only
  rw [decodeToken_refresh, Db.run_bind_ok _ (hsome _), createAccessToken_eq,
    Db.run_bind_ok _ (hsome _)]
  rfl

/-- **Issuing a session**: refused, or the admin's row points to the new refresh token. -/
theorem run_issueSession_inv {loaded admin : PlatformAdmin} {r : Except Failure TokenResponse}
    (h : (issueSession env req loaded admin
      (RbacService.sorted (RbacService.permissions s admin.id))).run s = (r, s'))
    (hloaded : s.admins.find? loaded.id = some loaded) (hid : admin.id = loaded.id) :
    ((∃ e, r = .error e) ∧ s' = s) ∨
      ∃ admins, s.admins.flush loaded { admin with currentRefreshJti := some req.refreshJti.str } =
          .ok admins ∧
        r = .ok (tokens env req s admin) ∧ s' = { s with admins := admins } := by
  rw [issueSession, Db.run_bind_ok _ (run_issueTokens admin)] at h
  rcases run_writeAdmin_bind_inv h hloaded hid with hrefused | ⟨admins, hflush, h⟩
  · exact .inl hrefused
  · obtain ⟨rfl, rfl⟩ := Prod.mk.inj h
    exact .inr ⟨admins, hflush, rfl, rfl⟩

/-! ## What the operations do -/

theorem find?_of_adminByEmail {email : String} {admin : PlatformAdmin}
    (h : s.adminByEmail email = some admin) : s.admins.find? admin.id = some admin :=
  Table.find?_eq_some.mpr ⟨(Database.adminByEmail_eq_some.mp h).1, rfl⟩

/-- Who has which email after an admin's row has become the object, under its email. -/
theorem adminByEmail_flush {email : String} {admin current : PlatformAdmin}
    {t : Table PlatformAdmin} (hadmin : s.adminByEmail email = some admin)
    (hflush : s.admins.flush admin current = .ok t) (hid : current.id = admin.id)
    (hemail : current.email = admin.email) (e : String) :
    ({ s with admins := t } : Database).adminByEmail e =
      if e = email then some current else s.adminByEmail e := by
  obtain ⟨hin, rfl⟩ := Database.adminByEmail_eq_some.mp hadmin
  have hmem : ∀ x, x ∈ t ↔ x = current ∨ (x ∈ s.admins ∧ x.id ≠ admin.id) :=
    fun x => Table.flush_loaded hflush (find?_of_adminByEmail hadmin) hid
  refine Option.ext fun x => ?_
  split
  · rename_i he
    subst he
    rw [Database.adminByEmail_eq_some, hmem]
    constructor
    · rintro ⟨rfl | ⟨hx, hne⟩, hxe⟩
      · rfl
      · have hclash : Row.Clash x admin := .inr (.inl hxe)
        exact absurd (by rw [Table.eq_of_clash hx hin hclash]) hne
    · rintro ⟨⟩
      exact ⟨.inl rfl, hemail⟩
  · rename_i he
    rw [Database.adminByEmail_eq_some, Database.adminByEmail_eq_some, hmem]
    constructor
    · rintro ⟨rfl | ⟨hx, -⟩, hxe⟩
      · exact absurd (hxe.symm.trans hemail) he
      · exact ⟨hx, hxe⟩
    · rintro ⟨hx, hxe⟩
      refine ⟨.inr ⟨hx, fun hsame => he ?_⟩, hxe⟩
      rw [← hxe, Table.eq_of_key hx hin hsame]

/-- The admin after a wrong password. -/
def countFailure (env : Env) (req : Request) (admin : PlatformAdmin) : PlatformAdmin :=
  if env.settings.maxFailedLoginAttempts ≤ admin.failedLoginAttempts + 1 then
    { admin with
      lockedUntil := some (req.now + Instant.minutes env.settings.lockoutMinutes)
      failedLoginAttempts := 0 }
  else { admin with failedLoginAttempts := admin.failedLoginAttempts + 1 }

/-- The admin after a login or a refresh. -/
def loggedIn (req : Request) (admin : PlatformAdmin) : PlatformAdmin :=
  { admin with
    failedLoginAttempts := 0, lockedUntil := none, currentRefreshJti := some req.refreshJti.str }

theorem loggedIn_liftLock (admin : PlatformAdmin) :
    { liftLock admin with
      failedLoginAttempts := 0, lockedUntil := none
      currentRefreshJti := some req.refreshJti.str } = loggedIn req admin := by
  unfold liftLock
  split <;> rfl

theorem id_liftLock (admin : PlatformAdmin) : (liftLock admin).id = admin.id := by
  unfold liftLock
  split <;> rfl

/-- **A wrong password** ends in an error; if its count could be saved, the row has it. -/
theorem run_rejectPassword_inv {loaded admin : PlatformAdmin} {r : Except Failure TokenResponse}
    (h : (rejectPassword env req loaded admin).run s = (r, s'))
    (hloaded : s.admins.find? loaded.id = some loaded) (hid : admin.id = loaded.id) :
    ∃ e, r = .error e ∧
      (s' = s ∨ ∃ admins, s.admins.flush loaded (countFailure env req admin) = .ok admins ∧
        s' = { s with admins := admins }) := by
  unfold rejectPassword at h
  unfold countFailure
  dsimp only at h
  split at h
  · rename_i hlocks
    rw [if_pos hlocks]
    rcases run_writeAdmin_bind_inv h hloaded hid with ⟨⟨e, rfl⟩, rfl⟩ | ⟨admins, hflush, h⟩
    · exact ⟨e, rfl, .inl rfl⟩
    · obtain ⟨rfl, rfl⟩ := Prod.mk.inj h
      exact ⟨_, rfl, .inr ⟨admins, hflush, rfl⟩⟩
  · rename_i hcounts
    rw [if_neg hcounts]
    rcases run_writeAdmin_bind_inv h hloaded hid with ⟨⟨e, rfl⟩, rfl⟩ | ⟨admins, hflush, h⟩
    · exact ⟨e, rfl, .inl rfl⟩
    · obtain ⟨rfl, rfl⟩ := Prod.mk.inj h
      exact ⟨_, rfl, .inr ⟨admins, hflush, rfl⟩⟩

theorem columns_countFailure (env : Env) (req : Request) (admin : PlatformAdmin) :
    (countFailure env req (liftLock admin)).id = admin.id ∧
      (countFailure env req (liftLock admin)).email = admin.email ∧
      (countFailure env req (liftLock admin)).username = admin.username ∧
      (countFailure env req (liftLock admin)).hashedPassword = admin.hashedPassword := by
  unfold countFailure liftLock
  split <;> split <;> exact ⟨rfl, rfl, rfl, rfl⟩

/-- **A wrong password is always counted**: where it is compared, the save is not refused. -/
theorem run_login_wrong {credentials : LoginRequest} {admin : PlatformAdmin}
    (hadmin : s.adminByEmail credentials.email = some admin)
    (hunlocked : locked req.now admin = false)
    (hwrong : env.bcrypt.verifyPassword credentials.password admin.hashedPassword = false) :
    ∃ e admins, s.admins.flush admin (countFailure env req (liftLock admin)) = .ok admins ∧
      (login env req credentials).run s = (.error e, { s with admins := admins }) := by
  obtain ⟨hid, hemail, husername, -⟩ := columns_countFailure env req admin
  have hfind := find?_of_adminByEmail hadmin
  obtain ⟨admins, hflush⟩ := exists_flushAdmin hfind hemail husername
  have hhash : (liftLock admin).hashedPassword = admin.hashedPassword := by
    unfold liftLock
    split <;> rfl
  have hreject : ∃ e, (rejectPassword env req admin (liftLock admin)).run s =
      (.error e, { s with admins := admins }) := by
    unfold rejectPassword
    unfold countFailure at hflush hid
    dsimp only
    split
    · rename_i hlocks
      rw [if_pos hlocks] at hflush hid
      exact ⟨_, Db.run_bind_ok _ (run_writeAdmin_ok hfind hid hflush)⟩
    · rename_i hcounts
      rw [if_neg hcounts] at hflush hid
      exact ⟨_, Db.run_bind_ok _ (run_writeAdmin_ok hfind hid hflush)⟩
  obtain ⟨e, hrun⟩ := hreject
  refine ⟨e, admins, hflush, ?_⟩
  rw [← hrun, login, AuthRepository.getAdminByEmail, Db.run_query_bind, hadmin]
  dsimp only
  rw [hunlocked, hhash, hwrong]
  rfl

/-- **A locked account's password is not compared**, whatever bcrypt would answer. -/
theorem run_login_locked {credentials : LoginRequest} {admin : PlatformAdmin}
    (hadmin : s.adminByEmail credentials.email = some admin)
    (hlocked : locked req.now admin = true) :
    (login env req credentials).run s = (.error (.app .accountLocked), s) := by
  rw [login, AuthRepository.getAdminByEmail, Db.run_query_bind, hadmin]
  dsimp only
  rw [hlocked]
  rfl

/-- **All that a login does**: it is refused, it counts a wrong password, or it issues a
session to the active admin with that email. -/
theorem run_login_inv {credentials : LoginRequest} {r : Except Failure TokenResponse}
    (h : (login env req credentials).run s = (r, s')) :
    ((∃ e, r = .error e) ∧ s' = s) ∨
      ∃ admin, s.adminByEmail credentials.email = some admin ∧ locked req.now admin = false ∧
        ((∃ e admins, env.bcrypt.verifyPassword credentials.password admin.hashedPassword = false ∧
            s.admins.flush admin (countFailure env req (liftLock admin)) = .ok admins ∧
            r = .error e ∧ s' = { s with admins := admins }) ∨
          ∃ admins, env.bcrypt.verifyPassword credentials.password admin.hashedPassword = true ∧
            admin.status = .active ∧ s.admins.flush admin (loggedIn req admin) = .ok admins ∧
            r = .ok (tokens env req s admin) ∧ s' = { s with admins := admins }) := by
  unfold login AuthRepository.getAdminByEmail at h
  rw [Db.run_query_bind] at h
  cases hadmin : s.adminByEmail credentials.email with
  | none =>
      rw [hadmin] at h
      obtain ⟨rfl, rfl⟩ := Prod.mk.inj h
      exact .inl ⟨⟨_, rfl⟩, rfl⟩
  | some admin =>
      rw [hadmin] at h
      have hfind := find?_of_adminByEmail hadmin
      -- an expired lock is lifted before the password is compared
      have hhash : (liftLock admin).hashedPassword = admin.hashedPassword := by
        unfold liftLock
        split <;> rfl
      have hstatus : (liftLock admin).status = admin.status := by
        unfold liftLock
        split <;> rfl
      -- a lock that holds refuses without a comparison
      rcases (Db.isCheck_raise _ _ s).bind_inv h with hrefused | ⟨hunlocked, h⟩
      · exact .inl hrefused
      dsimp only at h
      split at h
      · rename_i hpassword
        rw [hhash] at hpassword
        rcases (Db.isCheck_raise _ _ s).bind_inv h with hrefused | ⟨hactive, h⟩
        · exact .inl hrefused
        rw [RbacService.run_permissionsForAdmin_bind] at h
        rcases run_issueSession_inv h hfind (id_liftLock admin)
          with hrefused | ⟨admins, hflush, rfl, rfl⟩
        · exact .inl hrefused
        · refine .inr ⟨admin, rfl, by simpa using hunlocked, .inr ⟨admins, hpassword, ?_, ?_, ?_, rfl⟩⟩
          · simpa [hstatus] using hactive
          · rwa [← loggedIn_liftLock]
          · unfold liftLock
            split <;> rfl
      · rename_i hpassword
        rw [hhash] at hpassword
        obtain ⟨e, rfl, rfl | ⟨admins, hflush, rfl⟩⟩ :=
          run_rejectPassword_inv h hfind (id_liftLock admin)
        · exact .inl ⟨⟨e, rfl⟩, rfl⟩
        · exact .inr ⟨admin, rfl, by simpa using hunlocked,
            .inl ⟨e, admins, by simpa using hpassword, hflush, rfl, rfl⟩⟩

/-- **All that a refresh does**: it is refused, or the refresh token of the admin's session is
exchanged for a new session. -/
theorem run_refresh_inv {refreshToken : EncodedToken} {r : Except Failure TokenResponse}
    (h : (refresh env req refreshToken).run s = (r, s')) :
    ((∃ e, r = .error e) ∧ s' = s) ∨
      ∃ payload admin admins, decodeToken req.now refreshToken = some payload ∧
        payload.type = "refresh" ∧ Accepts s payload admin ∧
        s.admins.flush admin { admin with currentRefreshJti := some req.refreshJti.str } =
          .ok admins ∧
        r = .ok (tokens env req s admin) ∧ s' = { s with admins := admins } := by
  unfold refresh at h
  cases hdecode : decodeToken req.now refreshToken with
  | none =>
      rw [hdecode] at h
      obtain ⟨rfl, rfl⟩ := Prod.mk.inj h
      exact .inl ⟨⟨_, rfl⟩, rfl⟩
  | some payload =>
      rw [hdecode] at h
      rcases (Db.isCheck_raise _ _ s).bind_inv h with hrefused | ⟨htype, h⟩
      · exact .inl hrefused
      rcases (getAdminFromPayload_reads payload s).bind_inv h with hrefused | ⟨admin, haccepts, h⟩
      · exact .inl hrefused
      rw [RbacService.run_permissionsForAdmin_bind] at h
      rcases run_issueSession_inv h haccepts.found rfl with hrefused | ⟨admins, hflush, rfl, rfl⟩
      · exact .inl hrefused
      · exact .inr ⟨payload, admin, admins, rfl, by simpa using htype, haccepts, hflush, rfl, rfl⟩

/-- **All that a logout does**, for a token that is accepted: it is refused, or the admin's
row points to no session. -/
theorem run_logout_inv {accessToken : EncodedToken} {payload : TokenPayload}
    {admin : PlatformAdmin} {r : Except Failure Unit}
    (h : (logout req accessToken (some admin)).run s = (r, s'))
    (hdecode : decodeToken req.now accessToken = some payload)
    (haccepts : Accepts s payload admin) :
    ((∃ e, r = .error e) ∧ s' = s) ∨
      ∃ admins, s.admins.flush admin { admin with currentRefreshJti := none } = .ok admins ∧
        r = .ok () ∧ s' = { s with admins := admins } := by
  have hheld : AuthRepository.getAdminById admin.id (some admin) = pure (some admin) := by
    simp [AuthRepository.getAdminById, Option.filter]
  unfold logout at h
  rw [hdecode] at h
  rcases (Db.isCheck_raise _ _ s).bind_inv h with hrefused | ⟨-, h⟩
  · exact .inl hrefused
  rw [clearCurrentSession, haccepts.userId] at h
  dsimp only at h
  rw [hheld] at h
  rcases run_writeAdmin_bind_inv h haccepts.found rfl with hrefused | ⟨admins, hflush, h⟩
  · exact .inl hrefused
  · obtain ⟨rfl, rfl⟩ := Prod.mk.inj h
    exact .inr ⟨admins, hflush, rfl, rfl⟩

/-- The OTP row after a request, `none` where the request is throttled. -/
def requestedOtp (env : Env) (req : Request) (email : String) :
    Option PasswordResetOtp → Option PasswordResetOtp
  | none =>
      some
        { email := email
          expiresAt := req.now + Instant.minutes env.settings.otpExpiryMinutes
          requestCount := 1, windowStartedAt := req.now, verified := false }
  | some row =>
      if row.windowStartedAt + Instant.minutes env.settings.otpThrottleWindowMinutes ≤ req.now then
        some { row with
          expiresAt := req.now + Instant.minutes env.settings.otpExpiryMinutes
          requestCount := 1, windowStartedAt := req.now, verified := false }
      else if env.settings.otpMaxRequestsPerWindow ≤ row.requestCount then none
      else
        some { row with
          requestCount := row.requestCount + 1
          expiresAt := req.now + Instant.minutes env.settings.otpExpiryMinutes
          verified := false }

/-- The row a request for an OTP writes. -/
theorem requestedOtp_columns {email : String} {o : Option PasswordResetOtp}
    {row : PasswordResetOtp} (h : requestedOtp env req email o = some row)
    (hemail : ∀ old ∈ o, old.email = email) :
    row.email = email ∧ row.verified = false ∧
      row.expiresAt = req.now + Instant.minutes env.settings.otpExpiryMinutes := by
  cases o with
  | none =>
      obtain rfl := Option.some.inj h
      exact ⟨rfl, rfl, rfl⟩
  | some old =>
      have hold := hemail old rfl
      rw [requestedOtp] at h
      split at h
      · obtain rfl := Option.some.inj h
        exact ⟨hold, rfl, rfl⟩
      · split at h
        · cases h
        · obtain rfl := Option.some.inj h
          exact ⟨hold, rfl, rfl⟩

/-- The table of OTP rows has `row` under its email and is otherwise as before. -/
def Stores (otps : Table PasswordResetOtp) (s : Database) (row : PasswordResetOtp) : Prop :=
  ∀ email, otps.find? email = if email = row.email then some row else s.otps.find? email

theorem run_drop_saveNewOtp {row : PasswordResetOtp} (hnew : s.otps.find? row.email = none) :
    ∃ otps, Stores otps s row ∧
      (drop (OtpRepository.saveNew row)).run s = (.ok (), { s with otps := otps }) := by
  obtain ⟨otps, hinsert, hrun⟩ := run_saveNewOtp hnew
  refine ⟨otps, fun email => ?_, Db.run_bind_ok _ hrun⟩
  rw [Table.find?_insert hinsert, key_passwordResetOtp]
  simp only [eq_comm]

theorem run_drop_saveOtp {loaded row : PasswordResetOtp}
    (hloaded : s.otps.find? loaded.email = some loaded) (hemail : row.email = loaded.email) :
    ∃ otps, Stores otps s row ∧
      (drop (OtpRepository.save loaded row)).run s = (.ok (), { s with otps := otps }) := by
  obtain ⟨otps, hflush, hrun⟩ := run_saveOtp hloaded hemail
  refine ⟨otps, fun email => ?_, Db.run_bind_ok _ hrun⟩
  rw [hemail]
  exact Table.find?_flush_loaded hflush hloaded hemail email

/-- **A request for an OTP without an active admin** is answered, and does nothing. -/
theorem run_generateOtp_unknown {email : String}
    (hnone : (s.adminByEmail email).filter (fun a => a.status = .active) = none) :
    (generateOtp env req email).run s = (.ok (), s) := by
  unfold generateOtp AuthRepository.getAdminByEmail
  rw [Db.run_query_bind, hnone]
  rfl

/-- **A request for the OTP of an active admin** is throttled, or the row of the email is
written. -/
theorem run_generateOtp_active {email : String} {admin : PlatformAdmin}
    (hadmin : (s.adminByEmail email).filter (fun a => a.status = .active) = some admin) :
    (requestedOtp env req email (s.otps.find? email) = none ∧
        (generateOtp env req email).run s = (.error (.app .otpThrottled), s)) ∨
      ∃ row otps, requestedOtp env req email (s.otps.find? email) = some row ∧
        Stores otps s row ∧
        (generateOtp env req email).run s = (.ok (), { s with otps := otps }) := by
  unfold generateOtp AuthRepository.getAdminByEmail
  rw [Db.run_query_bind, hadmin]
  dsimp only [OtpRepository.get]
  rw [Db.run_query_bind]
  cases hrow : s.otps.find? email with
  | none =>
      obtain ⟨otps, hstores, hrun⟩ := @run_drop_saveNewOtp s
        { email := email
          expiresAt := req.now + Instant.minutes env.settings.otpExpiryMinutes
          requestCount := 1, windowStartedAt := req.now, verified := false } hrow
      exact .inr ⟨_, otps, rfl, hstores, hrun⟩
  | some row =>
      have hloaded : s.otps.find? row.email = some row := by
        rwa [show row.email = email from (Table.find?_eq_some.mp hrow).2]
      dsimp only
      split
      · rename_i hrestart
        obtain ⟨otps, hstores, hrun⟩ := @run_drop_saveOtp s row
          { row with
            expiresAt := req.now + Instant.minutes env.settings.otpExpiryMinutes
            requestCount := 1, windowStartedAt := req.now, verified := false } hloaded rfl
        exact .inr ⟨_, otps, by rw [requestedOtp, if_pos hrestart], hstores, hrun⟩
      · rename_i hsame
        split
        · rename_i hfull
          exact .inl ⟨by rw [requestedOtp, if_neg hsame, if_pos hfull], rfl⟩
        · rename_i hroom
          obtain ⟨otps, hstores, hrun⟩ := @run_drop_saveOtp s row
            { row with
              requestCount := row.requestCount + 1
              expiresAt := req.now + Instant.minutes env.settings.otpExpiryMinutes
              verified := false } hloaded rfl
          exact .inr ⟨_, otps, by rw [requestedOtp, if_neg hsame, if_neg hroom], hstores, hrun⟩

/-- **All that requesting an OTP does**: it is refused, it is answered without effect where no
active admin has the email, or the row of the email is written. -/
theorem run_generateOtp_inv {email : String} {r : Except Failure Unit}
    (h : (generateOtp env req email).run s = (r, s')) :
    ((∃ e, r = .error e) ∧ s' = s) ∨
      (s.adminByEmail email).filter (fun a => a.status = .active) = none ∧ r = .ok () ∧ s' = s ∨
      ∃ admin row otps, s.adminByEmail email = some admin ∧ admin.status = .active ∧
        requestedOtp env req email (s.otps.find? email) = some row ∧ Stores otps s row ∧
        r = .ok () ∧ s' = { s with otps := otps } := by
  cases hadmin : (s.adminByEmail email).filter (fun a => a.status = .active) with
  | none =>
      rw [run_generateOtp_unknown hadmin] at h
      obtain ⟨rfl, rfl⟩ := Prod.mk.inj h
      exact .inr (.inl ⟨rfl, rfl, rfl⟩)
  | some admin =>
      obtain ⟨hemail, hactive⟩ := Option.filter_eq_some_iff.mp hadmin
      rcases run_generateOtp_active hadmin with ⟨-, hrun⟩ | ⟨row, otps, hrow, hstores, hrun⟩
      · rw [hrun] at h
        obtain ⟨rfl, rfl⟩ := Prod.mk.inj h
        exact .inl ⟨⟨_, rfl⟩, rfl⟩
      · rw [hrun] at h
        obtain ⟨rfl, rfl⟩ := Prod.mk.inj h
        exact .inr (.inr
          ⟨admin, row, otps, hemail, of_decide_eq_true hactive, hrow, hstores, rfl, rfl⟩)

/-- Verifying an OTP is refused, or marks the row of an active admin's email verified. -/
theorem run_verifyOtp_inv {payload : VerifyOtpRequest} {r : Except Failure Unit}
    (h : (verifyOtp req payload).run s = (r, s')) :
    ((∃ e, r = .error e) ∧ s' = s) ∨
      ∃ admin row otps, s.adminByEmail payload.email = some admin ∧ admin.status = .active ∧
        payload.otp = otpCode ∧ s.otps.find? payload.email = some row ∧
        req.now < row.expiresAt ∧ Stores otps s { row with verified := true } ∧
        r = .ok () ∧ s' = { s with otps := otps } := by
  unfold verifyOtp AuthRepository.getAdminByEmail at h
  rw [Db.run_query_bind] at h
  rcases (Db.isCheck_raise _ _ s).bind_inv h with hrefused | ⟨hallowed, h⟩
  · exact .inl hrefused
  obtain ⟨hsome, hcode⟩ := not_or.mp (of_decide_eq_false (Bool.eq_false_iff.mpr hallowed))
  obtain ⟨admin, hemail, hactive⟩ := (Option.any_eq_true _ _).mp
    (by simpa only [Bool.not_eq_true', Bool.not_eq_false] using hsome)
  rw [OtpRepository.get, Db.run_query_bind] at h
  cases hrow : (s.otps.find? payload.email).filter (fun row => req.now < row.expiresAt) with
  | none =>
      rw [hrow] at h
      obtain ⟨rfl, rfl⟩ := Prod.mk.inj h
      exact .inl ⟨⟨_, rfl⟩, rfl⟩
  | some row =>
      rw [hrow] at h
      obtain ⟨hfind, hlive⟩ := Option.filter_eq_some_iff.mp hrow
      have hloaded : s.otps.find? row.email = some row := by
        rwa [show row.email = payload.email from (Table.find?_eq_some.mp hfind).2]
      obtain ⟨otps, hstores, hrun⟩ :
          ∃ otps, Stores otps s { row with verified := true } ∧ _ := run_drop_saveOtp hloaded rfl
      rw [hrun] at h
      obtain ⟨rfl, rfl⟩ := Prod.mk.inj h
      exact .inr ⟨admin, row, otps, hemail, of_decide_eq_true hactive, not_not.mp hcode, hfind,
        of_decide_eq_true hlive, hstores, rfl, rfl⟩

/-- The admin after a password reset. -/
def resetPassword (env : Env) (req : Request) (password : String) (admin : PlatformAdmin) :
    PlatformAdmin :=
  { admin with
    failedLoginAttempts := 0, lockedUntil := none, currentRefreshJti := none
    hashedPassword := env.bcrypt.hashPassword req.salt password }

/-- **The third commit of a reset** is not refused: the admin keeps email and username. -/
theorem run_updateAdminPassword {password : String} {admin : PlatformAdmin}
    (hfind : s.admins.find? admin.id = some admin) :
    ∃ admins, s.admins.flush admin (resetPassword env req password admin) = .ok admins ∧
      (AuthRepository.updateAdminPassword admin
        { admin with failedLoginAttempts := 0, lockedUntil := none, currentRefreshJti := none }
        (env.bcrypt.hashPassword req.salt password)).run s =
        (.ok (resetPassword env req password admin), { s with admins := admins }) := by
  obtain ⟨admins, hflush⟩ : ∃ t, s.admins.flush admin (resetPassword env req password admin) =
      .ok t := exists_flushAdmin hfind rfl rfl
  exact ⟨admins, hflush, run_writeAdmin_ok hfind rfl hflush⟩

/-- **All that a password reset does**: it is refused, or the verified row of the email is
there, the password is not reused, and every one of the four commits is made. -/
theorem run_updatePassword_cases {payload : UpdatePasswordRequest}
    {r : Except Failure PlatformAdmin} (h : (updatePassword env req payload).run s = (r, s')) :
    ((∃ e, r = .error e) ∧ s' = s) ∨
      ∃ admin row admins added, s.adminByEmail payload.email = some admin ∧
        admin.status = .active ∧ s.otps.find? payload.email = some row ∧ row.verified = true ∧
        req.now < row.expiresAt ∧
        reused env payload.newPassword admin (PasswordHistoryRepository.recent s admin.id
          env.settings.passwordHistoryDepth) = false ∧
        s.passwordHistory.insert ⟨req.newId, admin.id, admin.hashedPassword, req.now⟩ =
          some added ∧
        s.admins.flush admin (resetPassword env req payload.newPassword admin) = .ok admins ∧
        r = .ok (resetPassword env req payload.newPassword admin) ∧
        s' = { s with
          admins := admins
          passwordHistory := PasswordHistoryRepository.trimmed { s with passwordHistory := added }
            admin.id env.settings.passwordHistoryDepth
          otps := s.otps.delete (fun otp => otp.email = payload.email) } := by
  unfold updatePassword AuthRepository.getAdminByEmail at h
  dsimp only at h
  rw [Db.run_query_bind] at h
  cases hadmin : (s.adminByEmail payload.email).filter (fun a => a.status = .active) with
  | none =>
      rw [hadmin] at h
      obtain ⟨rfl, rfl⟩ := Prod.mk.inj h
      exact .inl ⟨⟨_, rfl⟩, rfl⟩
  | some admin =>
      obtain ⟨hemail, hactive⟩ := Option.filter_eq_some_iff.mp hadmin
      rw [hadmin] at h
      dsimp only [OtpRepository.get] at h
      rw [Db.run_query_bind] at h
      rcases (Db.isCheck_raise _ _ s).bind_inv h with hrefused | ⟨hverified, h⟩
      · exact .inl hrefused
      rw [PasswordHistoryRepository.recentForAdmin, Db.run_query_bind] at h
      rcases (Db.isCheck_raise _ _ s).bind_inv h with hrefused | ⟨hnew, h⟩
      · exact .inl hrefused
      rcases run_addHistory_bind_inv h with hrefused | ⟨added, entry, hinsert, rfl, h⟩
      · exact .inl hrefused
      rw [Db.run_bind_ok _ (PasswordHistoryRepository.run_trim _ _ _)] at h
      let u : Database :=
        { s with
          passwordHistory := PasswordHistoryRepository.trimmed { s with passwordHistory := added }
            admin.id env.settings.passwordHistoryDepth }
      obtain ⟨admins, hflush, hwrite⟩ :=
        @run_updateAdminPassword env req u payload.newPassword admin (find?_of_adminByEmail hemail)
      rw [Db.run_bind_ok _ hwrite, OtpRepository.delete,
        Db.run_bind_ok _ (Db.run_commit_ok rfl)] at h
      obtain ⟨rfl, rfl⟩ := Prod.mk.inj h
      obtain ⟨row, hrow, hlive⟩ := (Option.any_eq_true _ _).mp (by simpa using hverified)
      obtain ⟨hrowVerified, hunexpired⟩ := (Bool.and_eq_true _ _).mp hlive
      exact .inr ⟨admin, row, admins, added, hemail, of_decide_eq_true hactive, hrow,
        hrowVerified, of_decide_eq_true hunexpired, Bool.eq_false_iff.mpr hnew, hinsert, hflush,
        rfl, rfl⟩

/-- What a reset does to admins and OTP rows. -/
theorem run_updatePassword_inv {payload : UpdatePasswordRequest}
    {r : Except Failure PlatformAdmin} (h : (updatePassword env req payload).run s = (r, s')) :
    (∃ e history, r = .error e ∧ s' = { s with passwordHistory := history }) ∨
      ∃ admin row admins history, s.adminByEmail payload.email = some admin ∧
        admin.status = .active ∧ s.otps.find? payload.email = some row ∧ row.verified = true ∧
        req.now < row.expiresAt ∧
        s.admins.flush admin (resetPassword env req payload.newPassword admin) = .ok admins ∧
        r = .ok (resetPassword env req payload.newPassword admin) ∧
        s' = { s with
          admins := admins, passwordHistory := history
          otps := s.otps.delete (fun otp => otp.email = payload.email) } := by
  rcases run_updatePassword_cases h with ⟨⟨e, rfl⟩, rfl⟩ |
    ⟨admin, row, admins, added, hemail, hactive, hrow, hverified, hunexpired, -, -, hflush, rfl, rfl⟩
  · exact .inl ⟨e, s'.passwordHistory, rfl, rfl⟩
  · exact .inr ⟨admin, row, admins, _, hemail, hactive, hrow, hverified, hunexpired, hflush, rfl,
      rfl⟩

end Run
end AuthService
end AdminPlatform
