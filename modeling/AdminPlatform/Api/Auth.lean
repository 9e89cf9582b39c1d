import AdminPlatform.Audit.Redaction
import AdminPlatform.Services.Auth

/-! # The routes before authentication

`app/api/v1/auth.py` up to logout, for a body that has been validated. The caller is not
authenticated: the email of the body is the audit actor, and a refresh has none. What the
client sees is the response, or the error that is raised.

Token texts are those of a parameter `encode`; the audit trail masks them. -/

namespace AdminPlatform
open AdminPlatform.Lib

/-- Record a failed action, merging the error's result code into its details. -/
def AuditService.recordFailure (req : Request) (event : Audit.AuditEvent) (e : AppError) :
    Db Unit :=
  AuditService.record req (event.failure e.code)

namespace Api

/-- The request under a claimed (unauthenticated) identity. -/
def claimedActor (req : Request) (email : String) (actorType : ActorType) : Request :=
  { req with actor := some { actor := email, actorType := actorType.value } }

def codeOtpSent : String := "S_200_AUTH_OTP_SENT"
def msgOtpSent : String := "OTP sent successfully"

/-- The response to a request for an OTP. -/
def otpSent : Json :=
  .obj [("code", .str codeOtpSent), ("message", .str msgOtpSent), ("data", .null)]

/-- The event of a request for an OTP, with the body it came with. -/
def otpEvent (action : AuditAction) (email : String) (response : Json) : Audit.AuditEvent where
  action := action.value
  resourceType := some AuditResourceType.auth.value
  resourceId := some email
  details := .null
  payload := .obj [("email", .str email)]
  response := response

/-- Request a password reset OTP. -/
def generateOtp (env : Env) (req : Request) (email : String) : Db Json := do
  let req := claimedActor req email .admin
  tryCatch (AuthService.generateOtp env req email) fun e => do
    when (e = .app .otpThrottled)
      (AuditService.recordFailure req (otpEvent .otpThrottled email .null) .otpThrottled)
    throw e
  AuditService.record req (otpEvent .otpRequested email otpSent)
  return otpSent

/-! ## Login, refresh and reset -/

/-- The event of one of these routes. -/
def authEvent (action : AuditAction) (resourceId : Option String) (payload response : Json) :
    Audit.AuditEvent where
  action := action.value
  resourceType := some AuditResourceType.auth.value
  resourceId := resourceId
  details := .null
  payload := payload
  response := response

/-- `except AppError as exc: record_failure(…); raise`. -/
def recordingFailure {α : Type} (req : Request) (event : AppError → Audit.AuditEvent) (p : Db α) :
    Db α :=
  tryCatch p fun e => do
    match e with
    | .app exc => AuditService.recordFailure req (event exc) exc
    | _ => pure ()
    throw e

/-- An `ApiResponse` as JSON. -/
def apiResponse (code message : String) (data : Json) : Json :=
  .obj [("code", .str code), ("message", .str message), ("data", data)]

/-- A `TokenResponse` as JSON. -/
def tokenJson (encode : EncodedToken → String) (token : TokenResponse) : Json :=
  .obj
    [("access_token", .str (encode token.accessToken)),
      ("refresh_token", .str (encode token.refreshToken)), ("token_type", .str token.tokenType)]

/-- `AuthService.login`, where the inactive account whose lock has run out is still in the session
as an object that was written to: `leave` is what becomes of it. -/
def loginLeaving (env : Env) (req : Request) (credentials : LoginRequest)
    (leave : PlatformAdmin → Db Unit) : Db TokenResponse := do
  match ← AuthRepository.getAdminByEmail credentials.email with
  | none => raise .invalidCredentials
  | some loaded =>
      when (AuthService.locked req.now loaded) (raise .accountLocked)
      let admin := AuthService.liftLock loaded
      if env.bcrypt.verifyPassword credentials.password admin.hashedPassword then
        when (admin.status ≠ .active) do
          leave loaded
          raise .accountInactive
        let permissions ← RbacService.permissionsForAdmin admin.id
        AuthService.issueSession env req loaded
          { admin with failedLoginAttempts := 0, lockedUntil := none }
          (RbacService.sorted permissions)
      else
        AuthService.rejectPassword env req loaded admin

/-- The commit that records the failure flushes the lifted lock with it. -/
def flushLiftedLock (loaded : PlatformAdmin) : Db Unit :=
  tryCatch (commit (.updateAdmin loaded (AuthService.liftLock loaded))) fun _ => pure ()

def codeLoginOk : String := "S_200_AUTH_LOGIN_OK"
def msgLoginOk : String := "Logged in successfully"
def codeRefreshOk : String := "S_200_AUTH_REFRESH_OK"
def msgRefreshOk : String := "Token refreshed"
def codeOtpVerified : String := "S_200_AUTH_OTP_VERIFIED"
def msgOtpVerified : String := "OTP verified successfully"
def codePasswordUpdated : String := "S_200_AUTH_PASSWORD_UPDATED"
def msgPasswordUpdated : String := "Password updated successfully"

/-- The event a failed login is recorded under. -/
def loginFailureAction : AppError → AuditAction
  | .accountLocked => .loginLockout
  | _ => .loginFailure

/-- Authenticate a platform admin and return access and refresh tokens. -/
def login (env : Env) (encode : EncodedToken → String) (req : Request)
    (credentials : LoginRequest) : Db Json := do
  let req := claimedActor req credentials.email .admin
  let payload :=
    Json.obj [("email", .str credentials.email), ("password", .str credentials.password)]
  let token ← recordingFailure req
    (fun exc => authEvent (loginFailureAction exc) (some credentials.email) payload .null)
    (loginLeaving env req credentials flushLiftedLock)
  let response := apiResponse codeLoginOk msgLoginOk (tokenJson encode token)
  AuditService.record req (authEvent .loginSuccess (some credentials.email) payload response)
  return response

/-- Exchange a valid refresh token for a new access and refresh token pair. -/
def refresh (env : Env) (encode : EncodedToken → String) (req : Request)
    (refreshToken : EncodedToken) : Db Json := do
  let body := Json.obj [("refresh_token", .str (encode refreshToken))]
  let token ← recordingFailure req (fun _ => authEvent .refreshFailure none body .null)
    (AuthService.refresh env req refreshToken)
  let response := apiResponse codeRefreshOk msgRefreshOk (tokenJson encode token)
  AuditService.record req (authEvent .refreshSuccess none body response)
  return response

/-- Verify the OTP sent for the given email. -/
def verifyOtp (req : Request) (payload : VerifyOtpRequest) : Db Json := do
  let req := claimedActor req payload.email .admin
  let body := Json.obj [("email", .str payload.email), ("otp", .str payload.otp)]
  recordingFailure req (fun _ => authEvent .otpVerifyFailure (some payload.email) body .null)
    (AuthService.verifyOtp req payload)
  let response := apiResponse codeOtpVerified msgOtpVerified .null
  AuditService.record req (authEvent .otpVerifySuccess (some payload.email) body response)
  return response

/-- Set a new password for the admin identified by email; the body repeats the password. -/
def updatePassword (env : Env) (req : Request) (payload : UpdatePasswordRequest) : Db Json := do
  let req := claimedActor req payload.email .admin
  let body :=
    Json.obj
      [("email", .str payload.email), ("new_password", .str payload.newPassword),
        ("confirm_password", .str payload.newPassword)]
  let _ ← recordingFailure req
    (fun _ => authEvent .passwordResetFailure (some payload.email) body .null)
    (AuthService.updatePassword env req payload)
  let response := apiResponse codePasswordUpdated msgPasswordUpdated .null
  AuditService.record req (authEvent .passwordResetSuccess (some payload.email) body response)
  return response

/-- The service alone leaves no object behind. -/
theorem login_eq_loginLeaving (env : Env) (req : Request) (credentials : LoginRequest) :
    AuthService.login env req credentials =
      loginLeaving env req credentials fun _ => pure () := rfl

section Run
variable {env : Env} {req : Request} {email : String} {s s' : Database}

theorem requestedOtp_claimedActor (o : Option PasswordResetOtp) :
    AuthService.requestedOtp env (claimedActor req email .admin) email o =
      AuthService.requestedOtp env req email o := by
  cases o <;> rfl

/-- Where the service returns, the route responds and records it. -/
theorem run_generateOtp_ok
    (h : (AuthService.generateOtp env (claimedActor req email .admin) email).run s =
      (.ok (), s')) :
    ∃ outbox, (generateOtp env req email).run s =
      (.ok otpSent, { s' with auditIntents := outbox }) := by
  obtain ⟨outbox, hrecord⟩ := AuditService.run_record (claimedActor req email .admin)
    (otpEvent .otpRequested email otpSent) s'
  refine ⟨outbox, ?_⟩
  unfold generateOtp
  dsimp only
  rw [Db.run_bind_ok _ (Db.run_tryCatch_ok _ h), Db.run_bind_ok _ hrecord]
  rfl

/-- Where the service throttles, the route raises it on and records it. -/
theorem run_generateOtp_throttled
    (h : (AuthService.generateOtp env (claimedActor req email .admin) email).run s =
      (.error (.app .otpThrottled), s)) :
    ∃ outbox, (generateOtp env req email).run s =
      (.error (.app .otpThrottled), { s with auditIntents := outbox }) := by
  obtain ⟨outbox, hrecord⟩ := AuditService.run_record (claimedActor req email .admin)
    ((otpEvent .otpThrottled email .null).failure AppError.otpThrottled.code) s
  refine ⟨outbox, ?_⟩
  unfold generateOtp
  dsimp only
  refine Db.run_bind_error _ ?_
  rw [Db.run_tryCatch_error _ h]
  rw [when, if_pos (decide_eq_true rfl)]
  exact Db.run_bind_ok _ hrecord

end Run
end Api
end AdminPlatform
