import AdminPlatform.Api.Auth
import AdminPlatform.Api.Deps
import AdminPlatform.Past

/-! # What authentication and the routes before it write

For login, refresh, the three steps of a password reset and logout, which writes are lawful in
the service of the request, after what it has read and committed before; and what a route
behind a permission has established when it serves (`Granted`) or denies (`Denied`). -/

namespace AdminPlatform
open AdminPlatform.Lib

namespace Api
variable {env : Env} {encode : EncodedToken → String} {req : Request}

/-! ## Failures -/

section Failures
variable {α β : Type} {L : Db.Policy} {past : Past} {Q : Past → α → Prop} {R : Past → β → Prop}

/-- A failure is recorded and raised on; a result goes on. -/
theorem keeps_recordingFailure_bind {event : AppError → Audit.AuditEvent} {p : Db β}
    {f : β → Db α} (hp : p.Keeps L past R)
    (hfailure : ∀ (later : Past) (exc : AppError),
      L later (.insertIntent (AuditService.intent req ((event exc).failure exc.code))))
    (hf : ∀ later b, past <:+ later → R later b → (f b).Keeps L later Q) :
    (recordingFailure req event p >>= f).Keeps L past Q := by
  refine Db.Keeps.bind (R := R) (hp.tryCatch fun later e _ => ?_) hf
  cases e with
  | app exc =>
      exact AuditService.keeps_record_bind (hfailure later exc) fun _ _ => Db.keeps_throw _
  | _ => exact Db.keeps_throw _

end Failures

/-! ## Login and refresh -/

/-- The writes of a login. -/
inductive LoginLawful (env : Env) (encode : EncodedToken → String) (req : Request)
    (credentials : LoginRequest) (past : Past) : Write → Prop
  | rejected {loaded} : past.Saw (fun s => s.adminByEmail credentials.email = some loaded) →
      AuthService.locked req.now loaded = false →
      env.bcrypt.verifyPassword credentials.password loaded.hashedPassword = false →
      LoginLawful env encode req credentials past
        (.updateAdmin loaded (AuthService.countFailure env req (AuthService.liftLock loaded)))
  | lifted {loaded} : past.Saw (fun s => s.adminByEmail credentials.email = some loaded) →
      AuthService.locked req.now loaded = false →
      env.bcrypt.verifyPassword credentials.password loaded.hashedPassword = true →
      loaded.status ≠ .active →
      LoginLawful env encode req credentials past
        (.updateAdmin loaded (AuthService.liftLock loaded))
  | session {loaded} : past.Saw (fun s => s.adminByEmail credentials.email = some loaded) →
      AuthService.locked req.now loaded = false →
      env.bcrypt.verifyPassword credentials.password loaded.hashedPassword = true →
      loaded.status = .active →
      LoginLawful env encode req credentials past
        (.updateAdmin loaded (AuthService.loggedIn req loaded))
  | failed (exc) : LoginLawful env encode req credentials past
      (.insertIntent (AuditService.intent req
        ((authEvent (loginFailureAction exc) (some credentials.email)
          (.obj [("email", .str credentials.email), ("password", .str credentials.password)])
          .null).failure exc.code)))
  | succeeded {loaded token} : loaded.email = credentials.email →
      past.Wrote (.updateAdmin loaded (AuthService.loggedIn req loaded)) →
      LoginLawful env encode req credentials past
        (.insertIntent (AuditService.intent req
          (authEvent .loginSuccess (some credentials.email)
            (.obj [("email", .str credentials.email), ("password", .str credentials.password)])
            (apiResponse codeLoginOk msgLoginOk (tokenJson encode token)))))

/-- The writes of a refresh. -/
inductive RefreshLawful (encode : EncodedToken → String) (req : Request)
    (refreshToken : EncodedToken) (past : Past) : Write → Prop
  | session {payload admin} : decodeToken req.now refreshToken = some payload →
      payload.type = "refresh" → past.Saw (fun s => AuthService.Accepts s payload admin) →
      RefreshLawful encode req refreshToken past
        (.updateAdmin admin { admin with currentRefreshJti := some req.refreshJti.str })
  | failed (exc : AppError) : RefreshLawful encode req refreshToken past
      (.insertIntent (AuditService.intent req
        ((authEvent .refreshFailure none
          (.obj [("refresh_token", .str (encode refreshToken))]) .null).failure exc.code)))
  | succeeded {admin : PlatformAdmin} {token} :
      past.Wrote
        (.updateAdmin admin { admin with currentRefreshJti := some req.refreshJti.str }) →
      RefreshLawful encode req refreshToken past
        (.insertIntent (AuditService.intent req
          (authEvent .refreshSuccess none (.obj [("refresh_token", .str (encode refreshToken))])
            (apiResponse codeRefreshOk msgRefreshOk (tokenJson encode token)))))

section Sessions
variable {α : Type} {L : Db.Policy} {past : Past} {Q : Past → α → Prop}

/-- Issuing a session writes the new pointer. -/
theorem keeps_issueSession {loaded admin current : PlatformAdmin} {permissions : List String}
    (hcurrent : { admin with currentRefreshJti := some req.refreshJti.str } = current)
    (hw : ∀ later, past <:+ later → L later (.updateAdmin loaded current)) :
    (AuthService.issueSession env req loaded admin permissions).Keeps L past fun later _ =>
      later.Wrote (.updateAdmin loaded current) := by
  subst hcurrent
  have htokens : (AuthService.issueTokens env req admin permissions).Keeps L past
      fun _ result => result.2 = req.refreshJti.str := by
    unfold AuthService.issueTokens
    refine Db.keeps_reading_bind (p := RbacService.rolesForAdmin admin.id)
      ((Db.writes_query _).bind fun _ => Db.writes_pure _) fun later roles _ => ?_
    dsimp only
    rw [AuthService.decodeToken_refresh]
    cases createAccessToken env.settings req.now req.accessJti admin.id
        (createRefreshToken env.settings req.now req.refreshJti admin.id) permissions admin.email
        admin.username (RbacService.sorted roles) with
    | none => exact Db.keeps_throw _
    | some accessToken => exact Db.keeps_return rfl
  refine htokens.bind fun later result hlater hjti => ?_
  obtain ⟨token, refreshJti⟩ := result
  obtain rfl : refreshJti = req.refreshJti.str := hjti
  exact Db.keeps_save_bind (hw later hlater) fun _ _ _ _ hwrote _ _ => Db.keeps_return hwrote

theorem keeps_loginLeaving (env : Env) (req : Request) (credentials : LoginRequest) (past : Past) :
    (loginLeaving env req credentials flushLiftedLock).Keeps
      (LoginLawful env encode req credentials) past fun later _ =>
        ∃ loaded, loaded.email = credentials.email ∧
          later.Wrote (.updateAdmin loaded (AuthService.loggedIn req loaded)) := by
  refine Db.keeps_query_bind fun found s _ hat => ?_
  cases hloaded : s.adminByEmail credentials.email with
  | none => exact Db.keeps_throw _
  | some loaded =>
      have hsaw : found.Saw fun s => s.adminByEmail credentials.email = some loaded :=
        hat.saw hloaded
      refine Db.keeps_check_bind fun hunlocked => ?_
      have hpassword : (AuthService.liftLock loaded).hashedPassword = loaded.hashedPassword := by
        unfold AuthService.liftLock
        split <;> rfl
      have hstatus : (AuthService.liftLock loaded).status = loaded.status := by
        unfold AuthService.liftLock
        split <;> rfl
      dsimp only
      by_cases hverify : env.bcrypt.verifyPassword credentials.password
          (AuthService.liftLock loaded).hashedPassword = true
      · rw [if_pos hverify]
        rw [hpassword] at hverify
        refine Db.keeps_when_bind (fun hinactive => ?_) fun hactive => ?_
        · have hinactive : loaded.status ≠ .active := hstatus ▸ of_decide_eq_true hinactive
          have hflush : (flushLiftedLock loaded).Keeps (LoginLawful env encode req credentials)
              found :=
            Db.Keeps.tryCatch
              (Db.keeps_commit (.lifted hsaw hunlocked hverify hinactive))
              fun _ _ _ => Db.keeps_pure ()
          rw [Program.bind_bind]
          exact hflush.bind fun _ _ _ _ => Db.keeps_throw _
        · have hactive : loaded.status = .active := by simpa [hstatus] using hactive
          refine Db.keeps_reading_bind
            (p := RbacService.permissionsForAdmin (AuthService.liftLock loaded).id)
            ((Db.writes_query _).bind fun _ => Db.writes_pure _) fun later permissions hlater => ?_
          refine (keeps_issueSession (AuthService.loggedIn_liftLock loaded) fun last hlast => ?_).post
            fun _ _ _ hwrote => ⟨loaded, (Database.adminByEmail_eq_some.mp hloaded).2, hwrote⟩
          exact .session (hsaw.mono (hlater.trans hlast)) hunlocked hverify hactive
      · rw [if_neg hverify]
        rw [hpassword] at hverify
        have hwrong : LoginLawful env encode req credentials found (.updateAdmin loaded
            (AuthService.countFailure env req (AuthService.liftLock loaded))) :=
          .rejected hsaw hunlocked (Bool.eq_false_iff.mpr hverify)
        unfold AuthService.countFailure at hwrong
        unfold AuthService.rejectPassword
        dsimp only
        split
        · rename_i hlocks
          rw [if_pos hlocks] at hwrong
          exact Db.keeps_save_bind hwrong fun _ _ _ _ _ _ _ => Db.keeps_throw _
        · rename_i hcounts
          rw [if_neg hcounts] at hwrong
          exact Db.keeps_save_bind hwrong fun _ _ _ _ _ _ _ => Db.keeps_throw _

/-- **A login writes only what is lawful.** -/
theorem keeps_login (env : Env) (encode : EncodedToken → String) (req : Request)
    (credentials : LoginRequest) (past : Past) :
    (login env encode req credentials).Keeps
      (LoginLawful env encode (claimedActor req credentials.email .admin) credentials) past := by
  refine keeps_recordingFailure_bind (keeps_loginLeaving env _ credentials past)
    (fun _ exc => .failed exc) fun later token _ hwrote => ?_
  obtain ⟨loaded, hemail, hwrote⟩ := hwrote
  exact AuditService.keeps_record_bind (.succeeded hemail hwrote) fun _ _ => Db.keeps_pure _

/-- The admin behind a payload, as it was when it was looked up. -/
theorem keeps_getAdminFromPayload_bind {payload : TokenPayload} {f : PlatformAdmin → Db α}
    (h : ∀ (q : Database → Option PlatformAdmin) s admin, AuthService.Accepts s payload admin →
      (f admin).Keeps L (⟨.query q, s⟩ :: past) Q) :
    (AuthService.getAdminFromPayload payload >>= f).Keeps L past Q := by
  unfold AuthService.getAdminFromPayload
  cases huser : payload.userId with
  | none => exact Db.keeps_throw _
  | some adminId =>
      dsimp only
      unfold AuthService.getAdminById AuthRepository.getAdminById AuthService.requireCurrentSession
      simp only [Option.filter, Program.bind_bind]
      refine Db.keeps_query_bind_cons fun s => ?_
      cases hfind : s.admins.find? adminId with
      | none => exact Db.keeps_throw _
      | some admin =>
          simp only [Program.bind_bind]
          refine Db.keeps_check_bind fun hactive => ?_
          refine Db.keeps_check_bind fun hkind => ?_
          refine Db.keeps_check_bind fun hpresented => ?_
          obtain ⟨hcurrent, hkind⟩ := not_or.mp (of_decide_eq_false hkind)
          obtain rfl : admin.id = adminId := (Table.find?_eq_some.mp hfind).2
          refine h _ s admin ⟨huser, hfind, by simpa using hactive, not_not.mp hkind,
            Option.isSome_iff_ne_none.mpr hcurrent, by simpa using hpresented⟩

/-- **A refresh writes only what is lawful.** -/
theorem keeps_refresh (env : Env) (encode : EncodedToken → String) (req : Request)
    (refreshToken : EncodedToken) (past : Past) :
    (refresh env encode req refreshToken).Keeps (RefreshLawful encode req refreshToken) past := by
  have hservice : (AuthService.refresh env req refreshToken).Keeps
      (RefreshLawful encode req refreshToken) past fun later _ => ∃ admin : PlatformAdmin,
        later.Wrote (.updateAdmin admin
          { admin with currentRefreshJti := some req.refreshJti.str }) := by
    unfold AuthService.refresh
    cases hdecode : decodeToken req.now refreshToken with
    | none => exact Db.keeps_throw _
    | some payload =>
        refine Db.keeps_check_bind fun htype => ?_
        refine keeps_getAdminFromPayload_bind fun q s admin haccepts => ?_
        refine Db.keeps_reading_bind (p := RbacService.permissionsForAdmin admin.id)
          ((Db.writes_query _).bind fun _ => Db.writes_pure _) fun later permissions hlater => ?_
        have hsaw : Past.Saw later fun s => AuthService.Accepts s payload admin :=
          ((Past.at_cons _ s past).mono hlater).saw haccepts
        refine (keeps_issueSession rfl fun last hlast => ?_).post
          fun _ _ _ hwrote => ⟨admin, hwrote⟩
        exact .session hdecode (by simpa using htype) (hsaw.mono hlast)
  refine keeps_recordingFailure_bind hservice (fun _ exc => .failed exc)
    fun later token _ hwrote => ?_
  obtain ⟨admin, hwrote⟩ := hwrote
  exact AuditService.keeps_record_bind (.succeeded hwrote) fun _ _ => Db.keeps_pure _

end Sessions

/-! ## Password reset -/

/-- An active admin had the email. -/
def ActiveAccount (past : Past) (email : String) (admin : PlatformAdmin) : Prop :=
  admin.status = .active ∧ past.Saw fun s => s.adminByEmail email = some admin

theorem ActiveAccount.mono {past later : Past} {email : String} {admin : PlatformAdmin}
    (h : ActiveAccount past email admin) (hlater : past <:+ later) :
    ActiveAccount later email admin :=
  ⟨h.1, h.2.mono hlater⟩

/-- The writes of a request for an OTP. -/
inductive GenerateOtpLawful (env : Env) (req : Request) (email : String) (past : Past) :
    Write → Prop
  | first {admin row} : ActiveAccount past email admin →
      past.Saw (fun s => s.otps.find? email = none) →
      AuthService.requestedOtp env req email none = some row →
      GenerateOtpLawful env req email past (.insertOtp row)
  | again {admin old row} : ActiveAccount past email admin →
      past.Saw (fun s => s.otps.find? email = some old) →
      AuthService.requestedOtp env req email (some old) = some row →
      GenerateOtpLawful env req email past (.updateOtp old row)
  | throttled : GenerateOtpLawful env req email past
      (.insertIntent (AuditService.intent req
        ((otpEvent .otpThrottled email .null).failure AppError.otpThrottled.code)))
  | answered : GenerateOtpLawful env req email past
      (.insertIntent (AuditService.intent req (otpEvent .otpRequested email otpSent)))

/-- The writes of the verification of an OTP. -/
inductive VerifyOtpLawful (req : Request) (payload : VerifyOtpRequest) (past : Past) :
    Write → Prop
  | verified {admin row} : ActiveAccount past payload.email admin →
      payload.otp = AuthService.otpCode →
      past.Saw (fun s => s.otps.find? payload.email = some row) → req.now < row.expiresAt →
      VerifyOtpLawful req payload past (.updateOtp row { row with verified := true })
  | failed (exc : AppError) : VerifyOtpLawful req payload past
      (.insertIntent (AuditService.intent req
        ((authEvent .otpVerifyFailure (some payload.email)
          (.obj [("email", .str payload.email), ("otp", .str payload.otp)]) .null).failure
          exc.code)))
  | succeeded {row : PasswordResetOtp} : row.email = payload.email →
      past.Wrote (.updateOtp row { row with verified := true }) →
      VerifyOtpLawful req payload past
        (.insertIntent (AuditService.intent req
          (authEvent .otpVerifySuccess (some payload.email)
            (.obj [("email", .str payload.email), ("otp", .str payload.otp)])
            (apiResponse codeOtpVerified msgOtpVerified .null))))

/-- What a reset has established before it writes anything. -/
structure MayReset (env : Env) (req : Request) (payload : UpdatePasswordRequest) (past : Past)
    (admin : PlatformAdmin) : Prop where
  account : ActiveAccount past payload.email admin
  otp : ∃ row, row.verified = true ∧ req.now < row.expiresAt ∧
    past.Saw fun s => s.otps.find? payload.email = some row
  fresh : past.Saw fun s => AuthService.reused env payload.newPassword admin
    (PasswordHistoryRepository.recent s admin.id env.settings.passwordHistoryDepth) = false

theorem MayReset.mono {payload : UpdatePasswordRequest} {past later : Past}
    {admin : PlatformAdmin} (h : MayReset env req payload past admin) (hlater : past <:+ later) :
    MayReset env req payload later admin := by
  obtain ⟨row, hverified, hlive, hsaw⟩ := h.otp
  exact ⟨h.account.mono hlater, ⟨row, hverified, hlive, hsaw.mono hlater⟩, h.fresh.mono hlater⟩

/-- The body of a reset, as it is recorded. -/
def resetBody (payload : UpdatePasswordRequest) : Json :=
  .obj
    [("email", .str payload.email), ("new_password", .str payload.newPassword),
      ("confirm_password", .str payload.newPassword)]

/-- The writes of a password reset. -/
inductive UpdatePasswordLawful (env : Env) (req : Request) (payload : UpdatePasswordRequest)
    (past : Past) : Write → Prop
  | kept {admin} : MayReset env req payload past admin →
      UpdatePasswordLawful env req payload past
        (.insertHistory ⟨req.newId, admin.id, admin.hashedPassword, req.now⟩)
  | trimmed {admin keep} : MayReset env req payload past admin →
      past.Wrote (.insertHistory ⟨req.newId, admin.id, admin.hashedPassword, req.now⟩) →
      UpdatePasswordLawful env req payload past (.trimHistory admin.id keep)
  | reset {admin} : MayReset env req payload past admin →
      past.Wrote (.insertHistory ⟨req.newId, admin.id, admin.hashedPassword, req.now⟩) →
      UpdatePasswordLawful env req payload past
        (.updateAdmin admin (AuthService.resetPassword env req payload.newPassword admin))
  | spent {admin} :
      past.Wrote
        (.updateAdmin admin (AuthService.resetPassword env req payload.newPassword admin)) →
      UpdatePasswordLawful env req payload past (.deleteOtp payload.email)
  | failed (exc : AppError) : UpdatePasswordLawful env req payload past
      (.insertIntent (AuditService.intent req
        ((authEvent .passwordResetFailure (some payload.email) (resetBody payload) .null).failure
          exc.code)))
  | succeeded {admin} : admin.email = payload.email →
      past.Wrote
        (.updateAdmin admin (AuthService.resetPassword env req payload.newPassword admin)) →
      past.Wrote (.deleteOtp payload.email) →
      UpdatePasswordLawful env req payload past
        (.insertIntent (AuditService.intent req
          (authEvent .passwordResetSuccess (some payload.email) (resetBody payload)
            (apiResponse codePasswordUpdated msgPasswordUpdated .null))))

section Reset
variable {past : Past}

theorem keeps_generateOtp_service (env : Env) (req : Request) (email : String) (past : Past) :
    (AuthService.generateOtp env req email).Keeps (GenerateOtpLawful env req email) past := by
  refine Db.keeps_query_bind fun found s _ hat => ?_
  cases hadmin : (s.adminByEmail email).filter (fun a => a.status = .active) with
  | none => exact Db.keeps_pure _
  | some admin =>
      obtain ⟨hemail, hactive⟩ := Option.filter_eq_some_iff.mp hadmin
      have haccount : ActiveAccount found email admin := ⟨of_decide_eq_true hactive, hat.saw hemail⟩
      dsimp only
      refine Db.keeps_query_bind fun later u hlater hat' => ?_
      cases hrow : u.otps.find? email with
      | none => exact (Db.keeps_save_bind (.first (haccount.mono hlater) (hat'.saw hrow) rfl)
          fun _ _ _ _ _ _ _ => Db.keeps_pure _)
      | some old =>
          have hagain : ∀ row, AuthService.requestedOtp env req email (some old) = some row →
              (drop (OtpRepository.save old row)).Keeps (GenerateOtpLawful env req email) later :=
            fun row hnext => Db.keeps_save_bind
              (.again (haccount.mono hlater) (hat'.saw hrow) hnext)
              fun _ _ _ _ _ _ _ => Db.keeps_pure _
          dsimp only
          split
          · rename_i hrestart
            exact hagain _ (by rw [AuthService.requestedOtp, if_pos hrestart])
          · rename_i hsame
            split
            · exact Db.keeps_throw _
            · rename_i hroom
              exact hagain _ (by rw [AuthService.requestedOtp, if_neg hsame, if_neg hroom])

/-- **A request for an OTP writes only what is lawful.** -/
theorem keeps_generateOtp (env : Env) (req : Request) (email : String) (past : Past) :
    (generateOtp env req email).Keeps
      (GenerateOtpLawful env (claimedActor req email .admin) email) past := by
  refine Db.Keeps.bind (R := fun _ _ => True)
    ((keeps_generateOtp_service env _ email past).tryCatch fun later e _ => ?_) fun later _ _ _ => ?_
  · have hthrottled : (AuditService.recordFailure (claimedActor req email .admin)
        (otpEvent .otpThrottled email .null) .otpThrottled).Keeps
        (GenerateOtpLawful env (claimedActor req email .admin) email) later :=
      AuditService.keeps_record .throttled
    exact (hthrottled.when _).bind fun _ _ _ _ => Db.keeps_throw _
  · exact AuditService.keeps_record_bind .answered fun _ _ => Db.keeps_pure _

theorem keeps_verifyOtp_service (req : Request) (payload : VerifyOtpRequest) (past : Past) :
    (AuthService.verifyOtp req payload).Keeps (VerifyOtpLawful req payload) past fun later _ =>
      ∃ row : PasswordResetOtp, row.email = payload.email ∧
        later.Wrote (.updateOtp row { row with verified := true }) := by
  refine Db.keeps_query_bind fun found s _ hat => ?_
  refine Db.keeps_check_bind fun hallowed => ?_
  obtain ⟨hsome, hcode⟩ := not_or.mp (of_decide_eq_false hallowed)
  obtain ⟨admin, hemail, hactive⟩ := (Option.any_eq_true _ _).mp
    (by simpa only [Bool.not_eq_true', Bool.not_eq_false] using hsome)
  have haccount : ActiveAccount found payload.email admin :=
    ⟨of_decide_eq_true hactive, hat.saw hemail⟩
  refine Db.keeps_query_bind fun later u hlater hat' => ?_
  cases hrow : (u.otps.find? payload.email).filter (fun row => req.now < row.expiresAt) with
  | none => exact Db.keeps_throw _
  | some row =>
      obtain ⟨hfind, hlive⟩ := Option.filter_eq_some_iff.mp hrow
      refine Db.keeps_save_bind ?_ fun _ _ _ _ hwrote _ _ =>
        Db.keeps_return ⟨row, (Table.find?_eq_some.mp hfind).2, hwrote⟩
      exact .verified (haccount.mono hlater) (not_not.mp hcode) (hat'.saw hfind)
        (of_decide_eq_true hlive)

/-- **Verifying an OTP writes only what is lawful.** -/
theorem keeps_verifyOtp (req : Request) (payload : VerifyOtpRequest) (past : Past) :
    (verifyOtp req payload).Keeps
      (VerifyOtpLawful (claimedActor req payload.email .admin) payload) past := by
  refine keeps_recordingFailure_bind (keeps_verifyOtp_service _ payload past)
    (fun _ exc => .failed exc) fun later _ _ hwrote => ?_
  obtain ⟨row, hemail, hwrote⟩ := hwrote
  exact AuditService.keeps_record_bind (.succeeded hemail hwrote) fun _ _ => Db.keeps_pure _

theorem keeps_updatePassword_service (env : Env) (req : Request) (payload : UpdatePasswordRequest)
    (past : Past) :
    (AuthService.updatePassword env req payload).Keeps (UpdatePasswordLawful env req payload) past
      fun later _ => ∃ admin, admin.email = payload.email ∧
        later.Wrote (.updateAdmin admin
          (AuthService.resetPassword env req payload.newPassword admin)) ∧
        later.Wrote (.deleteOtp payload.email) := by
  refine Db.keeps_query_bind fun found s _ hat => ?_
  cases hadmin : (s.adminByEmail payload.email).filter (fun a => a.status = .active) with
  | none => exact Db.keeps_throw _
  | some admin =>
      obtain ⟨hemail, hactive⟩ := Option.filter_eq_some_iff.mp hadmin
      have haccount : ActiveAccount found payload.email admin :=
        ⟨of_decide_eq_true hactive, hat.saw hemail⟩
      refine Db.keeps_query_bind fun looked u hlooked hat' => ?_
      refine Db.keeps_check_bind fun hverified => ?_
      obtain ⟨row, hrow, hlive⟩ := (Option.any_eq_true _ _).mp (by simpa using hverified)
      obtain ⟨hrowVerified, hunexpired⟩ := (Bool.and_eq_true _ _).mp hlive
      refine Db.keeps_query_bind fun read v hread hat'' => ?_
      refine Db.keeps_check_bind fun hnew => ?_
      have hmay : MayReset env req payload read admin :=
        ⟨haccount.mono (hlooked.trans hread),
          ⟨row, hrowVerified, of_decide_eq_true hunexpired, (hat'.saw hrow).mono hread⟩,
          hat''.saw hnew⟩
      refine Db.keeps_save_bind (.kept hmay) fun added _ _ hadded hhistory _ _ => ?_
      have htrim : (PasswordHistoryRepository.trim admin.id
          env.settings.passwordHistoryDepth).Keeps (UpdatePasswordLawful env req payload)
          added := by
        refine Db.keeps_query_bind fun later w hlater _ => ?_
        dsimp only
        split
        · exact Db.keeps_pure _
        · exact Db.keeps_commit (.trimmed (hmay.mono (hadded.trans hlater)) (hhistory.mono hlater))
      refine htrim.bind fun trimmed _ htrimmed _ => ?_
      have hreset : UpdatePasswordLawful env req payload trimmed (.updateAdmin admin
          (AuthService.resetPassword env req payload.newPassword admin)) :=
        .reset (hmay.mono (hadded.trans htrimmed)) (hhistory.mono htrimmed)
      refine Db.keeps_save_bind hreset fun written _ _ _ hwrote _ _ => ?_
      refine Db.keeps_commit_bind (.spent hwrote) fun last hlast hspent => ?_
      exact Db.keeps_return
        ⟨admin, (Database.adminByEmail_eq_some.mp hemail).2, hwrote.mono hlast, hspent⟩

/-- **A password reset writes only what is lawful.** -/
theorem keeps_updatePassword (env : Env) (req : Request) (payload : UpdatePasswordRequest)
    (past : Past) :
    (updatePassword env req payload).Keeps
      (UpdatePasswordLawful env (claimedActor req payload.email .admin) payload) past := by
  refine keeps_recordingFailure_bind (keeps_updatePassword_service env _ payload past)
    (fun _ exc => .failed exc) fun later _ _ hwrote => ?_
  obtain ⟨admin, hemail, hwrote, hspent⟩ := hwrote
  exact AuditService.keeps_record_bind (.succeeded hemail hwrote hspent) fun _ _ => Db.keeps_pure _

end Reset

/-! ## Who calls -/

/-- The token of the request was accepted for the admin. -/
def Authenticated (req : Request) (credentials : Option EncodedToken) (past : Past)
    (admin : PlatformAdmin) : Prop :=
  past.Saw fun s => ∃ payload, CallsAs s req.now credentials payload admin

/-- First the token was accepted for the admin, then the admin's permissions were read, and
`P` holds of them. -/
def Checked (req : Request) (credentials : Option EncodedToken) (P : List String → Prop)
    (past : Past) (admin : PlatformAdmin) : Prop :=
  ∃ s₁ s₂ payload, [s₂, s₁].Sublist (past.map Program.Done.state) ∧
    CallsAs s₁ req.now credentials payload admin ∧ P (RbacService.permissions s₂ admin.id)

/-- The caller was found to hold the permission. -/
def Granted (req : Request) (credentials : Option EncodedToken) (required : PermissionName) :
    Past → PlatformAdmin → Prop :=
  Checked req credentials (required.value ∈ ·)

/-- The caller was found not to hold the permission, and nothing has been written. -/
def Denied (req : Request) (credentials : Option EncodedToken) (required : PermissionName)
    (past : Past) (admin : PlatformAdmin) : Prop :=
  Checked req credentials (required.value ∉ ·) past admin ∧ past.Unwritten

/-- The event `_record_denial` records. -/
def denialEvent (req : Request) (admin : PlatformAdmin) (permission : PermissionName) :
    Audit.AuditEvent :=
  AuditService.event .accessDenied (denialResourceType permission) none
    (.obj
      [("permission", .str permission.value), ("display_name", .str admin.username),
        ("method", .str req.method), ("path", .str req.path)])

/-- The event a logout records. -/
def logoutEvent (admin : PlatformAdmin) : Audit.AuditEvent :=
  { AuditService.event .logout (some .auth) (some admin.email) .null with
    response := .obj [("code", .str codeLogoutOk), ("message", .str msgLogoutOk), ("data", .null)] }

/-- The writes of a logout. -/
inductive LogoutLawful (req : Request) (credentials : Option EncodedToken) (past : Past) :
    Write → Prop
  | cleared {admin} : Authenticated req credentials past admin →
      LogoutLawful req credentials past
        (.updateAdmin admin { admin with currentRefreshJti := none })
  | recorded {admin} : Authenticated req credentials past admin →
      past.Wrote (.updateAdmin admin { admin with currentRefreshJti := none }) →
      LogoutLawful req credentials past
        (.insertIntent (AuditService.intent (actingAs req admin) (logoutEvent admin)))

section Callers
variable {α : Type} {L : Db.Policy} {past later : Past} {Q : Past → α → Prop}
  {credentials : Option EncodedToken} {admin : PlatformAdmin}

theorem Authenticated.mono (h : Authenticated req credentials past admin) (hlater : past <:+ later) :
    Authenticated req credentials later admin :=
  Past.Saw.mono h hlater

theorem Checked.mono {P : List String → Prop} (h : Checked req credentials P past admin)
    (hlater : past <:+ later) : Checked req credentials P later admin := by
  obtain ⟨s₁, s₂, payload, horder, hcalls, hP⟩ := h
  exact ⟨s₁, s₂, payload, horder.trans (hlater.map _).sublist, hcalls, hP⟩

/-- Who was checked was authenticated. -/
theorem Checked.authenticated {P : List String → Prop}
    (h : Checked req credentials P past admin) : Authenticated req credentials past admin := by
  obtain ⟨s₁, s₂, payload, horder, hcalls, -⟩ := h
  exact ⟨s₁, horder.subset (by simp), payload, hcalls⟩

/-- The row of the caller was the object that the session holds. -/
theorem Authenticated.found (h : Authenticated req credentials past admin) :
    past.Saw fun s => s.admins.find? admin.id = some admin := by
  obtain ⟨s, hat, payload, hcalls⟩ := h
  exact ⟨s, hat, hcalls.accepted.found⟩

theorem keeps_getCurrentAdmin_bind {f : PlatformAdmin → Db α}
    (h : ∀ (q : Database → Option PlatformAdmin) s admin payload,
      CallsAs s req.now credentials payload admin →
      (f admin).Keeps L (⟨.query q, s⟩ :: past) Q) :
    (getCurrentAdmin req credentials >>= f).Keeps L past Q := by
  unfold getCurrentAdmin accessTokenPayload
  cases hpayload : credentials.bind (decodeToken req.now) with
  | none => exact Db.keeps_throw _
  | some payload =>
      obtain ⟨token, hcredentials, hdecode⟩ := Option.bind_eq_some_iff.mp hpayload
      simp only [Program.bind_bind]
      refine Db.keeps_check_bind fun haccess => ?_
      refine keeps_getAdminFromPayload_bind fun q s admin haccepts => ?_
      exact h q s admin payload
        ⟨⟨token, hcredentials, hdecode⟩, by simpa using haccess, haccepts⟩

/-- **A route behind a permission** serves an admin who was found to hold it, or records that
the admin was found not to. -/
theorem keeps_guarded {required : PermissionName} {serve : Request → PlatformAdmin → Db α}
    (hdenied : ∀ past admin, Denied req credentials required past admin →
      L past (.insertIntent (AuditService.intent (actingAs req admin)
        (denialEvent (actingAs req admin) admin required))))
    (hserve : ∀ past admin, Granted req credentials required past admin →
      (serve (actingAs req admin) admin).Keeps L past Q) :
    (guarded req credentials required serve).Keeps L [] Q := by
  refine keeps_getCurrentAdmin_bind fun q₁ s₁ admin payload hcalls => ?_
  unfold requirePermission RbacService.permissionsForAdmin
    RbacRepository.screenPermissionsForAdmin
  rw [Program.bind_bind, Program.bind_bind]
  refine Db.keeps_query_bind_cons fun s₂ => ?_
  refine Db.keeps_when_bind (fun hmissing => ?_) fun hheld => ?_
  · rw [Program.bind_bind]
    refine AuditService.keeps_record_bind (hdenied _ admin ⟨?_, ?_⟩) fun _ _ => Db.keeps_throw _
    · exact ⟨s₁, s₂, payload, List.Sublist.refl _, hcalls, of_decide_eq_true hmissing⟩
    · exact (Past.unwritten_nil.query q₁ s₁).query _ s₂
  · refine hserve _ admin ⟨s₁, s₂, payload, List.Sublist.refl _, hcalls, ?_⟩
    exact not_not.mp (of_decide_eq_false hheld)

/-- **A logout writes only what is lawful.** -/
theorem keeps_logout (req : Request) (credentials : Option EncodedToken) (past : Past) :
    (logout req credentials).Keeps (LogoutLawful req credentials) past := by
  refine keeps_getCurrentAdmin_bind fun q s admin payload hcalls => ?_
  obtain ⟨token, rfl, hdecode⟩ := hcalls.bears
  have hauthenticated : Authenticated req (some token) (⟨.query q, s⟩ :: past) admin :=
    (Past.at_cons _ s past).saw ⟨payload, hcalls⟩
  dsimp only
  unfold AuthService.logout
  rw [hdecode]
  dsimp only
  rw [Program.bind_bind]
  refine Db.keeps_check_bind fun _ => ?_
  unfold AuthService.clearCurrentSession AuthRepository.getAdminById
  rw [hcalls.accepted.userId]
  simp only [Option.filter, decide_true, if_true]
  change Db.Keeps _ ((AuthRepository.saveAdmin admin _ >>= fun _ => pure ()) >>= fun _ =>
    AuditService.record (actingAs req admin) (logoutEvent admin)) _
  rw [Program.bind_bind]
  have hcleared : LogoutLawful req (some token) (⟨.query q, s⟩ :: past)
      (.updateAdmin admin { admin with currentRefreshJti := none }) := .cleared hauthenticated
  refine Db.keeps_save_bind hcleared fun later _ _ hlater hwrote _ _ => ?_
  exact AuditService.keeps_record (.recorded (hauthenticated.mono hlater) hwrote)

end Callers
end Api
end AdminPlatform
