import AdminPlatform.Access.Mediation
import AdminPlatform.Access.Revocation
import AdminPlatform.Lib.Spares
import AdminPlatform.Platform
import AdminPlatform.Screens.Creation

/-! # What a refused request leaves

A domain error (`app/exceptions/exceptions.py`) tells the caller that the request was refused. The
services check first and write then, so nothing has been done by then, whatever others do in
between: the record of this very refusal is left, the counters of a login that failed, and what
a download has done for the export it is for, which it noted as expired or made anew
(`refused_leaves`). An error of the layers below promises nothing of the kind: it can come after
the commit. -/

namespace AdminPlatform
open AdminPlatform.Lib

/-! ## Requests that check first -/

namespace Db
variable {α β : Type} {W : Write → Prop} {exc : AppError}

/-- The other domain errors. -/
abbrev Other (exc : AppError) : AppError → Prop := fun a => a ≠ exc

/-- Where the request ends in this domain error it has committed nothing but writes of `W`. -/
def Spares (W : Write → Prop) (exc : AppError) (p : Db α) : Prop :=
  Program.Spares (Allowed W) (fun e => ∀ a, e = .app a → Other exc a) p

/-- A statement does not fail with a domain error. -/
theorem ne_app_of_exec {c : Sql β} {s : Database} {e : Failure} (h : (exec c s).1 = .error e)
    (a : AppError) : e ≠ .app a := by
  rintro rfl
  cases c with
  | query q => cases h
  | commit w answer =>
      rw [exec] at h
      split at h
      · cases h
      · cases h

theorem Writes.imp {W' : Write → Prop} {p : Db α} (hp : p.Writes W) (h : ∀ w, W w → W' w) :
    p.Writes W' := by
  refine Program.Within.imp hp fun c hc => ?_
  cases c with
  | query q => trivial
  | commit w answer => exact h w hc

theorem Writes.spares {p : Db α} (hp : p.Writes W) : p.Spares W exc := Program.Within.spares hp

theorem Raises.spares {p : Db α} (hp : p.Raises (Other exc)) : p.Spares W exc := Program.Raising.spares hp

theorem Writes.bind_spares {p : Db α} {f : α → Db β} (hp : p.Writes W)
    (hf : ∀ a, (f a).Spares W exc) : (p >>= f).Spares W exc := Program.Within.bind_spares hp hf

theorem Spares.bind {p : Db α} {f : α → Db β} (hp : p.Spares W exc)
    (hf : ∀ a, (f a).Raises (Other exc)) : (p >>= f).Spares W exc := Program.Spares.bind hp hf

theorem Spares.drop {p : Db α} (hp : p.Spares W exc) : (drop p).Spares W exc :=
  hp.bind fun _ => raises_pure ()

theorem raises_refresh {E : AppError → Prop} {γ : Type} [Row γ] (table : Database → Table γ)
    (k : Row.Key γ) : (refresh table k).Raises E := by
  refine (raises_query _).bind fun row => ?_
  cases row
  · exact nofun
  · exact raises_pure _

theorem raises_save {E : AppError → Prop} {γ : Type} [Row γ] (w : Write)
    (table : Database → Table γ) (k : Row.Key γ) : (save w table k).Raises E :=
  (raises_commit w).bind fun _ => raises_refresh table k

end Db

/-! ## The services -/

section Services
variable {W : Write → Prop} {exc : AppError} {env : Env} {req : Request}

namespace UserService

theorem writes_emailCheck (email : Option String) (userId : Uuid) :
    (email.forM fun email => ensureEmailAvailable email (some userId)).Writes W := by
  cases email with
  | none => exact Db.writes_pure _
  | some email => exact writes_ensureEmailAvailable email _

theorem raises_assignSuperAdmin {E : AppError → Prop} (now : Instant) (adminId : Uuid) :
    (RbacRepository.assignSuperAdmin now adminId).Raises E := by
  refine (Db.raises_query _).bind fun role => ?_
  cases role with
  | none => exact Db.raises_pure _
  | some role =>
      refine (Db.raises_query _).bind fun existing => ?_
      split
      · exact Db.raises_commit _
      · exact Db.raises_pure _

/-- What comes after the checks is done. -/
theorem raises_createUser (data : UserCreate) :
    (do
      let user ← UserRepository.createUser (newUser env req data)
      RbacRepository.assignSuperAdmin req.now user.id
      AuditService.record req
        (AuditService.event .userCreate (some .user) (some user.id.str)
          (.obj [("email", .str user.email), ("name", .str user.username)]))
      return user : Db PlatformAdmin).Raises (Db.Other exc) := by
  exact (Db.raises_save _ _ _).bind fun user => (raises_assignSuperAdmin req.now user.id).bind fun _ =>
    (AuditService.raises_record _ _).bind fun _ => Db.raises_pure _

theorem Op.spares_performHeld (op : Op) (held : PlatformAdmin) :
    (op.performHeld env req held).Spares W exc := by
  cases op with
  | create data =>
      exact ((writes_ensureEmailAvailable data.email none).bind_spares fun _ =>
        (raises_createUser data).spares).drop
  | update userId data =>
      refine Db.Spares.drop ((Api.writes_getUserHeld held userId).bind_spares fun user => ?_)
      refine (writes_emailCheck data.email userId).bind_spares fun _ => ?_
      refine ((writes_guardLastActiveAdmin userId).when _).bind_spares fun _ => Db.Raises.spares ?_
      exact (Db.raises_save _ _ _).bind fun _ =>
        (AuditService.raises_record _ _).bind fun _ => Db.raises_pure _
  | replace userId data =>
      refine Db.Spares.drop ((Api.writes_getUserHeld held userId).bind_spares fun user => ?_)
      refine (writes_ensureEmailAvailable data.email _).bind_spares fun _ => Db.Raises.spares ?_
      exact (Db.raises_save _ _ _).bind fun _ =>
        (AuditService.raises_record _ _).bind fun _ => Db.raises_pure _
  | delete userId =>
      refine (Api.writes_getUserHeld held userId).bind_spares fun user => ?_
      refine ((writes_guardLastActiveAdmin userId).when _).bind_spares fun _ => Db.Raises.spares ?_
      exact (Db.raises_commit _).bind fun _ => AuditService.raises_record _ _

end UserService

namespace RoleService

theorem writes_nameCheck (name : Option String) (roleId : Uuid) :
    (name.forM fun name => ensureNameAvailable name (some roleId)).Writes W := by
  cases name with
  | none => exact Db.writes_pure _
  | some name => exact writes_ensureNameAvailable name _

theorem raises_expandedPermissions {E : AppError → Prop} (roleId : Uuid)
    (permissions : Option (List String)) : (expandedPermissions roleId permissions).Raises E := by
  cases permissions
  · exact Db.raises_pure _
  · exact (Db.raises_query _).bind fun _ => Db.raises_pure _

theorem Op.spares_perform (op : Op) : (op.perform req).Spares W exc := by
  cases op with
  | create data =>
      refine Db.Spares.drop ((writes_ensureNameAvailable data.name none).bind_spares fun _ => ?_)
      refine (Screens.writes_normalized data.permissions).bind_spares fun byCode => ?_
      refine (writes_validateScreenCodes byCode).bind_spares fun _ => Db.Raises.spares ?_
      exact (Db.raises_save _ _ _).bind fun _ => (Db.raises_query _).bind fun _ =>
        (AuditService.raises_record _ _).bind fun _ => Db.raises_pure _
  | update roleId data =>
      refine Db.Spares.drop ((writes_getRole roleId).bind_spares fun role => ?_)
      refine ((Db.writes_throw _).when _).bind_spares fun _ => ?_
      refine (writes_nameCheck data.name roleId).bind_spares fun _ => ?_
      refine (Screens.writes_updateRows roleId data.permissions).bind_spares fun rows => ?_
      refine Db.Raises.spares ((Db.raises_save _ _ _).bind fun role => ?_)
      exact (raises_expandedPermissions roleId data.permissions).bind fun _ =>
        (AuditService.raises_record _ _).bind fun _ =>
          (Db.raises_query _).bind fun _ => Db.raises_pure _
  | delete roleId =>
      refine (writes_getRole roleId).bind_spares fun role => ?_
      refine ((Db.writes_throw _).when _).bind_spares fun _ => Db.Raises.spares ?_
      exact (Db.raises_commit _).bind fun _ => AuditService.raises_record _ _

end RoleService

namespace ScreenService

theorem writes_ensureCodeAvailable (code : String) : (ensureCodeAvailable code).Writes W :=
  (Db.writes_query _).bind fun _ => (Db.writes_throw _).when _

theorem Op.spares_perform (op : Op) : (op.perform req).Spares W exc := by
  cases op with
  | create data =>
      refine Db.Spares.drop ((writes_chooseCode data).bind_spares fun code => ?_)
      refine (writes_ensureCodeAvailable code).bind_spares fun _ => ?_
      refine (Db.writes_query _).bind_spares fun superAdmin => Db.Raises.spares ?_
      exact (Db.raises_save _ _ _).bind fun _ =>
        (AuditService.raises_record _ _).bind fun _ => Db.raises_pure _
  | update screenId data =>
      refine Db.Spares.drop ((writes_getScreen screenId).bind_spares fun screen => ?_)
      refine ((Db.writes_throw _).when _).bind_spares fun _ => Db.Raises.spares ?_
      exact (Db.raises_save _ _ _).bind fun _ =>
        (AuditService.raises_record _ _).bind fun _ => Db.raises_pure _
  | delete screenId =>
      refine (writes_getScreen screenId).bind_spares fun screen => ?_
      refine ((Db.writes_throw _).when _).bind_spares fun _ => Db.Raises.spares ?_
      exact (Db.raises_commit _).bind fun _ => AuditService.raises_record _ _

end ScreenService

namespace AuthService

theorem raises_orJwtError {E : AppError → Prop} {α : Type} (o : Option α) :
    (orJwtError o).Raises E := by
  cases o
  · exact nofun
  · exact Db.raises_pure _

/-- To start a session refuses nothing. -/
theorem raises_issueSession {E : AppError → Prop} (loaded admin : PlatformAdmin)
    (permissions : List String) : (issueSession env req loaded admin permissions).Raises E := by
  refine Db.Raises.bind ?_ fun issued => (Db.raises_save _ _ _).bind fun _ => Db.raises_pure _
  refine Db.Raises.bind ((Db.raises_query _).bind fun _ => Db.raises_pure _) fun roles => ?_
  exact (raises_orJwtError _).bind fun _ => (raises_orJwtError _).bind fun _ => Db.raises_pure _

theorem writes_permissions {W : Write → Prop} (adminId : Uuid) :
    (RbacService.permissionsForAdmin adminId).Writes W :=
  (Db.writes_query _).bind fun _ => Db.writes_pure _

theorem spares_refresh (refreshToken : EncodedToken) : (refresh env req refreshToken).Spares W exc := by
  unfold refresh
  split
  · exact (Db.writes_throw _).spares
  · refine ((Db.writes_throw _).when _).bind_spares fun _ => ?_
    refine (Revocation.writes_getAdminFromPayload _).bind_spares fun admin => ?_
    exact (writes_permissions admin.id).bind_spares fun _ => (raises_issueSession _ _ _).spares

theorem spares_logout (accessToken : EncodedToken) (held : Option PlatformAdmin) :
    (logout req accessToken held).Spares W exc := by
  unfold logout
  split
  · exact (Db.writes_throw _).spares
  · rename_i payload _
    refine ((Db.writes_throw _).when _).bind_spares fun _ => ?_
    unfold clearCurrentSession
    split
    · exact (Db.writes_throw _).spares
    · rename_i adminId _
      have hget : (AuthRepository.getAdminById adminId held).Writes W := by
        unfold AuthRepository.getAdminById
        split
        · exact Db.writes_pure _
        · exact Db.writes_query _
      refine hget.bind_spares fun admin => ?_
      cases admin with
      | none => exact (Db.writes_throw _).spares
      | some admin => exact ((Db.raises_save _ _ _).bind fun _ => Db.raises_pure _).spares

theorem spares_generateOtp (email : String) : (generateOtp env req email).Spares W exc := by
  refine (Db.writes_query _).bind_spares fun admin => ?_
  have hsave : ∀ w k, (drop (save w Database.otps k)).Spares W exc := fun w k =>
    Db.Spares.drop (Db.raises_save w _ k).spares
  split
  · exact (Db.writes_pure _).spares
  · refine (Db.writes_query _).bind_spares fun row => ?_
    split
    · exact hsave _ _
    · split
      · exact hsave _ _
      · split
        · exact (Db.writes_throw _).spares
        · exact hsave _ _

theorem spares_verifyOtp (payload : VerifyOtpRequest) : (verifyOtp req payload).Spares W exc := by
  refine (Db.writes_query _).bind_spares fun admin => ?_
  refine ((Db.writes_throw _).when _).bind_spares fun _ => ?_
  refine (Db.writes_query _).bind_spares fun row => ?_
  split
  · exact (Db.writes_throw _).spares
  · exact Db.Spares.drop (Db.raises_save _ _ _).spares

theorem spares_updatePassword (payload : UpdatePasswordRequest) :
    (updatePassword env req payload).Spares W exc := by
  refine (Db.writes_query _).bind_spares fun admin => ?_
  split
  · exact (Db.writes_throw _).spares
  · refine (Db.writes_query _).bind_spares fun row => ?_
    refine ((Db.writes_throw _).when _).bind_spares fun _ => ?_
    refine (Db.writes_query _).bind_spares fun recent => ?_
    refine ((Db.writes_throw _).when _).bind_spares fun _ => Db.Raises.spares ?_
    refine (Db.raises_save _ _ _).bind fun _ => Db.Raises.bind ?_ fun _ =>
      (Db.raises_save _ _ _).bind fun _ => (Db.raises_commit _).bind fun _ => Db.raises_pure _
    -- trimming the history
    refine (Db.raises_query _).bind fun rows => ?_
    dsimp only
    split
    · exact Db.raises_pure _
    · exact Db.raises_commit _

end AuthService

namespace ExportService

theorem spares_createExport (adminEmail : String) (data : ExportCreate) :
    (createExport env req adminEmail data).Spares W exc := by
  refine (writes_spec _).bind_spares fun spec => ?_
  refine (writes_filtersForModule data).bind_spares fun filters => ?_
  refine (writes_countRows spec _).bind_spares fun rowCount => ?_
  refine ((Db.writes_throw _).when _).bind_spares fun _ => Db.Raises.spares ?_
  exact (Db.raises_save _ _ _).bind fun _ =>
    (AuditService.raises_record _ _).bind fun _ => Db.raises_pure _

/-- What comes before the last check looks after the export. -/
theorem spares_downloadExportFrom {stream : ExportSpec → Json → Db (List ExportRow)}
    (hstream : ∀ spec filters, (stream spec filters).Writes W)
    (hupdate : ∀ loaded current, W (.updateExport loaded current))
    (hfile : ∀ path file, W (.writeFile path file)) (exportId : Uuid) (adminEmail : String) :
    (downloadExportFrom stream env req exportId adminEmail).Spares W exc := by
  refine Db.Writes.bind_spares ?_ fun entry => ?_
  · refine (writes_getExport exportId none).bind fun entry => ?_
    cases entry
    · exact Db.writes_throw _
    · exact ((Db.writes_throw _).when _).bind fun _ => Db.writes_pure _
  refine Db.Writes.bind_spares ?_ fun _ => ?_
  · exact Db.Writes.when ((Db.writes_commit (hupdate _ _)).bind fun _ => Db.writes_throw _) _
  refine Db.Writes.bind_spares ?_ fun entry => (Db.writes_query _).bind_spares fun isFile => ?_
  · refine (Db.writes_query _).bind fun present => ?_
    split
    · refine (writes_getExport _ _).bind fun entry => ?_
      cases entry with
      | none => exact Db.writes_throw _
      | some entry =>
          refine (writes_spec _).bind fun spec => (hstream spec _).bind fun rows => ?_
          refine (writes_writeFile _ _ _ _ _ (hfile _)).bind fun _ => ?_
          exact (Db.writes_commit (hupdate _ _)).bind fun _ => Db.writes_pure _
    · exact Db.writes_pure _
  refine ((Db.writes_throw _).when _).bind_spares fun _ => Db.Raises.spares ?_
  exact (AuditService.raises_record _ _).bind fun _ => Db.raises_pure _

end ExportService
end Services

/-! ## The routes -/

namespace Api
variable {env : Env} {encode : EncodedToken → String} {req : Request}

/-- The record that the routes before authentication make of a refusal. -/
def Call.refusal (encode : EncodedToken → String) (req : Request) (exc : AppError) :
    Call → Option Audit.AuditIntent
  | .login credentials => some
      (AuditService.intent (claimedActor req credentials.email .admin)
        ((authEvent (loginFailureAction exc) (some credentials.email)
          (.obj [("email", .str credentials.email), ("password", .str credentials.password)])
          .null).failure exc.code))
  | .refresh refreshToken => some
      (AuditService.intent req
        ((authEvent .refreshFailure none (.obj [("refresh_token", .str (encode refreshToken))])
          .null).failure exc.code))
  | .generateOtp email =>
      if exc = .otpThrottled then some
        (AuditService.intent (claimedActor req email .admin)
          ((otpEvent .otpThrottled email .null).failure AppError.otpThrottled.code))
      else none
  | .verifyOtp payload => some
      (AuditService.intent (claimedActor req payload.email .admin)
        ((authEvent .otpVerifyFailure (some payload.email)
          (.obj [("email", .str payload.email), ("otp", .str payload.otp)]) .null).failure
          exc.code))
  | .updatePassword payload => some
      (AuditService.intent (claimedActor req payload.email .admin)
        ((authEvent .passwordResetFailure (some payload.email)
          (.obj
            [("email", .str payload.email), ("new_password", .str payload.newPassword),
              ("confirm_password", .str payload.newPassword)]) .null).failure exc.code))
  | _ => none

/-- The kinds of writes that come before a refusal. -/
inductive Leaves (env : Env) (encode : EncodedToken → String) (req : Request) (exc : AppError) :
    Call → Write → Prop
  | denied {call credentials required admin} : call.guard = some (credentials, required) →
      .permissionDenied = exc →
      Leaves env encode req exc call
        (.insertIntent (AuditService.intent (actingAs req admin)
          (denialEvent (actingAs req admin) admin required)))
  | recorded {call intent} : Call.refusal encode req exc call = some intent →
      Leaves env encode req exc call (.insertIntent intent)
  | counters {credentials loaded current} :
      env.bcrypt.verifyPassword credentials.password loaded.hashedPassword = false ∨
        loaded.status ≠ .active →
      Leaves env encode req exc (.login credentials) (.updateAdmin loaded current)
  | entry {credentials exportId queries loaded current} :
      Leaves env encode req exc (.downloadExport credentials exportId queries)
        (.updateExport loaded current)
  | file {credentials exportId queries path file} :
      Leaves env encode req exc (.downloadExport credentials exportId queries)
        (.writeFile path file)

/-- What a request that is refused with `exc` has committed, after what it had done before. -/
inductive Residue (env : Env) (encode : EncodedToken → String) (req : Request) (past : Past)
    (exc : AppError) : Call → Write → Prop
  /-- The record of the denial. -/
  | denied {call credentials required admin} : call.guard = some (credentials, required) →
      .permissionDenied = exc → Denied req credentials required past admin →
      Residue env encode req past exc call
        (.insertIntent (AuditService.intent (actingAs req admin)
          (denialEvent (actingAs req admin) admin required)))
  /-- The record of the refusal. -/
  | recorded {call intent} : Call.refusal encode req exc call = some intent →
      Residue env encode req past exc call (.insertIntent intent)
  /-- The counters of the account. -/
  | counters {call loaded current} : FailedLogin env req call past loaded current →
      Residue env encode req past exc call (.updateAdmin loaded current)
  /-- The caller's export that the download is of has run out. -/
  | expired {credentials exportId queries caller entry} :
      Granted req credentials .auditRead past caller →
      ExportService.Owned exportId caller.email past entry →
      ExportService.windowOver req.now entry = true →
      Residue env encode req past exc (.downloadExport credentials exportId queries)
        (.updateExport entry { entry with status := .expired })
  /-- Its file is generated. -/
  | file {credentials exportId queries caller entry spec rows} {before : Past} :
      Granted req credentials .auditRead past caller →
      ExportService.Owned exportId caller.email before entry →
      ExportService.windowOver req.now entry = false →
      exportSpecs.lookup entry.module = some spec →
      ExportService.Fetched env (some caller) spec entry.filters before past rows →
      Residue env encode req past exc (.downloadExport credentials exportId queries)
        (.writeFile (ExportService.pathOf env spec entry)
          (ExportService.workbook env req.now spec entry rows))
  /-- It is marked ready again. -/
  | ready {credentials exportId queries caller entry spec rowCount} :
      Granted req credentials .auditRead past caller →
      ExportService.Owned exportId caller.email past entry →
      ExportService.windowOver req.now entry = false →
      exportSpecs.lookup entry.module = some spec →
      Residue env encode req past exc (.downloadExport credentials exportId queries)
        (.updateExport entry (ExportService.readied env req.now spec entry rowCount))

section Routes
variable {call : Call} {exc : AppError} {past : Past}

/-- The values of the actions tell them apart. -/
theorem eq_accessDenied (action : AuditAction)
    (h : action.value = AuditAction.accessDenied.value) : action = .accessDenied := by
  cases action with
  | accessDenied => rfl
  | _ => exact absurd h (by decide)

/-- Only a denial is recorded as one. -/
theorem denied_of_lawful {intent : Audit.AuditIntent}
    (h : Lawful env encode req past call (.insertIntent intent))
    (haction : intent.payload.action = AuditAction.accessDenied.value) :
    ∃ credentials required admin, call.guard = some (credentials, required) ∧
      Denied req credentials required past admin ∧
      intent = AuditService.intent (actingAs req admin)
        (denialEvent (actingAs req admin) admin required) := by
  cases h with
  | denied hguard hdenied => exact ⟨_, _, _, hguard, hdenied, rfl⟩
  | login h =>
      cases h with
      | failed exc =>
          have hfailure := eq_accessDenied (loginFailureAction exc) haction
          cases exc <;> cases hfailure
      | succeeded => cases eq_accessDenied .loginSuccess haction
  | refresh h =>
      cases h with
      | failed => cases eq_accessDenied .refreshFailure haction
      | succeeded => cases eq_accessDenied .refreshSuccess haction
  | generateOtp h =>
      cases h with
      | throttled => cases eq_accessDenied .otpThrottled haction
      | answered => cases eq_accessDenied .otpRequested haction
  | verifyOtp h =>
      cases h with
      | failed => cases eq_accessDenied .otpVerifyFailure haction
      | succeeded => cases eq_accessDenied .otpVerifySuccess haction
  | updatePassword h =>
      cases h with
      | failed => cases eq_accessDenied .passwordResetFailure haction
      | succeeded => cases eq_accessDenied .passwordResetSuccess haction
  | logout h =>
      cases h with
      | recorded => cases eq_accessDenied .logout haction
  | users _ h =>
      cases h with
      | created => cases eq_accessDenied .userCreate haction
      | updated => cases eq_accessDenied .userUpdate haction
      | replaced => cases eq_accessDenied .userReplace haction
      | deleted => cases eq_accessDenied .userDelete haction
  | roles _ h =>
      cases h with
      | created => cases eq_accessDenied .roleCreate haction
      | updated => cases eq_accessDenied .roleUpdate haction
      | deleted => cases eq_accessDenied .roleDelete haction
  | screens _ h =>
      cases h with
      | created => cases eq_accessDenied .screenCreate haction
      | updated => cases eq_accessDenied .screenUpdate haction
      | deleted => cases eq_accessDenied .screenDelete haction
  | auditRead => cases eq_accessDenied .auditRead haction
  | createExport _ h =>
      cases h with
      | created => cases eq_accessDenied .exportGenerated haction
  | downloadExport _ h =>
      cases h with
      | served => cases eq_accessDenied .exportDownloaded haction
  | generateTask h => cases h

/-- What comes before a refusal is lawful, and so it is what the request has to leave. -/
theorem residue_of_lawful {w : Write} (hlawful : Lawful env encode req past call w)
    (hleaves : Leaves env encode req exc call w) : Residue env encode req past exc call w := by
  cases hleaves with
  | denied hguard hexc =>
      obtain ⟨credentials, required, admin, hguard, hdenied, hintent⟩ :=
        denied_of_lawful hlawful rfl
      rw [hintent]
      exact .denied hguard hexc hdenied
  | recorded hrefusal => exact .recorded hrefusal
  | counters hfails =>
      cases hlawful with
      | login h =>
          cases h with
          | rejected hsaw hunlocked hverify =>
              exact .counters ⟨_, rfl, hsaw, hunlocked, .inl ⟨hverify, rfl⟩⟩
          | lifted hsaw hunlocked hverify hinactive =>
              exact .counters ⟨_, rfl, hsaw, hunlocked, .inr ⟨hverify, hinactive, rfl⟩⟩
          | session _ _ hverify hactive =>
              rcases hfails with hwrong | hinactive
              · cases hverify.symm.trans hwrong
              · exact absurd hactive hinactive
  | entry =>
      cases hlawful with
      | downloadExport hgranted h =>
          cases h with
          | expired howned hover => exact .expired hgranted howned hover
          | ready howned hopen hspec => exact .ready hgranted howned hopen hspec
  | file =>
      cases hlawful with
      | downloadExport hgranted h =>
          cases h with
          | file howned hopen hspec hfetched => exact .file hgranted howned hopen hspec hfetched

theorem writes_getCurrentAdmin {W : Write → Prop} (credentials : Option EncodedToken) :
    (getCurrentAdmin req credentials).Writes W := by
  refine Db.Writes.bind ?_ Revocation.writes_getAdminFromPayload
  unfold accessTokenPayload
  split
  · exact Db.writes_throw _
  · exact ((Db.writes_throw _).when _).bind fun _ => Db.writes_pure _

/-- The refusal that is recorded is the one that is raised. -/
theorem spares_record_raise {α : Type} {W : Write → Prop} {a : AppError}
    {req : Request} {event : Audit.AuditEvent}
    (h : a = exc → W (.insertIntent (AuditService.intent req event))) :
    (AuditService.record req event >>= fun _ => raise a : Db α).Spares W exc := by
  by_cases ha : a = exc
  · refine Db.Writes.spares (Db.Writes.bind ?_ fun _ => Db.writes_throw _)
    refine Db.Writes.tryCatch ?_ fun _ => Db.writes_pure ()
    exact (Db.writes_save (h ha) _ _).bind fun _ => Db.writes_pure ()
  · refine Db.Raises.spares ((AuditService.raises_record req event).bind fun _ => ?_)
    rintro a' ⟨⟩
    exact ha

/-- The dependencies record a denial, and then the route is served. -/
theorem spares_guarded {α : Type} {credentials : Option EncodedToken} {required : PermissionName}
    {serve : Request → PlatformAdmin → Db α} (hguard : call.guard = some (credentials, required))
    (hserve : ∀ req' admin, (serve req' admin).Spares (Leaves env encode req exc call) exc) :
    (guarded req credentials required serve).Spares (Leaves env encode req exc call) exc := by
  refine (writes_getCurrentAdmin credentials).bind_spares fun admin => ?_
  unfold requirePermission
  rw [Program.bind_bind]
  refine (AuthService.writes_permissions admin.id).bind_spares fun granted => ?_
  cases decide (required.value ∉ granted) with
  | false => exact hserve _ admin
  | true =>
      show ((recordDenial (actingAs req admin) admin required >>= fun _ =>
        raise .permissionDenied) >>= fun _ => serve (actingAs req admin) admin).Spares _ exc
      rw [Program.bind_bind]
      exact spares_record_raise fun hexc => .denied hguard hexc

theorem spares_recordingFailure {α : Type} {W : Write → Prop} {req : Request}
    {event : AppError → Audit.AuditEvent} {p : Db α} (hp : p.Spares W exc)
    (h : W (.insertIntent (AuditService.intent req ((event exc).failure exc.code)))) :
    (recordingFailure req event p).Spares W exc := by
  refine Program.Spares.tryCatch hp (fun e => ?_) fun e he => ?_
  · cases e with
    | app a =>
        refine spares_record_raise fun ha => ?_
        rw [ha]
        exact h
    | _ => exact (Db.writes_throw _).spares
  · cases e with
    | app a =>
        refine (AuditService.raises_record _ _).bind fun _ => ?_
        exact he
    | _ => exact he

theorem spares_generateOtp (email : String) :
    (generateOtp env req email).Spares (Leaves env encode req exc (.generateOtp email)) exc := by
  refine Db.Spares.bind (Program.Spares.tryCatch (AuthService.spares_generateOtp email)
    (fun e => ?_) fun e he => ?_) fun _ =>
      (AuditService.raises_record _ _).bind fun _ => Db.raises_pure _
  · by_cases he : e = .app .otpThrottled
    · subst he
      exact spares_record_raise fun hexc => .recorded (by rw [Call.refusal, if_pos hexc.symm])
    · have hunrecorded : decide (e = .app .otpThrottled) = false := decide_eq_false he
      rw [hunrecorded]
      exact (Db.writes_throw _).spares
  · exact ((AuditService.raises_record _ _).when _).bind fun _ => he

theorem spares_loginLeaving (credentials : LoginRequest) (req' : Request) :
    (loginLeaving env req' credentials flushLiftedLock).Spares
      (Leaves env encode req exc (.login credentials)) exc := by
  refine (Db.writes_query _).bind_spares fun admin => ?_
  cases admin with
  | none => exact (Db.writes_throw _).spares
  | some loaded =>
      refine ((Db.writes_throw _).when _).bind_spares fun _ => ?_
      have hpassword : (AuthService.liftLock loaded).hashedPassword = loaded.hashedPassword :=
        (onlyCounters_liftLock loaded).hashedPassword
      have hstatus : (AuthService.liftLock loaded).status = loaded.status :=
        (onlyCounters_liftLock loaded).status
      dsimp only
      split
      · by_cases hactive : loaded.status = .active
        · rw [hstatus, hactive]
          exact (AuthService.writes_permissions _).bind_spares fun _ =>
            (AuthService.raises_issueSession _ _ _).spares
        · refine Db.Writes.bind_spares (Db.Writes.when ?_ _) fun _ => ?_
          · refine Db.Writes.bind ?_ fun _ => Db.writes_throw _
            exact (Db.writes_commit (.counters (.inr hactive))).tryCatch fun _ => Db.writes_pure _
          · exact (AuthService.writes_permissions _).bind_spares fun _ =>
              (AuthService.raises_issueSession _ _ _).spares
      · rename_i hwrong
        rw [hpassword] at hwrong
        have hcounts : ∀ current, Leaves env encode req exc (.login credentials)
            (.updateAdmin loaded current) := fun _ => .counters (.inl (Bool.eq_false_iff.mpr hwrong))
        unfold AuthService.rejectPassword
        dsimp only
        split
        · exact Db.Writes.spares ((Db.writes_save (hcounts _) _ _).bind fun _ => Db.writes_throw _)
        · exact Db.Writes.spares ((Db.writes_save (hcounts _) _ _).bind fun _ => Db.writes_throw _)

/-- **Every route checks first.** -/
theorem spares_serve (env : Env) (encode : EncodedToken → String) (req : Request) (call : Call) :
    (call.serve env encode req).Spares (Leaves env encode req exc call) exc := by
  have hdone : ∀ {α : Type} (req : Request) (e : Audit.AuditEvent) (a : α),
      (AuditService.record req e >>= fun _ => pure a : Db α).Raises (Db.Other exc) := fun req e a =>
    (AuditService.raises_record req e).bind fun _ => Db.raises_pure a
  cases call with
  | login credentials =>
      exact ((spares_recordingFailure (spares_loginLeaving credentials _) (.recorded rfl)).bind
        fun _ => hdone _ _ _).drop
  | refresh refreshToken =>
      exact ((spares_recordingFailure (AuthService.spares_refresh refreshToken) (.recorded rfl)).bind
        fun _ => hdone _ _ _).drop
  | generateOtp email => exact (spares_generateOtp email).drop
  | verifyOtp payload =>
      exact ((spares_recordingFailure (AuthService.spares_verifyOtp payload) (.recorded rfl)).bind
        fun _ => hdone _ _ _).drop
  | updatePassword payload =>
      exact ((spares_recordingFailure (AuthService.spares_updatePassword payload) (.recorded rfl)).bind
        fun _ => hdone _ _ _).drop
  | logout credentials =>
      refine Db.Writes.bind_spares (writes_getCurrentAdmin credentials) fun admin => ?_
      cases credentials with
      | none => exact (Db.writes_throw _).spares
      | some token =>
          exact (AuthService.spares_logout token (some admin)).bind fun _ =>
            AuditService.raises_record _ _
  | users credentials op =>
      show (guarded req credentials .usersWrite fun req admin =>
        op.performHeld env req admin).Spares _ exc
      exact spares_guarded rfl fun _ admin => op.spares_performHeld admin
  | listUsers credentials order params fromDate toDate page limit =>
      exact (spares_guarded rfl fun _ _ => (writes_paginated _ _ _ _).spares).drop
  | getUser credentials userId =>
      exact (spares_guarded rfl fun _ admin => (writes_getUserHeld admin userId).spares).drop
  | roles credentials op =>
      show (guarded req credentials .rolesWrite fun req _ => op.perform req).Spares _ exc
      exact spares_guarded rfl fun _ _ => op.spares_perform
  | listRoles credentials order batchOrder search status page limit =>
      refine (spares_guarded rfl fun _ _ => Db.Writes.spares ?_).drop
      exact (writes_paginated _ _ _ _).bind fun _ =>
        (writes_permissionsForRoles _ _).bind fun _ => Db.writes_pure _
  | getRole credentials roleId =>
      refine (spares_guarded rfl fun _ _ => Db.Writes.spares ?_).drop
      exact (RoleService.writes_getRole roleId).bind RoleService.writes_readRole
  | screens credentials op =>
      show (guarded req credentials .screensWrite fun req _ => op.perform req).Spares _ exc
      exact spares_guarded rfl fun _ _ => op.spares_perform
  | listScreens credentials order search status page limit =>
      exact (spares_guarded rfl fun _ _ => (writes_paginated _ _ _ _).spares).drop
  | getScreen credentials screenId =>
      exact (spares_guarded rfl fun _ _ => (ScreenService.writes_getScreen screenId).spares).drop
  | listAuditLogs credentials order params fromDate toDate page limit =>
      exact (spares_guarded rfl fun _ _ => (writes_paginated _ _ _ _).bind_spares fun _ =>
        (hdone _ _ _).spares).drop
  | createExport credentials data =>
      exact (spares_guarded rfl fun _ admin => ExportService.spares_createExport admin.email data).drop
  | getExport credentials exportId =>
      exact (spares_guarded rfl fun _ admin =>
        (writes_getExportStatus exportId admin.email).spares).drop
  | downloadExport credentials exportId queries =>
      exact (spares_guarded rfl fun _ admin => ExportService.spares_downloadExportFrom
        (ExportService.writes_rowStreamInSession env queries admin) (fun _ _ => .entry)
        (fun _ _ => .file) exportId admin.email).drop
  | generateTask exportId queries =>
      -- whatever goes wrong is caught
      exact Db.Raises.spares (Program.raising_tryCatch _ fun _ =>
        Program.raising_tryCatch _ fun _ => Db.raises_pure _)

end Routes
end Api

/-! ## Requests that take turns -/

namespace Platform
variable {ι π : Type} [DecidableEq ι] [DecidableEq π] {env : Env}
  {encode : EncodedToken → String} {calls : ι → Request × Api.Call} {start : Database}
  {s : Platform ι π} {t : List (Platform ι π × Label ι π)}

omit [DecidableEq ι] [DecidableEq π] in
/-- The turns of a run are the steps of its requests. -/
theorem mem_turns {q : Program.Threads Sql Failure Database ι × (ι × Option Failure)}
    (h : q ∈ t.filterMap turnOf) :
    ∃ v j fault, (v, Label.turn j fault) ∈ t ∧ q = (v.threads, (j, fault)) := by
  obtain ⟨⟨v, l⟩, hp, hturn⟩ := List.mem_filterMap.mp h
  cases l with
  | turn j fault => exact ⟨v, j, fault, hp, (Option.some.inj hturn).symm⟩
  | promote l => cases hturn

/-- **A refused request has left next to nothing.** Whatever other requests and promoters do in
between its statements: if it has ended in a domain error, then all that it has committed is the
record of this refusal, the counters of a login that failed, or what a download does for its
export. A statement that fails does not do so with a domain error. -/
theorem refused_leaves (hrun : (machine env encode calls start).Run t s)
    (hfaults : ∀ p ∈ t, ∀ j e, p.2 ≠ .turn j (some (.app e))) {i : ι} {exc : AppError}
    (hend : s.requests i = .throw (.app exc)) :
    ∀ w, (past t i).Wrote w → ∃ before, (past t i).WroteAfter before w ∧
      Api.Residue env encode (calls i).1 before exc (calls i).2 w := by
  have hturns := turns_of_run hrun
  have hleaves := Program.allowed_of_throw
    (P := fun i => Db.Allowed (Api.Leaves env encode (calls i).1 exc (calls i).2))
    (fun p hp i => (hp i).symm ▸ Api.spares_serve env encode (calls i).1 (calls i).2)
    (fun c s e h a ha => absurd ha (Db.ne_app_of_exec h a)) hturns ?_ hend fun h => h exc rfl rfl
  · rintro w ⟨β, answer, u, hw⟩
    obtain ⟨before, hbefore, hlawful⟩ := Program.allowed_of_done keeps_of_start hturns i _ hw
    exact ⟨before, ⟨β, answer, u, hbefore⟩, Api.residue_of_lawful hlawful (hleaves _ hw)⟩
  · rintro q hq f hfault a rfl
    obtain ⟨v, j, fault, hp, rfl⟩ := mem_turns hq
    exact absurd (congrArg (Label.turn j) hfault) (hfaults _ hp j a)

/-! ### A run -/

open Api (signedInState signedInCalls)
open Administration (sampleEnv)

/-- A login with the wrong password, while another request is to rename the account: the failure is
counted and recorded. -/
def refusedLabels : List (Label Bool Unit) :=
  [.turn false none, .turn true none, .turn false none, .turn true none, .turn false none,
    .turn false none, .turn true none, .turn false none]

theorem refused_leaves_refusedLabels :
    ∃ t s, (machine sampleEnv (fun _ => "") signedInCalls signedInState).Run t s ∧
      t.map Prod.snd = refusedLabels ∧
      s.requests false = .throw (.app .invalidCredentials) ∧
      (s.database.admins.rows.map PlatformAdmin.failedLoginAttempts,
        s.database.auditIntents.rows.length) = ([0, 1], 1) ∧
      ∀ w, (past t false).Wrote w → ∃ before, (past t false).WroteAfter before w ∧
        Api.Residue sampleEnv (fun _ => "") (signedInCalls false).1 before .invalidCredentials
          (signedInCalls false).2 w := by
  have hexec : (machine sampleEnv (fun _ => "") signedInCalls signedInState).exec
      refusedLabels sample = some _ := rfl
  have hrun := Machine.Run.of_exec (.start initial_sample) hexec
  have hlabels := Machine.map_snd_trace hexec
  refine ⟨_, _, hrun, hlabels, rfl, by decide +kernel,
    refused_leaves hrun (fun p hp j e heq => ?_) rfl⟩
  have hin : p.2 ∈ refusedLabels := hlabels ▸ List.mem_map_of_mem hp
  rw [heq] at hin
  simp [refusedLabels] at hin

end Platform
end AdminPlatform
