import AdminPlatform.Conduct.Refusals
import AdminPlatform.Lib.Endings

/-! # Nothing succeeds in silence

What the trail says has been done (`Api.outbox_accountable`); this is the other direction. A
request that has done its work is recorded, and so is one that was denied for want of a
permission, or whose attempt to log in, to refresh or to reset a password failed. Recording is
best-effort: where the write of the intent fails, its error is swallowed, and the request
goes on. But nothing else comes in between (`reported`): while others work and promoters run, the
intent is queued, or it is sealed. -/

namespace AdminPlatform
open AdminPlatform.Lib AdminPlatform.Lib.Paging

/-- An intent of the action has been queued. -/
def Past.Reported (past : Past) (action : AuditAction) : Prop :=
  ∃ intent : Audit.AuditIntent, past.Wrote (.insertIntent intent) ∧
    intent.payload.action = action.value

theorem Past.Reported.mono {past later : Past} {action : AuditAction} (h : past.Reported action)
    (hlater : past <:+ later) : later.Reported action := by
  obtain ⟨intent, hwrote, haction⟩ := h
  exact ⟨intent, hwrote.mono hlater, haction⟩

namespace Db
variable {α β : Type} {success : Option AuditAction} {failure : AppError → Option AuditAction}
  {E : AppError → Prop}

/-- How a statement may fail: not with a domain error, and not where it queues an intent. -/
def Fails : ∀ {β : Type}, Sql β → Failure → Prop
  | _, .commit (.insertIntent _) _, _ => False
  | _, _, e => ∀ a, e ≠ .app a

theorem Fails.ne {c : Sql β} {e : Failure} (h : Fails c e) (a : AppError) : e ≠ .app a := by
  cases c with
  | query q => exact h a
  | commit w answer =>
      cases w with
      | insertIntent intent => exact h.elim
      | _ => exact h a

/-- What has to be reported by the end: `success` of what has returned, and `failure` of a
domain error. -/
def Told (success : Option AuditAction) (failure : AppError → Option AuditAction) (past : Past) :
    Except Failure α → Prop
  | .ok _ => ∀ action ∈ success, past.Reported action
  | .error e => ∀ a, e = .app a → ∀ action ∈ failure a, past.Reported action

/-- The request reports how it ends. -/
def Tells (success : Option AuditAction) (failure : AppError → Option AuditAction) (p : Db α) :
    Prop :=
  ∀ past, Program.Ends Fails (Told success failure) p past

/-- An error that is not to be reported. -/
theorem told_error {past : Past} {e : Failure} (he : ∀ a, e = .app a → failure a = none) :
    Told (α := α) success failure past (.error e) := by
  intro a ha action haction
  rw [he a ha] at haction
  cases haction

theorem tells_nothing (p : Db α) : p.Tells none fun _ => none := by
  refine fun past => Program.ends_of_forall (fun past r => ?_) p
  cases r with
  | ok a => exact nofun
  | error e => exact fun _ _ => nofun

/-- A part whose errors are not to be reported. -/
theorem Raises.tells {p : Db α} (hp : p.Raises E) (hE : ∀ e, E e → failure e = none) :
    p.Tells none failure := by
  intro past
  refine (Program.Raising.ends hp fun c e he a ha => (he.ne a ha).elim).imp fun later r _ hr => ?_
  cases r with
  | ok a => exact nofun
  | error e => exact told_error fun a ha => hE a (hr e rfl a ha)

theorem tells_throw {e : Failure} (he : ∀ a, e = .app a → failure a = none) :
    (throw e : Db α).Tells success failure := fun _ => told_error he

theorem tells_pure (a : α) : (pure a : Db α).Tells none failure := fun _ => nofun

theorem Tells.bind {x : Db β} {f : β → Db α} (hx : x.Tells none failure)
    (hf : ∀ b, (f b).Tells success failure) : (x >>= f).Tells success failure :=
  fun past => (hx past).bind (fun later b _ _ => hf b later) fun _ _ _ he => he

theorem Tells.when {p : Db Unit} (hp : p.Tells none failure) (b : Bool) :
    (when b p).Tells none failure := by
  cases b
  · exact tells_pure ()
  · exact hp

/-- What comes after the report. -/
theorem Tells.followed {x : Db β} {f : β → Db α} (hx : x.Tells success failure)
    (hf : ∀ b, (f b).Tells none failure) : (x >>= f).Tells success failure := by
  refine fun past => (hx past).bind (fun later b _ hb => ?_) fun _ _ _ he => he
  refine (hf b later).imp fun final r hfinal hr => ?_
  cases r with
  | ok a => exact fun action haction => (hb action haction).mono hfinal
  | error e => exact hr

theorem Tells.drop {p : Db α} (hp : p.Tells success failure) :
    (AdminPlatform.drop p).Tells success failure :=
  hp.followed fun _ => tells_pure ()

/-- **Recording queues an intent**: its write fails only where that of an intent may fail. -/
theorem ends_record (req : Request) (event : Audit.AuditEvent) (past : Past) :
    Program.Ends Fails (fun later r => r = .ok () ∧
      Past.Wrote later (.insertIntent (AuditService.intent req event)))
      (AuditService.record req event) past := by
  let intent := AuditService.intent req event
  have hwrite : Program.Ends Fails
      (fun later (_ : Except Failure Unit) => Past.Wrote later (.insertIntent intent))
      (commit (.insertIntent intent) >>= fun _ =>
        refresh Database.auditIntents intent.id >>= fun _ => pure ()) past := by
    refine ⟨fun s _ => ?_, nofun⟩
    have hwrote : Past.Wrote (⟨.commit (.insertIntent intent) (), s⟩ :: past)
        (.insertIntent intent) := Past.wrote_cons _ _ s past
    exact (Program.ends_true _).imp
      fun later _ hlater _ => hwrote.mono hlater
  exact Program.Ends.tryCatch hwrite (fun _ _ _ h => ⟨rfl, h⟩) fun _ _ _ h => ⟨rfl, h⟩

theorem tells_record {req : Request} {event : Audit.AuditEvent} {action : AuditAction}
    (haction : event.action = action.value) :
    (AuditService.record req event).Tells (some action) failure := by
  refine fun past => (ends_record req event past).imp fun later r _ => ?_
  rintro ⟨rfl, hwrote⟩ reported hmem
  obtain rfl := Option.some.inj hmem
  exact ⟨_, hwrote, haction⟩

/-- A failure is recorded before it is raised. -/
theorem tells_record_throw {req : Request} {event : Audit.AuditEvent} {e : AppError}
    (hevent : ∀ action ∈ failure e, event.action = action.value) :
    (AuditService.record req event >>= fun _ => (throw (.app e) : Db α)).Tells success failure := by
  refine fun past => (ends_record req event past).bind (fun later _ _ hrecord => ?_)
    fun later e' _ hrecord => nomatch hrecord.1
  rintro _ ⟨⟩ action hmem
  exact ⟨_, hrecord.2, hevent action hmem⟩

end Db

/-! ## What a request reports -/

namespace UserService

def Op.action : Op → AuditAction
  | .create _ => .userCreate
  | .update _ _ => .userUpdate
  | .replace _ _ => .userReplace
  | .delete _ => .userDelete

end UserService

namespace RoleService

def Op.action : Op → AuditAction
  | .create _ => .roleCreate
  | .update _ _ => .roleUpdate
  | .delete _ => .roleDelete

end RoleService

namespace ScreenService

def Op.action : Op → AuditAction
  | .create _ => .screenCreate
  | .update _ _ => .screenUpdate
  | .delete _ => .screenDelete

end ScreenService

namespace Api

/-- What a request reports where it returns. -/
def Call.success : Call → Option AuditAction
  | .login _ => some .loginSuccess
  | .refresh _ => some .refreshSuccess
  | .generateOtp _ => some .otpRequested
  | .verifyOtp _ => some .otpVerifySuccess
  | .updatePassword _ => some .passwordResetSuccess
  | .logout _ => some .logout
  | .users _ op => some op.action
  | .roles _ op => some op.action
  | .screens _ op => some op.action
  | .listAuditLogs .. => some .auditRead
  | .createExport _ _ => some .exportGenerated
  | .downloadExport .. => some .exportDownloaded
  | _ => none

/-- What is reported of a request to a route behind a permission: that it was denied. -/
def denial : AppError → Option AuditAction
  | .permissionDenied => some .accessDenied
  | _ => none

/-- What a request reports where it raises a domain error. -/
def Call.failure : Call → AppError → Option AuditAction
  | .login _, e => some (loginFailureAction e)
  | .refresh _, _ => some .refreshFailure
  | .generateOtp _, e => if e = .otpThrottled then some .otpThrottled else none
  | .verifyOtp _, _ => some .otpVerifyFailure
  | .updatePassword _, _ => some .passwordResetFailure
  -- the export of another admin is refused with the error of a denial, but without a record
  | .getExport _ _, _ | .downloadExport .., _ => none
  | .logout _, _ | .generateTask _ _, _ => none
  | _, e => denial e

def Call.report (call : Call) : Except Failure Unit → Option AuditAction
  | .ok () => call.success
  | .error (.app e) => call.failure e
  | .error _ => none

end Api

/-! ## The services -/

/-- No error of the request is that of a denial. -/
abbrev Db.Undenied {α : Type} (p : Db α) : Prop := p.Raises fun e => Api.denial e = none

theorem Db.Undenied.tells {α : Type} {p : Db α} (hp : p.Undenied) : p.Tells none Api.denial :=
  Db.Raises.tells hp fun _ => id

/-- `if condition: raise …`. -/
theorem Db.undenied_check {e : AppError} (he : Api.denial e = none) (c : Bool) :
    (when c (raise e)).Undenied := (Db.raises_raise he).when c

section Services
variable {env : Env} {req : Request}

namespace UserService

theorem undenied_ensureEmailAvailable (email : String) (excludeId : Option Uuid) :
    (ensureEmailAvailable email excludeId).Undenied := by
  refine (Db.raises_query _).bind fun existing => ?_
  cases existing
  · exact Db.raises_pure _
  · exact Db.undenied_check rfl _

theorem undenied_emailCheck (email : Option String) (userId : Uuid) :
    (email.forM fun email => ensureEmailAvailable email (some userId)).Undenied := by
  cases email with
  | none => exact Db.raises_pure _
  | some email => exact undenied_ensureEmailAvailable email _

theorem undenied_guardLastActiveAdmin (adminId : Uuid) : (guardLastActiveAdmin adminId).Undenied :=
  (Db.raises_query _).bind fun _ => Db.undenied_check rfl _

theorem undenied_getUserHeld (held : PlatformAdmin) (userId : Uuid) :
    (getUserHeld held userId).Undenied := by
  have hget : (AuthRepository.getAdminById userId (some held)).Undenied := by
    unfold AuthRepository.getAdminById
    split
    · exact Db.raises_pure _
    · exact Db.raises_query _
  refine hget.bind fun user => ?_
  cases user
  · exact Db.raises_raise rfl
  · exact Db.raises_pure _

theorem Op.tells_performHeld (op : Op) (held : PlatformAdmin) :
    (op.performHeld env req held).Tells (some op.action) Api.denial := by
  cases op with
  | create data =>
      refine Db.Tells.drop ((undenied_ensureEmailAvailable data.email none).tells.bind fun _ => ?_)
      refine (Db.Undenied.tells (Db.raises_save _ _ _)).bind fun user => ?_
      refine (Db.Undenied.tells (raises_assignSuperAdmin req.now user.id)).bind fun _ => ?_
      exact (Db.tells_record rfl).followed fun _ => Db.tells_pure user
  | update userId data =>
      refine Db.Tells.drop ((undenied_getUserHeld held userId).tells.bind fun user => ?_)
      refine (undenied_emailCheck data.email userId).tells.bind fun _ => ?_
      refine ((undenied_guardLastActiveAdmin userId).tells.when _).bind fun _ => ?_
      refine (Db.Undenied.tells (Db.raises_save _ _ _)).bind fun user => ?_
      exact (Db.tells_record rfl).followed fun _ => Db.tells_pure user
  | replace userId data =>
      refine Db.Tells.drop ((undenied_getUserHeld held userId).tells.bind fun user => ?_)
      refine (undenied_ensureEmailAvailable data.email _).tells.bind fun _ => ?_
      refine (Db.Undenied.tells (Db.raises_save _ _ _)).bind fun user => ?_
      exact (Db.tells_record rfl).followed fun _ => Db.tells_pure user
  | delete userId =>
      refine (undenied_getUserHeld held userId).tells.bind fun user => ?_
      refine ((undenied_guardLastActiveAdmin userId).tells.when _).bind fun _ => ?_
      exact (Db.Undenied.tells (Db.raises_commit _)).bind fun _ => Db.tells_record rfl

end UserService

namespace RoleService

theorem undenied_ensureNameAvailable (name : String) (excludeId : Option Uuid) :
    (ensureNameAvailable name excludeId).Undenied := by
  refine (Db.raises_query _).bind fun existing => ?_
  cases existing
  · exact Db.raises_pure _
  · exact Db.undenied_check rfl _

theorem undenied_nameCheck (name : Option String) (roleId : Uuid) :
    (name.forM fun name => ensureNameAvailable name (some roleId)).Undenied := by
  cases name with
  | none => exact Db.raises_pure _
  | some name => exact undenied_ensureNameAvailable name _

theorem undenied_normalized (given : List String) : (normalized given).Undenied := by
  unfold normalized
  split
  · exact Db.raises_pure _
  · exact nofun

theorem undenied_validateScreenCodes (byCode : List (String × Bool × Bool)) :
    (validateScreenCodes byCode).Undenied :=
  ((Db.raises_query _).bind fun _ => Db.undenied_check rfl _).when _

theorem undenied_getRole (roleId : Uuid) : (getRole roleId).Undenied := by
  refine (Db.raises_query _).bind fun role => ?_
  cases role
  · exact Db.raises_raise rfl
  · exact Db.raises_pure _

theorem undenied_updateRows (roleId : Uuid) (permissions : Option (List String)) :
    (updateRows req roleId permissions).Undenied := by
  cases permissions with
  | none => exact Db.raises_pure _
  | some given =>
      exact (undenied_normalized given).bind fun byCode =>
        (undenied_validateScreenCodes byCode).bind fun _ => Db.raises_pure _

theorem undenied_readRole (role : Role) : (readRole role).Undenied :=
  (Db.raises_query _).bind fun _ => Db.raises_pure _

theorem Op.tells_perform (op : Op) : (op.perform req).Tells (some op.action) Api.denial := by
  cases op with
  | create data =>
      refine Db.Tells.drop ((undenied_ensureNameAvailable data.name none).tells.bind fun _ => ?_)
      refine (undenied_normalized data.permissions).tells.bind fun byCode => ?_
      refine (undenied_validateScreenCodes byCode).tells.bind fun _ => ?_
      refine (Db.Undenied.tells (Db.raises_save _ _ _)).bind fun role => ?_
      refine (Db.Undenied.tells (Db.raises_query _)).bind fun rows => ?_
      exact (Db.tells_record rfl).followed fun _ => Db.tells_pure _
  | update roleId data =>
      refine Db.Tells.drop ((undenied_getRole roleId).tells.bind fun role => ?_)
      refine (Db.undenied_check rfl _).tells.bind fun _ => ?_
      refine (undenied_nameCheck data.name roleId).tells.bind fun _ => ?_
      refine (undenied_updateRows roleId data.permissions).tells.bind fun rows => ?_
      refine (Db.Undenied.tells (Db.raises_save _ _ _)).bind fun role => ?_
      refine (Db.Undenied.tells (raises_expandedPermissions roleId data.permissions)).bind
        fun expanded => ?_
      exact (Db.tells_record rfl).followed fun _ => (undenied_readRole role).tells
  | delete roleId =>
      refine (undenied_getRole roleId).tells.bind fun role => ?_
      refine (Db.undenied_check rfl _).tells.bind fun _ => ?_
      exact (Db.Undenied.tells (Db.raises_commit _)).bind fun _ => Db.tells_record rfl

end RoleService

namespace ScreenService

theorem raises_chooseCode {E : AppError → Prop} (data : ScreenCreate) :
    (chooseCode data).Raises E := by
  unfold chooseCode
  split
  · split
    · exact Db.raises_query _
    · exact Db.raises_pure _
  · exact Db.raises_query _

theorem undenied_getScreen (screenId : Uuid) : (getScreen screenId).Undenied := by
  refine (Db.raises_query _).bind fun screen => ?_
  cases screen
  · exact Db.raises_raise rfl
  · exact Db.raises_pure _

theorem Op.tells_perform (op : Op) : (op.perform req).Tells (some op.action) Api.denial := by
  cases op with
  | create data =>
      refine Db.Tells.drop ((Db.Undenied.tells (raises_chooseCode data)).bind fun code => ?_)
      refine Db.Tells.bind (Db.Undenied.tells ?_) fun _ => ?_
      · exact (Db.raises_query _).bind fun _ => Db.undenied_check rfl _
      refine (Db.Undenied.tells (Db.raises_query _)).bind fun superAdmin => ?_
      refine (Db.Undenied.tells (Db.raises_save _ _ _)).bind fun screen => ?_
      exact (Db.tells_record rfl).followed fun _ => Db.tells_pure _
  | update screenId data =>
      refine Db.Tells.drop ((undenied_getScreen screenId).tells.bind fun screen => ?_)
      refine (Db.undenied_check rfl _).tells.bind fun _ => ?_
      refine (Db.Undenied.tells (Db.raises_save _ _ _)).bind fun screen => ?_
      exact (Db.tells_record rfl).followed fun _ => Db.tells_pure _
  | delete screenId =>
      refine (undenied_getScreen screenId).tells.bind fun screen => ?_
      refine (Db.undenied_check rfl _).tells.bind fun _ => ?_
      exact (Db.Undenied.tells (Db.raises_commit _)).bind fun _ => Db.tells_record rfl

end ScreenService

namespace ExportService

theorem undenied_spec (module : String) : (spec module).Undenied := by
  unfold spec
  split
  · exact Db.raises_pure _
  · exact Db.raises_raise rfl

theorem undenied_filtersForModule (data : ExportCreate) : (filtersForModule data).Undenied := by
  unfold filtersForModule
  split
  · exact Db.raises_pure _
  · exact Db.raises_pure _
  · exact Db.raises_pure _
  · exact Db.raises_pure _
  · exact Db.raises_raise rfl

theorem undenied_countRows (spec : ExportSpec) (filters : Json) :
    (countRows env spec filters).Undenied := by
  unfold countRows
  split
  · exact Db.raises_query _
  · split
    · exact Db.raises_query _
    · exact Db.raises_raise rfl

theorem tells_createExport (adminEmail : String) (data : ExportCreate) :
    (createExport env req adminEmail data).Tells (some .exportGenerated) Api.denial := by
  refine (undenied_spec _).tells.bind fun spec => ?_
  refine (undenied_filtersForModule data).tells.bind fun filters => ?_
  refine (undenied_countRows spec _).tells.bind fun rowCount => ?_
  refine (Db.undenied_check rfl _).tells.bind fun _ => ?_
  refine (Db.Undenied.tells (Db.raises_save _ _ _)).bind fun entry => ?_
  exact (Db.tells_record rfl).followed fun _ => Db.tells_pure _

/-- A download is recorded last; what is refused before is not. -/
theorem tells_downloadExportFrom (stream : ExportSpec → Json → Db (List ExportRow))
    (exportId : Uuid) (adminEmail : String) :
    (downloadExportFrom stream env req exportId adminEmail).Tells (some .exportDownloaded)
      fun _ => none := by
  refine (Db.tells_nothing _).bind fun entry => ?_
  refine (Db.tells_nothing _).bind fun _ => (Db.tells_nothing _).bind fun entry => ?_
  refine (Db.tells_nothing _).bind fun isFile => (Db.tells_nothing _).bind fun _ => ?_
  exact (Db.tells_record rfl).followed fun _ => Db.tells_nothing _

end ExportService
end Services

/-! ## The routes -/

namespace Api
variable {env : Env} {encode : EncodedToken → String} {req : Request} {α β : Type}
  {success : Option AuditAction} {failure : AppError → Option AuditAction}

theorem undenied_getCurrentAdmin (credentials : Option EncodedToken) :
    (getCurrentAdmin req credentials).Undenied := by
  refine Db.Raises.bind ?_ fun payload => ?_
  · unfold accessTokenPayload
    split
    · exact Db.raises_raise rfl
    · exact (Db.undenied_check rfl _).bind fun _ => Db.raises_pure _
  · unfold AuthService.getAdminFromPayload
    split
    · exact Db.raises_raise rfl
    · refine Db.Raises.bind ?_ fun admin => Db.Raises.bind ?_ fun _ => Db.raises_pure _
      · refine (Db.raises_query _).bind fun found => ?_
        cases found
        · exact Db.raises_raise rfl
        · exact (Db.undenied_check rfl _).bind fun _ => Db.raises_pure _
      · exact (Db.undenied_check rfl _).bind fun _ => Db.undenied_check rfl _

/-- **A denial is recorded.** -/
theorem tells_guarded {credentials : Option EncodedToken} {required : PermissionName}
    {serve : Request → PlatformAdmin → Db α}
    (hfailure : ∀ e, ∀ action ∈ failure e, denial e = some action)
    (hserve : ∀ req admin, (serve req admin).Tells success failure) :
    (guarded req credentials required serve).Tells success failure := by
  have hsilent : ∀ e, denial e = none → failure e = none := by
    intro e he
    refine Option.eq_none_iff_forall_not_mem.mpr fun action haction => ?_
    rw [hfailure e action haction] at he
    cases he
  refine (Db.Raises.tells (undenied_getCurrentAdmin credentials) hsilent).bind fun admin =>
    Db.Tells.bind ?_ fun _ => hserve _ admin
  refine Db.Tells.bind (Db.Raises.tells (E := fun _ => False) ?_ nofun) fun granted => ?_
  · exact (Db.raises_query _).bind fun _ => Db.raises_pure _
  · refine (Db.tells_record_throw fun action haction => ?_).when _
    obtain rfl := Option.some.inj (hfailure _ action haction)
    rfl

/-- A route that reports a denial at most. -/
theorem tells_reading_route {credentials : Option EncodedToken} {required : PermissionName}
    {serve : Request → PlatformAdmin → Db α} (hserve : ∀ req admin, (serve req admin).Undenied) :
    (drop (guarded req credentials required serve)).Tells none denial :=
  (tells_guarded (fun _ _ => id) fun req admin => (hserve req admin).tells).drop

/-- **A failure is recorded**, and so is what comes after a success. -/
theorem tells_recordingFailure {event : AppError → Audit.AuditEvent} {p : Db β} {f : β → Db α}
    (hevent : ∀ e, ∀ action ∈ failure e, (event e).action = action.value)
    (hf : ∀ b, (f b).Tells success failure) :
    (recordingFailure req event p >>= f).Tells success failure := by
  refine Db.Tells.bind (fun past => ?_) hf
  refine (Program.ends_true p).tryCatch
    (fun _ _ _ _ => nofun) fun later e _ _ => ?_
  cases e with
  | app exc =>
      have hrecord : (AuditService.recordFailure req (event exc) exc >>= fun _ =>
          (throw (.app exc) : Db β)).Tells none failure := Db.tells_record_throw (hevent exc)
      exact hrecord later
  | _ => exact nofun

/-- The last of a route: it records its success and answers. -/
theorem tells_answer {event : Audit.AuditEvent} {action : AuditAction}
    (haction : event.action = action.value) (a : α) :
    (AuditService.record req event >>= fun _ => pure a : Db α).Tells (some action) failure :=
  (Db.tells_record haction).followed fun _ => Db.tells_pure a

theorem undenied_paginated {le : α → α → Prop} (matching : Database → List α)
    (order : OrderBy le) (page limit : Nat) : (paginated matching order page limit).Undenied :=
  (Db.raises_query _).bind fun _ => (Db.raises_query _).bind fun _ => Db.raises_pure _

theorem undenied_permissionsForRoles (order : OrderBy (Ascending RoleRepository.batchKey))
    (roleIds : List Uuid) : (RoleRepository.permissionsForRoles order roleIds).Undenied := by
  unfold RoleRepository.permissionsForRoles
  split
  · exact Db.raises_pure _
  · exact (Db.raises_query _).bind fun _ => Db.raises_pure _

/-- Of the failures of a request for an OTP only that it was throttled is recorded. -/
theorem tells_generateOtp (email : String) : (generateOtp env req email).Tells
    (some .otpRequested) (Call.generateOtp email).failure := by
  refine Db.Tells.bind (fun past => ?_) fun _ => tells_answer rfl _
  refine (Program.ends_true _).tryCatch
    (fun _ _ _ _ => nofun) fun later e _ _ => ?_
  by_cases he : e = .app .otpThrottled
  · subst he
    have hthrottled : (AuditService.recordFailure (claimedActor req email .admin)
        (otpEvent .otpThrottled email .null) .otpThrottled >>= fun _ =>
          (throw (.app .otpThrottled) : Db Unit)).Tells none (Call.generateOtp email).failure :=
      Db.tells_record_throw fun action haction =>
        congrArg AuditAction.value (Option.some.inj haction)
    exact hthrottled later
  · rw [when, if_neg (by simpa using he)]
    refine Db.tells_throw (fun a ha => ?_) later
    exact if_neg fun hthrottled => he (ha.trans (congrArg Failure.app hthrottled))

/-- **Every route reports what it has done.** -/
theorem tells_serve (env : Env) (encode : EncodedToken → String) (req : Request) (call : Call) :
    (call.serve env encode req).Tells call.success call.failure := by
  cases call with
  | login credentials =>
      refine Db.Tells.drop (tells_recordingFailure (fun e action haction => ?_) fun token =>
        tells_answer rfl _)
      exact congrArg AuditAction.value (Option.some.inj haction)
  | refresh refreshToken =>
      refine Db.Tells.drop (tells_recordingFailure (fun e action haction => ?_) fun token =>
        tells_answer rfl _)
      exact congrArg AuditAction.value (Option.some.inj haction)
  | generateOtp email => exact (tells_generateOtp email).drop
  | verifyOtp payload =>
      refine Db.Tells.drop (tells_recordingFailure (fun e action haction => ?_) fun _ =>
        tells_answer rfl _)
      exact congrArg AuditAction.value (Option.some.inj haction)
  | updatePassword payload =>
      refine Db.Tells.drop (tells_recordingFailure (fun e action haction => ?_) fun _ =>
        tells_answer rfl _)
      exact congrArg AuditAction.value (Option.some.inj haction)
  | logout credentials =>
      refine Db.Tells.bind (Db.tells_nothing _) fun admin => ?_
      cases credentials with
      | none => exact Db.tells_throw fun _ _ => rfl
      | some token => exact Db.Tells.bind (Db.tells_nothing _) fun _ => Db.tells_record rfl
  | users credentials op =>
      show (guarded req credentials .usersWrite fun req admin =>
        op.performHeld env req admin).Tells (some op.action) denial
      exact tells_guarded (fun _ _ => id) fun _ admin => op.tells_performHeld admin
  | listUsers credentials order params fromDate toDate page limit =>
      exact tells_reading_route fun _ _ => undenied_paginated _ _ _ _
  | getUser credentials userId =>
      exact tells_reading_route fun _ admin => UserService.undenied_getUserHeld admin userId
  | roles credentials op =>
      show (guarded req credentials .rolesWrite fun req _ =>
        op.perform req).Tells (some op.action) denial
      exact tells_guarded (fun _ _ => id) fun _ _ => op.tells_perform
  | listRoles credentials order batchOrder search status page limit =>
      refine tells_reading_route fun _ _ => (undenied_paginated _ _ _ _).bind fun _ => ?_
      exact (undenied_permissionsForRoles _ _).bind fun _ => Db.raises_pure _
  | getRole credentials roleId =>
      exact tells_reading_route fun _ _ => (RoleService.undenied_getRole roleId).bind
        RoleService.undenied_readRole
  | screens credentials op =>
      show (guarded req credentials .screensWrite fun req _ =>
        op.perform req).Tells (some op.action) denial
      exact tells_guarded (fun _ _ => id) fun _ _ => op.tells_perform
  | listScreens credentials order search status page limit =>
      exact tells_reading_route fun _ _ => undenied_paginated _ _ _ _
  | getScreen credentials screenId =>
      exact tells_reading_route fun _ _ => ScreenService.undenied_getScreen screenId
  | listAuditLogs credentials order params fromDate toDate page limit =>
      refine Db.Tells.drop (tells_guarded (fun _ _ => id) fun _ _ => ?_)
      exact (undenied_paginated _ _ _ _).tells.bind fun _ => tells_answer rfl _
  | createExport credentials data =>
      exact Db.Tells.drop (tells_guarded (fun _ _ => id) fun _ admin =>
        ExportService.tells_createExport admin.email data)
  | getExport credentials exportId => exact Db.tells_nothing _
  | downloadExport credentials exportId queries =>
      refine Db.Tells.drop (tells_guarded (fun e action haction => ?_) fun _ admin =>
        ExportService.tells_downloadExportFrom _ exportId admin.email)
      cases haction
  | generateTask exportId queries => exact Db.tells_nothing _

end Api

/-! ## Requests that take turns -/

namespace Platform
variable {ι π : Type} [DecidableEq ι] [DecidableEq π] {env : Env}
  {encode : EncodedToken → String} {calls : ι → Request × Api.Call} {start : Database}
  {s : Platform ι π} {t : List (Platform ι π × Label ι π)} {i : ι}

/-- Where the step is one at which `i` writes an intent, the write is made. -/
def queues (i : ι) : Platform ι π × Label ι π → Bool
  | (s, .turn j fault) =>
      match s.requests i with
      | .call (.commit (.insertIntent intent) _) _ =>
          j ≠ i ∨ (fault.isNone ∧ ((Write.insertIntent intent).apply s.database).isOk)
      | _ => true
  | (_, .promote _) => true

omit [DecidableEq π] in
theorem fails_of_queues {s : Platform ι π} {fault : Option Failure} {β : Type} {c : Sql β}
    {k : Except Failure β → Db Unit} {e : Failure} (hqueues : queues i (s, .turn i fault) = true)
    (hfault : ∀ a, fault ≠ some (.app a)) (hcall : s.requests i = .call c k)
    (hwhy : fault = some e ∨ fault = none ∧ (exec c s.database).1 = .error e) : Db.Fails c e := by
  have happ : ∀ a, e ≠ .app a := by
    rcases hwhy with rfl | ⟨-, herror⟩
    · exact fun a ha => hfault a (congrArg some ha)
    · exact Db.ne_app_of_exec herror
  cases c with
  | query q => exact happ
  | commit w answer =>
      cases w with
      | insertIntent intent =>
          simp only [queues, hcall, ne_eq, not_true_eq_false, false_or, decide_eq_true_eq] at hqueues
          obtain ⟨hnone, hok⟩ := hqueues
          rcases hwhy with rfl | ⟨-, herror⟩
          · cases hnone
          · rw [exec] at herror
            split at herror
            · cases herror
            · rename_i hrefused
              rw [hrefused] at hok
              cases hok
      | _ => exact happ

/-- A request is accountable for all it has recorded. -/
theorem accountable_of_wrote (hrun : (machine env encode calls start).Run t s)
    {intent : Audit.AuditIntent} (h : (past t i).Wrote (.insertIntent intent)) :
    Api.Recorded (calls i).1 (calls i).2 (past t i) intent := by
  obtain ⟨β, answer, v, hwrote⟩ := h
  obtain ⟨before, hbefore, hlawful⟩ :=
    Program.allowed_of_done keeps_of_start (turns_of_run hrun) i _ hwrote
  exact ⟨before, ⟨β, answer, v, hbefore⟩, Api.accountable_of_lawful hlawful⟩

/-- **Nothing succeeds in silence.** Whatever other requests and promoters do in between, and
wherever they fail: a request that has ended in a way that is to be reported has recorded it,
under the identity it was served under, unless the write of its intent itself has failed; and
the intent is still queued, or it is sealed. -/
theorem reported (hrun : (machine env encode calls start).Run t s)
    (hfaults : ∀ p ∈ t, ∀ j e, p.2 ≠ .turn j (some (.app e)))
    (hqueues : ∀ p ∈ t, queues i p = true) {r : Except Failure Unit}
    (hend : (s.requests i).outcome = some r) {action : AuditAction}
    (haction : action ∈ (calls i).2.report r) :
    ∃ intent : Audit.AuditIntent, intent.payload.action = action.value ∧
      Api.Recorded (calls i).1 (calls i).2 (past t i) intent ∧
      (intent ∈ s.database.auditIntents ∨
        ∃ row ∈ Audit.sealedRows s.database.auditLogs, row.content = intent.content) := by
  have hserve : ∀ p : ι → Db Unit, (∀ i, p i = (calls i).2.serve env encode (calls i).1) → ∀ i,
      Program.Ends Db.Fails (Db.Told (calls i).2.success (calls i).2.failure) (p i) [] :=
    fun p hp i => (hp i).symm ▸ Api.tells_serve env encode (calls i).1 (calls i).2 []
  have hends := Program.ends_done hserve (turns_of_run hrun) i ?_
  · have htold := hends.outcome hend
    have hreported : (past t i).Reported action := by
      match r, htold, haction with
      | .ok (), htold, haction => exact htold action haction
      | .error (.app e), htold, haction => exact htold e rfl action haction
    obtain ⟨intent, hwrote, hintent⟩ := hreported
    exact ⟨intent, hintent, accountable_of_wrote hrun hwrote,
      (trail hrun).2.1 intent (.inr ⟨i, hwrote⟩)⟩
  · rintro q hq β c e ⟨hown, ⟨k, hcall⟩, hwhy⟩
    obtain ⟨v, j, fault, hp, rfl⟩ := mem_turns hq
    obtain rfl : j = i := hown
    refine fails_of_queues (hqueues _ hp) (fun a hfault => ?_) hcall hwhy
    exact hfaults _ hp j a (congrArg (Label.turn j) hfault)

/-! ### A run -/

open Api (signedInState signedInCalls)
open Administration (sampleEnv)

theorem reported_refusedLabels :
    ∃ t s, (machine sampleEnv (fun _ => "") signedInCalls signedInState).Run t s ∧
      t.map Prod.snd = refusedLabels ∧
      (s.requests false).outcome = some (.error (.app .invalidCredentials)) ∧
      ∃ intent : Audit.AuditIntent,
        intent.payload.action = AuditAction.loginFailure.value ∧
        Api.Recorded (signedInCalls false).1 (signedInCalls false).2 (past t false) intent ∧
        (intent ∈ s.database.auditIntents ∨
          ∃ row ∈ Audit.sealedRows s.database.auditLogs, row.content = intent.content) := by
  have hexec : (machine sampleEnv (fun _ => "") signedInCalls signedInState).exec
      refusedLabels sample = some _ := rfl
  have hrun := Machine.Run.of_exec (.start initial_sample) hexec
  have hlabels := Machine.map_snd_trace hexec
  have hqueues : ((machine sampleEnv (fun _ => "") signedInCalls signedInState).trace
      refusedLabels sample).all (queues false) = true := rfl
  refine ⟨_, _, hrun, hlabels, rfl, reported hrun (fun p hp j e heq => ?_)
    (fun p hp => List.all_eq_true.mp hqueues p hp) rfl rfl⟩
  have hin : p.2 ∈ refusedLabels := hlabels ▸ List.mem_map_of_mem hp
  rw [heq] at hin
  simp [refusedLabels] at hin

end Platform
end AdminPlatform
