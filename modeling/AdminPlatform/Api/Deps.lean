import AdminPlatform.Services.Auth

/-! # Who calls, and what they may do

The dependencies of the routes (`app/api/deps.py`): they resolve the current admin from the
access token a request bears and check one permission of that admin. A request they turn
away changes nothing; one they deny leaves a record. -/

namespace AdminPlatform
open AdminPlatform.Lib

namespace Api

def accessTokenPayload (req : Request) (credentials : Option EncodedToken) : Db TokenPayload :=
  match credentials.bind (decodeToken req.now) with
  | none => raise .authentication
  | some payload => do
      when (payload.type ≠ "access") (raise .authentication)
      return payload

def getCurrentAdmin (req : Request) (credentials : Option EncodedToken) : Db PlatformAdmin := do
  let payload ← accessTokenPayload req credentials
  AuthService.getAdminFromPayload payload

/-- The request with the current admin as its audit actor. -/
def actingAs (req : Request) (admin : PlatformAdmin) : Request :=
  { req with actor := some { actor := admin.email, actorType := ActorType.admin.value } }

def screenResourceTypes : List (String × AuditResourceType) :=
  [("S1", .user), ("S2", .audit), ("S3", .role), ("S4", .screen)]

/-- The resource type of the screen a permission is on. -/
def denialResourceType (permission : PermissionName) : Option AuditResourceType :=
  screenResourceTypes.lookup (String.ofList (permission.value.toList.takeWhile (· ≠ '.')))

/-- Record an `access.denied` entry before the 403 is raised. -/
def recordDenial (req : Request) (admin : PlatformAdmin) (permission : PermissionName) :
    Db Unit :=
  AuditService.record req
    (AuditService.event .accessDenied (denialResourceType permission) none
      (.obj
        [("permission", .str permission.value), ("display_name", .str admin.username),
          ("method", .str req.method), ("path", .str req.path)]))

/-- Allow the request only if the admin holds `required`. -/
def requirePermission (req : Request) (required : PermissionName) (admin : PlatformAdmin) :
    Db Unit := do
  let granted ← RbacService.permissionsForAdmin admin.id
  when (required.value ∉ granted) do
    recordDenial req admin required
    raise .permissionDenied

/-- A route behind a permission: it serves the current admin, who holds `required`. -/
def guarded {α : Type} (req : Request) (credentials : Option EncodedToken)
    (required : PermissionName) (serve : Request → PlatformAdmin → Db α) : Db α := do
  let admin ← getCurrentAdmin req credentials
  requirePermission (actingAs req admin) required admin
  serve (actingAs req admin) admin

def codeLogoutOk : String := "S_200_AUTH_LOGOUT_OK"
def msgLogoutOk : String := "Logged out successfully"

/-- Log out the current admin, revoking both the access token and its linked refresh token. -/
def logout (req : Request) (credentials : Option EncodedToken) : Db Unit := do
  let admin ← getCurrentAdmin req credentials
  match credentials with
  | none => raise .authentication
  | some token =>
      AuthService.logout req token (some admin)
      AuditService.record (actingAs req admin)
        { AuditService.event .logout (some .auth) (some admin.email) .null with
          response :=
            .obj [("code", .str codeLogoutOk), ("message", .str msgLogoutOk), ("data", .null)] }

/-! ## What the dependencies do -/

/-- The request bears an access token that is accepted for the admin. -/
structure CallsAs (s : Database) (now : Instant) (credentials : Option EncodedToken)
    (payload : TokenPayload) (admin : PlatformAdmin) : Prop where
  bears : ∃ token, credentials = some token ∧ decodeToken now token = some payload
  access : payload.type = "access"
  accepted : AuthService.Accepts s payload admin

section Run
variable {s s' : Database} {req : Request} {credentials : Option EncodedToken}

theorem getCurrentAdmin_reads (req : Request) (credentials : Option EncodedToken) (s : Database) :
    (getCurrentAdmin req credentials).Reads s
      (fun admin => ∃ payload, CallsAs s req.now credentials payload admin) := by
  unfold getCurrentAdmin accessTokenPayload
  cases hpayload : credentials.bind (decodeToken req.now) with
  | none => exact .throw _
  | some payload =>
      obtain ⟨token, hcredentials, hdecode⟩ := Option.bind_eq_some_iff.mp hpayload
      refine Db.Reads.bind (P := fun p => p = payload ∧ p.type = "access")
        ((Db.isCheck_raise _ _ s).reads.bind fun _ haccess => .pure ⟨rfl, by simpa using haccess⟩) ?_
      rintro presented ⟨rfl, haccess⟩
      rcases AuthService.getAdminFromPayload_reads presented s
        with hrefused | ⟨admin, hrun, haccepts⟩
      · exact .inl hrefused
      · exact .inr ⟨admin, hrun, presented, ⟨token, hcredentials, hdecode⟩, haccess, haccepts⟩

/-- **A permission check** passes and changes nothing, or the denial is recorded. -/
theorem run_requirePermission_bind_inv {α : Type} {required : PermissionName}
    {admin : PlatformAdmin} {f : Unit → Db α} {r : Except Failure α}
    (h : (requirePermission req required admin >>= f).run s = (r, s')) :
    (required.value ∉ RbacService.permissions s admin.id ∧
      r = .error (.app .permissionDenied) ∧ ∃ outbox, s' = { s with auditIntents := outbox }) ∨
      (required.value ∈ RbacService.permissions s admin.id ∧ (f ()).run s = (r, s')) := by
  by_cases hgranted : required.value ∈ RbacService.permissions s admin.id
  · have hrun : (requirePermission req required admin).run s = (.ok (), s) := by
      rw [requirePermission, RbacService.run_permissionsForAdmin_bind]
      simp [when, hgranted]
    rw [Db.run_bind_ok _ hrun] at h
    exact .inr ⟨hgranted, h⟩
  · obtain ⟨outbox, hrecord⟩ := AuditService.run_record req
      (AuditService.event .accessDenied (denialResourceType required) none
        (.obj
          [("permission", .str required.value), ("display_name", .str admin.username),
            ("method", .str req.method), ("path", .str req.path)])) s
    have hrun : (requirePermission req required admin).run s =
        (.error (.app .permissionDenied), { s with auditIntents := outbox }) := by
      rw [requirePermission, RbacService.run_permissionsForAdmin_bind]
      simp only [when, hgranted, not_false_eq_true, decide_true, if_true, recordDenial]
      rw [Db.run_bind_ok _ hrecord]
      rfl
    rw [Db.run_bind_error _ hrun] at h
    obtain ⟨rfl, rfl⟩ := Prod.mk.inj h
    exact .inl ⟨hgranted, rfl, outbox, rfl⟩

/-- **All that a guarded route does**: it turns the request away and changes nothing, it
denies it and leaves a record, or it serves an admin who holds the permission. -/
theorem run_guarded_inv {α : Type} {required : PermissionName}
    {serve : Request → PlatformAdmin → Db α} {r : Except Failure α}
    (h : (guarded req credentials required serve).run s = (r, s')) :
    ((∃ e, r = .error e) ∧ s' = s) ∨
      ∃ payload admin, CallsAs s req.now credentials payload admin ∧
        ((required.value ∉ RbacService.permissions s admin.id ∧
            r = .error (.app .permissionDenied) ∧
            ∃ outbox, s' = { s with auditIntents := outbox }) ∨
          (required.value ∈ RbacService.permissions s admin.id ∧
            (serve (actingAs req admin) admin).run s = (r, s'))) := by
  rcases (getCurrentAdmin_reads req credentials s).bind_inv h
    with hrefused | ⟨admin, ⟨payload, hcalls⟩, h⟩
  · exact .inl hrefused
  · exact .inr ⟨payload, admin, hcalls, run_requirePermission_bind_inv h⟩

/-- A caller who holds the permission is served. -/
theorem run_guarded_ok {α : Type} {required : PermissionName}
    {serve : Request → PlatformAdmin → Db α} {payload : TokenPayload} {admin : PlatformAdmin}
    (hcalls : CallsAs s req.now credentials payload admin)
    (hgranted : required.value ∈ RbacService.permissions s admin.id) :
    (guarded req credentials required serve).run s =
      (serve (actingAs req admin) admin).run s := by
  obtain ⟨⟨token, rfl, hdecode⟩, haccess, haccepts⟩ := hcalls
  have hadmin : (getCurrentAdmin req (some token)).run s = (.ok admin, s) := by
    have hpayload : (accessTokenPayload req (some token)).run s = (.ok payload, s) := by
      rw [accessTokenPayload, Option.bind_some, hdecode]
      simp only [when, haccess, ne_eq, not_true_eq_false, decide_false]
      rfl
    rw [getCurrentAdmin, Db.run_bind_ok _ hpayload]
    exact AuthService.run_getAdminFromPayload_iff.mpr haccepts
  have hpermitted : (requirePermission (actingAs req admin) required admin).run s = (.ok (), s) := by
    rw [requirePermission, RbacService.run_permissionsForAdmin_bind]
    simp [when, hgranted]
  rw [guarded, Db.run_bind_ok _ hadmin, Db.run_bind_ok _ hpermitted]

/-- **All that logging out does**: it is refused, or the session that the request's token
belongs to is ended. -/
theorem run_logout_inv {r : Except Failure Unit} (h : (logout req credentials).run s = (r, s')) :
    ((∃ e, r = .error e) ∧ s' = s) ∨
      ∃ payload admin admins outbox, CallsAs s req.now credentials payload admin ∧
        s.admins.flush admin { admin with currentRefreshJti := none } = .ok admins ∧
        r = .ok () ∧ s' = { s with admins := admins, auditIntents := outbox } := by
  rcases (getCurrentAdmin_reads req credentials s).bind_inv h
    with hrefused | ⟨admin, ⟨payload, hcalls⟩, h⟩
  · exact .inl hrefused
  obtain ⟨token, rfl, hdecode⟩ := hcalls.bears
  dsimp only at h
  rcases Db.run_bind_inv h with ⟨_, u, hlogout, h⟩ | ⟨e, hlogout, rfl⟩
  · rcases AuthService.run_logout_inv hlogout hdecode hcalls.accepted
      with ⟨⟨e, he⟩, -⟩ | ⟨admins, hflush, -, rfl⟩
    · cases he
    · obtain ⟨outbox, hrecord⟩ := AuditService.run_record (actingAs req admin)
        { AuditService.event .logout (some .auth) (some admin.email) .null with
          response :=
            .obj [("code", .str codeLogoutOk), ("message", .str msgLogoutOk), ("data", .null)] }
        { s with admins := admins }
      rw [hrecord] at h
      obtain ⟨rfl, rfl⟩ := Prod.mk.inj h
      exact .inr ⟨payload, admin, admins, outbox, hcalls, hflush, rfl, rfl⟩
  · rcases AuthService.run_logout_inv hlogout hdecode hcalls.accepted
      with ⟨-, rfl⟩ | ⟨admins, -, he, -⟩
    · exact .inl ⟨⟨e, rfl⟩, rfl⟩
    · cases he

end Run
end Api
end AdminPlatform
