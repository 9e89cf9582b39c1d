import AdminPlatform.Api.Auth
import AdminPlatform.Api.Exports
import AdminPlatform.Exports.Fetching
import AdminPlatform.Lists.Queries
import AdminPlatform.Services.Screen
import AdminPlatform.Services.User

/-! # Every route

The routes under `app/api/v1/` that are not in the modules of their own, and `Call`, the requests
that can be made to the platform: one case for each route, and one for the task that a request
to create an export leaves in the background.

A request works in one session, and the session holds the current admin as an object from the
authentication on. So a request that loads that admin again gets the object and not the row as
it is by then. Alone, the difference cannot be seen (`run_performHeld`). -/

namespace AdminPlatform
open AdminPlatform.Lib AdminPlatform.Lib.Paging

/-! ## User requests in the session of the caller -/

namespace UserService

/-- `get_user`, where the session holds the current admin. -/
def getUserHeld (held : PlatformAdmin) (userId : Uuid) : Db PlatformAdmin := do
  match ← AuthRepository.getAdminById userId (some held) with
  | some user => return user
  | none => raise .userNotFound

/-- `update_user`, from the admin it has loaded. -/
def updateLoaded (req : Request) (userId : Uuid) (data : UserUpdate) (user : PlatformAdmin) :
    Db PlatformAdmin := do
  data.email.forM fun email => ensureEmailAvailable email (some userId)
  when (deactivates data user) (guardLastActiveAdmin userId)
  let user ← UserRepository.updateUser user (assignUpdate data)
  AuditService.record req
    (AuditService.event .userUpdate (some .user) (some user.id.str) (updateDetails data))
  return user

/-- `replace_user`, from the admin it has loaded. -/
def replaceLoaded (env : Env) (req : Request) (userId : Uuid) (data : UserReplace)
    (user : PlatformAdmin) : Db PlatformAdmin := do
  ensureEmailAvailable data.email (some userId)
  let user ← UserRepository.updateUser user (assignReplace env req data)
  AuditService.record req
    (AuditService.event .userReplace (some .user) (some user.id.str)
      (.obj [("email", .str data.email), ("name", .str data.name)]))
  return user

/-- `delete_user`, from the admin it has loaded. -/
def deleteLoaded (req : Request) (userId : Uuid) (user : PlatformAdmin) : Db Unit := do
  when (user.status = .active) (guardLastActiveAdmin userId)
  UserRepository.deleteUser user { user with currentRefreshJti := none }
  AuditService.record req
    (AuditService.event .userDelete (some .user) (some userId.str) .null)

theorem updateUser_eq (req : Request) (userId : Uuid) (data : UserUpdate) :
    updateUser req userId data = getUser userId >>= updateLoaded req userId data := rfl

theorem replaceUser_eq (env : Env) (req : Request) (userId : Uuid) (data : UserReplace) :
    replaceUser env req userId data = getUser userId >>= replaceLoaded env req userId data := rfl

theorem deleteUser_eq (req : Request) (userId : Uuid) :
    deleteUser req userId = getUser userId >>= deleteLoaded req userId := rfl

def Op.performHeld (env : Env) (req : Request) (held : PlatformAdmin) : Op → Db Unit
  | .create data => drop (createUser env req data)
  | .update userId data => drop (getUserHeld held userId >>= updateLoaded req userId data)
  | .replace userId data => drop (getUserHeld held userId >>= replaceLoaded env req userId data)
  | .delete userId => getUserHeld held userId >>= deleteLoaded req userId

section Run
variable {s : Database} {held : PlatformAdmin}

theorem run_getUser_of_find? (hheld : s.admins.find? held.id = some held) :
    (getUser held.id).run s = (.ok held, s) := by
  unfold getUser UserRepository.getUser
  rw [Db.run_query_bind]
  simp [hheld]

/-- An object that is what the row is answers like the row. -/
theorem run_getUserHeld (hheld : s.admins.find? held.id = some held) (userId : Uuid) :
    (getUserHeld held userId).run s = (getUser userId).run s := by
  unfold getUserHeld
  by_cases hid : held.id = userId
  · subst hid
    have hsession : AuthRepository.getAdminById held.id (some held) = pure (some held) := by
      simp [AuthRepository.getAdminById, Option.filter]
    exact hsession ▸ (run_getUser_of_find? hheld).symm
  · have hsession : AuthRepository.getAdminById userId (some held) =
        query (fun s => s.admins.find? userId) := by
      simp [AuthRepository.getAdminById, Option.filter, hid]
    exact hsession ▸ rfl

theorem run_getUserHeld_bind {α : Type} (hheld : s.admins.find? held.id = some held)
    (userId : Uuid) (f : PlatformAdmin → Db α) :
    (getUserHeld held userId >>= f).run s = (getUser userId >>= f).run s := by
  rcases hrun : (getUser userId).run s with ⟨e | user, s'⟩
  · rw [Db.run_bind_error _ hrun, Db.run_bind_error _ ((run_getUserHeld hheld userId).trans hrun)]
  · rw [Db.run_bind_ok _ hrun, Db.run_bind_ok _ ((run_getUserHeld hheld userId).trans hrun)]

/-- **The object is the row**, to an operation that runs alone. -/
theorem run_performHeld (env : Env) (req : Request) (op : Op)
    (hheld : s.admins.find? held.id = some held) :
    (op.performHeld env req held).run s = (op.perform env req).run s := by
  have hdrop : ∀ {α : Type} {p q : Db α}, p.run s = q.run s → (drop p).run s = (drop q).run s := by
    intro α p q hpq
    rcases hq : q.run s with ⟨e | a, s'⟩
    · rw [drop, drop, Db.run_bind_error _ hq, Db.run_bind_error _ (hpq.trans hq)]
    · rw [drop, drop, Db.run_bind_ok _ hq, Db.run_bind_ok _ (hpq.trans hq)]
  cases op with
  | create data => rfl
  | update userId data =>
      refine hdrop ?_
      rw [updateUser_eq]
      exact run_getUserHeld_bind hheld userId _
  | replace userId data =>
      refine hdrop ?_
      rw [replaceUser_eq]
      exact run_getUserHeld_bind hheld userId _
  | delete userId =>
      show (_ >>= _ : Db Unit).run s = (deleteUser req userId).run s
      rw [deleteUser_eq]
      exact run_getUserHeld_bind hheld userId _

end Run
end UserService

namespace Api

/-! ## The routes to users, roles, screens and audit logs -/

/-- `POST /users`, and `PATCH`, `PUT` and `DELETE /users/{user_id}`. -/
def userRoute (env : Env) (req : Request) (credentials : Option EncodedToken)
    (op : UserService.Op) : Db Unit :=
  guarded req credentials .usersWrite fun req admin => op.performHeld env req admin

/-- `GET /users`. -/
def listUsers (env : Env) (req : Request) (credentials : Option EncodedToken)
    (order : OrderBy (Ascending PlatformAdmin.createdAt)) (params : UsersExportFilters)
    (fromDate toDate : Option Datetime) (page limit : Nat) : Db (List PlatformAdmin × Nat) :=
  guarded req credentials .usersRead fun _ _ =>
    listUsersEndpoint env order params fromDate toDate page limit

/-- `GET /users/{user_id}`. -/
def getUser (req : Request) (credentials : Option EncodedToken) (userId : Uuid) :
    Db PlatformAdmin :=
  guarded req credentials .usersRead fun _ admin => UserService.getUserHeld admin userId

/-- `POST /roles`, and `PATCH` and `DELETE /roles/{role_id}`. -/
def roleRoute (req : Request) (credentials : Option EncodedToken) (op : RoleService.Op) :
    Db Unit :=
  guarded req credentials .rolesWrite fun req _ => op.perform req

/-- `GET /roles`. -/
def listRoles (env : Env) (req : Request) (credentials : Option EncodedToken)
    (order : OrderBy (Ascending Role.createdAt))
    (batchOrder : OrderBy (Ascending RoleRepository.batchKey)) (search : Option String)
    (status : Option Status) (page limit : Nat) : Db (List RoleRead × Nat) :=
  guarded req credentials .rolesRead fun _ _ =>
    RoleService.listRoles env order batchOrder search
      (resolveFilter ExportService.statuses Status.value status) page limit

/-- `GET /roles/{role_id}`. -/
def getRole (req : Request) (credentials : Option EncodedToken) (roleId : Uuid) : Db RoleRead :=
  guarded req credentials .rolesRead fun _ _ => RoleService.fetchRole roleId

/-- `POST /screens`, and `PATCH` and `DELETE /screens/{screen_id}`. -/
def screenRoute (req : Request) (credentials : Option EncodedToken) (op : ScreenService.Op) :
    Db Unit :=
  guarded req credentials .screensWrite fun req _ => op.perform req

/-- `GET /screens`. -/
def listScreens (env : Env) (req : Request) (credentials : Option EncodedToken)
    (order : OrderBy (Ascending ScreenRepository.listKey)) (search : Option String)
    (status : Option Status) (page limit : Nat) : Db (List Screen × Nat) :=
  guarded req credentials .screensRead fun _ _ =>
    ScreenRepository.listScreens env order search
      (resolveFilter ExportService.statuses Status.value status) page limit

/-- `GET /screens/{screen_id}`. -/
def getScreen (req : Request) (credentials : Option EncodedToken) (screenId : Uuid) : Db Screen :=
  guarded req credentials .screensRead fun _ _ => ScreenService.getScreen screenId

/-- `GET /audit-logs`: reading the trail is recorded in it. -/
def listAuditLogs (req : Request) (credentials : Option EncodedToken)
    (order : OrderBy (Descending AuditRepository.listKey)) (params : AuditExportFilters)
    (fromDate toDate : Option Datetime) (page limit : Nat) : Db (List Audit.AuditLog × Nat) :=
  guarded req credentials .auditRead fun req _ => do
    let (entries, total) ← listAuditLogsEndpoint order params fromDate toDate page limit
    AuditService.record req
      (AuditService.event .auditRead (some .audit) none
        (.obj [("page", .int page), ("limit", .int limit), ("total", .int total)]))
    return (entries, total)

/-- `GET /exports/{export_id}/download`. A download that generates the file anew streams the rows,
with a query for every chunk, in the session that holds the caller; a stream that goes on for
longer is one of more `queries`. -/
def downloadExportByQuery (env : Env) (queries : Nat) (req : Request)
    (credentials : Option EncodedToken) (exportId : Uuid) : Db FileResponse :=
  guarded req credentials .auditRead fun req admin =>
    ExportService.downloadExportFrom (ExportService.rowStreamInSession env queries admin) env req
      exportId admin.email

/-! ## The requests that can be made -/

inductive Call
  | login (credentials : LoginRequest)
  | refresh (refreshToken : EncodedToken)
  | generateOtp (email : String)
  | verifyOtp (payload : VerifyOtpRequest)
  | updatePassword (payload : UpdatePasswordRequest)
  | logout (credentials : Option EncodedToken)
  | users (credentials : Option EncodedToken) (op : UserService.Op)
  | listUsers (credentials : Option EncodedToken)
      (order : OrderBy (Ascending PlatformAdmin.createdAt)) (params : UsersExportFilters)
      (fromDate toDate : Option Datetime) (page limit : Nat)
  | getUser (credentials : Option EncodedToken) (userId : Uuid)
  | roles (credentials : Option EncodedToken) (op : RoleService.Op)
  | listRoles (credentials : Option EncodedToken) (order : OrderBy (Ascending Role.createdAt))
      (batchOrder : OrderBy (Ascending RoleRepository.batchKey)) (search : Option String)
      (status : Option Status) (page limit : Nat)
  | getRole (credentials : Option EncodedToken) (roleId : Uuid)
  | screens (credentials : Option EncodedToken) (op : ScreenService.Op)
  | listScreens (credentials : Option EncodedToken)
      (order : OrderBy (Ascending ScreenRepository.listKey)) (search : Option String)
      (status : Option Status) (page limit : Nat)
  | getScreen (credentials : Option EncodedToken) (screenId : Uuid)
  | listAuditLogs (credentials : Option EncodedToken)
      (order : OrderBy (Descending AuditRepository.listKey)) (params : AuditExportFilters)
      (fromDate toDate : Option Datetime) (page limit : Nat)
  | createExport (credentials : Option EncodedToken) (data : ExportCreate)
  | getExport (credentials : Option EncodedToken) (exportId : Uuid)
  | downloadExport (credentials : Option EncodedToken) (exportId : Uuid) (queries : Nat)
  /-- Not a request: the generation that `POST /exports` leaves in the background. -/
  | generateTask (exportId : Uuid) (queries : Nat)

/-- Serve a request; what it answers is dropped. -/
def Call.serve (env : Env) (encode : EncodedToken → String) (req : Request) : Call → Db Unit
  | .login credentials => drop (Api.login env encode req credentials)
  | .refresh refreshToken => drop (Api.refresh env encode req refreshToken)
  | .generateOtp email => drop (Api.generateOtp env req email)
  | .verifyOtp payload => drop (Api.verifyOtp req payload)
  | .updatePassword payload => drop (Api.updatePassword env req payload)
  | .logout credentials => Api.logout req credentials
  | .users credentials op => userRoute env req credentials op
  | .listUsers credentials order params fromDate toDate page limit =>
      drop (Api.listUsers env req credentials order params fromDate toDate page limit)
  | .getUser credentials userId => drop (Api.getUser req credentials userId)
  | .roles credentials op => roleRoute req credentials op
  | .listRoles credentials order batchOrder search status page limit =>
      drop (Api.listRoles env req credentials order batchOrder search status page limit)
  | .getRole credentials roleId => drop (Api.getRole req credentials roleId)
  | .screens credentials op => screenRoute req credentials op
  | .listScreens credentials order search status page limit =>
      drop (Api.listScreens env req credentials order search status page limit)
  | .getScreen credentials screenId => drop (Api.getScreen req credentials screenId)
  | .listAuditLogs credentials order params fromDate toDate page limit =>
      drop (Api.listAuditLogs req credentials order params fromDate toDate page limit)
  | .createExport credentials data => drop (Api.createExport env req credentials data)
  | .getExport credentials exportId => drop (Api.getExport req credentials exportId)
  | .downloadExport credentials exportId queries =>
      drop (Api.downloadExportByQuery env queries req credentials exportId)
  | .generateTask exportId queries =>
      ExportService.generateTaskFrom (ExportService.rowStreamByQuery env queries) env req.now exportId

end Api
end AdminPlatform
