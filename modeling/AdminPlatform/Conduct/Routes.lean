import AdminPlatform.Conduct.Auth
import AdminPlatform.Conduct.Exports
import AdminPlatform.Conduct.Records

/-! # What every route writes

`Lawful` puts the services together: the writes of any request to the platform, after what the
request has read and committed before. `keeps_serve` says that each route keeps to it. In
`machine` requests take turns, one statement at a time, and any statement may fail; so what a
request is about to write is lawful there (`lawful_of_commit`), and what lawful writes keep is
kept (`invariant_of_lawful`). -/

namespace AdminPlatform
open AdminPlatform.Lib AdminPlatform.Lib.Paging

namespace Api
variable {env : Env} {encode : EncodedToken → String} {req : Request}

/-- The token a request bears and the permission its route is behind, if it is behind one. -/
def Call.guard : Call → Option (Option EncodedToken × PermissionName)
  | .users credentials _ => some (credentials, .usersWrite)
  | .listUsers credentials _ _ _ _ _ _ => some (credentials, .usersRead)
  | .getUser credentials _ => some (credentials, .usersRead)
  | .roles credentials _ => some (credentials, .rolesWrite)
  | .listRoles credentials _ _ _ _ _ _ => some (credentials, .rolesRead)
  | .getRole credentials _ => some (credentials, .rolesRead)
  | .screens credentials _ => some (credentials, .screensWrite)
  | .listScreens credentials _ _ _ _ _ => some (credentials, .screensRead)
  | .getScreen credentials _ => some (credentials, .screensRead)
  | .listAuditLogs credentials _ _ _ _ _ _ => some (credentials, .auditRead)
  | .createExport credentials _ => some (credentials, .auditRead)
  | .getExport credentials _ => some (credentials, .auditRead)
  | .downloadExport credentials _ _ => some (credentials, .auditRead)
  | _ => none

/-- The event that reading the trail records. -/
def auditReadEvent (page limit total : Nat) : Audit.AuditEvent :=
  AuditService.event .auditRead (some .audit) none
    (.obj [("page", .int page), ("limit", .int limit), ("total", .int total)])

/-- The writes of a request to the platform. -/
inductive Lawful (env : Env) (encode : EncodedToken → String) (req : Request) (past : Past) :
    Call → Write → Prop
  | login {credentials w} :
      LoginLawful env encode (claimedActor req credentials.email .admin) credentials past w →
      Lawful env encode req past (.login credentials) w
  | refresh {refreshToken w} : RefreshLawful encode req refreshToken past w →
      Lawful env encode req past (.refresh refreshToken) w
  | generateOtp {email w} : GenerateOtpLawful env (claimedActor req email .admin) email past w →
      Lawful env encode req past (.generateOtp email) w
  | verifyOtp {payload w} :
      VerifyOtpLawful (claimedActor req payload.email .admin) payload past w →
      Lawful env encode req past (.verifyOtp payload) w
  | updatePassword {payload w} :
      UpdatePasswordLawful env (claimedActor req payload.email .admin) payload past w →
      Lawful env encode req past (.updatePassword payload) w
  | logout {credentials w} : LogoutLawful req credentials past w →
      Lawful env encode req past (.logout credentials) w
  | denied {call credentials required admin} : Call.guard call = some (credentials, required) →
      Denied req credentials required past admin →
      Lawful env encode req past call
        (.insertIntent (AuditService.intent (actingAs req admin)
          (denialEvent (actingAs req admin) admin required)))
  | users {credentials op admin w} : Granted req credentials .usersWrite past admin →
      UserService.Op.Lawful env (actingAs req admin) past op w →
      Lawful env encode req past (.users credentials op) w
  | roles {credentials op admin w} : Granted req credentials .rolesWrite past admin →
      RoleService.Op.Lawful (actingAs req admin) past op w →
      Lawful env encode req past (.roles credentials op) w
  | screens {credentials op admin w} : Granted req credentials .screensWrite past admin →
      ScreenService.Op.Lawful (actingAs req admin) past op w →
      Lawful env encode req past (.screens credentials op) w
  | auditRead {credentials order params fromDate toDate page limit total admin} :
      Granted req credentials .auditRead past admin →
      Lawful env encode req past
        (.listAuditLogs credentials order params fromDate toDate page limit)
        (.insertIntent (AuditService.intent (actingAs req admin) (auditReadEvent page limit total)))
  | createExport {credentials data admin w} : Granted req credentials .auditRead past admin →
      ExportService.CreateLawful (actingAs req admin) admin.email data past w →
      Lawful env encode req past (.createExport credentials data) w
  | downloadExport {credentials exportId queries admin w} :
      Granted req credentials .auditRead past admin →
      ExportService.DownloadLawful env (actingAs req admin) exportId admin past w →
      Lawful env encode req past (.downloadExport credentials exportId queries) w
  | generateTask {exportId queries w} : ExportService.TaskLawful env req.now exportId past w →
      Lawful env encode req past (.generateTask exportId queries) w

/-- What is lawful for a request, as a policy. -/
def policy (env : Env) (encode : EncodedToken → String) (req : Request) (call : Call) : Db.Policy :=
  fun past w => Lawful env encode req past call w

section Serve

/-- A route whose service keeps to a policy of its own. -/
theorem keeps_route {α : Type} {call : Call} {credentials : Option EncodedToken}
    {required : PermissionName} {serve : Request → PlatformAdmin → Db α}
    (L : PlatformAdmin → Db.Policy) (hguard : call.guard = some (credentials, required))
    (hserve : ∀ past admin, Granted req credentials required past admin →
      (serve (actingAs req admin) admin).Keeps (L admin) past)
    (hlawful : ∀ past admin w, Granted req credentials required past admin → L admin past w →
      Lawful env encode req past call w) :
    (guarded req credentials required serve).Keeps (policy env encode req call) [] :=
  keeps_guarded (fun _ _ hdenied => .denied hguard hdenied) fun past admin hgranted =>
    (hserve past admin hgranted).imp fun later w hlater hw =>
      hlawful later admin w (Checked.mono hgranted hlater) hw

/-- A route that only reads. -/
theorem keeps_reading_route {α : Type} {call : Call} {credentials : Option EncodedToken}
    {required : PermissionName} {serve : Request → PlatformAdmin → Db α}
    (hguard : call.guard = some (credentials, required))
    (hserve : ∀ req admin, (serve req admin).Writes fun _ => False) :
    (guarded req credentials required serve).Keeps (policy env encode req call) [] :=
  keeps_guarded (fun _ _ hdenied => .denied hguard hdenied) fun _ _ _ =>
    Db.keeps_of_reading (hserve _ _)

theorem writes_paginated {W : Write → Prop} {α : Type} {le : α → α → Prop}
    (matching : Database → List α) (order : OrderBy le) (page limit : Nat) :
    (paginated matching order page limit).Writes W :=
  (Db.writes_query _).bind fun _ => (Db.writes_query _).bind fun _ => Db.writes_pure _

theorem writes_permissionsForRoles {W : Write → Prop}
    (order : OrderBy (Ascending RoleRepository.batchKey)) (roleIds : List Uuid) :
    (RoleRepository.permissionsForRoles order roleIds).Writes W := by
  unfold RoleRepository.permissionsForRoles
  split
  · exact Db.writes_pure _
  · exact (Db.writes_query _).bind fun _ => Db.writes_pure _

theorem writes_getUserHeld {W : Write → Prop} (held : PlatformAdmin) (userId : Uuid) :
    (UserService.getUserHeld held userId).Writes W := by
  have hget : (AuthRepository.getAdminById userId (some held)).Writes W := by
    unfold AuthRepository.getAdminById
    split
    · exact Db.writes_pure _
    · exact Db.writes_query _
  refine hget.bind fun user => ?_
  cases user
  · exact Db.writes_throw _
  · exact Db.writes_pure _

theorem writes_getExportStatus {W : Write → Prop} (exportId : Uuid) (adminEmail : String) :
    (ExportService.getExportStatus exportId adminEmail).Writes W := by
  refine (ExportService.writes_getExport exportId none).bind fun entry => ?_
  cases entry
  · exact Db.writes_throw _
  · exact ((Db.writes_throw _).when _).bind fun _ => Db.writes_pure _

/-- **Every route writes only what is lawful.** -/
theorem keeps_serve (env : Env) (encode : EncodedToken → String) (req : Request) (call : Call) :
    (call.serve env encode req).Keeps (policy env encode req call) [] := by
  cases call with
  | login credentials =>
      exact ((keeps_login env encode req credentials []).imp fun _ _ _ hw => .login hw).drop
  | refresh refreshToken =>
      exact ((keeps_refresh env encode req refreshToken []).imp fun _ _ _ hw => .refresh hw).drop
  | generateOtp email =>
      exact ((keeps_generateOtp env req email []).imp fun _ _ _ hw => .generateOtp hw).drop
  | verifyOtp payload =>
      exact ((keeps_verifyOtp req payload []).imp fun _ _ _ hw => .verifyOtp hw).drop
  | updatePassword payload =>
      exact ((keeps_updatePassword env req payload []).imp fun _ _ _ hw => .updatePassword hw).drop
  | logout credentials =>
      exact (keeps_logout req credentials []).imp fun _ _ _ hw => .logout hw
  | users credentials op =>
      show (guarded req credentials .usersWrite fun req admin =>
        op.performHeld env req admin).Keeps _ []
      exact keeps_route (fun admin past w => op.Lawful env (actingAs req admin) past w) rfl
        (fun _ _ hgranted => op.keeps_performHeld (Checked.authenticated hgranted).found)
        fun _ _ _ hgranted hw => .users hgranted hw
  | listUsers credentials order params fromDate toDate page limit =>
      exact (keeps_reading_route rfl fun _ _ => writes_paginated _ _ _ _).drop
  | getUser credentials userId =>
      exact (keeps_reading_route rfl fun _ admin => writes_getUserHeld admin userId).drop
  | roles credentials op =>
      show (guarded req credentials .rolesWrite fun req _ => op.perform req).Keeps _ []
      exact keeps_route (fun admin past w => op.Lawful (actingAs req admin) past w) rfl
        (fun past _ _ => op.keeps_perform past)
        fun _ _ _ hgranted hw => .roles hgranted hw
  | listRoles credentials order batchOrder search status page limit =>
      refine (keeps_reading_route rfl fun _ _ => ?_).drop
      exact (writes_paginated _ _ _ _).bind fun _ =>
        (writes_permissionsForRoles _ _).bind fun _ => Db.writes_pure _
  | getRole credentials roleId =>
      refine (keeps_reading_route rfl fun _ _ => ?_).drop
      exact (RoleService.writes_getRole roleId).bind RoleService.writes_readRole
  | screens credentials op =>
      show (guarded req credentials .screensWrite fun req _ => op.perform req).Keeps _ []
      exact keeps_route (fun admin past w => op.Lawful (actingAs req admin) past w) rfl
        (fun past _ _ => op.keeps_perform past)
        fun _ _ _ hgranted hw => .screens hgranted hw
  | listScreens credentials order search status page limit =>
      exact (keeps_reading_route rfl fun _ _ => writes_paginated _ _ _ _).drop
  | getScreen credentials screenId =>
      exact (keeps_reading_route rfl fun _ _ => ScreenService.writes_getScreen screenId).drop
  | listAuditLogs credentials order params fromDate toDate page limit =>
      refine Db.Keeps.drop (R := fun _ _ => True)
        (keeps_guarded (fun _ _ hdenied => .denied rfl hdenied) fun _ _ hgranted => ?_)
      refine Db.keeps_reading_bind (writes_paginated _ _ _ _) fun later result hlater => ?_
      exact AuditService.keeps_record_bind (.auditRead (Checked.mono hgranted hlater))
        fun _ _ => Db.keeps_pure _
  | createExport credentials data =>
      exact (keeps_route
        (fun admin => ExportService.CreateLawful (actingAs req admin) admin.email data) rfl
        (fun past admin _ => ExportService.keeps_createExport admin.email data past)
        fun _ _ _ hgranted hw => .createExport hgranted hw).drop
  | getExport credentials exportId =>
      exact (keeps_reading_route rfl fun _ admin =>
        writes_getExportStatus exportId admin.email).drop
  | downloadExport credentials exportId queries =>
      exact (keeps_route
        (fun admin => ExportService.DownloadLawful env (actingAs req admin) exportId admin)
        rfl
        (fun past admin _ => ExportService.keeps_downloadExport exportId admin queries past)
        fun _ _ _ hgranted hw => .downloadExport hgranted hw).drop
  | generateTask exportId queries =>
      exact (ExportService.keeps_generateTask req.now exportId queries []).imp
        fun _ _ _ hw => .generateTask hw

end Serve

/-! ## Requests that take turns -/

section Machine
variable {ι : Type} [DecidableEq ι] {calls : ι → Request × Call} {start : Database}

/-- The requests `calls` from `start` on, one statement at a time, in any order; any statement may
fail. A request that never comes just never moves. -/
def machine (env : Env) (encode : EncodedToken → String) (calls : ι → Request × Call)
    (start : Database) : Machine (Program.Threads Sql Failure Database ι) (ι × Option Failure) :=
  Program.faultyInterleave exec fun t =>
    t.shared = start ∧ ∀ i, t.thread i = (calls i).2.serve env encode (calls i).1

variable {t : List (Program.Threads Sql Failure Database ι × (ι × Option Failure))}
  {u : Program.Threads Sql Failure Database ι} {i : ι}

theorem keeps_of_init (u : Program.Threads Sql Failure Database ι)
    (hinit : (machine env encode calls start).init u) (i : ι) :
    Program.Keeps exec (policy env encode (calls i).1 (calls i).2).guarantee (fun _ _ => True)
      (u.thread i) [] := by
  rw [hinit.2 i]
  exact keeps_serve env encode (calls i).1 (calls i).2

/-- **What a request is about to write is lawful**, after what it has done in the run. -/
theorem lawful_of_commit (hrun : (machine env encode calls start).Run t u) {β : Type} {w : Write}
    {answer : β} {k : Except Failure β → Db Unit}
    (hcall : u.thread i = .call (.commit w answer) k) :
    Lawful env encode (calls i).1 (Program.done exec i t) (calls i).2 w :=
  Program.allowed_of_call (fun _ ⟨_, hinit⟩ => keeps_of_init _ hinit)
    (Program.turns_of_run hrun) hcall

/-- **What lawful writes keep is kept**, given that it held when the request read. -/
theorem invariant_of_lawful {I : Database → Prop} (hstart : I start)
    (hstep : ∀ req (past : Past) call w s s', (∀ d ∈ past, I d.state) →
      Lawful env encode req past call w → I s → w.apply s = .ok s' → I s')
    (hrun : (machine env encode calls start).Run t u) :
    ∀ v ∈ Machine.visited t u, I v.shared := by
  refine Program.Run.guaranteed hrun
    (fun u hinit => ⟨hinit.1 ▸ hstart, keeps_of_init u hinit⟩) ?_
  · intro i past β c s hpast hallowed hs
    cases c with
    | query q => exact hs
    | commit w answer =>
        rw [exec]
        split
        · rename_i s' happly
          exact hstep _ past _ w s s' hpast hallowed hs happly
        · exact hs

end Machine
end Api
end AdminPlatform
