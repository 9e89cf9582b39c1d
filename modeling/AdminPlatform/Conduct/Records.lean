import AdminPlatform.Api.Router
import AdminPlatform.Past

/-! # What user, role and screen requests write

For each of the three services, which writes are lawful in the service of a request, after what
it has read and committed before: the row a write is computed from was read, what guards it was
checked, and an action is recorded after it was committed. `keeps_perform` says that the service
writes nothing else, whatever others do in between. -/

namespace AdminPlatform
open AdminPlatform.Lib

/-! ## Users -/

namespace UserService
variable {env : Env} {req : Request}

/-- The writes of a user request. -/
inductive Op.Lawful (env : Env) (req : Request) (past : Past) : Op → Write → Prop
  | insert {data} : Lawful env req past (.create data) (.insertAdmin (newUser env req data))
  | assign {data} {role : Role} : past.Wrote (.insertAdmin (newUser env req data)) →
      past.Saw (fun s => s.roleByName superAdminRoleName = some role) →
      Lawful env req past (.create data)
        (.insertAdminRole
          { platformAdminId := req.newId, roleId := role.id, createdAt := req.now })
  | created {data} {user : PlatformAdmin} : past.Wrote (.insertAdmin (newUser env req data)) →
      user.id = req.newId →
      Lawful env req past (.create data)
        (.insertIntent (AuditService.intent req
          (AuditService.event .userCreate (some .user) (some user.id.str)
            (.obj [("email", .str user.email), ("name", .str user.username)]))))
  | update {userId data} {user : PlatformAdmin} : user.id = userId →
      past.Saw (fun s => s.admins.find? userId = some user) →
      (deactivates data user →
        past.Saw fun s => UserRepository.activeAdmins s (some userId) ≠ []) →
      Lawful env req past (.update userId data) (.updateAdmin user (assignUpdate data user))
  | updated {userId data} {user : PlatformAdmin} : user.id = userId →
      past.Wrote (.updateAdmin user (assignUpdate data user)) →
      Lawful env req past (.update userId data)
        (.insertIntent (AuditService.intent req
          (AuditService.event .userUpdate (some .user) (some user.id.str) (updateDetails data))))
  | replace {userId data} {user : PlatformAdmin} : user.id = userId →
      past.Saw (fun s => s.admins.find? userId = some user) →
      Lawful env req past (.replace userId data)
        (.updateAdmin user (assignReplace env req data user))
  | replaced {userId data} {user : PlatformAdmin} : user.id = userId →
      past.Wrote (.updateAdmin user (assignReplace env req data user)) →
      Lawful env req past (.replace userId data)
        (.insertIntent (AuditService.intent req
          (AuditService.event .userReplace (some .user) (some user.id.str)
            (.obj [("email", .str data.email), ("name", .str data.name)]))))
  | delete {userId} {user : PlatformAdmin} : user.id = userId →
      past.Saw (fun s => s.admins.find? userId = some user) →
      (user.status = .active →
        past.Saw fun s => UserRepository.activeAdmins s (some userId) ≠ []) →
      Lawful env req past (.delete userId)
        (.updateAdmin user { user with currentRefreshJti := none, status := .inactive })
  | deleted {userId} {user : PlatformAdmin} : user.id = userId →
      past.Wrote
        (.updateAdmin user { user with currentRefreshJti := none, status := .inactive }) →
      Lawful env req past (.delete userId)
        (.insertIntent (AuditService.intent req
          (AuditService.event .userDelete (some .user) (some userId.str) .null)))

section Keeps
variable {α : Type} {L : Db.Policy} {past : Past}

/-- Loading an admin: the object of the session, or the row as it is. -/
theorem keeps_getUserHeld_bind {held : PlatformAdmin} {userId : Uuid}
    {f : PlatformAdmin → Db α} (hheld : past.Saw fun s => s.admins.find? held.id = some held)
    (h : ∀ (later : Past) user, past <:+ later → user.id = userId →
      later.Saw (fun s => s.admins.find? userId = some user) → (f user).Keeps L later) :
    (getUserHeld held userId >>= f).Keeps L past := by
  unfold getUserHeld AuthRepository.getAdminById
  by_cases hid : held.id = userId
  · subst hid
    simp only [Option.filter, decide_true, if_true]
    exact h past held (List.suffix_refl _) rfl hheld
  · simp only [Option.filter, hid, decide_false, Bool.false_eq_true, if_false]
    rw [Program.bind_bind]
    refine Db.keeps_query_bind fun later s hlater hat => ?_
    cases hfind : s.admins.find? userId with
    | none => exact Db.keeps_throw _
    | some user => exact h later user hlater (Table.find?_eq_some.mp hfind).2 (hat.saw hfind)

theorem keeps_guardLastActiveAdmin_bind {userId : Uuid} {f : Unit → Db α}
    (h : ∀ later : Past, past <:+ later →
      later.Saw (fun s => UserRepository.activeAdmins s (some userId) ≠ []) →
      (f ()).Keeps L later) : (guardLastActiveAdmin userId >>= f).Keeps L past := by
  unfold guardLastActiveAdmin UserRepository.countActiveAdmins
  rw [Program.bind_bind]
  refine Db.keeps_query_bind fun later s hlater hat => ?_
  refine Db.keeps_check_bind fun hcount => h later hlater (hat.saw ?_)
  simpa using hcount

/-- The guard is asked where `c` holds. -/
theorem keeps_guarded_bind {c : Bool} {userId : Uuid} {f : Unit → Db α}
    (h : ∀ later : Past, past <:+ later →
      (c = true → later.Saw fun s => UserRepository.activeAdmins s (some userId) ≠ []) →
      (f ()).Keeps L later) :
    (when c (guardLastActiveAdmin userId) >>= f).Keeps L past := by
  refine Db.keeps_when_bind (fun _ => ?_) fun hc => ?_
  · exact keeps_guardLastActiveAdmin_bind fun later hlater hsaw => h later hlater fun _ => hsaw
  · exact h past (List.suffix_refl _) fun hc' => absurd (hc.symm.trans hc') (by decide)

theorem keeps_createUser (data : UserCreate) (past : Past) :
    (createUser env req data).Keeps (fun past => Op.Lawful env req past (.create data)) past := by
  refine Db.keeps_reading_bind (writes_ensureEmailAvailable _ _) fun checked _ _ => ?_
  refine Db.keeps_save_bind .insert fun inserted s user _ hwrote _ hfind => ?_
  have hid : user.id = req.newId := (Table.find?_eq_some.mp hfind).2
  have hassigned : (RbacRepository.assignSuperAdmin req.now user.id).Keeps
      (fun past => Op.Lawful env req past (.create data)) inserted := by
    refine Db.keeps_query_bind fun later u hlater hat => ?_
    cases hrole : u.roleByName superAdminRoleName with
    | none => exact Db.keeps_pure ()
    | some role =>
        refine Db.keeps_query_bind fun last v hlast _ => ?_
        split
        · rw [hid]
          exact Db.keeps_commit (.assign (hwrote.mono (hlater.trans hlast))
            ((hat.saw hrole).mono hlast))
        · exact Db.keeps_pure ()
  refine hassigned.bind fun later _ hlater _ => ?_
  exact AuditService.keeps_record_bind (.created (hwrote.mono hlater) hid)
    fun _ _ => Db.keeps_pure _

theorem keeps_updateLoaded {userId : Uuid} {data : UserUpdate} {user : PlatformAdmin}
    (hid : user.id = userId) (hsaw : past.Saw fun s => s.admins.find? userId = some user) :
    (updateLoaded req userId data user).Keeps
      (fun past => Op.Lawful env req past (.update userId data)) past := by
  have hreads : (data.email.forM fun email => ensureEmailAvailable email (some userId)).Writes
      (fun _ => False) := by
    cases data.email
    · exact Db.writes_pure ()
    · exact writes_ensureEmailAvailable _ _
  refine Db.keeps_reading_bind hreads fun checked _ hchecked => ?_
  refine keeps_guarded_bind fun guarded hguarded hactive => ?_
  refine Db.keeps_save_bind (.update hid (hsaw.mono (hchecked.trans hguarded)) hactive) ?_
  intro later s row _ hwrote _ hfind
  have hrow : row.id = user.id := (Table.find?_eq_some.mp hfind).2
  rw [hrow]
  exact AuditService.keeps_record_bind (.updated hid hwrote) fun _ _ => Db.keeps_pure _

theorem keeps_replaceLoaded {userId : Uuid} {data : UserReplace} {user : PlatformAdmin}
    (hid : user.id = userId) (hsaw : past.Saw fun s => s.admins.find? userId = some user) :
    (replaceLoaded env req userId data user).Keeps
      (fun past => Op.Lawful env req past (.replace userId data)) past := by
  refine Db.keeps_reading_bind (writes_ensureEmailAvailable _ _) fun checked _ hchecked => ?_
  refine Db.keeps_save_bind (.replace hid (hsaw.mono hchecked)) ?_
  intro later s row _ hwrote _ hfind
  have hrow : row.id = user.id := (Table.find?_eq_some.mp hfind).2
  rw [hrow]
  exact AuditService.keeps_record_bind (.replaced hid hwrote) fun _ _ => Db.keeps_pure _

theorem keeps_deleteLoaded {userId : Uuid} {user : PlatformAdmin} (hid : user.id = userId)
    (hsaw : past.Saw fun s => s.admins.find? userId = some user) :
    (deleteLoaded req userId user).Keeps
      (fun past => Op.Lawful env req past (.delete userId)) past := by
  refine keeps_guarded_bind fun guarded hguarded hactive => ?_
  refine Db.keeps_commit_bind (.delete hid (hsaw.mono hguarded) ?_) fun later _ hwrote => ?_
  · simpa using hactive
  · exact AuditService.keeps_record (.deleted hid hwrote)

/-- **A user request writes only what is lawful.** -/
theorem Op.keeps_performHeld {held : PlatformAdmin} (op : Op)
    (hheld : past.Saw fun s => s.admins.find? held.id = some held) :
    (op.performHeld env req held).Keeps (fun past => Op.Lawful env req past op) past := by
  cases op with
  | create data => exact (keeps_createUser data past).drop
  | update userId data =>
      exact (keeps_getUserHeld_bind hheld fun _ _ _ hid hsaw => keeps_updateLoaded hid hsaw).drop
  | replace userId data =>
      exact (keeps_getUserHeld_bind hheld fun _ _ _ hid hsaw => keeps_replaceLoaded hid hsaw).drop
  | delete userId =>
      exact keeps_getUserHeld_bind hheld fun _ _ _ hid hsaw => keeps_deleteLoaded hid hsaw

end Keeps
end UserService

/-! ## Roles -/

namespace RoleService
variable {req : Request}

/-- The screens of the permissions were active when they were looked up. -/
def ScreensActive (past : Past) (byCode : List (String × Bool × Bool)) : Prop :=
  byCode ≠ [] → past.Saw fun s => ∀ code ∈ byCode.map Prod.fst, code ∈ ScreenRepository.activeCodes s

theorem ScreensActive.mono {past later : Past} {byCode : List (String × Bool × Bool)}
    (h : ScreensActive past byCode) (hlater : past <:+ later) : ScreensActive later byCode :=
  fun hne => (h hne).mono hlater

/-- The writes of a role request. -/
inductive Op.Lawful (req : Request) (past : Past) : Op → Write → Prop
  | insert {data} {byCode : List (String × Bool × Bool)} :
      normalizePermissions data.permissions = some byCode → ScreensActive past byCode →
      Lawful req past (.create data)
        (.insertRole (newRole req data) (permissionRows req req.newId byCode))
  | created {data byCode rows} {role : Role} :
      past.Wrote (.insertRole (newRole req data) (permissionRows req req.newId byCode)) →
      role.id = req.newId →
      Lawful req past (.create data)
        (.insertIntent (AuditService.intent req
          (AuditService.event .roleCreate (some .role) (some role.id.str)
            (.obj
              [("name", .str role.name),
                ("permissions", jsonStrings (expandPermissions rows))]))))
  | update {roleId data rows} {role : Role} : role.id = roleId →
      past.Saw (fun s => s.roles.find? roleId = some role) → touchesProtected role data = false →
      (data.permissions = none → rows = none) →
      (∀ given ∈ rows, ∃ byCode, ScreensActive past byCode ∧
        given = permissionRows req roleId byCode) →
      Lawful req past (.update roleId data) (.updateRole role (assignUpdate data role) rows)
  | updated {roleId data rows expanded} {role : Role} : role.id = roleId →
      past.Wrote (.updateRole role (assignUpdate data role) rows) →
      Lawful req past (.update roleId data)
        (.insertIntent (AuditService.intent req
          (AuditService.event .roleUpdate (some .role) (some roleId.str)
            (updateDetails data expanded))))
  | delete {roleId} {role : Role} : role.id = roleId →
      past.Saw (fun s => s.roles.find? roleId = some role) → role.name ≠ superAdminRoleName →
      Lawful req past (.delete roleId) (.updateRole role { role with status := .inactive } none)
  | deleted {roleId} {role : Role} : role.id = roleId →
      past.Wrote (.updateRole role { role with status := .inactive } none) →
      Lawful req past (.delete roleId)
        (.insertIntent (AuditService.intent req
          (AuditService.event .roleDelete (some .role) (some roleId.str) .null)))

section Keeps
variable {α : Type} {L : Db.Policy} {past : Past}

theorem keeps_getRole_bind {roleId : Uuid} {f : Role → Db α}
    (h : ∀ (later : Past) role, past <:+ later → role.id = roleId →
      later.Saw (fun s => s.roles.find? roleId = some role) → (f role).Keeps L later) :
    (getRole roleId >>= f).Keeps L past := by
  unfold getRole RoleRepository.getRole
  rw [Program.bind_bind]
  refine Db.keeps_query_bind fun later s hlater hat => ?_
  cases hfind : s.roles.find? roleId with
  | none => exact Db.keeps_throw _
  | some role => exact h later role hlater (Table.find?_eq_some.mp hfind).2 (hat.saw hfind)

theorem keeps_normalized_bind {permissions : List String}
    {f : List (String × Bool × Bool) → Db α}
    (h : ∀ byCode, normalizePermissions permissions = some byCode → (f byCode).Keeps L past) :
    (normalized permissions >>= f).Keeps L past := by
  unfold normalized
  cases hbyCode : normalizePermissions permissions with
  | none => exact Db.keeps_throw _
  | some byCode => exact h byCode hbyCode

theorem keeps_validateScreenCodes_bind {byCode : List (String × Bool × Bool)}
    {f : Unit → Db α}
    (h : ∀ later : Past, past <:+ later → ScreensActive later byCode → (f ()).Keeps L later) :
    (validateScreenCodes byCode >>= f).Keeps L past := by
  refine Db.keeps_when_bind (fun _ => ?_) fun hempty => ?_
  · rw [Program.bind_bind]
    refine Db.keeps_query_bind fun later s hlater hat => ?_
    refine Db.keeps_check_bind fun hvalid => h later hlater fun _ => hat.saw fun code hcode => ?_
    simp only [ne_eq, decide_eq_false_iff_not, not_not, List.filter_eq_nil_iff,
      decide_eq_true_eq] at hvalid
    exact hvalid code hcode
  · refine h past (List.suffix_refl _) fun hne => absurd hne ?_
    simpa using hempty

theorem keeps_createRole (data : RoleCreate) (past : Past) :
    (createRole req data).Keeps (fun past => Op.Lawful req past (.create data)) past := by
  refine Db.keeps_reading_bind (writes_ensureNameAvailable _ _) fun checked _ _ => ?_
  refine keeps_normalized_bind fun byCode hbyCode => ?_
  refine keeps_validateScreenCodes_bind fun validated _ hactive => ?_
  refine Db.keeps_save_bind (.insert hbyCode hactive) fun inserted s role _ hwrote _ hfind => ?_
  refine Db.keeps_query_bind fun later _ hlater _ => ?_
  refine AuditService.keeps_record_bind ?_ fun _ _ => Db.keeps_pure _
  exact .created (hwrote.mono hlater) (Table.find?_eq_some.mp hfind).2

theorem keeps_updateRows_bind {roleId : Uuid} {permissions : Option (List String)}
    {f : Option (List RoleScreen) → Db α}
    (h : ∀ (later : Past) rows, past <:+ later → (permissions = none → rows = none) →
      (∀ given ∈ rows, ∃ byCode, ScreensActive later byCode ∧
        given = permissionRows req roleId byCode) → (f rows).Keeps L later) :
    (updateRows req roleId permissions >>= f).Keeps L past := by
  cases permissions with
  | none => exact h past none (List.suffix_refl _) (fun _ => rfl) fun _ hgiven => by cases hgiven
  | some permissions =>
      rw [updateRows, Program.bind_bind]
      refine keeps_normalized_bind fun byCode _ => ?_
      rw [Program.bind_bind]
      refine keeps_validateScreenCodes_bind fun later hlater hactive => ?_
      refine h later _ hlater nofun ?_
      rintro _ ⟨⟩
      exact ⟨byCode, hactive, rfl⟩

theorem writes_readRole {W : Write → Prop} (role : Role) : (readRole role).Writes W :=
  (Db.writes_query _).bind fun _ => Db.writes_pure _

theorem keeps_updateRole (roleId : Uuid) (data : RoleUpdate) (past : Past) :
    (updateRole req roleId data).Keeps (fun past => Op.Lawful req past (.update roleId data))
      past := by
  refine keeps_getRole_bind fun loaded role _ hid hsaw => ?_
  refine Db.keeps_check_bind fun hallowed => ?_
  have hreads : (data.name.forM fun name => ensureNameAvailable name (some roleId)).Writes
      (fun _ => False) := by
    cases data.name
    · exact Db.writes_pure ()
    · exact writes_ensureNameAvailable _ _
  refine Db.keeps_reading_bind hreads fun checked _ hchecked => ?_
  refine keeps_updateRows_bind fun given rows hgiven hnone hrows => ?_
  refine Db.keeps_save_bind
    (.update hid (hsaw.mono (hchecked.trans hgiven)) hallowed hnone hrows) ?_
  intro written s row _ hwrote _ _
  have hexpanded : (expandedPermissions roleId data.permissions).Writes (fun _ => False) := by
    cases data.permissions
    · exact Db.writes_pure _
    · exact (Db.writes_query _).bind fun _ => Db.writes_pure _
  refine Db.keeps_reading_bind hexpanded fun later expanded hlater => ?_
  refine AuditService.keeps_record_bind (.updated hid (hwrote.mono hlater)) fun _ _ => ?_
  exact Db.keeps_of_reading (writes_readRole row)

theorem keeps_deleteRole (roleId : Uuid) (past : Past) :
    (deleteRole req roleId).Keeps (fun past => Op.Lawful req past (.delete roleId)) past := by
  refine keeps_getRole_bind fun loaded role _ hid hsaw => ?_
  refine Db.keeps_check_bind fun hother => ?_
  refine Db.keeps_commit_bind (.delete hid hsaw (of_decide_eq_false hother)) fun _ _ hwrote => ?_
  exact AuditService.keeps_record (.deleted hid hwrote)

/-- **A role request writes only what is lawful.** -/
theorem Op.keeps_perform (op : Op) (past : Past) :
    (op.perform req).Keeps (fun past => Op.Lawful req past op) past := by
  cases op with
  | create data => exact (keeps_createRole data past).drop
  | update roleId data => exact (keeps_updateRole roleId data past).drop
  | delete roleId => exact keeps_deleteRole roleId past

end Keeps
end RoleService

/-! ## Screens -/

namespace ScreenService
variable {req : Request}

/-- The writes of a screen request. -/
inductive Op.Lawful (req : Request) (past : Past) : Op → Write → Prop
  | insert {data code} {superAdmin : Option Role} :
      past.Saw (fun s => s.screenByCode code = none) →
      past.Saw (fun s => s.roleByName superAdminRoleName = superAdmin) →
      Lawful req past (.create data)
        (.insertScreen (newScreen req data code)
          ((superAdmin.map Role.id).map
            (ScreenRepository.bootstrapPermission req.now (newScreen req data code))))
  | created {data code permission} {screen : Screen} :
      past.Wrote (.insertScreen (newScreen req data code) permission) → screen.id = req.newId →
      Lawful req past (.create data)
        (.insertIntent (AuditService.intent req
          (AuditService.event .screenCreate (some .screen) (some screen.code)
            (.obj [("code", .str screen.code), ("name", .str screen.name)]))))
  | update {screenId data} {screen : Screen} : screen.id = screenId →
      past.Saw (fun s => s.screens.find? screenId = some screen) →
      (screen.code ∈ protectedScreenCodes → data.status ≠ some .inactive) →
      Lawful req past (.update screenId data) (.updateScreen screen (assignUpdate data screen))
  | updated {screenId data} {screen row : Screen} : screen.id = screenId →
      past.Wrote (.updateScreen screen (assignUpdate data screen)) → row.id = screenId →
      Lawful req past (.update screenId data)
        (.insertIntent (AuditService.intent req
          (AuditService.event .screenUpdate (some .screen) (some row.code) (updateDetails data))))
  | delete {screenId} {screen : Screen} : screen.id = screenId →
      past.Saw (fun s => s.screens.find? screenId = some screen) →
      screen.code ∉ protectedScreenCodes →
      Lawful req past (.delete screenId)
        (.updateScreen screen { screen with status := .inactive })
  | deleted {screenId} {screen : Screen} : screen.id = screenId →
      past.Wrote (.updateScreen screen { screen with status := .inactive }) →
      Lawful req past (.delete screenId)
        (.insertIntent (AuditService.intent req
          (AuditService.event .screenDelete (some .screen) (some screen.code) .null)))

section Keeps
variable {α : Type} {L : Db.Policy} {past : Past}

theorem keeps_getScreen_bind {screenId : Uuid} {f : Screen → Db α}
    (h : ∀ (later : Past) screen, past <:+ later → screen.id = screenId →
      later.Saw (fun s => s.screens.find? screenId = some screen) → (f screen).Keeps L later) :
    (getScreen screenId >>= f).Keeps L past := by
  unfold getScreen ScreenRepository.getScreen
  rw [Program.bind_bind]
  refine Db.keeps_query_bind fun later s hlater hat => ?_
  cases hfind : s.screens.find? screenId with
  | none => exact Db.keeps_throw _
  | some screen => exact h later screen hlater (Table.find?_eq_some.mp hfind).2 (hat.saw hfind)

theorem keeps_createScreen (data : ScreenCreate) (past : Past) :
    (createScreen req data).Keeps (fun past => Op.Lawful req past (.create data)) past := by
  refine Db.keeps_reading_bind (writes_chooseCode data) fun chosen code _ => ?_
  have hensure : ∀ {f : Unit → Db Screen}, (ensureCodeAvailable code >>= f) =
      query (fun s => s.screenByCode code) >>= fun existing =>
        (when existing.isSome (raise .screenCodeExists)) >>= f := by
    intro f
    rw [ensureCodeAvailable, Program.bind_bind]
    rfl
  rw [hensure]
  refine Db.keeps_query_bind fun looked s _ hlooked => ?_
  refine Db.keeps_check_bind fun hfree => ?_
  refine Db.keeps_query_bind fun later u hlater hat => ?_
  have hnone : s.screenByCode code = none := by simpa using hfree
  refine Db.keeps_save_bind (.insert ((hlooked.saw hnone).mono hlater) (hat.saw rfl)) ?_
  intro inserted v screen _ hwrote _ hfind
  refine AuditService.keeps_record_bind ?_ fun _ _ => Db.keeps_pure _
  exact .created hwrote (Table.find?_eq_some.mp hfind).2

theorem keeps_updateScreen (screenId : Uuid) (data : ScreenUpdate) (past : Past) :
    (updateScreen req screenId data).Keeps
      (fun past => Op.Lawful req past (.update screenId data)) past := by
  refine keeps_getScreen_bind fun loaded screen _ hid hsaw => ?_
  refine Db.keeps_check_bind fun hallowed => ?_
  refine Db.keeps_save_bind (.update hid hsaw (by simpa using hallowed)) ?_
  intro later s row _ hwrote _ hfind
  have hrow : row.id = screen.id := (Table.find?_eq_some.mp hfind).2
  exact AuditService.keeps_record_bind (.updated hid hwrote (hrow.trans hid))
    fun _ _ => Db.keeps_pure _

theorem keeps_deleteScreen (screenId : Uuid) (past : Past) :
    (deleteScreen req screenId).Keeps (fun past => Op.Lawful req past (.delete screenId))
      past := by
  refine keeps_getScreen_bind fun loaded screen _ hid hsaw => ?_
  refine Db.keeps_check_bind fun hother => ?_
  refine Db.keeps_commit_bind (.delete hid hsaw (of_decide_eq_false hother)) fun _ _ hwrote => ?_
  exact AuditService.keeps_record (.deleted hid hwrote)

/-- **A screen request writes only what is lawful.** -/
theorem Op.keeps_perform (op : Op) (past : Past) :
    (op.perform req).Keeps (fun past => Op.Lawful req past op) past := by
  cases op with
  | create data => exact (keeps_createScreen data past).drop
  | update screenId data => exact (keeps_updateScreen screenId data past).drop
  | delete screenId => exact keeps_deleteScreen screenId past

end Keeps
end ScreenService
end AdminPlatform
