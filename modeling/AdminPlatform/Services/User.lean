import AdminPlatform.Services.Audit

/-! # The user service

`app/services/user_service.py`: creating, updating, replacing and deactivating Platform
Admins. Each operation has one lemma that says all it can do when it runs alone. -/

namespace AdminPlatform
open AdminPlatform.Lib

structure UserCreate where
  name : String
  email : String
  password : String
  status : Status := .active

/-- Partial update: only provided fields are applied. -/
structure UserUpdate where
  name : Option String := none
  email : Option String := none
  status : Option Status := none

/-- Full replace; the status stays. -/
structure UserReplace where
  name : String
  email : String
  password : String

namespace UserService

def ensureEmailAvailable (email : String) (excludeId : Option Uuid := none) : Db Unit := do
  match ← UserRepository.getUserByEmail email with
  | some existing => when (excludeId ≠ some existing.id) (raise .emailExists)
  | none => return ()

/-- Reject deactivating the last active admin — nobody could log in afterwards. -/
def guardLastActiveAdmin (adminId : Uuid) : Db Unit := do
  let others ← UserRepository.countActiveAdmins (some adminId)
  when (others = 0) (raise .lastAdmin)

/-- The row a request to create an admin builds. -/
def newUser (env : Env) (req : Request) (data : UserCreate) : PlatformAdmin where
  id := req.newId
  email := data.email
  username := data.name
  hashedPassword := env.bcrypt.hashPassword req.salt data.password
  status := data.status
  failedLoginAttempts := 0
  lockedUntil := none
  currentRefreshJti := none
  createdAt := req.now

def createUser (env : Env) (req : Request) (data : UserCreate) : Db PlatformAdmin := do
  ensureEmailAvailable data.email
  let user ← UserRepository.createUser (newUser env req data)
  RbacRepository.assignSuperAdmin req.now user.id
  AuditService.record req
    (AuditService.event .userCreate (some .user) (some user.id.str)
      (.obj [("email", .str user.email), ("name", .str user.username)]))
  return user

def getUser (userId : Uuid) : Db PlatformAdmin := do
  match ← UserRepository.getUser userId with
  | some user => return user
  | none => raise .userNotFound

/-- The provided fields, as the audit details show them. -/
def updateDetails (data : UserUpdate) : Json :=
  .obj ((data.name.map fun name => ("name", Json.str name)).toList ++
    (data.email.map fun email => ("email", Json.str email)).toList ++
    (data.status.map fun status => ("status", Json.str status.value)).toList)

/-- Whether an update takes an active admin out of service. -/
def deactivates (data : UserUpdate) (user : PlatformAdmin) : Bool :=
  data.status = some .inactive ∧ user.status = .active

/-- The assignments of the payload: the provided fields, and no session any more for an
admin taken out of service. -/
def assignUpdate (data : UserUpdate) (user : PlatformAdmin) : PlatformAdmin :=
  { user with
    username := data.name.getD user.username
    email := data.email.getD user.email
    status := data.status.getD user.status
    currentRefreshJti := if deactivates data user then none else user.currentRefreshJti }

def updateUser (req : Request) (userId : Uuid) (data : UserUpdate) : Db PlatformAdmin := do
  let user ← getUser userId
  data.email.forM fun email => ensureEmailAvailable email (some userId)
  when (deactivates data user) (guardLastActiveAdmin userId)
  let user ← UserRepository.updateUser user (assignUpdate data)
  AuditService.record req
    (AuditService.event .userUpdate (some .user) (some user.id.str) (updateDetails data))
  return user

/-- The assignments of a replacement; neither the status nor the session is touched. -/
def assignReplace (env : Env) (req : Request) (data : UserReplace) (user : PlatformAdmin) :
    PlatformAdmin :=
  { user with
    username := data.name
    email := data.email
    hashedPassword := env.bcrypt.hashPassword req.salt data.password
    failedLoginAttempts := 0
    lockedUntil := none }

def replaceUser (env : Env) (req : Request) (userId : Uuid) (data : UserReplace) :
    Db PlatformAdmin := do
  let user ← getUser userId
  ensureEmailAvailable data.email (some userId)
  let user ← UserRepository.updateUser user (assignReplace env req data)
  AuditService.record req
    (AuditService.event .userReplace (some .user) (some user.id.str)
      (.obj [("email", .str data.email), ("name", .str data.name)]))
  return user

def deleteUser (req : Request) (userId : Uuid) : Db Unit := do
  let user ← getUser userId
  when (user.status = .active) (guardLastActiveAdmin userId)
  UserRepository.deleteUser user { user with currentRefreshJti := none }
  AuditService.record req
    (AuditService.event .userDelete (some .user) (some userId.str) .null)

/-! ## What the parts do -/

section Run
variable {s s' : Database}

theorem ensureEmailAvailable_isCheck (email : String) (excludeId : Option Uuid) (s : Database) :
    (ensureEmailAvailable email excludeId).IsCheck s
      (∃ existing ∈ s.adminByEmail email, excludeId ≠ some existing.id) := by
  refine Db.IsCheck.query_bind ?_
  cases s.adminByEmail email with
  | none => exact .inr ⟨by simp, rfl⟩
  | some existing => exact (Db.isCheck_raise _ _ s).congr (by simp)

theorem guardLastActiveAdmin_isCheck (adminId : Uuid) (s : Database) :
    (guardLastActiveAdmin adminId).IsCheck s
      (UserRepository.activeAdmins s (some adminId) = []) := by
  refine Db.IsCheck.query_bind ?_
  exact (Db.isCheck_raise _ _ s).congr (by simp)

theorem getUser_reads (userId : Uuid) (s : Database) :
    (getUser userId).Reads s (fun user => s.admins.find? userId = some user) := by
  unfold getUser UserRepository.getUser Db.Reads Db.Refused
  rw [Db.run_query_bind]
  cases s.admins.find? userId <;> simp

/-! ## What the operations do -/

/-- **All that updating an admin does**: it is refused and changes nothing, or the admin's
row takes the provided fields; the last active admin is not taken out of service. -/
theorem run_updateUser_inv {req : Request} {userId : Uuid} {data : UserUpdate}
    {r : Except Failure PlatformAdmin} (h : (updateUser req userId data).run s = (r, s')) :
    ((∃ e, r = .error e) ∧ s' = s) ∨
      ∃ user admins outbox, s.admins.find? userId = some user ∧
        (deactivates data user → UserRepository.activeAdmins s (some userId) ≠ []) ∧
        s.admins.flush user (assignUpdate data user) = .ok admins ∧
        r = .ok (assignUpdate data user) ∧
        s' = { s with admins := admins, auditIntents := outbox } := by
  rcases (getUser_reads userId s).bind_inv h with hrefused | ⟨user, hfind, h⟩
  · exact .inl hrefused
  have hid : user.id = userId := (Table.find?_eq_some.mp hfind).2
  rcases (Db.IsCheck.forM data.email
    (fun email => ensureEmailAvailable_isCheck email (some userId) s)).bind_inv h
    with hrefused | ⟨-, h⟩
  · exact .inl hrefused
  rcases ((guardLastActiveAdmin_isCheck userId s).when _).bind_inv h with hrefused | ⟨hguard, h⟩
  · exact .inl hrefused
  rcases run_writeAdmin_bind_inv h (hid ▸ hfind) rfl with hrefused | ⟨admins, hflush, h⟩
  · exact .inl hrefused
  obtain ⟨outbox, h⟩ := AuditService.run_record_bind_inv h
  obtain ⟨rfl, rfl⟩ := Prod.mk.inj h
  exact .inr ⟨user, admins, outbox, hfind, fun hd hnil => hguard ⟨hd, hnil⟩, hflush, rfl, rfl⟩

theorem run_replaceUser_inv {env : Env} {req : Request} {userId : Uuid} {data : UserReplace}
    {r : Except Failure PlatformAdmin}
    (h : (replaceUser env req userId data).run s = (r, s')) :
    ((∃ e, r = .error e) ∧ s' = s) ∨
      ∃ user admins outbox, s.admins.find? userId = some user ∧
        s.admins.flush user (assignReplace env req data user) = .ok admins ∧
        r = .ok (assignReplace env req data user) ∧
        s' = { s with admins := admins, auditIntents := outbox } := by
  rcases (getUser_reads userId s).bind_inv h with hrefused | ⟨user, hfind, h⟩
  · exact .inl hrefused
  have hid : user.id = userId := (Table.find?_eq_some.mp hfind).2
  rcases (ensureEmailAvailable_isCheck data.email (some userId) s).bind_inv h
    with hrefused | ⟨-, h⟩
  · exact .inl hrefused
  rcases run_writeAdmin_bind_inv h (hid ▸ hfind) rfl with hrefused | ⟨admins, hflush, h⟩
  · exact .inl hrefused
  obtain ⟨outbox, h⟩ := AuditService.run_record_bind_inv h
  obtain ⟨rfl, rfl⟩ := Prod.mk.inj h
  exact .inr ⟨user, admins, outbox, hfind, hflush, rfl, rfl⟩

/-- Nobody but the admin has the email or the username of the replacement. -/
def Free (s : Database) (userId : Uuid) (data : UserReplace) : Prop :=
  ∀ other ∈ s.admins, other.id ≠ userId → other.email ≠ data.email ∧ other.username ≠ data.name

/-- A replacement whose email and username are free is made. -/
theorem run_replaceUser_ok (env : Env) (req : Request) {userId : Uuid} {data : UserReplace}
    {user : PlatformAdmin} (hfind : s.admins.find? userId = some user)
    (hfree : Free s userId data) :
    ∃ admins outbox, s.admins.flush user (assignReplace env req data user) = .ok admins ∧
      (replaceUser env req userId data).run s =
        (.ok (assignReplace env req data user),
          { s with admins := admins, auditIntents := outbox }) := by
  obtain rfl : user.id = userId := (Table.find?_eq_some.mp hfind).2
  have hget : (getUser user.id).run s = (.ok user, s) := by
    show (query _ >>= _ : Db PlatformAdmin).run s = _
    rw [Db.run_query_bind, hfind]
    rfl
  have hensure : (ensureEmailAvailable data.email (some user.id)).run s = (.ok (), s) := by
    rcases ensureEmailAvailable_isCheck data.email (some user.id) s
      with ⟨⟨other, hother, hne⟩, -⟩ | ⟨-, hrun⟩
    · obtain ⟨hmem, hemail⟩ := Database.adminByEmail_eq_some.mp hother
      have hid : other.id ≠ user.id := fun h => hne (congrArg some h.symm)
      exact absurd hemail (hfree other hmem hid).1
    · exact hrun
  obtain ⟨admins, hflush⟩ : ∃ t, s.admins.flush user (assignReplace env req data user) = .ok t := by
    refine Table.exists_flush hfind rfl fun b hb hne hclash => ?_
    obtain ⟨hemail, hname⟩ := hfree b hb hne
    rcases hclash with hid | he | hn
    · exact hne hid.symm
    · exact hemail he.symm
    · exact hname hn.symm
  obtain ⟨outbox, hrecord⟩ := AuditService.run_record req
    (AuditService.event .userReplace (some .user) (some user.id.str)
      (.obj [("email", .str data.email), ("name", .str data.name)])) { s with admins := admins }
  refine ⟨admins, outbox, hflush, ?_⟩
  have hwrite : (UserRepository.updateUser user (assignReplace env req data)).run s =
      (.ok (assignReplace env req data user), { s with admins := admins }) :=
    run_writeAdmin_ok hfind rfl hflush
  rw [replaceUser, Db.run_bind_ok _ hget, Db.run_bind_ok _ hensure, Db.run_bind_ok _ hwrite]
  exact Db.run_bind_ok _ hrecord

/-- Creating an admin is refused, or adds the row with the super_admin role assigned to it. -/
theorem run_createUser_inv {env : Env} {req : Request} {data : UserCreate}
    {r : Except Failure PlatformAdmin} (h : (createUser env req data).run s = (r, s')) :
    ((∃ e, r = .error e) ∧ s' = s) ∨
      ∃ admins adminRoles outbox, s.admins.insert (newUser env req data) = some admins ∧
        (∀ x ∈ s.adminRoles, x ∈ adminRoles) ∧
        (∀ role, s.roleByName superAdminRoleName = some role →
          (adminRoles.find? (req.newId, role.id)).isSome) ∧
        r = .ok (newUser env req data) ∧
        s' = { s with admins := admins, adminRoles := adminRoles, auditIntents := outbox } := by
  rcases (ensureEmailAvailable_isCheck data.email none s).bind_inv h with hrefused | ⟨-, h⟩
  · exact .inl hrefused
  rcases run_createUser_bind_inv h with hrefused | ⟨admins, hinsert, h⟩
  · exact .inl hrefused
  have hnew : ({ s with admins := admins }.admins.find? (newUser env req data).id).isSome := by
    simp [Table.find?_insert hinsert]
  obtain ⟨adminRoles, hrun, hkept, hassigned⟩ :=
    RbacRepository.run_assignSuperAdmin req.now hnew
  rw [Db.run_bind_ok _ hrun] at h
  obtain ⟨outbox, h⟩ := AuditService.run_record_bind_inv h
  obtain ⟨rfl, rfl⟩ := Prod.mk.inj h
  exact .inr ⟨admins, adminRoles, outbox, hinsert, hkept, hassigned, rfl, rfl⟩

/-- Deleting an admin is refused, or leaves the row inactive and without a session. -/
theorem run_deleteUser_inv {req : Request} {userId : Uuid} {r : Except Failure Unit}
    (h : (deleteUser req userId).run s = (r, s')) :
    ((∃ e, r = .error e) ∧ s' = s) ∨
      ∃ user admins outbox, s.admins.find? userId = some user ∧
        (user.status = .active → UserRepository.activeAdmins s (some userId) ≠ []) ∧
        s.admins.flush user { user with currentRefreshJti := none, status := .inactive } =
          .ok admins ∧
        r = .ok () ∧ s' = { s with admins := admins, auditIntents := outbox } := by
  rcases (getUser_reads userId s).bind_inv h with hrefused | ⟨user, hfind, h⟩
  · exact .inl hrefused
  rcases ((guardLastActiveAdmin_isCheck userId s).when _).bind_inv h with hrefused | ⟨hguard, h⟩
  · exact .inl hrefused
  rcases Db.run_commit_bind_inv h with hrefused | ⟨u, hu, h⟩
  · exact .inl hrefused
  obtain ⟨admins, hflush, rfl⟩ := apply_updateAdmin hu
  obtain ⟨outbox, hrecord⟩ := AuditService.run_record req
    (AuditService.event .userDelete (some .user) (some userId.str) .null)
    { s with admins := admins }
  rw [hrecord] at h
  obtain ⟨rfl, rfl⟩ := Prod.mk.inj h
  exact .inr ⟨user, admins, outbox, hfind,
    fun hactive hnil => hguard ⟨by simpa using hactive, hnil⟩, hflush, rfl, rfl⟩

end Run

/-! ## The operations as one family -/

/-- A request to the user service. -/
inductive Op
  | create (data : UserCreate)
  | update (userId : Uuid) (data : UserUpdate)
  | replace (userId : Uuid) (data : UserReplace)
  | delete (userId : Uuid)

def Op.perform (env : Env) (req : Request) : Op → Db Unit
  | .create data => drop (createUser env req data)
  | .update userId data => drop (updateUser req userId data)
  | .replace userId data => drop (replaceUser env req userId data)
  | .delete userId => deleteUser req userId

/-- The state a request that succeeds leaves. -/
inductive Op.Effect (env : Env) (req : Request) (s : Database) : Op → Database → Prop
  | create {data admins adminRoles outbox} :
      s.admins.insert (newUser env req data) = some admins →
      (∀ x ∈ s.adminRoles, x ∈ adminRoles) →
      (∀ role, s.roleByName superAdminRoleName = some role →
        (adminRoles.find? (req.newId, role.id)).isSome) →
      Effect env req s (.create data)
        { s with admins := admins, adminRoles := adminRoles, auditIntents := outbox }
  | update {userId data user admins outbox} :
      s.admins.find? userId = some user →
      (deactivates data user → UserRepository.activeAdmins s (some userId) ≠ []) →
      s.admins.flush user (assignUpdate data user) = .ok admins →
      Effect env req s (.update userId data)
        { s with admins := admins, auditIntents := outbox }
  | replace {userId data user admins outbox} :
      s.admins.find? userId = some user →
      s.admins.flush user (assignReplace env req data user) = .ok admins →
      Effect env req s (.replace userId data)
        { s with admins := admins, auditIntents := outbox }
  | delete {userId user admins outbox} :
      s.admins.find? userId = some user →
      (user.status = .active → UserRepository.activeAdmins s (some userId) ≠ []) →
      s.admins.flush user { user with currentRefreshJti := none, status := .inactive } =
        .ok admins →
      Effect env req s (.delete userId) { s with admins := admins, auditIntents := outbox }

/-- **Inversion of a user operation**: it is refused and changes nothing, or has its effect. -/
theorem Op.perform_inv {env : Env} {req : Request} {op : Op} {s s' : Database}
    {r : Except Failure Unit} (h : (op.perform env req).run s = (r, s')) :
    ((∃ e, r = .error e) ∧ s' = s) ∨ (r = .ok () ∧ op.Effect env req s s') := by
  cases op with
  | create data =>
      obtain ⟨r, hrun, rfl⟩ := Db.run_drop_inv h
      rcases run_createUser_inv hrun with ⟨⟨e, rfl⟩, rfl⟩ |
        ⟨admins, adminRoles, outbox, hinsert, hkept, hassigned, rfl, rfl⟩
      · exact .inl ⟨⟨e, rfl⟩, rfl⟩
      · exact .inr ⟨rfl, .create hinsert hkept hassigned⟩
  | update userId data =>
      obtain ⟨r, hrun, rfl⟩ := Db.run_drop_inv h
      rcases run_updateUser_inv hrun with ⟨⟨e, rfl⟩, rfl⟩ |
        ⟨user, admins, outbox, hfind, hguard, hflush, rfl, rfl⟩
      · exact .inl ⟨⟨e, rfl⟩, rfl⟩
      · exact .inr ⟨rfl, .update hfind hguard hflush⟩
  | replace userId data =>
      obtain ⟨r, hrun, rfl⟩ := Db.run_drop_inv h
      rcases run_replaceUser_inv hrun with ⟨⟨e, rfl⟩, rfl⟩ |
        ⟨user, admins, outbox, hfind, hflush, rfl, rfl⟩
      · exact .inl ⟨⟨e, rfl⟩, rfl⟩
      · exact .inr ⟨rfl, .replace hfind hflush⟩
  | delete userId =>
      rcases run_deleteUser_inv h with hrefused |
        ⟨user, admins, outbox, hfind, hguard, hflush, rfl, rfl⟩
      · exact .inl hrefused
      · exact .inr ⟨rfl, .delete hfind hguard hflush⟩

/-! ### Operations that go through -/

/-- Nothing stands against the operation: the admin is there, nobody else has the email or the
username of the row it writes, and somebody active is left. -/
def Op.Unopposed (env : Env) (req : Request) (s : Database) : Op → Prop
  | .create data => ∀ other ∈ s.admins, ¬ Row.Clash other (newUser env req data)
  | .update userId data => ∃ user, s.admins.find? userId = some user ∧
      (∀ other ∈ s.admins, other.id ≠ userId → ¬ Row.Clash (assignUpdate data user) other) ∧
      (deactivates data user → UserRepository.activeAdmins s (some userId) ≠ [])
  | .replace userId data => ∃ user, s.admins.find? userId = some user ∧ Free s userId data
  | .delete userId => ∃ user, s.admins.find? userId = some user ∧
      (user.status = .active → UserRepository.activeAdmins s (some userId) ≠ [])

section Unopposed
variable {env : Env} {req : Request} {s s' : Database}

theorem run_createUser_ok {data : UserCreate}
    (hfree : ∀ other ∈ s.admins, ¬ Row.Clash other (newUser env req data)) :
    ((createUser env req data).run s).1 = .ok (newUser env req data) := by
  have hensure : (ensureEmailAvailable data.email).run s = (.ok (), s) := by
    rcases ensureEmailAvailable_isCheck data.email none s with ⟨⟨other, hother, -⟩, -⟩ | ⟨-, hrun⟩
    · obtain ⟨hmem, hemail⟩ := Database.adminByEmail_eq_some.mp hother
      exact absurd (.inr (.inl hemail)) (hfree other hmem)
    · exact hrun
  obtain ⟨admins, hinsert⟩ := Table.exists_insert hfree
  have hcreate : (UserRepository.createUser (newUser env req data)).run s =
      (.ok (newUser env req data), { s with admins := admins }) := by
    have happly : (Write.insertAdmin (newUser env req data)).apply s =
        .ok { s with admins := admins } := bind_eq_ok.mpr ⟨admins, by rw [hinsert]; rfl, rfl⟩
    exact Db.run_save_ok happly (by simp [Table.find?_insert hinsert])
  have hnew : ({ s with admins := admins }.admins.find? (newUser env req data).id).isSome := by
    simp [Table.find?_insert hinsert]
  obtain ⟨adminRoles, hassign, -⟩ := RbacRepository.run_assignSuperAdmin req.now hnew
  obtain ⟨outbox, hrecord⟩ := AuditService.run_record req
    (AuditService.event .userCreate (some .user) (some (newUser env req data).id.str)
      (.obj [("email", .str (newUser env req data).email),
        ("name", .str (newUser env req data).username)]))
    { s with admins := admins, adminRoles := adminRoles }
  rw [createUser, Db.run_bind_ok _ hensure, Db.run_bind_ok _ hcreate, Db.run_bind_ok _ hassign,
    Db.run_bind_ok _ hrecord]
  rfl

theorem run_updateUser_ok {userId : Uuid} {data : UserUpdate} {user : PlatformAdmin}
    (hfind : s.admins.find? userId = some user)
    (hfree : ∀ other ∈ s.admins, other.id ≠ userId → ¬ Row.Clash (assignUpdate data user) other)
    (hguard : deactivates data user → UserRepository.activeAdmins s (some userId) ≠ []) :
    ((updateUser req userId data).run s).1 = .ok (assignUpdate data user) := by
  obtain rfl : user.id = userId := (Table.find?_eq_some.mp hfind).2
  have hget : (getUser user.id).run s = (.ok user, s) := by
    show (query _ >>= _ : Db PlatformAdmin).run s = _
    rw [Db.run_query_bind, hfind]
    rfl
  have hensure : (data.email.forM fun email => ensureEmailAvailable email (some user.id)).run s =
      (.ok (), s) := by
    rcases Db.IsCheck.forM data.email
      (fun email => ensureEmailAvailable_isCheck email (some user.id) s) with
        ⟨⟨email, hdata, other, hother, hne⟩, -⟩ | ⟨-, hrun⟩
    · obtain ⟨hmem, hemail⟩ := Database.adminByEmail_eq_some.mp hother
      have hid : other.id ≠ user.id := fun h => hne (congrArg some h.symm)
      have hdata : data.email = some email := hdata
      refine absurd (.inr (.inl ?_)) (hfree other hmem hid)
      simp [assignUpdate, hdata, hemail]
    · exact hrun
  have hguarded : (when (deactivates data user) (guardLastActiveAdmin user.id)).run s =
      (.ok (), s) := by
    rcases (guardLastActiveAdmin_isCheck user.id s).when (deactivates data user) with
      ⟨⟨hd, hnil⟩, -⟩ | ⟨-, hrun⟩
    · exact absurd hnil (hguard hd)
    · exact hrun
  obtain ⟨admins, hflush⟩ : ∃ t, s.admins.flush user (assignUpdate data user) = .ok t :=
    Table.exists_flush hfind rfl hfree
  have hwrite : (UserRepository.updateUser user (assignUpdate data)).run s =
      (.ok (assignUpdate data user), { s with admins := admins }) :=
    run_writeAdmin_ok hfind rfl hflush
  obtain ⟨outbox, hrecord⟩ := AuditService.run_record req
    (AuditService.event .userUpdate (some .user) (some (assignUpdate data user).id.str)
      (updateDetails data)) { s with admins := admins }
  rw [updateUser, Db.run_bind_ok _ hget, Db.run_bind_ok _ hensure, Db.run_bind_ok _ hguarded,
    Db.run_bind_ok _ hwrite, Db.run_bind_ok _ hrecord]
  rfl

theorem run_deleteUser_ok {userId : Uuid} {user : PlatformAdmin}
    (hfind : s.admins.find? userId = some user)
    (hguard : user.status = .active → UserRepository.activeAdmins s (some userId) ≠ []) :
    ((deleteUser req userId).run s).1 = .ok () := by
  obtain rfl : user.id = userId := (Table.find?_eq_some.mp hfind).2
  have hget : (getUser user.id).run s = (.ok user, s) := by
    show (query _ >>= _ : Db PlatformAdmin).run s = _
    rw [Db.run_query_bind, hfind]
    rfl
  have hguarded : (when (user.status = .active) (guardLastActiveAdmin user.id)).run s =
      (.ok (), s) := by
    rcases (guardLastActiveAdmin_isCheck user.id s).when (user.status = .active) with
      ⟨⟨hactive, hnil⟩, -⟩ | ⟨-, hrun⟩
    · exact absurd hnil (hguard (of_decide_eq_true hactive))
    · exact hrun
  obtain ⟨admins, hflush⟩ : ∃ t, s.admins.flush user
      { user with currentRefreshJti := none, status := .inactive } = .ok t :=
    exists_flushAdmin hfind rfl rfl
  have hdelete : (UserRepository.deleteUser user { user with currentRefreshJti := none }).run s =
      (.ok (), { s with admins := admins }) :=
    Db.run_commit_ok (bind_eq_ok.mpr ⟨admins, hflush, rfl⟩)
  obtain ⟨outbox, hrecord⟩ := AuditService.run_record req
    (AuditService.event .userDelete (some .user) (some user.id.str) .null)
    { s with admins := admins }
  rw [deleteUser, Db.run_bind_ok _ hget, Db.run_bind_ok _ hguarded, Db.run_bind_ok _ hdelete,
    hrecord]

/-- An operation that has its effect met nothing. -/
theorem Op.Effect.unopposed {op : Op} (h : op.Effect env req s s') : op.Unopposed env req s := by
  cases h with
  | create hinsert => exact fun other hother => Table.not_clash_of_insert hinsert hother
  | @update userId data user admins outbox hfind hguard hflush =>
      obtain rfl : user.id = userId := (Table.find?_eq_some.mp hfind).2
      exact ⟨user, hfind, fun other hother hne =>
        Table.not_clash_of_flush hflush hfind rfl hother hne, hguard⟩
  | @replace userId data user admins outbox hfind hflush =>
      obtain rfl : user.id = userId := (Table.find?_eq_some.mp hfind).2
      refine ⟨user, hfind, fun other hother hne => ?_⟩
      have hclash := Table.not_clash_of_flush hflush hfind rfl hother hne
      exact ⟨fun h => hclash (.inr (.inl h.symm)), fun h => hclash (.inr (.inr h.symm))⟩
  | delete hfind hguard => exact ⟨_, hfind, hguard⟩

/-- **An operation goes through exactly if nothing stands against it.** -/
theorem Op.perform_ok_iff {op : Op} :
    ((op.perform env req).run s).1 = .ok () ↔ op.Unopposed env req s := by
  constructor
  · intro hok
    rcases hrun : (op.perform env req).run s with ⟨r, s'⟩
    rw [hrun] at hok
    rcases Op.perform_inv hrun with ⟨⟨e, rfl⟩, -⟩ | ⟨-, heffect⟩
    · cases hok
    · exact heffect.unopposed
  · intro h
    have hdrop : ∀ {α : Type} {p : Db α} {a : α}, (p.run s).1 = .ok a →
        ((drop p).run s).1 = .ok () := by
      intro α p a hp
      rcases hrun : p.run s with ⟨r, u⟩
      rw [hrun] at hp
      obtain rfl : r = .ok a := hp
      exact congrArg Prod.fst (Db.run_bind_ok _ hrun)
    cases op with
    | create data => exact hdrop (run_createUser_ok h)
    | update userId data =>
        obtain ⟨user, hfind, hfree, hguard⟩ := h
        exact hdrop (run_updateUser_ok hfind hfree hguard)
    | replace userId data =>
        obtain ⟨user, hfind, hfree⟩ := h
        obtain ⟨admins, outbox, -, hrun⟩ := run_replaceUser_ok env req hfind hfree
        exact hdrop (congrArg Prod.fst hrun)
    | delete userId =>
        obtain ⟨user, hfind, hguard⟩ := h
        exact run_deleteUser_ok hfind hguard

end Unopposed

/-! ## Requests that only read -/

section Reading
variable {W : Write → Prop}

theorem writes_getUser (userId : Uuid) : (getUser userId).Writes W := by
  refine (Db.writes_query _).bind fun user => ?_
  cases user
  · exact Db.writes_throw _
  · exact Db.writes_pure _

theorem writes_guardLastActiveAdmin (userId : Uuid) :
    (guardLastActiveAdmin userId).Writes W :=
  (Db.writes_query _).bind fun _ => (Db.writes_throw _).when _

theorem writes_ensureEmailAvailable (email : String) (excludeId : Option Uuid) :
    (ensureEmailAvailable email excludeId).Writes W := by
  refine (Db.writes_query _).bind fun existing => ?_
  cases existing
  · exact Db.writes_pure _
  · exact (Db.writes_throw _).when _

end Reading

end UserService
end AdminPlatform
