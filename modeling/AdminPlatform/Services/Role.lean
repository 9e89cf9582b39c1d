import AdminPlatform.Services.Audit

/-! # The role service

`app/services/role_service.py`: roles, their names and their permissions. The role
super_admin is protected: it keeps its name, stays active and keeps its permissions. -/

namespace AdminPlatform
open AdminPlatform.Lib

structure RoleCreate where
  name : String
  description : Option String := none
  status : Status := .active
  permissions : List String := []

/-- Partial update: only provided fields are applied. -/
structure RoleUpdate where
  name : Option String := none
  description : Option String := none
  status : Option Status := none
  permissions : Option (List String) := none

structure RoleRead where
  id : Uuid
  name : String
  description : Option String
  status : Status
  permissions : List String
  createdAt : Instant

namespace RoleService

def ensureNameAvailable (name : String) (excludeId : Option Uuid := none) : Db Unit := do
  match ← RoleRepository.getRoleByName name with
  | some existing => when (excludeId ≠ some existing.id) (raise .roleNameExists)
  | none => return ()

/-! ## Permission strings -/

/-- `permission.rsplit(".", 1)` into two parts; `none` where there is no dot. -/
def rsplit (permission : String) : Option (String × String) :=
  let reversed := permission.toList.reverse
  match reversed.dropWhile (· ≠ '.') with
  | _ :: code =>
      some (String.ofList code.reverse,
        String.ofList (reversed.takeWhile (· ≠ '.')).reverse)
  | [] => none

/-- Set the entry of a code, in its place if it has one. -/
def setEntry (code : String) (entry : Bool × Bool) :
    List (String × Bool × Bool) → List (String × Bool × Bool)
  | [] => [(code, entry)]
  | (c, e) :: byCode => if c = code then (code, entry) :: byCode
      else (c, e) :: setEntry code entry byCode

/-- One permission string on top of those before it: write implies read. -/
def addPermission (byCode : List (String × Bool × Bool)) (permission : String) :
    Option (List (String × Bool × Bool)) :=
  (rsplit permission).map fun (code, operation) =>
    let write := ((byCode.lookup code).getD (false, false)).2
    if operation = "W" then setEntry code (true, true) byCode
    else setEntry code (true, write) byCode

/-- Map permission strings to `{screen_code: (read, write)}`; `none` is the `ValueError` of
a string without a dot. -/
def normalizePermissions (permissions : List String) : Option (List (String × Bool × Bool)) :=
  permissions.foldlM addPermission []

def normalized (permissions : List String) : Db (List (String × Bool × Bool)) :=
  match normalizePermissions permissions with
  | some byCode => return byCode
  | none => throw .value

/-- Numeric-aware sort key so `S2` sorts before `S10`; non-numeric codes sort last. Digits are ASCII,
as in `numericSuffix`. -/
def screenCodeKey (code : String) : Nat × String × String :=
  match ScreenRepository.numericSuffix code with
  | some n =>
      let digits := Nat.toDigits 10 n
      (0, String.ofList (List.replicate (8 - digits.length) '0' ++ digits), code)
  | none => (1, "", code)

/-- The order of the expanded permissions: sort order, code, operation. -/
def permissionKey (entry : Nat × String × String) : Nat ×ₗ Nat ×ₗ String ×ₗ String ×ₗ String :=
  let key := screenCodeKey entry.2.1
  toLex (entry.1, toLex (key.1, toLex (key.2.1, toLex (key.2.2, entry.2.2))))

/-- Expand (code, sort_order, read, write) rows into ordered permission strings. -/
def expandPermissions (rows : List (String × Nat × Bool × Bool)) : List String :=
  let expanded := rows.flatMap fun (code, sortOrder, read, write) =>
    (if read || write then [(sortOrder, code, "R")] else []) ++
      (if write then [(sortOrder, code, "W")] else [])
  (expanded.insertionSort (fun a b => permissionKey a ≤ permissionKey b)).map
    fun (_, code, operation) => s!"{code}.{operation}"

/-- Every code must be that of an active screen. -/
def validateScreenCodes (byCode : List (String × Bool × Bool)) : Db Unit :=
  when (byCode ≠ []) do
    let valid ← ScreenRepository.activeScreenCodes
    let invalid := (byCode.map Prod.fst).filter (· ∉ valid)
    when (invalid ≠ []) (raise (.validation (invalid.map fun code =>
      ("permissions", s!"Unknown or inactive screen: {code}"))))

def permissionRows (req : Request) (roleId : Uuid) (byCode : List (String × Bool × Bool)) :
    List RoleScreen :=
  byCode.map fun (code, read, write) =>
    { roleId := roleId, screenCode := code, read := read, write := write, createdAt := req.now }

/-! ## The operations -/

def toRead (role : Role) (rows : List (String × Nat × Bool × Bool)) : RoleRead where
  id := role.id
  name := role.name
  description := role.description
  status := role.status
  permissions := expandPermissions rows
  createdAt := role.createdAt

def getRole (roleId : Uuid) : Db Role := do
  match ← RoleRepository.getRole roleId with
  | some role => return role
  | none => raise .roleNotFound

def readRole (role : Role) : Db RoleRead := do
  return toRead role (← RoleRepository.permissionsForRole role.id)

/-- The row a request to create a role builds. -/
def newRole (req : Request) (data : RoleCreate) : Role where
  id := req.newId
  name := data.name
  description := data.description
  status := data.status
  createdAt := req.now

/-- A list of strings as JSON. -/
def jsonStrings (texts : List String) : Json := .arr (texts.map Json.str)

def createRole (req : Request) (data : RoleCreate) : Db RoleRead := do
  ensureNameAvailable data.name
  let byCode ← normalized data.permissions
  validateScreenCodes byCode
  let role ← RoleRepository.createRole (newRole req data) (permissionRows req req.newId byCode)
  let rows ← RoleRepository.permissionsForRole role.id
  AuditService.record req
    (AuditService.event .roleCreate (some .role) (some role.id.str)
      (.obj [("name", .str role.name), ("permissions", jsonStrings (expandPermissions rows))]))
  return toRead role rows

/-- What an update may not ask of super_admin. -/
def touchesProtected (role : Role) (data : RoleUpdate) : Bool :=
  role.name = superAdminRoleName ∧
    ((data.name.any fun name => name ≠ superAdminRoleName) ∨
      data.status = some .inactive ∨ data.permissions.isSome)

def assignUpdate (data : RoleUpdate) (role : Role) : Role :=
  { role with
    name := data.name.getD role.name
    description := (data.description.map some).getD role.description
    status := data.status.getD role.status }

/-- The provided fields, as the audit details show them. -/
def updateDetails (data : RoleUpdate) (expanded : Option (List String)) : Json :=
  .obj ((data.name.map fun name => ("name", Json.str name)).toList ++
    (data.description.map fun description => ("description", Json.str description)).toList ++
    (data.status.map fun status => ("status", Json.str status.value)).toList ++
    (expanded.map fun permissions => ("permissions", jsonStrings permissions)).toList)

/-- The permission rows an update gives a role, `none` where it gives none. -/
def updateRows (req : Request) (roleId : Uuid) :
    Option (List String) → Db (Option (List RoleScreen))
  | none => return none
  | some permissions => do
      let byCode ← normalized permissions
      validateScreenCodes byCode
      return some (permissionRows req roleId byCode)

/-- The role's permissions as they are now, where the request gave any. -/
def expandedPermissions (roleId : Uuid) : Option (List String) → Db (Option (List String))
  | none => return none
  | some _ => do return some (expandPermissions (← RoleRepository.permissionsForRole roleId))

def updateRole (req : Request) (roleId : Uuid) (data : RoleUpdate) : Db RoleRead := do
  let role ← getRole roleId
  when (touchesProtected role data) (raise .protectedResource)
  data.name.forM fun name => ensureNameAvailable name (some roleId)
  let rows ← updateRows req roleId data.permissions
  let role ← RoleRepository.updateRole role (assignUpdate data) rows
  let expanded ← expandedPermissions roleId data.permissions
  AuditService.record req
    (AuditService.event .roleUpdate (some .role) (some roleId.str) (updateDetails data expanded))
  readRole role

def deleteRole (req : Request) (roleId : Uuid) : Db Unit := do
  let role ← getRole roleId
  when (role.name = superAdminRoleName) (raise .protectedResource)
  RoleRepository.deleteRole role
  AuditService.record req
    (AuditService.event .roleDelete (some .role) (some roleId.str) .null)

/-! ## What the parts do -/

section Run
variable {s s' : Database}

theorem ensureNameAvailable_isCheck (name : String) (excludeId : Option Uuid) (s : Database) :
    (ensureNameAvailable name excludeId).IsCheck s
      (∃ existing ∈ s.roleByName name, excludeId ≠ some existing.id) := by
  refine Db.IsCheck.query_bind ?_
  cases s.roleByName name with
  | none => exact .inr ⟨by simp, rfl⟩
  | some existing => exact (Db.isCheck_raise _ _ s).congr (by simp)

theorem normalized_reads (permissions : List String) (s : Database) :
    (normalized permissions).Reads s (fun byCode => normalizePermissions permissions = some byCode) := by
  unfold normalized
  cases h : normalizePermissions permissions with
  | none => exact .throw _
  | some byCode => exact .pure rfl

/-- The codes must be those of active screens. -/
theorem validateScreenCodes_isCheck (byCode : List (String × Bool × Bool)) (s : Database) :
    (validateScreenCodes byCode).IsCheck s
      (∃ code ∈ byCode.map Prod.fst, code ∉ ScreenRepository.activeCodes s) := by
  have hinvalid : (byCode.map Prod.fst).filter (· ∉ ScreenRepository.activeCodes s) ≠ [] ↔
      ∃ code ∈ byCode.map Prod.fst, code ∉ ScreenRepository.activeCodes s := by
    simp [List.filter_eq_nil_iff]
  unfold validateScreenCodes
  refine (Db.IsCheck.when (Db.IsCheck.query_bind (Db.isCheck_raise _ _ s)) _).congr ?_
  rw [decide_eq_true_eq, decide_eq_true_eq, hinvalid]
  constructor
  · exact fun h => h.2
  · rintro ⟨code, hcode, hnot⟩
    refine ⟨?_, code, hcode, hnot⟩
    rintro rfl
    cases hcode

theorem getRole_reads (roleId : Uuid) (s : Database) :
    (getRole roleId).Reads s (fun role => s.roles.find? roleId = some role) := by
  unfold getRole RoleRepository.getRole Db.Reads Db.Refused
  rw [Db.run_query_bind]
  cases s.roles.find? roleId <;> simp

/-- Permission rows are given exactly where the request names permissions, all of them of the
role. -/
theorem updateRows_reads (req : Request) (roleId : Uuid) (permissions : Option (List String))
    (s : Database) :
    (updateRows req roleId permissions).Reads s (fun rows =>
      (permissions = none → rows = none) ∧ ∀ given ∈ rows, ∀ row ∈ given, row.roleId = roleId) := by
  cases permissions with
  | none => exact .pure ⟨fun _ => rfl, fun _ h => by cases h⟩
  | some permissions =>
      refine (normalized_reads permissions s).bind fun byCode _ => ?_
      refine (validateScreenCodes_isCheck byCode s).reads.bind fun _ _ => .pure ⟨nofun, ?_⟩
      rintro _ ⟨⟩ row hrow
      obtain ⟨_, -, rfl⟩ := List.mem_map.mp hrow
      rfl

theorem run_expandedPermissions (roleId : Uuid) (permissions : Option (List String))
    (s : Database) : ∃ expanded, (expandedPermissions roleId permissions).run s =
      (.ok expanded, s) := by
  cases permissions with
  | none => exact ⟨none, rfl⟩
  | some _ => exact ⟨_, rfl⟩

/-! ## What the operations do -/

/-- A request to the role service. -/
inductive Op
  | create (data : RoleCreate)
  | update (roleId : Uuid) (data : RoleUpdate)
  | delete (roleId : Uuid)

def Op.perform (req : Request) : Op → Db Unit
  | .create data => drop (createRole req data)
  | .update roleId data => drop (updateRole req roleId data)
  | .delete roleId => deleteRole req roleId

/-- The state a request that succeeds leaves. -/
inductive Op.Effect (req : Request) (s : Database) : Op → Database → Prop
  | create {data} {rows : List RoleScreen} {roles : Table Role} {roleScreens : Table RoleScreen}
      {outbox} :
      s.roles.insert (newRole req data) = some roles →
      (∀ row ∈ rows, row.roleId = req.newId) →
      (∀ x, x ∈ roleScreens ↔ x ∈ s.roleScreens ∨ x ∈ rows) →
      Effect req s (.create data)
        { s with roles := roles, roleScreens := roleScreens, auditIntents := outbox }
  | update {roleId data role roles outbox} {rows : Option (List RoleScreen)}
      {roleScreens : Table RoleScreen} :
      s.roles.find? roleId = some role →
      touchesProtected role data = false →
      (data.permissions = none → rows = none) →
      (∀ given ∈ rows, ∀ row ∈ given, row.roleId = roleId) →
      s.roles.flush role (assignUpdate data role) = .ok roles →
      (rows = none → roleScreens = s.roleScreens) →
      (∀ given, rows = some given →
        ∀ x, x ∈ roleScreens ↔ (x ∈ s.roleScreens ∧ x.roleId ≠ role.id) ∨ x ∈ given) →
      Effect req s (.update roleId data)
        { s with roles := roles, roleScreens := roleScreens, auditIntents := outbox }
  | delete {roleId role roles outbox} :
      s.roles.find? roleId = some role →
      role.name ≠ superAdminRoleName →
      s.roles.flush role { role with status := .inactive } = .ok roles →
      Effect req s (.delete roleId) { s with roles := roles, auditIntents := outbox }

theorem run_createRole_inv {req : Request} {data : RoleCreate} {r : Except Failure RoleRead}
    (h : (createRole req data).run s = (r, s')) :
    ((∃ e, r = .error e) ∧ s' = s) ∨
      ((∃ read, r = .ok read) ∧ Op.Effect req s (.create data) s') := by
  rcases (ensureNameAvailable_isCheck data.name none s).bind_inv h with hrefused | ⟨-, h⟩
  · exact .inl hrefused
  rcases (normalized_reads data.permissions s).bind_inv h with hrefused | ⟨byCode, -, h⟩
  · exact .inl hrefused
  rcases (validateScreenCodes_isCheck byCode s).bind_inv h with hrefused | ⟨-, h⟩
  · exact .inl hrefused
  rcases run_createRole_bind_inv h with hrefused | ⟨roles, roleScreens, hinsert, hmem, h⟩
  · exact .inl hrefused
  rw [RoleRepository.permissionsForRole, Db.run_query_bind] at h
  obtain ⟨outbox, h⟩ := AuditService.run_record_bind_inv h
  obtain ⟨rfl, rfl⟩ := Prod.mk.inj h
  refine .inr ⟨⟨_, rfl⟩, .create hinsert ?_ hmem⟩
  intro row hrow
  obtain ⟨_, -, rfl⟩ := List.mem_map.mp hrow
  rfl

theorem run_updateRole_inv {req : Request} {roleId : Uuid} {data : RoleUpdate}
    {r : Except Failure RoleRead} (h : (updateRole req roleId data).run s = (r, s')) :
    ((∃ e, r = .error e) ∧ s' = s) ∨
      ((∃ read, r = .ok read) ∧ Op.Effect req s (.update roleId data) s') := by
  rcases (getRole_reads roleId s).bind_inv h with hrefused | ⟨role, hfind, h⟩
  · exact .inl hrefused
  have hid : role.id = roleId := (Table.find?_eq_some.mp hfind).2
  rcases (Db.isCheck_raise _ _ s).bind_inv h with hrefused | ⟨hallowed, h⟩
  · exact .inl hrefused
  rcases (Db.IsCheck.forM data.name
    (fun name => ensureNameAvailable_isCheck name (some roleId) s)).bind_inv h
    with hrefused | ⟨-, h⟩
  · exact .inl hrefused
  rcases (updateRows_reads req roleId data.permissions s).bind_inv h
    with hrefused | ⟨rows, ⟨hnone, hgiven⟩, h⟩
  · exact .inl hrefused
  rcases run_updateRole_bind_inv h (hid ▸ hfind) rfl
    with hrefused | ⟨roles, roleScreens, hflush, hkept, hreplaced, h⟩
  · exact .inl hrefused
  obtain ⟨expanded, hexpanded⟩ := run_expandedPermissions roleId data.permissions
    { s with roles := roles, roleScreens := roleScreens }
  rw [Db.run_bind_ok _ hexpanded] at h
  obtain ⟨outbox, h⟩ := AuditService.run_record_bind_inv h
  obtain ⟨rfl, rfl⟩ := Prod.mk.inj h
  exact .inr ⟨⟨_, rfl⟩, .update hfind (by simpa using hallowed) hnone hgiven hflush hkept hreplaced⟩

theorem run_deleteRole_inv {req : Request} {roleId : Uuid} {r : Except Failure Unit}
    (h : (deleteRole req roleId).run s = (r, s')) :
    ((∃ e, r = .error e) ∧ s' = s) ∨ (r = .ok () ∧ Op.Effect req s (.delete roleId) s') := by
  rcases (getRole_reads roleId s).bind_inv h with hrefused | ⟨role, hfind, h⟩
  · exact .inl hrefused
  rcases (Db.isCheck_raise _ _ s).bind_inv h with hrefused | ⟨hallowed, h⟩
  · exact .inl hrefused
  rcases Db.run_commit_bind_inv h with hrefused | ⟨u, hu, h⟩
  · exact .inl hrefused
  obtain ⟨roles, roleScreens, hflush, hkept, -, rfl⟩ := apply_updateRole hu
  obtain rfl := hkept rfl
  obtain ⟨outbox, hrecord⟩ := AuditService.run_record req
    (AuditService.event .roleDelete (some .role) (some roleId.str) .null) { s with roles := roles }
  rw [hrecord] at h
  obtain ⟨rfl, rfl⟩ := Prod.mk.inj h
  exact .inr ⟨rfl, .delete hfind (by simpa using hallowed) hflush⟩

/-- **Inversion of a role operation**: it is refused and changes nothing, or has its effect. -/
theorem Op.perform_inv {req : Request} {op : Op} {r : Except Failure Unit}
    (h : (op.perform req).run s = (r, s')) :
    ((∃ e, r = .error e) ∧ s' = s) ∨ (r = .ok () ∧ op.Effect req s s') := by
  cases op with
  | create data =>
      obtain ⟨r, hrun, rfl⟩ := Db.run_drop_inv h
      rcases run_createRole_inv hrun with ⟨⟨e, rfl⟩, rfl⟩ | ⟨⟨read, rfl⟩, heffect⟩
      · exact .inl ⟨⟨e, rfl⟩, rfl⟩
      · exact .inr ⟨rfl, heffect⟩
  | update roleId data =>
      obtain ⟨r, hrun, rfl⟩ := Db.run_drop_inv h
      rcases run_updateRole_inv hrun with ⟨⟨e, rfl⟩, rfl⟩ | ⟨⟨read, rfl⟩, heffect⟩
      · exact .inl ⟨⟨e, rfl⟩, rfl⟩
      · exact .inr ⟨rfl, heffect⟩
  | delete roleId => exact run_deleteRole_inv h

end Run
/-! ## Requests that only read -/

section Reading
variable {W : Write → Prop}

theorem writes_ensureNameAvailable (name : String) (excludeId : Option Uuid) :
    (ensureNameAvailable name excludeId).Writes W := by
  refine (Db.writes_query _).bind fun existing => ?_
  cases existing
  · exact Db.writes_pure _
  · exact (Db.writes_throw _).when _

theorem writes_validateScreenCodes (byCode : List (String × Bool × Bool)) :
    (validateScreenCodes byCode).Writes W :=
  ((Db.writes_query _).bind fun _ => (Db.writes_throw _).when _).when _

theorem writes_getRole (roleId : Uuid) : (getRole roleId).Writes W := by
  refine (Db.writes_query _).bind fun role => ?_
  cases role
  · exact Db.writes_throw _
  · exact Db.writes_pure _

end Reading

end RoleService
end AdminPlatform
