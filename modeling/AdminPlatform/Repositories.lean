import AdminPlatform.Core.Security
import AdminPlatform.Database
import Mathlib.Data.List.Dedup
import Mathlib.Data.Prod.Lex

/-! # Repositories

All SQL of the platform (`app/repositories/`), one function of the source each. An object a
repository writes back comes as two values: as it was loaded, and as it is now.

A `SELECT` without an `ORDER BY` that is read as a set answers a list here whose order
carries no meaning. Rows that tie on an `ORDER BY` come in the order of their table. -/

namespace AdminPlatform
open AdminPlatform.Lib

/-! ## Platform Admins -/

/-- Commit what was set on a loaded admin and read the row again. -/
def writeAdmin (loaded current : PlatformAdmin) : Db PlatformAdmin :=
  save (.updateAdmin loaded current) Database.admins loaded.id

namespace UserRepository

def createUser (user : PlatformAdmin) : Db PlatformAdmin :=
  save (.insertAdmin user) Database.admins user.id

def getUser (userId : Uuid) : Db (Option PlatformAdmin) := query fun s => s.admins.find? userId

def getUserByEmail (email : String) : Db (Option PlatformAdmin) :=
  query fun s => s.adminByEmail email

/-- `data` sets the attributes of the dictionary. -/
def updateUser (user : PlatformAdmin) (data : PlatformAdmin → PlatformAdmin) :
    Db PlatformAdmin :=
  writeAdmin user (data user)

/-- Soft-delete: mark the admin inactive rather than removing the row. -/
def deleteUser (loaded user : PlatformAdmin) : Db Unit :=
  commit (.updateAdmin loaded { user with status := .inactive })

/-- The admins the last-admin guard counts. -/
def activeAdmins (s : Database) (excludeId : Option Uuid) : List PlatformAdmin :=
  s.admins.select (fun a => a.status = .active ∧ excludeId ≠ some a.id)

def countActiveAdmins (excludeId : Option Uuid) : Db Nat :=
  query fun s => (activeAdmins s excludeId).length

end UserRepository

namespace AuthRepository

def getAdminByEmail (email : String) : Db (Option PlatformAdmin) :=
  query fun s => s.adminByEmail email

/-- `session.get`: where the session holds the admin as an object already, it answers with
that object and issues no statement. -/
def getAdminById (adminId : Uuid) (held : Option PlatformAdmin := none) :
    Db (Option PlatformAdmin) :=
  match held.filter (fun admin => admin.id = adminId) with
  | some admin => return some admin
  | none => query fun s => s.admins.find? adminId

def saveAdmin (loaded admin : PlatformAdmin) : Db PlatformAdmin := writeAdmin loaded admin

def updateAdminPassword (loaded admin : PlatformAdmin) (hashedPassword : String) :
    Db PlatformAdmin :=
  writeAdmin loaded { admin with hashedPassword := hashedPassword }

end AuthRepository

/-- **Writing an admin back**, in a request that runs alone: refused, or the admin's row
becomes the object, and the request goes on with it. -/
theorem run_writeAdmin_bind_inv {α : Type} {s s' : Database} {loaded current : PlatformAdmin}
    {f : PlatformAdmin → Db α} {r : Except Failure α}
    (h : (writeAdmin loaded current >>= f).run s = (r, s'))
    (hloaded : s.admins.find? loaded.id = some loaded) (hid : current.id = loaded.id) :
    ((∃ e, r = .error e) ∧ s' = s) ∨
      ∃ t, s.admins.flush loaded current = .ok t ∧
        (f current).run { s with admins := t } = (r, s') := by
  have hrow : ∀ u, (Write.updateAdmin loaded current).apply s = .ok u →
      u.admins.find? loaded.id = some current := by
    intro u hu
    obtain ⟨t, ht, rfl⟩ := apply_updateAdmin hu
    simpa using Table.find?_flush_loaded ht hloaded hid loaded.id
  rcases Db.run_save_bind_inv h hrow with hrefused | ⟨u, hu, h⟩
  · exact .inl hrefused
  · obtain ⟨t, ht, rfl⟩ := apply_updateAdmin hu
    exact .inr ⟨t, ht, h⟩

/-- Writing back an object that the table takes. -/
theorem run_writeAdmin_ok {s : Database} {loaded current : PlatformAdmin}
    {t : Table PlatformAdmin} (hloaded : s.admins.find? loaded.id = some loaded)
    (hid : current.id = loaded.id) (hflush : s.admins.flush loaded current = .ok t) :
    (writeAdmin loaded current).run s = (.ok current, { s with admins := t }) := by
  have happly : (Write.updateAdmin loaded current).apply s = .ok { s with admins := t } := by
    rw [Write.apply, hflush]
    rfl
  have hrow : ({ s with admins := t } : Database).admins.find? loaded.id = some current := by
    simpa using Table.find?_flush_loaded hflush hloaded hid loaded.id
  exact Db.run_save_ok happly hrow

/-- An admin who keeps email and username can be written back, whatever else the row holds by
then. -/
theorem exists_flushAdmin {s : Database} {loaded current stored : PlatformAdmin}
    (hstored : s.admins.find? loaded.id = some stored)
    (hemail : current.email = loaded.email) (husername : current.username = loaded.username) :
    ∃ t, s.admins.flush loaded current = .ok t := by
  unfold Table.flush
  split
  · exact ⟨s.admins, rfl⟩
  · have hfind : s.admins.find? (Row.key loaded) = some stored := hstored
    have hkey : Row.key (Entity.merge loaded current stored) = Row.key loaded :=
      (Entity.key_merge _ _ _).trans (Table.find?_eq_some.mp hfind).2
    rw [hfind]
    dsimp only
    cases hmod : s.admins.modify (Row.key loaded) (Entity.merge loaded current) with
    | some t => exact ⟨t, rfl⟩
    | none =>
        obtain ⟨b, hb, hne, hclash⟩ := (Table.modify_eq_none hfind hkey).mp hmod
        obtain ⟨hmem, hid⟩ := Table.find?_eq_some.mp hfind
        have hclash' : Row.Clash stored b := by
          rcases hclash with h | h | h
          · exact .inl h
          · have hsame : column loaded.email current.email stored.email = b.email := h
            rw [hemail, column_same] at hsame
            exact .inr (.inl hsame)
          · have hsame : column loaded.username current.username stored.username = b.username := h
            rw [husername, column_same] at hsame
            exact .inr (.inr hsame)
        rw [← Table.eq_of_clash hmem hb hclash'] at hne
        exact absurd hid hne

theorem run_createUser_bind_inv {α : Type} {s s' : Database} {user : PlatformAdmin}
    {f : PlatformAdmin → Db α} {r : Except Failure α}
    (h : (UserRepository.createUser user >>= f).run s = (r, s')) :
    ((∃ e, r = .error e) ∧ s' = s) ∨
      ∃ t, s.admins.insert user = some t ∧ (f user).run { s with admins := t } = (r, s') := by
  have hrow : ∀ u, (Write.insertAdmin user).apply s = .ok u →
      u.admins.find? user.id = some user := by
    intro u hu
    obtain ⟨t, ht, rfl⟩ := apply_insertAdmin hu
    simp [Table.find?_insert ht]
  rcases Db.run_save_bind_inv h hrow with hrefused | ⟨u, hu, h⟩
  · exact .inl hrefused
  · obtain ⟨t, ht, rfl⟩ := apply_insertAdmin hu
    exact .inr ⟨t, ht, h⟩

namespace OtpRepository

def get (email : String) : Db (Option PasswordResetOtp) := query fun s => s.otps.find? email

/-- `save` of a new row. -/
def saveNew (row : PasswordResetOtp) : Db PasswordResetOtp :=
  AdminPlatform.save (.insertOtp row) Database.otps row.email

/-- `save` of a loaded row. -/
def save (loaded row : PasswordResetOtp) : Db PasswordResetOtp :=
  AdminPlatform.save (.updateOtp loaded row) Database.otps loaded.email

/-- Remove the row after a successful reset (single-use). -/
def delete (email : String) : Db Unit := commit (.deleteOtp email)

end OtpRepository

namespace PasswordHistoryRepository

/-- The most recent entries of an admin. -/
def recent (s : Database) (adminId : Uuid) (limit : Nat) : List PasswordHistory :=
  ((s.passwordHistory.select (fun row => row.platformAdminId = adminId)).insertionSort
    (fun a b => b.createdAt ≤ a.createdAt)).take limit

def recentForAdmin (adminId : Uuid) (limit : Nat) : Db (List PasswordHistory) :=
  query fun s => recent s adminId limit

def add (id adminId : Uuid) (hashedPassword : String) (createdAt : Instant) :
    Db PasswordHistory :=
  save
    (.insertHistory
      { id := id, platformAdminId := adminId, hashedPassword := hashedPassword
        createdAt := createdAt })
    Database.passwordHistory id

/-- Delete all but the `keep` most recent entries of an admin. -/
def trim (adminId : Uuid) (keep : Nat) : Db Unit := do
  let rows ← recentForAdmin adminId keep
  let keepIds := rows.map PasswordHistory.id
  if keepIds = [] then return ()
  commit (.trimHistory adminId keepIds)

end PasswordHistoryRepository

/-- **Saving a new OTP row** under an email without one. -/
theorem run_saveNewOtp {s : Database} {row : PasswordResetOtp}
    (hnew : s.otps.find? row.email = none) :
    ∃ t, s.otps.insert row = some t ∧
      (OtpRepository.saveNew row).run s = (.ok row, { s with otps := t }) := by
  cases hinsert : s.otps.insert row with
  | none =>
      obtain ⟨b, hb, hemail⟩ := Table.insert_eq_none.mp hinsert
      exact absurd hemail (Table.find?_eq_none.mp hnew b hb)
  | some t =>
      have happly : (Write.insertOtp row).apply s = .ok { s with otps := t } := by
        rw [Write.apply, hinsert]
        rfl
      have hrow : t.find? row.email = some row :=
        Table.find?_eq_some.mpr ⟨(Table.mem_insert hinsert).mpr (.inr rfl), rfl⟩
      exact ⟨t, rfl, Db.run_save_ok happly hrow⟩

/-- **Saving a loaded OTP row**: the row becomes the object. -/
theorem run_saveOtp {s : Database} {loaded row : PasswordResetOtp}
    (hloaded : s.otps.find? loaded.email = some loaded) (hemail : row.email = loaded.email) :
    ∃ t, s.otps.flush loaded row = .ok t ∧
      (OtpRepository.save loaded row).run s = (.ok row, { s with otps := t }) := by
  obtain ⟨t, hflush⟩ : ∃ t, s.otps.flush loaded row = .ok t := by
    refine Table.exists_flush hloaded hemail fun b _ hother hclash => ?_
    exact hother (Eq.trans (Eq.symm hclash) hemail)
  have happly : (Write.updateOtp loaded row).apply s = .ok { s with otps := t } := by
    rw [Write.apply, hflush]
    rfl
  refine ⟨t, hflush, Db.run_save_ok happly ?_⟩
  simpa using Table.find?_flush_loaded hflush hloaded hemail loaded.email

theorem run_addHistory_bind_inv {α : Type} {s s' : Database} {id adminId : Uuid}
    {hashedPassword : String} {createdAt : Instant} {f : PasswordHistory → Db α}
    {r : Except Failure α}
    (h : (PasswordHistoryRepository.add id adminId hashedPassword createdAt >>= f).run s =
      (r, s')) :
    ((∃ e, r = .error e) ∧ s' = s) ∨
      ∃ t entry, s.passwordHistory.insert entry = some t ∧
        entry = ⟨id, adminId, hashedPassword, createdAt⟩ ∧
        (f entry).run { s with passwordHistory := t } = (r, s') := by
  have hrow : ∀ u, (Write.insertHistory ⟨id, adminId, hashedPassword, createdAt⟩).apply s =
      .ok u → u.passwordHistory.find? id = some ⟨id, adminId, hashedPassword, createdAt⟩ := by
    intro u hu
    obtain ⟨t, ht, rfl⟩ := apply_insertHistory hu
    exact Table.find?_eq_some.mpr ⟨(Table.mem_insert ht).mpr (.inr rfl), rfl⟩
  rcases Db.run_save_bind_inv h hrow with hrefused | ⟨u, hu, h⟩
  · exact .inl hrefused
  · obtain ⟨t, ht, rfl⟩ := apply_insertHistory hu
    exact .inr ⟨t, _, ht, rfl, h⟩

/-- Filing an entry of an admin there is, under an id that is not taken. -/
theorem run_addHistory_ok {s : Database} {id adminId : Uuid} {hashedPassword : String}
    {createdAt : Instant} {t : Table PasswordHistory}
    (hadmin : (s.admins.find? adminId).isSome)
    (ht : s.passwordHistory.insert ⟨id, adminId, hashedPassword, createdAt⟩ = some t) :
    (PasswordHistoryRepository.add id adminId hashedPassword createdAt).run s =
      (.ok ⟨id, adminId, hashedPassword, createdAt⟩, { s with passwordHistory := t }) := by
  have happly : (Write.insertHistory ⟨id, adminId, hashedPassword, createdAt⟩).apply s =
      .ok { s with passwordHistory := t } := by
    rw [Write.apply, if_pos hadmin, ht]
    rfl
  have hrow : t.find? id = some ⟨id, adminId, hashedPassword, createdAt⟩ :=
    Table.find?_eq_some.mpr ⟨(Table.mem_insert ht).mpr (.inr rfl), rfl⟩
  rw [PasswordHistoryRepository.add, save, Db.run_bind_ok _ (Db.run_commit_ok happly)]
  exact Db.run_refresh hrow

namespace PasswordHistoryRepository

/-- The entries once those of an admin are trimmed. -/
def trimmed (s : Database) (adminId : Uuid) (keep : Nat) : Table PasswordHistory :=
  if (recent s adminId keep).map PasswordHistory.id = [] then s.passwordHistory
  else
    s.passwordHistory.delete fun entry =>
      entry.platformAdminId = adminId ∧
        entry.id ∉ (recent s adminId keep).map PasswordHistory.id

theorem run_trim (adminId : Uuid) (keep : Nat) (s : Database) :
    (trim adminId keep).run s = (.ok (), { s with passwordHistory := trimmed s adminId keep }) := by
  unfold trim recentForAdmin trimmed
  rw [Db.run_query_bind]
  dsimp only
  split
  · rfl
  · exact Db.run_commit_ok rfl

end PasswordHistoryRepository

/-! ## Roles and screens -/

def superAdminRoleName : String := "super_admin"

namespace RbacRepository

/-- The (screen code, read, write) rows an admin has through active roles, on active
screens. -/
def screenPermissions (s : Database) (adminId : Uuid) : List (String × Bool × Bool) :=
  (s.roleScreens.select fun row =>
      (s.adminRoles.find? (adminId, row.roleId)).isSome ∧
        (s.roles.find? row.roleId).any (fun role => role.status = .active) ∧
        (s.screenByCode row.screenCode).any (fun screen => screen.status = .active)).map
    fun row => (row.screenCode, row.read, row.write)

def screenPermissionsForAdmin (adminId : Uuid) : Db (List (String × Bool × Bool)) :=
  query fun s => screenPermissions s adminId

/-- The names of every role assigned to an admin. -/
def roleNames (s : Database) (adminId : Uuid) : List String :=
  (s.roles.select fun role => (s.adminRoles.find? (adminId, role.id)).isSome).map Role.name

def roleNamesForAdmin (adminId : Uuid) : Db (List String) := query fun s => roleNames s adminId

/-- Ensure the admin holds the super_admin role (no-op if absent or already assigned). -/
def assignSuperAdmin (now : Instant) (adminId : Uuid) : Db Unit := do
  match ← query fun s => s.roleByName superAdminRoleName with
  | none => return ()
  | some role =>
      let existing ← query fun s => s.adminRoles.find? (adminId, role.id)
      if existing.isNone then
        commit (.insertAdminRole { platformAdminId := adminId, roleId := role.id, createdAt := now })

/-- **Assigning super_admin** to an admin there is cannot fail: the admin holds the role
afterwards, if there is one, and only that assignment can be new. -/
theorem run_assignSuperAdmin (now : Instant) {adminId : Uuid} {s : Database}
    (hadmin : (s.admins.find? adminId).isSome) :
    ∃ t, (assignSuperAdmin now adminId).run s = (.ok (), { s with adminRoles := t }) ∧
      (∀ x ∈ s.adminRoles, x ∈ t) ∧
      ∀ role, s.roleByName superAdminRoleName = some role →
        (t.find? (adminId, role.id)).isSome := by
  unfold assignSuperAdmin
  rw [Db.run_query_bind]
  cases hrole : s.roleByName superAdminRoleName with
  | none => exact ⟨s.adminRoles, rfl, fun _ hx => hx, fun _ h => by cases h⟩
  | some role =>
      simp only [Db.run_query_bind]
      cases hexisting : s.adminRoles.find? (adminId, role.id) with
      | some x =>
          refine ⟨s.adminRoles, rfl, fun _ hx => hx, ?_⟩
          rintro _ ⟨⟩
          rw [hexisting]
          rfl
      | none =>
          obtain ⟨hmem, -⟩ := Database.roleByName_eq_some.mp hrole
          have hparent : s.roles.find? role.id = some role := Table.find?_eq_some.mpr ⟨hmem, rfl⟩
          cases ht : s.adminRoles.insert
              { platformAdminId := adminId, roleId := role.id, createdAt := now } with
          | none =>
              obtain ⟨x, hx, hclash⟩ := Table.insert_eq_none.mp ht
              exact absurd hclash (Table.find?_eq_none.mp hexisting x hx)
          | some t =>
              refine ⟨t, Db.run_commit_ok (apply_insertAdminRole_eq hadmin (by simp [hparent]) ht),
                fun x hx => (Table.mem_insert ht).mpr (.inl hx), ?_⟩
              rintro _ ⟨⟩
              rw [Table.find?_insert ht]
              simp [Row.key]

end RbacRepository

namespace RoleRepository

/-- Create a role and its screen permissions in one commit. -/
def createRole (role : Role) (permissions : List RoleScreen) : Db Role :=
  save (.insertRole role permissions) Database.roles role.id

def getRole (roleId : Uuid) : Db (Option Role) := query fun s => s.roles.find? roleId

def getRoleByName (name : String) : Db (Option Role) := query fun s => s.roleByName name

/-- Apply field updates and, when provided, replace permissions, in one commit. -/
def updateRole (role : Role) (data : Role → Role) (permissions : Option (List RoleScreen)) :
    Db Role :=
  save (.updateRole role (data role) permissions) Database.roles role.id

/-- Soft-delete: mark the role inactive rather than removing the row. -/
def deleteRole (role : Role) : Db Unit :=
  commit (.updateRole role { role with status := .inactive } none)

/-- The role's `(code, sort_order, read, write)` rows on active screens. -/
def permissionRows (s : Database) (roleId : Uuid) : List (String × Nat × Bool × Bool) :=
  ((s.screens.select fun screen => screen.status = .active).filterMap fun screen =>
      (s.roleScreens.find? (roleId, screen.code)).map fun row =>
        (screen.code, screen.sortOrder, row.read, row.write)).insertionSort
    fun a b => toLex (a.2.1, a.1) ≤ toLex (b.2.1, b.1)

def permissionsForRole (roleId : Uuid) : Db (List (String × Nat × Bool × Bool)) :=
  query fun s => permissionRows s roleId

end RoleRepository

/-- **Creating a role**: refused, or the role and its permission rows are there. -/
theorem run_createRole_bind_inv {α : Type} {s s' : Database} {role : Role}
    {permissions : List RoleScreen} {f : Role → Db α} {r : Except Failure α}
    (h : (RoleRepository.createRole role permissions >>= f).run s = (r, s')) :
    ((∃ e, r = .error e) ∧ s' = s) ∨
      ∃ (roles : Table Role) (roleScreens : Table RoleScreen),
        s.roles.insert role = some roles ∧
        (∀ x, x ∈ roleScreens ↔ x ∈ s.roleScreens ∨ x ∈ permissions) ∧
        (f role).run { s with roles := roles, roleScreens := roleScreens } = (r, s') := by
  have hrow : ∀ u, (Write.insertRole role permissions).apply s = .ok u →
      u.roles.find? role.id = some role := by
    intro u hu
    obtain ⟨roles, _, hroles, -, rfl⟩ := apply_insertRole hu
    simp [Table.find?_insert hroles]
  rcases Db.run_save_bind_inv h hrow with hrefused | ⟨u, hu, h⟩
  · exact .inl hrefused
  · obtain ⟨roles, roleScreens, hroles, hmem, rfl⟩ := apply_insertRole hu
    exact .inr ⟨roles, roleScreens, hroles, hmem, h⟩

/-- **Updating a role**: refused, or the row becomes the object, and its permission rows are
the given ones where there are any given. -/
theorem run_updateRole_bind_inv {α : Type} {s s' : Database} {role : Role}
    {data : Role → Role} {permissions : Option (List RoleScreen)} {f : Role → Db α}
    {r : Except Failure α}
    (h : (RoleRepository.updateRole role data permissions >>= f).run s = (r, s'))
    (hloaded : s.roles.find? role.id = some role) (hid : (data role).id = role.id) :
    ((∃ e, r = .error e) ∧ s' = s) ∨
      ∃ (roles : Table Role) (roleScreens : Table RoleScreen),
        s.roles.flush role (data role) = .ok roles ∧
        (permissions = none → roleScreens = s.roleScreens) ∧
        (∀ rows, permissions = some rows →
          ∀ x, x ∈ roleScreens ↔ (x ∈ s.roleScreens ∧ x.roleId ≠ role.id) ∨ x ∈ rows) ∧
        (f (data role)).run { s with roles := roles, roleScreens := roleScreens } = (r, s') := by
  have hrow : ∀ u, (Write.updateRole role (data role) permissions).apply s = .ok u →
      u.roles.find? role.id = some (data role) := by
    intro u hu
    obtain ⟨roles, _, hroles, -, -, rfl⟩ := apply_updateRole hu
    simpa using Table.find?_flush_loaded hroles hloaded hid role.id
  rcases Db.run_save_bind_inv h hrow with hrefused | ⟨u, hu, h⟩
  · exact .inl hrefused
  · obtain ⟨roles, roleScreens, hroles, hnone, hsome, rfl⟩ := apply_updateRole hu
    exact .inr ⟨roles, roleScreens, hroles, hnone, hsome, h⟩

namespace ScreenRepository

/-- The permission super_admin gets on a new screen. -/
def bootstrapPermission (now : Instant) (screen : Screen) (superAdminRoleId : Uuid) :
    RoleScreen where
  roleId := superAdminRoleId
  screenCode := screen.code
  read := true
  write := true
  createdAt := now

/-- Create a screen and, atomically, its bootstrap super_admin permission. -/
def createScreen (now : Instant) (screen : Screen) (superAdminRoleId : Option Uuid) :
    Db Screen :=
  save (.insertScreen screen (superAdminRoleId.map (bootstrapPermission now screen)))
    Database.screens screen.id

def getScreen (screenId : Uuid) : Db (Option Screen) := query fun s => s.screens.find? screenId

def getScreenByCode (code : String) : Db (Option Screen) := query fun s => s.screenByCode code

/-- The codes of every active screen. -/
def activeCodes (s : Database) : List String :=
  (s.screens.select fun screen => screen.status = .active).map Screen.code

def activeScreenCodes : Db (List String) := query activeCodes

/-- `int(code[1:])` where `code` is `S` and digits. `str.isdigit` takes the digits of other scripts
for digits as well; the pattern of screen codes admits ASCII only. -/
def numericSuffix (code : String) : Option Nat :=
  match code.toList with
  | 'S' :: d :: ds =>
      if (d :: ds).all Char.isDigit then
        some ((d :: ds).foldl (fun n c => n * 10 + (c.toNat - '0'.toNat)) 0)
      else none
  | _ => none

/-- The next `S{n}` code: one past the largest numeric `S` suffix. -/
def nextScreenCode : Db String :=
  query fun s =>
    let maxSuffix := (s.screens.rows.filterMap fun screen => numericSuffix screen.code).foldl max 0
    s!"S{maxSuffix + 1}"

def updateScreen (screen : Screen) (data : Screen → Screen) : Db Screen :=
  save (.updateScreen screen (data screen)) Database.screens screen.id

/-- Soft-delete: mark the screen inactive rather than removing the row. -/
def deleteScreen (screen : Screen) : Db Unit :=
  commit (.updateScreen screen { screen with status := .inactive })

end ScreenRepository

/-- **Creating a screen**: refused, as it is with a permission row, or the screen is there. -/
theorem run_createScreen_bind_inv {α : Type} {s s' : Database} {now : Instant}
    {screen : Screen} {superAdminRoleId : Option Uuid} {f : Screen → Db α}
    {r : Except Failure α}
    (h : (ScreenRepository.createScreen now screen superAdminRoleId >>= f).run s = (r, s')) :
    ((∃ e, r = .error e) ∧ s' = s) ∨
      superAdminRoleId = none ∧ ∃ t, s.screens.insert screen = some t ∧
        (f screen).run { s with screens := t } = (r, s') := by
  have hrow : ∀ u, (Write.insertScreen screen
      (superAdminRoleId.map (ScreenRepository.bootstrapPermission now screen))).apply s = .ok u →
      u.screens.find? screen.id = some screen := by
    intro u hu
    obtain ⟨screens, _, hscreens, -, rfl⟩ := apply_insertScreen hu
    simp [Table.find?_insert hscreens]
  rcases Db.run_save_bind_inv h hrow with hrefused | ⟨u, hu, h⟩
  · exact .inl hrefused
  · have hnone : superAdminRoleId = none := by
      refine Option.map_eq_none_iff.mp (permission_of_insertScreen hu ?_)
      intro row hrow
      obtain ⟨roleId, -, rfl⟩ := Option.map_eq_some_iff.mp hrow
      rfl
    subst hnone
    obtain ⟨t, ht, rfl⟩ := apply_insertScreen_none.mp hu
    exact .inr ⟨rfl, t, ht, h⟩

theorem run_updateScreen_bind_inv {α : Type} {s s' : Database} {screen : Screen}
    {data : Screen → Screen} {f : Screen → Db α} {r : Except Failure α}
    (h : (ScreenRepository.updateScreen screen data >>= f).run s = (r, s'))
    (hloaded : s.screens.find? screen.id = some screen) (hid : (data screen).id = screen.id) :
    ((∃ e, r = .error e) ∧ s' = s) ∨
      ∃ t, s.screens.flush screen (data screen) = .ok t ∧
        (f (data screen)).run { s with screens := t } = (r, s') := by
  have hrow : ∀ u, (Write.updateScreen screen (data screen)).apply s = .ok u →
      u.screens.find? screen.id = some (data screen) := by
    intro u hu
    obtain ⟨t, ht, rfl⟩ := apply_updateScreen hu
    simpa using Table.find?_flush_loaded ht hloaded hid screen.id
  rcases Db.run_save_bind_inv h hrow with hrefused | ⟨u, hu, h⟩
  · exact .inl hrefused
  · obtain ⟨t, ht, rfl⟩ := apply_updateScreen hu
    exact .inr ⟨t, ht, h⟩

/-! ## Exports and audit intents -/

/-- Audit-log list filters; `none` means no filter. A date is given by any time on it. -/
structure AuditLogFilter where
  actor : Option String := none
  action : Option String := none
  resourceType : Option String := none
  actorType : Option String := none
  fromDate : Option Datetime := none
  toDate : Option Datetime := none

/-- A text filter that is given and not empty requires the column to equal it. -/
def textFilter (filter : Option String) (column : Option String) : Bool :=
  match filter with
  | some text => text = "" || column = some text
  | none => true

/-- `audit_log_filters`: the conditions on a row. -/
def AuditLogFilter.matches (f : AuditLogFilter) (row : Audit.AuditLog) : Bool :=
  textFilter f.actor row.actor && textFilter f.action (some row.action) &&
    textFilter f.resourceType row.resourceType && textFilter f.actorType row.actorType &&
    f.fromDate.all (fun date => date.startOfDay ≤ row.createdAt) &&
    f.toDate.all (fun date => row.createdAt ≤ date.endOfDay)

/-- `_platform_admin_filters`: the conditions on a row. -/
def platformAdminMatches (env : Env) (search : Option String) (status : Option Status)
    (row : PlatformAdmin) : Bool :=
  (match search with
    | some text =>
        text = "" || env.ilike s!"%{text}%" row.username || env.ilike s!"%{text}%" row.email
    | none => true) &&
  status.all (fun status => row.status = status)

namespace ExportRepository

def createExport (id : Uuid) (now : Instant) (module reason fileFormat classification : String)
    (filters : Json) (createdBy : String) : Db Export :=
  save
    (.insertExport
      { id := id, module := module, reason := reason, fileFormat := fileFormat
        classification := classification, filters := filters, status := .pending
        rowCount := none, filePath := none, generationError := none, expiresAt := none
        createdBy := createdBy, createdAt := now })
    Database.exports id

/-- `session.get`: answers with the object where the session holds it already. -/
def getExport (exportId : Uuid) (held : Option Export := none) : Db (Option Export) :=
  match held.filter (fun entry => entry.id = exportId) with
  | some entry => return some entry
  | none => query fun s => s.exports.find? exportId

/-- Persist in-place changes to an export row. -/
def updateExport (loaded entry : Export) : Db Unit := commit (.updateExport loaded entry)

def countAuditLogs (filters : AuditLogFilter) : Db Nat :=
  query fun s => (s.auditLogs.filter filters.matches).length

def countPlatformAdmins (env : Env) (search : Option String) (status : Option Status) : Db Nat :=
  query fun s => (s.admins.select (platformAdminMatches env search status)).length

/-- Every matching admin in list order (created_at ASC, id ASC). -/
def streamPlatformAdmins (env : Env) (search : Option String) (status : Option Status) :
    Db (List PlatformAdmin) :=
  query fun s => (s.admins.select (platformAdminMatches env search status)).insertionSort
    fun a b => toLex (a.createdAt, a.id.bits) ≤ toLex (b.createdAt, b.id.bits)

/-- Every matching audit log (created_at DESC, id DESC). -/
def streamAuditLogs (filters : AuditLogFilter) : Db (List Audit.AuditLog) :=
  query fun s => (s.auditLogs.filter filters.matches).insertionSort
    fun a b => toLex (b.createdAt, b.id.bits) ≤ toLex (a.createdAt, a.id.bits)

/-- An object the session holds is what the table has. -/
theorem run_getExport {s : Database} {exportId : Uuid} {held : Option Export}
    (hheld : ∀ x, held = some x → s.exports.find? exportId = some x) :
    (getExport exportId held).run s = (.ok (s.exports.find? exportId), s) := by
  unfold getExport
  split
  · rename_i x hx
    rw [hheld x (Option.filter_eq_some_iff.mp hx).1]
    rfl
  · rfl

end ExportRepository

/-- **Creating an export**: refused, or the export is there. -/
theorem run_createExport_bind_inv {α : Type} {s s' : Database} {id : Uuid} {now : Instant}
    {module reason fileFormat classification createdBy : String} {filters : Json}
    {f : Export → Db α} {r : Except Failure α}
    (h : (ExportRepository.createExport id now module reason fileFormat classification filters
      createdBy >>= f).run s = (r, s')) :
    ((∃ e, r = .error e) ∧ s' = s) ∨
      ∃ entry t, s.exports.insert entry = some t ∧
        entry = { id := id, module := module, reason := reason, fileFormat := fileFormat
                  classification := classification, filters := filters, status := .pending
                  rowCount := none, filePath := none, generationError := none, expiresAt := none
                  createdBy := createdBy, createdAt := now } ∧
        (f entry).run { s with exports := t } = (r, s') := by
  have hrow : ∀ entry : Export, ∀ u, (Write.insertExport entry).apply s = .ok u →
      u.exports.find? entry.id = some entry := by
    intro entry u hu
    obtain ⟨t, ht, rfl⟩ := apply_insertExport hu
    simp [Table.find?_insert ht]
  rcases Db.run_save_bind_inv h (hrow _) with hrefused | ⟨u, hu, h⟩
  · exact .inl hrefused
  · obtain ⟨t, ht, rfl⟩ := apply_insertExport hu
    exact .inr ⟨_, t, ht, rfl, h⟩

namespace AuditRepository

/-- Durably record the intent; the forwarder forges the Audit Entry later. -/
def createAuditIntent (intent : Audit.AuditIntent) : Db Audit.AuditIntent :=
  save (.insertIntent intent) Database.auditIntents intent.id

end AuditRepository

end AdminPlatform
