import AdminPlatform.Core.Errors
import AdminPlatform.Lib.Program
import AdminPlatform.Models.Tables

/-! # The database

The state every request works on, and the two kinds of statement it issues: a *query* reads
the committed state and answers, a *commit* flushes what the session holds and commits it,
or is refused and changes nothing. What a commit writes is data (`Write`), so that a run can
be inspected statement by statement.

A `Db` program is a request, or a part of one. `Db.run` executes it alone; the same program
takes turns with others in `Program.interleave`, where its queries read what the others have
committed by then (READ COMMITTED).

The widths of columns are not part of the state, and neither is that PostgreSQL refuses a text with
the character NUL, as a column and as a parameter: statements here are as if every text fits.
Where the refusal decides a result it is modelled there: for the columns of an intent
(`Audit.Fits`), for those of a screen (`Screens.FitsScreens`) and for a search text (`Lists.Bindable`). -/

namespace AdminPlatform
open AdminPlatform.Lib

/-! ## The state -/

/-- A data row of an export file, by the table row its cells are taken from. -/
inductive ExportRow
  | audit (row : Audit.AuditLog)
  | user (row : PlatformAdmin)
  deriving DecidableEq

/-- An export file: the fields of the metadata sheet and the data rows under their headers.
A cell is given by the value it is written from. -/
structure Workbook where
  metadata : List (String × Json)
  headers : List String
  rows : List ExportRow

/-- The tables, and the files under `export_dir`. -/
structure Database where
  admins : Table PlatformAdmin
  adminRoles : Table PlatformAdminRole
  roles : Table Role
  roleScreens : Table RoleScreen
  screens : Table Screen
  otps : Table PasswordResetOtp
  passwordHistory : Table PasswordHistory
  exports : Table Export
  auditIntents : Table Audit.AuditIntent
  auditLogs : List Audit.AuditLog
  files : List (String × Workbook)

namespace Database

def empty : Database where
  admins := .empty
  adminRoles := .empty
  roles := .empty
  roleScreens := .empty
  screens := .empty
  otps := .empty
  passwordHistory := .empty
  exports := .empty
  auditIntents := .empty
  auditLogs := []
  files := []

/-- `Path.is_file`. -/
def isFile (s : Database) (path : String) : Bool := (s.files.lookup path).isSome

/-- The screen with a code. -/
def screenByCode (s : Database) (code : String) : Option Screen :=
  (s.screens.select (fun screen => screen.code = code)).head?

/-- The role with a name. -/
def roleByName (s : Database) (name : String) : Option Role :=
  (s.roles.select (fun role => role.name = name)).head?

/-- The admin with an email. -/
def adminByEmail (s : Database) (email : String) : Option PlatformAdmin :=
  (s.admins.select (fun admin => admin.email = email)).head?

theorem screenByCode_eq_some {s : Database} {code : String} {screen : Screen} :
    s.screenByCode code = some screen ↔ screen ∈ s.screens ∧ screen.code = code := by
  have hclash : ∀ a b : Screen, decide (a.code = code) = true → decide (b.code = code) = true →
      Row.Clash a b := by
    intro a b ha hb
    exact .inr ((of_decide_eq_true ha).trans (of_decide_eq_true hb).symm)
  rw [screenByCode, Table.head?_select hclash, decide_eq_true_eq]

theorem roleByName_eq_some {s : Database} {name : String} {role : Role} :
    s.roleByName name = some role ↔ role ∈ s.roles ∧ role.name = name := by
  have hclash : ∀ a b : Role, decide (a.name = name) = true → decide (b.name = name) = true →
      Row.Clash a b := by
    intro a b ha hb
    exact .inr ((of_decide_eq_true ha).trans (of_decide_eq_true hb).symm)
  rw [roleByName, Table.head?_select hclash, decide_eq_true_eq]

theorem adminByEmail_eq_some {s : Database} {email : String} {admin : PlatformAdmin} :
    s.adminByEmail email = some admin ↔ admin ∈ s.admins ∧ admin.email = email := by
  have hclash : ∀ a b : PlatformAdmin, decide (a.email = email) = true →
      decide (b.email = email) = true → Row.Clash a b := by
    intro a b ha hb
    exact .inr (.inl ((of_decide_eq_true ha).trans (of_decide_eq_true hb).symm))
  rw [adminByEmail, Table.head?_select hclash, decide_eq_true_eq]

/-- The foreign keys of a permission row. -/
def HasParents (s : Database) (row : RoleScreen) : Prop :=
  (s.roles.find? row.roleId).isSome ∧ (s.screenByCode row.screenCode).isSome

instance (s : Database) (row : RoleScreen) : Decidable (s.HasParents row) := by
  unfold HasParents; infer_instance

/-- Add permission rows, under their foreign keys. -/
def insertRoleScreens (s : Database) (rows : List RoleScreen) : Except DbError Database :=
  if ∀ row ∈ rows, s.HasParents row then
    match s.roleScreens.insertAll rows with
    | some t => .ok { s with roleScreens := t }
    | none => .error .integrity
  else .error .integrity

theorem insertRoleScreens_ok {s s' : Database} {rows : List RoleScreen}
    (h : s.insertRoleScreens rows = .ok s') :
    ∃ t : Table RoleScreen, (∀ x, x ∈ t ↔ x ∈ s.roleScreens ∨ x ∈ rows) ∧
      s' = { s with roleScreens := t } := by
  unfold insertRoleScreens at h
  split at h
  · split at h
    · rename_i t ht
      exact ⟨t, fun x => Table.mem_insertAll ht, (Except.ok.inj h).symm⟩
    · cases h
  · cases h

theorem insertRoleScreens_nil (s : Database) : s.insertRoleScreens [] = .ok s := by
  rw [insertRoleScreens, if_pos nofun, Table.insertAll_nil]

/-- Permission rows that were added had their parents. -/
theorem hasParents_of_insertRoleScreens {s s' : Database} {rows : List RoleScreen}
    (h : s.insertRoleScreens rows = .ok s') : ∀ row ∈ rows, s.HasParents row := by
  unfold insertRoleScreens at h
  split at h
  · assumption
  · cases h

/-- Permission rows can be added that have their parents and do not clash. -/
theorem exists_insertRoleScreens {s : Database} {rows : List RoleScreen}
    (hparents : ∀ row ∈ rows, s.HasParents row)
    (hrows : rows.Pairwise (fun a b => ¬ Row.Clash a b))
    (hfree : ∀ b ∈ s.roleScreens, ∀ a ∈ rows, ¬ Row.Clash b a) :
    ∃ t : Table RoleScreen, s.insertRoleScreens rows = .ok { s with roleScreens := t } := by
  obtain ⟨t, ht⟩ := Table.exists_insertAll hrows hfree
  exact ⟨t, by rw [insertRoleScreens, if_pos hparents, ht]⟩

end Database

/-! ## Statements -/

/-- What one commit writes. -/
inductive Write
  | insertAdmin (admin : PlatformAdmin)
  | updateAdmin (loaded current : PlatformAdmin)
  | insertAdminRole (assignment : PlatformAdminRole)
  /-- A role with its permission rows. -/
  | insertRole (role : Role) (permissions : List RoleScreen)
  /-- A role, its permission rows replaced where rows are given. -/
  | updateRole (loaded current : Role) (permissions : Option (List RoleScreen))
  /-- A screen with its permission row, if it gets one. -/
  | insertScreen (screen : Screen) (permission : Option RoleScreen)
  | updateScreen (loaded current : Screen)
  | insertOtp (otp : PasswordResetOtp)
  | updateOtp (loaded current : PasswordResetOtp)
  | deleteOtp (email : String)
  | insertHistory (entry : PasswordHistory)
  /-- Delete an admin's entries but those with the given ids. -/
  | trimHistory (adminId : Uuid) (keep : List Uuid)
  | insertExport (entry : Export)
  | updateExport (loaded current : Export)
  | insertIntent (intent : Audit.AuditIntent)
  /-- Put a file in place of whatever was under its path. -/
  | writeFile (path : String) (file : Workbook)

/-- A constraint the database checks when a row is added. -/
def orIntegrity {α : Type} : Option α → Except DbError α
  | some a => .ok a
  | none => .error .integrity

def Write.apply : Write → Database → Except DbError Database
  | .insertAdmin admin, s => do
      let t ← orIntegrity (s.admins.insert admin)
      return { s with admins := t }
  | .updateAdmin loaded current, s => do
      let t ← s.admins.flush loaded current
      return { s with admins := t }
  | .insertAdminRole assignment, s =>
      if (s.admins.find? assignment.platformAdminId).isSome ∧
          (s.roles.find? assignment.roleId).isSome then do
        let t ← orIntegrity (s.adminRoles.insert assignment)
        return { s with adminRoles := t }
      else .error .integrity
  | .insertRole role permissions, s => do
      let t ← orIntegrity (s.roles.insert role)
      Database.insertRoleScreens { s with roles := t } permissions
  | .updateRole loaded current permissions, s => do
      let t ← s.roles.flush loaded current
      match permissions with
      | none => return { s with roles := t }
      | some rows =>
          let others := s.roleScreens.delete (fun row => row.roleId = loaded.id)
          Database.insertRoleScreens { s with roles := t, roleScreens := others } rows
  -- no relationship orders the two tables, so the unit of work flushes `role_screens` before
  -- `screens`, in the order of the class names
  | .insertScreen screen permission, s => do
      let s ← s.insertRoleScreens permission.toList
      let t ← orIntegrity (s.screens.insert screen)
      return { s with screens := t }
  | .updateScreen loaded current, s => do
      let t ← s.screens.flush loaded current
      return { s with screens := t }
  | .insertOtp otp, s => do
      let t ← orIntegrity (s.otps.insert otp)
      return { s with otps := t }
  | .updateOtp loaded current, s => do
      let t ← s.otps.flush loaded current
      return { s with otps := t }
  | .deleteOtp email, s => .ok { s with otps := s.otps.delete (fun otp => otp.email = email) }
  | .insertHistory entry, s =>
      if (s.admins.find? entry.platformAdminId).isSome then do
        let t ← orIntegrity (s.passwordHistory.insert entry)
        return { s with passwordHistory := t }
      else .error .integrity
  | .trimHistory adminId keep, s =>
      .ok { s with
        passwordHistory :=
          s.passwordHistory.delete
            (fun entry => entry.platformAdminId = adminId ∧ entry.id ∉ keep) }
  | .insertExport entry, s => do
      let t ← orIntegrity (s.exports.insert entry)
      return { s with exports := t }
  | .updateExport loaded current, s => do
      let t ← s.exports.flush loaded current
      return { s with exports := t }
  | .insertIntent intent, s => do
      let t ← orIntegrity (s.auditIntents.insert intent)
      return { s with auditIntents := t }
  | .writeFile path file, s =>
      .ok { s with files := (path, file) :: s.files.filter (fun f => f.1 ≠ path) }

/-! ## What a commit can do -/

theorem orIntegrity_eq_ok {α : Type} {o : Option α} {a : α} :
    orIntegrity o = .ok a ↔ o = some a := by
  cases o with
  | none => exact ⟨nofun, nofun⟩
  | some b =>
      constructor
      · exact fun h => congrArg some (Except.ok.inj h)
      · exact fun h => congrArg Except.ok (Option.some.inj h)

theorem bind_eq_ok {ε α β : Type} {x : Except ε α} {f : α → Except ε β} {b : β} :
    (x >>= f) = .ok b ↔ ∃ a, x = .ok a ∧ f a = .ok b := by
  cases x with
  | error e => exact ⟨nofun, fun ⟨_, h, _⟩ => nomatch h⟩
  | ok a =>
      constructor
      · exact fun h => ⟨a, rfl, h⟩
      · rintro ⟨_, ⟨⟩, h⟩
        exact h

section Apply
variable {s s' : Database}

theorem apply_insertAdmin {admin : PlatformAdmin}
    (h : (Write.insertAdmin admin).apply s = .ok s') :
    ∃ t, s.admins.insert admin = some t ∧ s' = { s with admins := t } := by
  obtain ⟨t, ht, h⟩ := bind_eq_ok.mp h
  exact ⟨t, orIntegrity_eq_ok.mp ht, (Except.ok.inj h).symm⟩

theorem apply_updateAdmin {loaded current : PlatformAdmin}
    (h : (Write.updateAdmin loaded current).apply s = .ok s') :
    ∃ t, s.admins.flush loaded current = .ok t ∧ s' = { s with admins := t } := by
  obtain ⟨t, ht, h⟩ := bind_eq_ok.mp h
  exact ⟨t, ht, (Except.ok.inj h).symm⟩

theorem apply_insertAdminRole_eq {assignment : PlatformAdminRole} {t : Table PlatformAdminRole}
    (hadmin : (s.admins.find? assignment.platformAdminId).isSome)
    (hrole : (s.roles.find? assignment.roleId).isSome)
    (ht : s.adminRoles.insert assignment = some t) :
    (Write.insertAdminRole assignment).apply s = .ok { s with adminRoles := t } := by
  rw [Write.apply, if_pos ⟨hadmin, hrole⟩, ht]
  rfl

theorem apply_insertAdminRole {assignment : PlatformAdminRole}
    (h : (Write.insertAdminRole assignment).apply s = .ok s') :
    ∃ t, (s.admins.find? assignment.platformAdminId).isSome ∧
      (s.roles.find? assignment.roleId).isSome ∧ s.adminRoles.insert assignment = some t ∧
      s' = { s with adminRoles := t } := by
  rw [Write.apply] at h
  split at h
  · rename_i hparents
    obtain ⟨t, ht, h⟩ := bind_eq_ok.mp h
    exact ⟨t, hparents.1, hparents.2, orIntegrity_eq_ok.mp ht, (Except.ok.inj h).symm⟩
  · cases h

theorem apply_insertOtp {otp : PasswordResetOtp} (h : (Write.insertOtp otp).apply s = .ok s') :
    ∃ t, s.otps.insert otp = some t ∧ s' = { s with otps := t } := by
  obtain ⟨t, ht, h⟩ := bind_eq_ok.mp h
  exact ⟨t, orIntegrity_eq_ok.mp ht, (Except.ok.inj h).symm⟩

theorem apply_updateOtp {loaded current : PasswordResetOtp}
    (h : (Write.updateOtp loaded current).apply s = .ok s') :
    ∃ t, s.otps.flush loaded current = .ok t ∧ s' = { s with otps := t } := by
  obtain ⟨t, ht, h⟩ := bind_eq_ok.mp h
  exact ⟨t, ht, (Except.ok.inj h).symm⟩

theorem apply_insertRole {role : Role} {permissions : List RoleScreen}
    (h : (Write.insertRole role permissions).apply s = .ok s') :
    ∃ (roles : Table Role) (roleScreens : Table RoleScreen), s.roles.insert role = some roles ∧
      (∀ x, x ∈ roleScreens ↔ x ∈ s.roleScreens ∨ x ∈ permissions) ∧
      s' = { s with roles := roles, roleScreens := roleScreens } := by
  obtain ⟨roles, hroles, h⟩ := bind_eq_ok.mp h
  obtain ⟨t, ht, rfl⟩ := Database.insertRoleScreens_ok h
  exact ⟨roles, t, orIntegrity_eq_ok.mp hroles, ht, rfl⟩

/-- An update of a role without permission rows leaves them; with rows, it replaces those of
the role. -/
theorem apply_updateRole {loaded current : Role} {permissions : Option (List RoleScreen)}
    (h : (Write.updateRole loaded current permissions).apply s = .ok s') :
    ∃ (roles : Table Role) (roleScreens : Table RoleScreen),
      s.roles.flush loaded current = .ok roles ∧
      (permissions = none → roleScreens = s.roleScreens) ∧
      (∀ rows, permissions = some rows →
        ∀ x, x ∈ roleScreens ↔ (x ∈ s.roleScreens ∧ x.roleId ≠ loaded.id) ∨ x ∈ rows) ∧
      s' = { s with roles := roles, roleScreens := roleScreens } := by
  obtain ⟨roles, hroles, h⟩ := bind_eq_ok.mp h
  cases permissions with
  | none =>
      obtain rfl := Except.ok.inj h
      exact ⟨roles, s.roleScreens, hroles, fun _ => rfl, fun _ h => (by cases h), rfl⟩
  | some rows =>
      obtain ⟨t, ht, rfl⟩ := Database.insertRoleScreens_ok h
      refine ⟨roles, t, hroles, fun h => (by cases h), ?_, rfl⟩
      rintro _ ⟨⟩ x
      rw [ht]
      simp

theorem apply_insertScreen {screen : Screen} {permission : Option RoleScreen}
    (h : (Write.insertScreen screen permission).apply s = .ok s') :
    ∃ (screens : Table Screen) (roleScreens : Table RoleScreen),
      s.screens.insert screen = some screens ∧
      (∀ x, x ∈ roleScreens ↔ x ∈ s.roleScreens ∨ permission = some x) ∧
      s' = { s with screens := screens, roleScreens := roleScreens } := by
  obtain ⟨u, hrows, h⟩ := bind_eq_ok.mp h
  obtain ⟨t, ht, rfl⟩ := Database.insertRoleScreens_ok hrows
  obtain ⟨screens, hscreens, h⟩ := bind_eq_ok.mp h
  exact ⟨screens, t, orIntegrity_eq_ok.mp hscreens, fun x => by simpa using ht x,
    (Except.ok.inj h).symm⟩

/-- **A permission on the new screen is refused**: its foreign key is checked before the screen
is there. -/
theorem permission_of_insertScreen {screen : Screen} {permission : Option RoleScreen}
    (h : (Write.insertScreen screen permission).apply s = .ok s')
    (hcode : ∀ row ∈ permission, row.screenCode = screen.code) : permission = none := by
  obtain ⟨u, hrows, h⟩ := bind_eq_ok.mp h
  obtain ⟨t, -, rfl⟩ := Database.insertRoleScreens_ok hrows
  obtain ⟨screens, hscreens, -⟩ := bind_eq_ok.mp h
  cases permission with
  | none => rfl
  | some row =>
      have hparent := (Database.hasParents_of_insertRoleScreens hrows row (by simp)).2
      obtain ⟨old, hold⟩ := Option.isSome_iff_exists.mp hparent
      obtain ⟨hin, hsame⟩ := Database.screenByCode_eq_some.mp hold
      have hclash : Row.Clash old screen := .inr (hsame.trans (hcode row rfl))
      have hnone := Table.insert_eq_none.mpr ⟨old, hin, hclash⟩
      rw [orIntegrity_eq_ok.mp hscreens] at hnone
      cases hnone

/-- A screen without a permission. -/
theorem apply_insertScreen_none {screen : Screen} :
    (Write.insertScreen screen none).apply s = .ok s' ↔
      ∃ t, s.screens.insert screen = some t ∧ s' = { s with screens := t } := by
  rw [Write.apply, Option.toList_none, Database.insertRoleScreens_nil]
  constructor
  · intro h
    obtain ⟨_, ⟨⟩, h⟩ := bind_eq_ok.mp h
    obtain ⟨screens, hscreens, h⟩ := bind_eq_ok.mp h
    exact ⟨screens, orIntegrity_eq_ok.mp hscreens, (Except.ok.inj h).symm⟩
  · rintro ⟨t, ht, rfl⟩
    exact bind_eq_ok.mpr ⟨s, rfl, bind_eq_ok.mpr ⟨t, orIntegrity_eq_ok.mpr ht, rfl⟩⟩

theorem apply_updateScreen {loaded current : Screen}
    (h : (Write.updateScreen loaded current).apply s = .ok s') :
    ∃ t, s.screens.flush loaded current = .ok t ∧ s' = { s with screens := t } := by
  obtain ⟨t, ht, h⟩ := bind_eq_ok.mp h
  exact ⟨t, ht, (Except.ok.inj h).symm⟩

theorem apply_insertHistory {entry : PasswordHistory}
    (h : (Write.insertHistory entry).apply s = .ok s') :
    ∃ t, s.passwordHistory.insert entry = some t ∧ s' = { s with passwordHistory := t } := by
  rw [Write.apply] at h
  split at h
  · obtain ⟨t, ht, h⟩ := bind_eq_ok.mp h
    exact ⟨t, orIntegrity_eq_ok.mp ht, (Except.ok.inj h).symm⟩
  · cases h

theorem apply_insertExport {entry : Export} (h : (Write.insertExport entry).apply s = .ok s') :
    ∃ t, s.exports.insert entry = some t ∧ s' = { s with exports := t } := by
  obtain ⟨t, ht, h⟩ := bind_eq_ok.mp h
  exact ⟨t, orIntegrity_eq_ok.mp ht, (Except.ok.inj h).symm⟩

theorem apply_updateExport {loaded current : Export}
    (h : (Write.updateExport loaded current).apply s = .ok s') :
    ∃ t, s.exports.flush loaded current = .ok t ∧ s' = { s with exports := t } := by
  obtain ⟨t, ht, h⟩ := bind_eq_ok.mp h
  exact ⟨t, ht, (Except.ok.inj h).symm⟩

theorem apply_insertIntent {intent : Audit.AuditIntent}
    (h : (Write.insertIntent intent).apply s = .ok s') :
    ∃ t, s.auditIntents.insert intent = some t ∧ s' = { s with auditIntents := t } := by
  obtain ⟨t, ht, h⟩ := bind_eq_ok.mp h
  exact ⟨t, orIntegrity_eq_ok.mp ht, (Except.ok.inj h).symm⟩

/-- Which writes can change a table, of the tables that few writes do. -/
structure Framed (w : Write) (s s' : Database) : Prop where
  roles : s'.roles = s.roles ∨ (∃ role rows, w = .insertRole role rows) ∨
    ∃ loaded current rows, w = .updateRole loaded current rows
  screens : s'.screens = s.screens ∨ (∃ screen row, w = .insertScreen screen row) ∨
    ∃ loaded current, w = .updateScreen loaded current
  roleScreens : s'.roleScreens = s.roleScreens ∨
    (∃ role rows, w = .insertRole role rows) ∨
    (∃ loaded current rows, w = .updateRole loaded current (some rows)) ∨
    ∃ screen row, w = .insertScreen screen row
  adminRoles : s'.adminRoles = s.adminRoles ∨ ∃ assignment, w = .insertAdminRole assignment
  passwordHistory : s'.passwordHistory = s.passwordHistory ∨
    (∃ entry, w = .insertHistory entry) ∨ ∃ adminId keep, w = .trimHistory adminId keep
  auditIntents : s'.auditIntents = s.auditIntents ∨ ∃ intent, w = .insertIntent intent

/-- **The frame of a commit.** -/
theorem framed_apply {w : Write} (h : w.apply s = .ok s') : Framed w s s' := by
  have hframe : Framed w s s := ⟨.inl rfl, .inl rfl, .inl rfl, .inl rfl, .inl rfl, .inl rfl⟩
  cases w with
  | insertAdmin => obtain ⟨_, -, rfl⟩ := apply_insertAdmin h; exact { hframe with }
  | updateAdmin => obtain ⟨_, -, rfl⟩ := apply_updateAdmin h; exact { hframe with }
  | insertAdminRole assignment =>
      obtain ⟨_, -, -, -, rfl⟩ := apply_insertAdminRole h
      exact { hframe with adminRoles := .inr ⟨assignment, rfl⟩ }
  | insertRole role rows =>
      obtain ⟨_, _, -, -, rfl⟩ := apply_insertRole h
      exact
        { hframe with
          roles := .inr (.inl ⟨role, rows, rfl⟩)
          roleScreens := .inr (.inl ⟨role, rows, rfl⟩) }
  | updateRole loaded current rows =>
      obtain ⟨_, _, -, hkept, -, rfl⟩ := apply_updateRole h
      cases rows with
      | none =>
          exact
            { hframe with
              roles := .inr (.inr ⟨loaded, current, none, rfl⟩)
              roleScreens := .inl (hkept rfl) }
      | some rows =>
          exact
            { hframe with
              roles := .inr (.inr ⟨loaded, current, some rows, rfl⟩)
              roleScreens := .inr (.inr (.inl ⟨loaded, current, rows, rfl⟩)) }
  | insertScreen screen row =>
      obtain ⟨_, _, -, -, rfl⟩ := apply_insertScreen h
      exact
        { hframe with
          screens := .inr (.inl ⟨screen, row, rfl⟩)
          roleScreens := .inr (.inr (.inr ⟨screen, row, rfl⟩)) }
  | updateScreen loaded current =>
      obtain ⟨_, -, rfl⟩ := apply_updateScreen h
      exact { hframe with screens := .inr (.inr ⟨loaded, current, rfl⟩) }
  | insertOtp => obtain ⟨_, -, rfl⟩ := apply_insertOtp h; exact { hframe with }
  | updateOtp => obtain ⟨_, -, rfl⟩ := apply_updateOtp h; exact { hframe with }
  | deleteOtp => obtain rfl := Except.ok.inj h; exact { hframe with }
  | insertHistory entry =>
      obtain ⟨_, -, rfl⟩ := apply_insertHistory h
      exact { hframe with passwordHistory := .inr (.inl ⟨entry, rfl⟩) }
  | trimHistory adminId keep =>
      obtain rfl := Except.ok.inj h
      exact { hframe with passwordHistory := .inr (.inr ⟨adminId, keep, rfl⟩) }
  | insertExport => obtain ⟨_, -, rfl⟩ := apply_insertExport h; exact { hframe with }
  | updateExport => obtain ⟨_, -, rfl⟩ := apply_updateExport h; exact { hframe with }
  | insertIntent intent =>
      obtain ⟨_, -, rfl⟩ := apply_insertIntent h
      exact { hframe with auditIntents := .inr ⟨intent, rfl⟩ }
  | writeFile => obtain rfl := Except.ok.inj h; exact { hframe with }

end Apply

/-- A statement that answers a `β`; a commit is told what to answer. -/
inductive Sql (β : Type) : Type
  | query (q : Database → β)
  | commit (w : Write) (answer : β)

/-- What a statement does. -/
def exec : Semantics Sql Failure Database
  | _, .query q, s => (.ok (q s), s)
  | _, .commit w answer, s =>
      match w.apply s with
      | .ok s' => (.ok answer, s')
      | .error e => (.error (.database e), s)

/-! ## Programs -/

abbrev Db (α : Type) := Program Sql Failure α

def query {α : Type} (q : Database → α) : Db α := .issue (.query q)

def commit (w : Write) : Db Unit := .issue (.commit w ())

def raise {α : Type} (e : AppError) : Db α := throw (.app e)

/-- `if condition: …` in the middle of a request. -/
def when (c : Bool) (p : Db Unit) : Db Unit := if c then p else pure ()

/-- Serve a request and drop what it returns. -/
def drop {α : Type} (p : Db α) : Db Unit := do
  let _ ← p
  return ()

/-- `db.refresh`: read a row again. -/
def refresh {α : Type} [Row α] (table : Database → Table α) (k : Row.Key α) : Db α := do
  match ← query (fun s => (table s).find? k) with
  | some row => pure row
  | none => throw (.database .couldNotRefresh)

/-- Commit, and read a row it wrote again. -/
def save {α : Type} [Row α] (w : Write) (table : Database → Table α) (k : Row.Key α) : Db α := do
  commit w
  refresh table k

/-- Execute a request alone. -/
def Db.run {α : Type} (p : Db α) (s : Database) : Except Failure α × Database :=
  Program.run exec p s

/-- Execute a request alone, while its statements fail as given: what is left of the failures
comes with the state. -/
def Db.runFaulty {α : Type} (p : Db α) (faults : List (Option Failure)) (s : Database) :
    Except Failure α × List (Option Failure) × Database :=
  Program.run (Program.faulty exec) p (faults, s)

namespace Db
variable {α β : Type} {s s' : Database}

@[simp] theorem run_pure (a : α) (s : Database) : (pure a : Db α).run s = (.ok a, s) := rfl

@[simp] theorem run_throw (e : Failure) (s : Database) :
    (throw e : Db α).run s = (.error e, s) := rfl

@[simp] theorem run_raise (e : AppError) (s : Database) :
    (raise e : Db α).run s = (.error (.app e), s) := rfl

@[simp] theorem run_raise_bind (e : AppError) (f : α → Db β) (s : Database) :
    (raise e >>= f).run s = (.error (.app e), s) := rfl

@[simp] theorem run_query (q : Database → α) (s : Database) :
    (query q).run s = (.ok (q s), s) := rfl

@[simp] theorem run_query_bind (q : Database → α) (f : α → Db β) (s : Database) :
    (query q >>= f).run s = (f (q s)).run s := rfl

theorem run_bind_ok {p : Db α} {a : α} (f : α → Db β) (h : p.run s = (.ok a, s')) :
    (p >>= f).run s = (f a).run s' := Program.run_bind_ok h

theorem run_bind_error {p : Db α} {e : Failure} (f : α → Db β) (h : p.run s = (.error e, s')) :
    (p >>= f).run s = (.error e, s') := Program.run_bind_error h

/-- **Inversion of a sequence.** -/
theorem run_bind_inv {p : Db α} {f : α → Db β} {r : Except Failure β}
    (h : (p >>= f).run s = (r, s')) :
    (∃ a u, p.run s = (.ok a, u) ∧ (f a).run u = (r, s')) ∨
      ∃ e, p.run s = (.error e, s') ∧ r = .error e := Program.run_bind_inv h

/-- `try … except`: a program that ends well is untouched by its handler. -/
theorem run_tryCatch_ok {p : Db α} {a : α} (h : Failure → Db α) (hp : p.run s = (.ok a, s')) :
    (tryCatch p h : Db α).run s = (.ok a, s') := Program.run_tryCatch_ok hp

theorem run_tryCatch_error {p : Db α} {e : Failure} (h : Failure → Db α)
    (hp : p.run s = (.error e, s')) : (tryCatch p h : Db α).run s = (h e).run s' :=
  Program.run_tryCatch_error hp

/-- What the body keeps, and every handler after it, `try … except` keeps. -/
theorem run_tryCatch_keeps {I : Database → Prop} {p : Db α} {h : Failure → Db α}
    (hp : I (p.run s).2) (hh : ∀ e u, I u → I ((h e).run u).2) :
    I ((tryCatch p h : Db α).run s).2 := by
  rcases hrun : p.run s with ⟨a | e, u⟩
  · rw [run_tryCatch_error h hrun]
    rw [hrun] at hp
    exact hh _ u hp
  · rw [run_tryCatch_ok h hrun]
    rwa [hrun] at hp

theorem run_commit_ok {w : Write} (h : w.apply s = .ok s') :
    (commit w).run s = (.ok (), s') := by
  show Program.run exec (Program.issue (.commit w ())) s = _
  rw [Program.run_issue, exec, h]

theorem run_commit_error {w : Write} {e : DbError} (h : w.apply s = .error e) :
    (commit w).run s = (.error (.database e), s) := by
  show Program.run exec (Program.issue (.commit w ())) s = _
  rw [Program.run_issue, exec, h]

/-- **Inversion of a commit.** It is refused and changes nothing, or it is made and the rest
runs on what it left. -/
theorem run_commit_bind_inv {w : Write} {f : Unit → Db α} {r : Except Failure α}
    (h : (commit w >>= f).run s = (r, s')) :
    ((∃ e, r = .error e) ∧ s' = s) ∨ ∃ u, w.apply s = .ok u ∧ (f ()).run u = (r, s') := by
  cases hw : w.apply s with
  | ok u =>
      rw [run_bind_ok f (run_commit_ok hw)] at h
      exact .inr ⟨u, rfl, h⟩
  | error e =>
      rw [run_bind_error f (run_commit_error hw)] at h
      obtain ⟨rfl, rfl⟩ := Prod.mk.inj h
      exact .inl ⟨⟨_, rfl⟩, rfl⟩

theorem run_refresh {γ : Type} [Row γ] {table : Database → Table γ} {k : Row.Key γ} {row : γ}
    (h : (table s).find? k = some row) : (refresh table k).run s = (.ok row, s) := by
  rw [refresh, run_query_bind, h]
  rfl

/-- Reading a row again changes nothing. -/
theorem run_refresh_state {γ : Type} [Row γ] (table : Database → Table γ) (k : Row.Key γ)
    (s : Database) : ((refresh table k).run s).2 = s := by
  rw [refresh, run_query_bind]
  cases (table s).find? k <;> rfl

/-- Dropping a result keeps whether there is one. -/
theorem run_drop_inv {p : Db α} {r : Except Failure Unit} (h : (drop p).run s = (r, s')) :
    ∃ r', p.run s = (r', s') ∧ r = r'.map (fun _ => ()) := by
  rcases run_bind_inv h with ⟨a, u, hp, hrest⟩ | ⟨e, hp, rfl⟩
  · obtain ⟨rfl, rfl⟩ := Prod.mk.inj hrest
    exact ⟨.ok a, hp, rfl⟩
  · exact ⟨.error e, hp, rfl⟩

/-! ### Requests whose statements fail -/

section Faulty
variable {faults faults' : List (Option Failure)}

theorem runFaulty_bind_ok {p : Db α} {a : α} (f : α → Db β)
    (h : p.runFaulty faults s = (.ok a, faults', s')) :
    (p >>= f).runFaulty faults s = (f a).runFaulty faults' s' := Program.run_bind_ok h

theorem runFaulty_bind_error {p : Db α} {e : Failure} (f : α → Db β)
    (h : p.runFaulty faults s = (.error e, faults', s')) :
    (p >>= f).runFaulty faults s = (.error e, faults', s') := Program.run_bind_error h

theorem runFaulty_tryCatch_ok {p : Db α} {a : α} (h : Failure → Db α)
    (hp : p.runFaulty faults s = (.ok a, faults', s')) :
    (tryCatch p h : Db α).runFaulty faults s = (.ok a, faults', s') :=
  Program.run_tryCatch_ok hp

theorem runFaulty_tryCatch_error {p : Db α} {e : Failure} (h : Failure → Db α)
    (hp : p.runFaulty faults s = (.error e, faults', s')) :
    (tryCatch p h : Db α).runFaulty faults s = (h e).runFaulty faults' s' :=
  Program.run_tryCatch_error hp

/-- A query fails or is answered. -/
theorem runFaulty_query (q : Database → α) (faults : List (Option Failure)) (s : Database) :
    (∃ e, Program.sound 1 faults = false ∧
      (query q).runFaulty faults s = (.error e, faults.tail, s)) ∨
      (Program.sound 1 faults = true ∧
        (query q).runFaulty faults s = (.ok (q s), faults.tail, s)) :=
  Program.run_faulty_issue _ _ _

theorem runFaulty_query_map {γ : Type} (q : Database → γ) (g : γ → α)
    (faults : List (Option Failure)) (s : Database) :
    (∃ e, Program.sound 1 faults = false ∧
      (query q >>= fun a => pure (g a)).runFaulty faults s = (.error e, faults.tail, s)) ∨
      (Program.sound 1 faults = true ∧
        (query q >>= fun a => pure (g a)).runFaulty faults s =
          (.ok (g (q s)), faults.tail, s)) := by
  rcases runFaulty_query q faults s with ⟨e, hfails, hrun⟩ | ⟨hsound, hrun⟩
  · exact .inl ⟨e, hfails, runFaulty_bind_error _ hrun⟩
  · exact .inr ⟨hsound, runFaulty_bind_ok _ hrun⟩

/-- A commit that would be made fails or is made. -/
theorem runFaulty_commit {w : Write} (h : w.apply s = .ok s') (faults : List (Option Failure)) :
    (∃ e, Program.sound 1 faults = false ∧
      (commit w).runFaulty faults s = (.error e, faults.tail, s)) ∨
      (Program.sound 1 faults = true ∧
        (commit w).runFaulty faults s = (.ok (), faults.tail, s')) := by
  have hexec : exec (.commit w ()) s = (.ok (), s') := by rw [exec, h]
  have hcases := @Program.run_faulty_issue Sql Failure Database Unit exec (.commit w ()) faults s
  rwa [hexec] at hcases

end Faulty

/-! ### Requests that are refused -/

/-- Raised, and changed nothing. -/
def Refused (p : Db α) (s : Database) : Prop := ∃ e, p.run s = (.error e, s)

theorem Refused.bind_inv {p : Db α} (hp : p.Refused s) {f : α → Db β} {r : Except Failure β}
    (h : (p >>= f).run s = (r, s')) : (∃ e, r = .error e) ∧ s' = s := by
  obtain ⟨e, hp⟩ := hp
  rw [run_bind_error f hp] at h
  obtain ⟨rfl, rfl⟩ := Prod.mk.inj h
  exact ⟨⟨e, rfl⟩, rfl⟩

/-- A commit that is made, and leaves `row` under the key. -/
theorem run_save_ok {γ : Type} [Row γ] {w : Write} {table : Database → Table γ}
    {k : Row.Key γ} {row : γ} (hw : w.apply s = .ok s') (hrow : (table s').find? k = some row) :
    (save w table k).run s = (.ok row, s') := by
  rw [save, run_bind_ok _ (run_commit_ok hw)]
  exact run_refresh hrow

/-- **Inversion of a save.** Where the commit leaves `row` under the key, the request goes on
with `row`. -/
theorem run_save_bind_inv {γ : Type} [Row γ] {w : Write} {table : Database → Table γ}
    {k : Row.Key γ} {f : γ → Db α} {r : Except Failure α} {row : γ}
    (h : (save w table k >>= f).run s = (r, s'))
    (hrow : ∀ u, w.apply s = .ok u → (table u).find? k = some row) :
    ((∃ e, r = .error e) ∧ s' = s) ∨ ∃ u, w.apply s = .ok u ∧ (f row).run u = (r, s') := by
  cases hw : w.apply s with
  | error e =>
      have hrefused : (save w table k).Refused s := ⟨_, run_bind_error _ (run_commit_error hw)⟩
      exact .inl (hrefused.bind_inv h)
  | ok u =>
      rw [run_bind_ok f (run_save_ok hw (hrow u hw))] at h
      exact .inr ⟨u, rfl, h⟩

/-- A check reads, and raises exactly where its condition holds. -/
def IsCheck (p : Db Unit) (s : Database) (c : Prop) : Prop :=
  (c ∧ p.Refused s) ∨ (¬ c ∧ p.run s = (.ok (), s))

theorem IsCheck.congr {p : Db Unit} {c d : Prop} (h : p.IsCheck s c) (hcd : c ↔ d) :
    p.IsCheck s d := by
  simpa only [IsCheck, hcd] using h

/-- `if condition: raise …`. -/
theorem isCheck_raise (b : Bool) (e : AppError) (s : Database) :
    (AdminPlatform.when b (raise e)).IsCheck s (b = true) := by
  cases b
  · exact .inr ⟨by simp, rfl⟩
  · exact .inl ⟨rfl, .app e, rfl⟩

theorem IsCheck.query_bind {q : Database → α} {f : α → Db Unit} {c : Prop}
    (h : (f (q s)).IsCheck s c) : (AdminPlatform.query q >>= f).IsCheck s c := h

theorem IsCheck.when {p : Db Unit} {c : Prop} (h : p.IsCheck s c) (b : Bool) :
    (when b p).IsCheck s (b ∧ c) := by
  cases b with
  | false => exact .inr ⟨by simp, rfl⟩
  | true => simpa [IsCheck, AdminPlatform.when] using h

theorem IsCheck.forM {γ : Type} {p : γ → Db Unit} {c : γ → Prop} (o : Option γ)
    (h : ∀ x, (p x).IsCheck s (c x)) : (o.forM p).IsCheck s (∃ x ∈ o, c x) := by
  cases o with
  | none => exact .inr ⟨by simp, rfl⟩
  | some x => simpa using h x

/-- **Inversion of a check.** -/
theorem IsCheck.bind_inv {p : Db Unit} {c : Prop} (hp : p.IsCheck s c) {f : Unit → Db α}
    {r : Except Failure α} (h : (p >>= f).run s = (r, s')) :
    ((∃ e, r = .error e) ∧ s' = s) ∨ (¬ c ∧ (f ()).run s = (r, s')) := by
  rcases hp with ⟨-, hp⟩ | ⟨hc, hp⟩
  · exact .inl (hp.bind_inv h)
  · rw [run_bind_ok f hp] at h
    exact .inr ⟨hc, h⟩

/-- A part of a request that writes nothing: it raises, or answers something `P` holds of. -/
def Reads (p : Db α) (s : Database) (P : α → Prop) : Prop :=
  p.Refused s ∨ ∃ a, p.run s = (.ok a, s) ∧ P a

/-- **Inversion of a read.** -/
theorem Reads.bind_inv {p : Db α} {P : α → Prop} (hp : p.Reads s P) {f : α → Db β}
    {r : Except Failure β} (h : (p >>= f).run s = (r, s')) :
    ((∃ e, r = .error e) ∧ s' = s) ∨ ∃ a, P a ∧ (f a).run s = (r, s') := by
  rcases hp with hp | ⟨a, hp, ha⟩
  · exact .inl (hp.bind_inv h)
  · rw [run_bind_ok f hp] at h
    exact .inr ⟨a, ha, h⟩

theorem Reads.bind {p : Db α} {P : α → Prop} {f : α → Db β} {Q : β → Prop} (hp : p.Reads s P)
    (hf : ∀ a, P a → (f a).Reads s Q) : (p >>= f).Reads s Q := by
  rcases hp with ⟨e, hp⟩ | ⟨a, hp, ha⟩
  · exact .inl ⟨e, run_bind_error f hp⟩
  · rcases hf a ha with ⟨e, hfa⟩ | ⟨b, hfa, hb⟩
    · exact .inl ⟨e, by rw [run_bind_ok f hp, hfa]⟩
    · exact .inr ⟨b, by rw [run_bind_ok f hp, hfa], hb⟩

theorem Reads.pure {P : α → Prop} {a : α} (ha : P a) : (Pure.pure a : Db α).Reads s P :=
  .inr ⟨a, rfl, ha⟩

theorem Reads.query {P : α → Prop} {q : Database → α} (hq : P (q s)) :
    (AdminPlatform.query q).Reads s P :=
  .inr ⟨q s, rfl, hq⟩

theorem Reads.throw {P : α → Prop} (e : Failure) : (MonadExcept.throw e : Db α).Reads s P :=
  .inl ⟨e, rfl⟩

theorem IsCheck.reads {p : Db Unit} {c : Prop} (hp : p.IsCheck s c) :
    p.Reads s (fun _ => ¬ c) := by
  rcases hp with ⟨-, hp⟩ | ⟨hc, hp⟩
  · exact .inl hp
  · exact .inr ⟨(), hp, hc⟩

/-! ### Requests that take turns -/

section Turn
variable {ι : Type} [DecidableEq ι] {t : Program.Threads Sql Failure Database ι} {i : ι}

theorem turn_query {q : Database → α} {f : α → Db Unit}
    (h : t.thread i = AdminPlatform.query q >>= f) :
    Program.turn exec i t =
      some { t with thread := Function.update t.thread i (f (q t.shared)) } :=
  Program.turn_issue_ok h rfl

theorem turn_commit_ok {w : Write} {f : Unit → Db Unit} (h : t.thread i = commit w >>= f)
    (hw : w.apply t.shared = .ok s') :
    Program.turn exec i t = some ⟨s', Function.update t.thread i (f ())⟩ :=
  Program.turn_issue_ok h (by rw [exec, hw])

theorem turn_commit_error {w : Write} {f : Unit → Db Unit} {e : DbError}
    (h : t.thread i = commit w >>= f) (hw : w.apply t.shared = .error e) :
    Program.turn exec i t =
      some { t with thread := Function.update t.thread i (.throw (.database e)) } :=
  Program.turn_issue_error h (by rw [exec, hw])

end Turn

/-! ### What a request writes, and what it raises -/

/-- A query, or a commit of an allowed write. -/
def Allowed (W : Write → Prop) : ∀ {β : Type}, Sql β → Prop
  | _, .query _ => True
  | _, .commit w _ => W w

/-- Every commit of a request is of an allowed write. -/
def Writes (W : Write → Prop) (p : Db α) : Prop := Program.Within (Allowed W) p

section Writes
variable {W : Write → Prop}

theorem writes_pure (a : α) : (pure a : Db α).Writes W := trivial

theorem writes_throw (e : Failure) : (throw e : Db α).Writes W := trivial

theorem Writes.bind {p : Db α} {f : α → Db β} (hp : p.Writes W) (hf : ∀ a, (f a).Writes W) :
    (p >>= f).Writes W := Program.Within.bind hp hf

theorem Writes.tryCatch {p : Db α} {h : Failure → Db α} (hp : p.Writes W)
    (hh : ∀ e, (h e).Writes W) : (tryCatch p h : Db α).Writes W := Program.Within.tryCatch hp hh

theorem writes_query (q : Database → α) : (AdminPlatform.query q).Writes W :=
  Program.within_issue.mpr trivial

theorem writes_commit {w : Write} (hw : W w) : (AdminPlatform.commit w).Writes W :=
  Program.within_issue.mpr hw

theorem Writes.when {p : Db Unit} (hp : p.Writes W) (b : Bool) : (when b p).Writes W := by
  cases b
  · exact writes_pure ()
  · exact hp

theorem Writes.drop {p : Db α} (hp : p.Writes W) : (drop p).Writes W :=
  hp.bind fun _ => writes_pure ()

theorem writes_refresh {γ : Type} [Row γ] (table : Database → Table γ) (k : Row.Key γ) :
    (refresh table k).Writes W := by
  refine (writes_query _).bind fun row => ?_
  cases row
  · exact writes_throw _
  · exact writes_pure _

theorem writes_save {γ : Type} [Row γ] {w : Write} (hw : W w) (table : Database → Table γ)
    (k : Row.Key γ) : (save w table k).Writes W :=
  (writes_commit hw).bind fun _ => writes_refresh table k

theorem exec_keeps {I : Database → Prop}
    (hkeeps : ∀ w s s', W w → I s → w.apply s = .ok s' → I s') {β : Type} (c : Sql β)
    (s : Database) (hc : Allowed W c) (hs : I s) : I (exec c s).2 := by
  cases c with
  | query q => exact hs
  | commit w answer =>
      rw [exec]
      split
      · rename_i s' happly
        exact hkeeps w s s' hc hs happly
      · exact hs

/-- **The frame rule.** What every allowed write keeps, the request keeps. -/
theorem Writes.run_keeps {I : Database → Prop} {p : Db α} (hp : p.Writes W)
    (hkeeps : ∀ w s s', W w → I s → w.apply s = .ok s' → I s') (hs : I s) : I (p.run s).2 :=
  Program.run_keeps (exec_keeps hkeeps) hp hs

/-- It keeps it wherever statements fail. -/
theorem Writes.runFaulty_keeps {I : Database → Prop} {p : Db α} (hp : p.Writes W)
    (hkeeps : ∀ w s s', W w → I s → w.apply s = .ok s' → I s') (faults : List (Option Failure))
    (hs : I s) : I (p.runFaulty faults s).2.2 :=
  Program.run_faulty_keeps (exec_keeps hkeeps) hp hs

/-- **Inversion of a turn** of a request that writes what is allowed: it changes nothing, or
it commits such a write; either way such a request is left. -/
theorem Writes.turn_inv {ι : Type} [DecidableEq ι] {t t' : Program.Threads Sql Failure Database ι}
    {i : ι} (hp : Writes W (t.thread i)) (hturn : Program.turn exec i t = some t') :
    ∃ rest, Writes W rest ∧ t'.thread = Function.update t.thread i rest ∧
      (t'.shared = t.shared ∨
        ∃ (γ : Type) (w : Write) (answer : γ) (k : Except Failure γ → Db Unit),
          t.thread i = .call (.commit w answer) k ∧ W w ∧ w.apply t.shared = .ok t'.shared) := by
  obtain ⟨γ, c, k, hthread, hshared, hnext⟩ := Program.turn_inv hturn
  rw [hthread] at hp
  refine ⟨_, hp.2 _, hnext, ?_⟩
  rw [hshared]
  cases c with
  | query q => exact .inl rfl
  | commit w answer =>
      rw [exec]
      cases happly : w.apply t.shared with
      | error e => exact .inl rfl
      | ok s' => exact .inr ⟨_, w, answer, k, hthread, hp.1, happly⟩

end Writes

/-- Every domain error a request raises satisfies `E`. -/
def Raises (E : AppError → Prop) (p : Db α) : Prop :=
  Program.Raising (fun e => ∀ a, e = .app a → E a) p

section Raises
variable {E : AppError → Prop}

theorem raises_pure (a : α) : (pure a : Db α).Raises E := trivial

theorem raises_raise {e : AppError} (he : E e) : (raise e : Db α).Raises E := by
  rintro _ ⟨⟩
  exact he

theorem Raises.bind {p : Db α} {f : α → Db β} (hp : p.Raises E) (hf : ∀ a, (f a).Raises E) :
    (p >>= f).Raises E := Program.Raising.bind hp hf

theorem raises_query (q : Database → α) : (AdminPlatform.query q).Raises E :=
  Program.raising_issue _

theorem raises_commit (w : Write) : (AdminPlatform.commit w).Raises E := Program.raising_issue _

theorem Raises.when {p : Db Unit} (hp : p.Raises E) (b : Bool) : (when b p).Raises E := by
  cases b
  · exact raises_pure ()
  · exact hp

theorem Raises.run {p : Db α} (hp : p.Raises E) {e : AppError}
    (h : (p.run s).1 = .error (.app e)) : E e := by
  have hstmt : ∀ {β : Type} (c : Sql β) s f, (exec c s).1 = .error f → ∀ a, f = .app a → E a := by
    intro β c s f hf a ha
    cases c with
    | query q => cases hf
    | commit w answer =>
        rw [exec] at hf
        split at hf
        · cases hf
        · rw [← Except.error.inj hf] at ha
          cases ha
  exact Program.run_raises hstmt hp h e rfl

end Raises

end Db
end AdminPlatform
