import AdminPlatform.Services.Audit
import AdminPlatform.Services.Rbac
import AdminPlatform.Services.Screen
import AdminPlatform.Services.XlsxWriter

/-! # Seeded states

What the seed scripts leave (`app/database/scripts/seed_rbac.py`): the role super_admin with
the permissions of the catalog, the four screens of the admin interface, and the role
assigned to every admin. In such a state every admin has every permission. -/

namespace AdminPlatform
open AdminPlatform.Lib

namespace Administration

/-- The permissions `ensure_catalog` gives super_admin: screen code, read, write. -/
def catalog : List (String × Bool × Bool) :=
  [("S1", true, true), ("S2", true, false), ("S3", true, true), ("S4", true, true)]

/-- A role may do this on a screen. -/
def Granted (s : Database) (roleId : Uuid) (g : String × Bool × Bool) : Prop :=
  ∃ row ∈ s.roleScreens, row.roleId = roleId ∧ (row.screenCode, row.read, row.write) = g

/-- The role `superAdmin` is in place, the protected screens are active, every admin holds
the role and some admin is active. -/
structure Intact (superAdmin : Uuid) (s : Database) : Prop where
  role : ∃ role ∈ s.roles, role.id = superAdmin ∧ role.name = superAdminRoleName ∧
    role.status = .active
  grants : ∀ g ∈ catalog, Granted s superAdmin g
  screens : ∀ code ∈ ScreenService.protectedScreenCodes,
    ∃ screen ∈ s.screens, screen.code = code ∧ screen.status = .active
  assigned : ∀ admin ∈ s.admins, (s.adminRoles.find? (admin.id, superAdmin)).isSome
  active : ∃ admin ∈ s.admins, admin.status = .active

/-- A state the seed scripts leave. -/
def Seeded (s : Database) : Prop := ∃ superAdmin, Intact superAdmin s

theorem Granted.mono {s s' : Database} {roleId : Uuid} {g : String × Bool × Bool}
    (h : Granted s roleId g)
    (hkept : ∀ row ∈ s.roleScreens, row.roleId = roleId → row ∈ s'.roleScreens) :
    Granted s' roleId g := by
  obtain ⟨row, hrow, hrole, hg⟩ := h
  exact ⟨row, hkept row hrow hrole, hrole, hg⟩

theorem Intact.roleByName {superAdmin : Uuid} {s : Database} (h : Intact superAdmin s) :
    ∃ role, s.roleByName superAdminRoleName = some role ∧ role.id = superAdmin ∧
      role.status = .active := by
  obtain ⟨role, hrole, hid, hname, hactive⟩ := h.role
  exact ⟨role, Database.roleByName_eq_some.mpr ⟨hrole, hname⟩, hid, hactive⟩

variable {superAdmin : Uuid} {s : Database}

/-- Every permission is on one of the protected screens, and of the catalog. -/
theorem mem_expandRow_catalog (p : PermissionName) :
    ∃ g ∈ catalog, g.1 ∈ ScreenService.protectedScreenCodes ∧
      p.value ∈ RbacService.expandRow g := by
  cases p <;> decide

/-- In an intact state every admin can do everything. -/
theorem Intact.permissions (h : Intact superAdmin s) {admin : PlatformAdmin}
    (hadmin : admin ∈ s.admins) (p : PermissionName) :
    p.value ∈ RbacService.permissions s admin.id := by
  obtain ⟨g, hg, hcode, hp⟩ := mem_expandRow_catalog p
  obtain ⟨row, hrow, rfl, rfl⟩ := h.grants g hg
  obtain ⟨role, hrole, hid, -, hactive⟩ := h.role
  obtain ⟨screen, hscreen, hscode, hsactive⟩ := h.screens _ hcode
  have hfind : s.roles.find? row.roleId = some role := Table.find?_eq_some.mpr ⟨hrole, hid⟩
  have hbyCode : s.screenByCode row.screenCode = some screen :=
    Database.screenByCode_eq_some.mpr ⟨hscreen, hscode⟩
  refine RbacService.mem_permissions.mpr
    ⟨row, hrow, h.assigned admin hadmin, ?_, ?_, hp⟩
  · simp [hfind, hactive]
  · simp [hbyCode, hsactive]

/-! ## A seeded state -/

def sampleAdmin (n : Nat) (username email : String) : PlatformAdmin where
  id := .ofNat n
  email := email
  username := username
  hashedPassword := ""
  status := .active
  failedLoginAttempts := 0
  lockedUntil := none
  currentRefreshJti := none
  createdAt := 0

def superAdminRole : Role where
  id := .ofNat 10
  name := superAdminRoleName
  description := none
  status := .active
  createdAt := 0

def catalogScreen (n : Nat) (code name : String) : Screen where
  id := .ofNat n
  code := code
  name := name
  sortOrder := n
  status := .active
  createdAt := 0

/-- The catalog and two admins, seeded. -/
def sampleState : Database :=
  { Database.empty with
    admins :=
      ⟨[sampleAdmin 1 "admin1" "admin1@example.com",
        sampleAdmin 2 "admin2" "admin2@example.com"], by decide⟩
    adminRoles :=
      ⟨[{ platformAdminId := .ofNat 1, roleId := .ofNat 10, createdAt := 0 },
        { platformAdminId := .ofNat 2, roleId := .ofNat 10, createdAt := 0 }], by decide⟩
    roles := ⟨[superAdminRole], by decide⟩
    roleScreens :=
      ⟨catalog.map fun g =>
        { roleId := .ofNat 10, screenCode := g.1, read := g.2.1, write := g.2.2
          createdAt := 0 }, by decide⟩
    screens :=
      ⟨[catalogScreen 1 "S1" "User Management", catalogScreen 2 "S2" "Audit Logs",
        catalogScreen 3 "S3" "Role Management", catalogScreen 4 "S4" "Screen Management"],
        by decide⟩ }

/-- The bytes of a password as characters. -/
def passwordChars (password : List UInt8) : List Char :=
  password.map fun b => Char.ofNat b.toNat

/-- A hash that writes the password after its salt stands for bcrypt, and an `ILIKE` that
matches every text for the database's. -/
def sampleEnv : Env where
  settings := {}
  bcrypt :=
    { hashpw := fun password salt => String.ofList (salt.toList ++ '$' :: passwordChars password)
      checkpw := fun password hashed =>
        hashed.toList.dropWhile (· ≠ '$') = '$' :: passwordChars password }
  ilike := fun _ _ => true
  openpyxl := XlsxWriter.bindCell

/-- The `n`-th request, served `n` seconds after the epoch. -/
def sampleRequest (n : Nat) : Request where
  now := Instant.seconds n
  method := "POST"
  path := "/api/v1"
  newId := .ofNat (100 + n)
  intentId := .ofNat (200 + n)
  refreshJti := .ofNat (300 + n)
  accessJti := .ofNat (400 + n)
  salt := "salt"

theorem seeded_sampleState : Seeded sampleState := by
  refine ⟨.ofNat 10, ?_, ?_, ?_, ?_, ?_⟩
  · decide
  · unfold Granted
    decide
  · decide
  · decide
  · decide

end Administration
end AdminPlatform
