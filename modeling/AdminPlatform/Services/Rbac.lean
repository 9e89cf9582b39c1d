import AdminPlatform.Repositories

/-! # Effective permissions

`app/services/rbac_service.py`: the permissions and the role names of a Platform Admin.
They are sets; the lists here carry no order and no repetition. -/

namespace AdminPlatform
open AdminPlatform.Lib

namespace RbacService

/-- The permission strings of a row: write implies read. -/
def expandRow : String × Bool × Bool → List String
  | (code, read, write) =>
      (if read || write then [code ++ ".R"] else []) ++ (if write then [code ++ ".W"] else [])

def expand (rows : List (String × Bool × Bool)) : List String := (rows.flatMap expandRow).dedup

/-- What `permissions_for_admin` answers. -/
def permissions (s : Database) (adminId : Uuid) : List String :=
  expand (RbacRepository.screenPermissions s adminId)

def permissionsForAdmin (adminId : Uuid) : Db (List String) := do
  let rows ← RbacRepository.screenPermissionsForAdmin adminId
  return expand rows

/-- What `roles_for_admin` answers. -/
def roles (s : Database) (adminId : Uuid) : List String :=
  (RbacRepository.roleNames s adminId).dedup

def rolesForAdmin (adminId : Uuid) : Db (List String) := do
  let names ← RbacRepository.roleNamesForAdmin adminId
  return names.dedup

/-- `sorted` of a set of strings. -/
def sorted (names : List String) : List String := names.insertionSort (· ≤ ·)

@[simp] theorem run_permissionsForAdmin (adminId : Uuid) (s : Database) :
    (permissionsForAdmin adminId).run s = (.ok (permissions s adminId), s) := rfl

@[simp] theorem run_permissionsForAdmin_bind {α : Type} (adminId : Uuid)
    (f : List String → Db α) (s : Database) :
    (permissionsForAdmin adminId >>= f).run s = (f (permissions s adminId)).run s := rfl

/-- A permission string comes from a row that grants it. -/
theorem mem_expand {rows : List (String × Bool × Bool)} {p : String} :
    p ∈ expand rows ↔ ∃ row ∈ rows, p ∈ expandRow row := by
  simp [expand]

/-- **Who has a permission on a screen.** An admin holds what a row of an active role of
theirs, on an active screen, expands to. -/
theorem mem_permissions {s : Database} {adminId : Uuid} {p : String} :
    p ∈ permissions s adminId ↔
      ∃ row ∈ s.roleScreens, (s.adminRoles.find? (adminId, row.roleId)).isSome ∧
        (s.roles.find? row.roleId).any (fun role => role.status = .active) ∧
        (s.screenByCode row.screenCode).any (fun screen => screen.status = .active) ∧
        p ∈ expandRow (row.screenCode, row.read, row.write) := by
  simp only [permissions, mem_expand, RbacRepository.screenPermissions, List.mem_map,
    Table.mem_select, decide_eq_true_eq]
  constructor
  · rintro ⟨_, ⟨row, ⟨hrow, hassigned, hrole, hscreen⟩, rfl⟩, hp⟩
    exact ⟨row, hrow, hassigned, hrole, hscreen, hp⟩
  · rintro ⟨row, hrow, hassigned, hrole, hscreen, hp⟩
    exact ⟨_, ⟨row, ⟨hrow, hassigned, hrole, hscreen⟩, rfl⟩, hp⟩

end RbacService
end AdminPlatform
