import AdminPlatform.Lib.Paging
import AdminPlatform.Services.Export
import AdminPlatform.Services.Role

/-! # The list operations

The `list_*` functions of `app/repositories/`, the services over them, and the endpoints that
resolve the enumerations they filter by. Each counts the rows that match and reads one page of
them, in an order that its `ORDER BY` allows; where rows tie the order is the database's, so
it is a parameter here. -/

namespace AdminPlatform
open AdminPlatform.Lib AdminPlatform.Lib.Paging

/-- Count the rows that match, and read a page of them. -/
def paginated {α : Type} {le : α → α → Prop} (matching : Database → List α) (order : OrderBy le)
    (page limit : Nat) : Db (List α × Nat) := do
  let total ← query fun s => (matching s).length
  let rows ← query fun s => slice page limit (order.pick (matching s))
  return (rows, total)

@[simp] theorem run_paginated {α : Type} {le : α → α → Prop} (matching : Database → List α)
    (order : OrderBy le) (page limit : Nat) (s : Database) :
    (paginated matching order page limit).run s =
      (.ok (slice page limit (order.pick (matching s)), (matching s).length), s) := rfl

/-! ## The conditions -/

/-- `column.ilike(f"%{search}%")` on one of the columns, where a search text is given and not
empty. -/
def searchFilter (env : Env) (search : Option String) (columns : List String) : Bool :=
  match search with
  | some text => text = "" || columns.any (fun column => env.ilike s!"%{text}%" column)
  | none => true

/-- An enumeration that is given requires the column to equal it. -/
def statusFilter (status : Option Status) (column : Status) : Bool :=
  status.all fun status => column = status

namespace AuditRepository

def matching (filters : AuditLogFilter) (s : Database) : List Audit.AuditLog :=
  s.auditLogs.filter filters.matches

/-- `order_by(created_at.desc())`. -/
def listKey (row : Audit.AuditLog) : Datetime := row.createdAt

def listAuditLogs (order : OrderBy (Descending listKey))
    (filters : AuditLogFilter) (page limit : Nat) : Db (List Audit.AuditLog × Nat) :=
  paginated (matching filters) order page limit

end AuditRepository

namespace UserRepository

/-- The filters of `list_users`. A date is given by any time on it. -/
structure Filters where
  search : Option String := none
  status : Option Status := none
  fromDate : Option Datetime := none
  toDate : Option Datetime := none

def matching (env : Env) (filters : Filters) (s : Database) : List PlatformAdmin :=
  s.admins.select fun row =>
    searchFilter env filters.search [row.username, row.email] &&
      statusFilter filters.status row.status &&
      filters.fromDate.all (fun date => date.startOfDay ≤ Instant.datetime row.createdAt) &&
      filters.toDate.all (fun date => Instant.datetime row.createdAt ≤ date.endOfDay)

def listUsers (env : Env) (order : OrderBy (Ascending PlatformAdmin.createdAt))
    (filters : Filters) (page limit : Nat) : Db (List PlatformAdmin × Nat) :=
  paginated (matching env filters) order page limit

end UserRepository

namespace RoleRepository

def matching (env : Env) (search : Option String) (status : Option Status) (s : Database) :
    List Role :=
  s.roles.select fun row => searchFilter env search [row.name] && statusFilter status row.status

def listRoles (env : Env) (order : OrderBy (Ascending Role.createdAt)) (search : Option String)
    (status : Option Status) (page limit : Nat) : Db (List Role × Nat) :=
  paginated (matching env search status) order page limit

end RoleRepository

namespace ScreenRepository

def matching (env : Env) (search : Option String) (status : Option Status) (s : Database) :
    List Screen :=
  s.screens.select fun row =>
    searchFilter env search [row.name, row.code] && statusFilter status row.status

/-- `order_by(sort_order, created_at)`. -/
def listKey (screen : Screen) : Nat ×ₗ Nat := toLex (screen.sortOrder, screen.createdAt)

def listScreens (env : Env) (order : OrderBy (Ascending listKey)) (search : Option String)
    (status : Option Status) (page limit : Nat) : Db (List Screen × Nat) :=
  paginated (matching env search status) order page limit

end ScreenRepository

/-! ## The permissions of listed roles -/

/-- A `(code, sort_order, read, write)` row. -/
abbrev PermissionRow := String × Nat × Bool × Bool

namespace RoleRepository

/-- `order_by(sort_order, code)` of the batched join. -/
def batchKey (row : Uuid × PermissionRow) : Nat ×ₗ String := toLex (row.2.2.1, row.2.1)

/-- The rows of the given roles on active screens. -/
def batchRows (roleIds : List Uuid) (s : Database) : List (Uuid × PermissionRow) :=
  (s.roleScreens.select fun row => row.roleId ∈ roleIds).filterMap fun row =>
    ((s.screenByCode row.screenCode).filter fun screen => screen.status = .active).map
      fun screen => (row.roleId, screen.code, screen.sortOrder, row.read, row.write)

/-- `mapping[role_id].append(row)`. -/
def appendRow (mapping : List (Uuid × List PermissionRow)) (row : Uuid × PermissionRow) :
    List (Uuid × List PermissionRow) :=
  mapping.map fun entry => (entry.1, if entry.1 = row.1 then entry.2 ++ [row.2] else entry.2)

/-- A per-role mapping of `(code, sort_order, read, write)` rows for active screens. -/
def permissionsForRoles (order : OrderBy (Ascending batchKey)) (roleIds : List Uuid) :
    Db (List (Uuid × List PermissionRow)) :=
  if roleIds = [] then return []
  else do
    let rows ← query fun s => order.pick (batchRows roleIds s)
    return rows.foldl appendRow (roleIds.map fun roleId => (roleId, []))

end RoleRepository

namespace RoleService

/-- `get_role`. -/
def fetchRole (roleId : Uuid) : Db RoleRead := do
  let role ← getRole roleId
  readRole role

def listRoles (env : Env) (order : OrderBy (Ascending Role.createdAt))
    (batchOrder : OrderBy (Ascending RoleRepository.batchKey)) (search : Option String)
    (status : Option Status) (page limit : Nat) : Db (List RoleRead × Nat) := do
  let (roles, total) ← RoleRepository.listRoles env order search status page limit
  let permissionMap ← RoleRepository.permissionsForRoles batchOrder (roles.map Role.id)
  return (roles.map fun role => toRead role ((permissionMap.lookup role.id).getD []), total)

end RoleService

/-! ## The endpoints

The members of a filter enumeration are those of its base enumeration, under the same values,
and `All`. -/

/-- `resolve_filter`: the member of the base enumeration with the value of the filter, none
for `All`. -/
def resolveFilter {α : Type} (members : List α) (value : α → String) (filter : Option α) :
    Option α :=
  filter.bind fun a => members.find? fun b => value b = value a

/-- The filter of `GET /audit-logs` with these parameters. -/
def resolveAuditFilters (params : AuditExportFilters) (fromDate toDate : Option Datetime) :
    AuditLogFilter where
  actor := params.actor
  action :=
    (resolveFilter ExportService.auditActions AuditAction.value params.action).map
      AuditAction.value
  resourceType :=
    (resolveFilter ExportService.auditResourceTypes AuditResourceType.value
      params.resourceType).map AuditResourceType.value
  actorType :=
    (resolveFilter ExportService.actorTypes ActorType.value params.actorType).map ActorType.value
  fromDate := fromDate
  toDate := toDate

/-- `GET /audit-logs`, up to the recording of the read. -/
def listAuditLogsEndpoint (order : OrderBy (Descending AuditRepository.listKey))
    (params : AuditExportFilters) (fromDate toDate : Option Datetime) (page limit : Nat) :
    Db (List Audit.AuditLog × Nat) :=
  AuditRepository.listAuditLogs order (resolveAuditFilters params fromDate toDate) page limit

/-- The filters of `GET /users` with these parameters. -/
def resolveUserFilters (params : UsersExportFilters) (fromDate toDate : Option Datetime) :
    UserRepository.Filters where
  search := params.search
  status := resolveFilter ExportService.statuses Status.value params.status
  fromDate := fromDate
  toDate := toDate

/-- `GET /users`. -/
def listUsersEndpoint (env : Env) (order : OrderBy (Ascending PlatformAdmin.createdAt))
    (params : UsersExportFilters) (fromDate toDate : Option Datetime) (page limit : Nat) :
    Db (List PlatformAdmin × Nat) :=
  UserRepository.listUsers env order (resolveUserFilters params fromDate toDate) page limit

end AdminPlatform
