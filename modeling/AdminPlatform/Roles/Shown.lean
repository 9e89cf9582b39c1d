import AdminPlatform.Roles.Expansion

/-! # What the roles show is what is enforced

Three queries read the permissions of roles: one for an admin, over all their active roles at
once, one for a role, and one for the roles of a page of the list. An admin has what their
active roles show, and a role shows the same on the list as by itself (`shown_is_enforced`). -/

namespace AdminPlatform.RoleService
open AdminPlatform.Lib AdminPlatform.Lib.Paging
variable {s : Database}

/-! ## One role -/

theorem run_fetchRole {role : Role} {roleId : Uuid} (h : s.roles.find? roleId = some role) :
    (fetchRole roleId).run s =
      (.ok (toRead role (RoleRepository.permissionRows s roleId)), s) := by
  obtain rfl : role.id = roleId := (Table.find?_eq_some.mp h).2
  have hget : (getRole role.id).run s = (.ok role, s) := by
    rw [getRole, RoleRepository.getRole, Db.run_query_bind, h]
    rfl
  rw [fetchRole, Db.run_bind_ok _ hget]
  rfl

theorem run_fetchRole_inv {roleId : Uuid} {read : RoleRead} {s' : Database}
    (h : (fetchRole roleId).run s = (.ok read, s')) :
    ∃ role, s.roles.find? roleId = some role ∧
      read = toRead role (RoleRepository.permissionRows s roleId) := by
  cases hfind : s.roles.find? roleId with
  | none =>
      have hget : (getRole roleId).run s = (.error (.app .roleNotFound), s) := by
        rw [getRole, RoleRepository.getRole, Db.run_query_bind, hfind]
        rfl
      rw [fetchRole, Db.run_bind_error _ hget] at h
      cases h
  | some role =>
      rw [run_fetchRole hfind] at h
      exact ⟨role, rfl, (Except.ok.inj (Prod.mk.inj h).1).symm⟩

/-- What a role shows: what its permissions on active screens expand to. -/
theorem mem_shown {roleId : Uuid} {p : String} :
    p ∈ expandPermissions (RoleRepository.permissionRows s roleId) ↔
      ∃ row ∈ s.roleScreens, row.roleId = roleId ∧
        (s.screenByCode row.screenCode).any (fun screen => screen.status = .active) ∧
        p ∈ RbacService.expandRow (row.screenCode, row.read, row.write) := by
  simp only [mem_expandPermissions, RoleRepository.mem_permissionRows]
  constructor
  · rintro ⟨_, ⟨screen, hscreen, hactive, grant, hgrant, rfl⟩, hp⟩
    obtain ⟨hrow, hkey⟩ := Table.find?_eq_some.mp hgrant
    obtain ⟨rfl, hcode⟩ := Prod.mk.inj hkey
    have hbyCode := Database.screenByCode_eq_some.mpr ⟨hscreen, hcode.symm⟩
    refine ⟨grant, hrow, rfl, ?_, hcode ▸ hp⟩
    simp [hbyCode, hactive]
  · rintro ⟨row, hrow, rfl, hscreen, hp⟩
    obtain ⟨screen, hbyCode, hactive⟩ := (Option.any_eq_true _ _).mp hscreen
    obtain ⟨hmem, hcode⟩ := Database.screenByCode_eq_some.mp hbyCode
    refine ⟨_, ⟨screen, hmem, of_decide_eq_true hactive, row, ?_, rfl⟩, hcode ▸ hp⟩
    exact Table.find?_eq_some.mpr ⟨hrow, by rw [hcode]; rfl⟩

/-! ## The roles of a page -/

theorem lookup_appendRow (mapping : List (Uuid × List PermissionRow))
    (row : Uuid × PermissionRow) (roleId : Uuid) :
    (RoleRepository.appendRow mapping row).lookup roleId =
      (mapping.lookup roleId).map fun rows =>
        if roleId = row.1 then rows ++ [row.2] else rows := by
  unfold RoleRepository.appendRow
  induction mapping with
  | nil => rfl
  | cons entry mapping ih =>
      obtain ⟨id, given⟩ := entry
      rw [List.map_cons, List.lookup_cons, List.lookup_cons]
      by_cases h : roleId = id
      · subst h
        simp
      · rw [beq_false_of_ne h]
        exact ih

/-- The rows of a role in the mapping of a page: those of the batch that are its. -/
theorem lookup_foldl_appendRow (rows : List (Uuid × PermissionRow))
    (mapping : List (Uuid × List PermissionRow)) (roleId : Uuid) :
    (rows.foldl RoleRepository.appendRow mapping).lookup roleId =
      (mapping.lookup roleId).map (· ++ (rows.filter fun row => row.1 = roleId).map Prod.snd) := by
  induction rows generalizing mapping with
  | nil => simp
  | cons row rows ih =>
      rw [List.foldl_cons, ih, lookup_appendRow, Option.map_map]
      refine congrFun (congrArg Option.map (funext fun given => ?_)) _
      by_cases h : roleId = row.1
      · simp [h]
      · simp [h, Ne.symm h]

theorem mem_batchRows {roleIds : List Uuid} {row : Uuid × PermissionRow} :
    row ∈ RoleRepository.batchRows roleIds s ↔
      ∃ grant ∈ s.roleScreens, grant.roleId ∈ roleIds ∧
        ∃ screen ∈ s.screens, screen.code = grant.screenCode ∧ screen.status = .active ∧
          row = (grant.roleId, screen.code, screen.sortOrder, grant.read, grant.write) := by
  simp only [RoleRepository.batchRows, List.mem_filterMap, Table.mem_select, decide_eq_true_eq,
    Option.map_eq_some_iff, Option.filter_eq_some_iff, Database.screenByCode_eq_some]
  constructor
  · rintro ⟨grant, ⟨hgrant, hrole⟩, screen, ⟨⟨hscreen, hcode⟩, hactive⟩, rfl⟩
    exact ⟨grant, hgrant, hrole, screen, hscreen, hcode, hactive, rfl⟩
  · rintro ⟨grant, hgrant, hrole, screen, hscreen, hcode, hactive, rfl⟩
    exact ⟨grant, ⟨hgrant, hrole⟩, screen, ⟨⟨hscreen, hcode⟩, hactive⟩, rfl⟩

theorem nodup_batchRows (roleIds : List Uuid) : (RoleRepository.batchRows roleIds s).Nodup := by
  refine List.Pairwise.filterMap _ ?_ (s.roleScreens.unique.filter _)
  rintro a b hclash row hrow _ hrow' rfl
  simp only [Option.map_eq_some_iff, Option.filter_eq_some_iff,
    Database.screenByCode_eq_some] at hrow hrow'
  obtain ⟨screen, ⟨⟨-, hcode⟩, -⟩, rfl⟩ := hrow
  obtain ⟨screen', ⟨⟨-, hcode'⟩, -⟩, hsame⟩ := hrow'
  obtain ⟨hrole, hsame⟩ := Prod.mk.inj hsame
  refine hclash (Prod.ext hrole.symm ?_)
  rw [← hcode, ← hcode']
  exact (Prod.mk.inj hsame).1.symm

/-- **The batch has the rows of each role**, in some order. -/
theorem batchRows_perm {roleIds : List Uuid} {roleId : Uuid} (h : roleId ∈ roleIds) :
    (((RoleRepository.batchRows roleIds s).filter fun row => row.1 = roleId).map Prod.snd).Perm
      (RoleRepository.permissionRows s roleId) := by
  have hbatch : (((RoleRepository.batchRows roleIds s).filter fun row =>
      row.1 = roleId).map Prod.snd).Nodup := by
    refine ((nodup_batchRows roleIds).filter _).map_on fun x hx y hy hxy => Prod.ext ?_ hxy
    rw [of_decide_eq_true (List.mem_filter.mp hx).2, of_decide_eq_true (List.mem_filter.mp hy).2]
  -- neither query repeats a row, so it is enough that they have the same ones
  refine (List.perm_ext_iff_of_nodup hbatch RoleRepository.nodup_permissionRows.of_map).mpr
    fun row => ?_
  simp only [List.mem_map, List.mem_filter, mem_batchRows, decide_eq_true_eq,
    RoleRepository.mem_permissionRows]
  constructor
  · rintro ⟨_, ⟨⟨grant, hgrant, -, screen, hscreen, hcode, hactive, rfl⟩, hrole⟩, rfl⟩
    obtain rfl : grant.roleId = roleId := hrole
    exact ⟨screen, hscreen, hactive, grant,
      Table.find?_eq_some.mpr ⟨hgrant, by rw [hcode]; rfl⟩, rfl⟩
  · rintro ⟨screen, hscreen, hactive, grant, hfind, rfl⟩
    obtain ⟨hgrant, hkey⟩ := Table.find?_eq_some.mp hfind
    obtain ⟨rfl, hcode⟩ := Prod.mk.inj hkey
    exact ⟨_, ⟨⟨grant, hgrant, h, screen, hscreen, hcode.symm, hactive, rfl⟩, rfl⟩, rfl⟩

/-- The mapping starts with no rows for each role. -/
theorem lookup_start {roleIds : List Uuid} {roleId : Uuid} (h : roleId ∈ roleIds) :
    (roleIds.map fun id => (id, ([] : List PermissionRow))).lookup roleId = some [] := by
  induction roleIds with
  | nil => cases h
  | cons id roleIds ih =>
      rw [List.map_cons, List.lookup_cons]
      by_cases hid : roleId = id
      · subst hid
        simp
      · rw [beq_false_of_ne hid]
        exact ih ((List.mem_cons.mp h).resolve_left hid)

/-- **A role shows the same on the list**: for the roles of a page, the batched rows expand to
what the rows of the role expand to. -/
theorem run_permissionsForRoles (order : OrderBy (Ascending RoleRepository.batchKey))
    (roleIds : List Uuid) (s : Database) :
    ∃ mapping, (RoleRepository.permissionsForRoles order roleIds).run s = (.ok mapping, s) ∧
      ∀ roleId ∈ roleIds, expandPermissions ((mapping.lookup roleId).getD []) =
        expandPermissions (RoleRepository.permissionRows s roleId) := by
  unfold RoleRepository.permissionsForRoles
  split
  · rename_i hnil
    exact ⟨[], rfl, by simp [hnil]⟩
  · refine ⟨_, rfl, fun roleId hroleId => ?_⟩
    rw [lookup_foldl_appendRow, lookup_start hroleId]
    exact expandPermissions_perm ((((order.perm _).filter _).map _).trans (batchRows_perm hroleId))

/-- **A page of the list** shows its roles, each as it is shown by itself. -/
theorem run_listRoles (env : Env) (order : OrderBy (Ascending Role.createdAt))
    (batchOrder : OrderBy (Ascending RoleRepository.batchKey)) (search : Option String)
    (status : Option Status) (page limit : Nat) (s : Database) :
    ∃ reads total,
      (listRoles env order batchOrder search status page limit).run s = (.ok (reads, total), s) ∧
        reads.map RoleRead.id =
          (slice page limit (order.pick (RoleRepository.matching env search status s))).map
            Role.id ∧
        ∀ read ∈ reads, (fetchRole read.id).run s = (.ok read, s) := by
  obtain ⟨mapping, hmapping, hshown⟩ := run_permissionsForRoles batchOrder
    ((slice page limit (order.pick (RoleRepository.matching env search status s))).map Role.id) s
  refine ⟨(slice page limit (order.pick (RoleRepository.matching env search status s))).map
    fun role => toRead role ((mapping.lookup role.id).getD []),
    (RoleRepository.matching env search status s).length, ?_, by rw [List.map_map]; rfl, ?_⟩
  · have hlist : (RoleRepository.listRoles env order search status page limit).run s =
        (.ok (slice page limit (order.pick (RoleRepository.matching env search status s)),
          (RoleRepository.matching env search status s).length), s) := run_paginated ..
    rw [listRoles, Db.run_bind_ok _ hlist, Db.run_bind_ok _ hmapping]
    rfl
  · intro read hread
    obtain ⟨role, hrole, rfl⟩ := List.mem_map.mp hread
    have hmem : role ∈ s.roles := by
      have hpicked := List.mem_of_mem_drop (List.mem_of_mem_take hrole)
      exact (Table.mem_select.mp ((order.perm _).mem_iff.mp hpicked)).1
    have hfind : s.roles.find? role.id = some role := Table.find?_eq_some.mpr ⟨hmem, rfl⟩
    show (fetchRole role.id).run s = _
    rw [run_fetchRole hfind, toRead, toRead, hshown role.id (List.mem_map_of_mem hrole)]

/-- **What the roles show is what is enforced.** The effective permissions of an admin are
those that their active roles show, and on every page of the list, whatever it is filtered by,
a role is shown as it is shown by itself. -/
theorem shown_is_enforced (env : Env) (s : Database) :
    (∀ adminId p, p ∈ RbacService.permissions s adminId ↔
      ∃ roleId, (s.adminRoles.find? (adminId, roleId)).isSome ∧
        ∃ read, (fetchRole roleId).run s = (.ok read, s) ∧ read.status = .active ∧
          p ∈ read.permissions) ∧
    ∀ order batchOrder search status page limit, ∃ reads total,
      (listRoles env order batchOrder search status page limit).run s = (.ok (reads, total), s) ∧
        reads.map RoleRead.id =
          (slice page limit (order.pick (RoleRepository.matching env search status s))).map
            Role.id ∧
        ∀ read ∈ reads, (fetchRole read.id).run s = (.ok read, s) := by
  refine ⟨fun adminId p => ?_, fun order batchOrder search status page limit => ?_⟩
  · rw [RbacService.mem_permissions]
    constructor
    · rintro ⟨row, hrow, hassigned, hrole, hscreen, hp⟩
      obtain ⟨role, hfind, hactive⟩ := (Option.any_eq_true _ _).mp hrole
      exact ⟨row.roleId, hassigned, _, run_fetchRole hfind, of_decide_eq_true hactive,
        mem_shown.mpr ⟨row, hrow, rfl, hscreen, hp⟩⟩
    · rintro ⟨roleId, hassigned, read, hread, hactive, hp⟩
      obtain ⟨role, hfind, rfl⟩ := run_fetchRole_inv hread
      obtain ⟨row, hrow, rfl, hscreen, hp⟩ := mem_shown.mp hp
      refine ⟨row, hrow, hassigned, ?_, hscreen, hp⟩
      exact (Option.any_eq_true _ _).mpr ⟨role, hfind, decide_eq_true hactive⟩
  · exact run_listRoles env order batchOrder search status page limit s

end AdminPlatform.RoleService
