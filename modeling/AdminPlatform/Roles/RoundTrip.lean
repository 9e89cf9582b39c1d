import AdminPlatform.Access.Seeded
import AdminPlatform.Roles.Grants

/-! # The permissions of a role, there and back

A role is created or updated with permission strings, and read again. It shows what the
strings say, with a read for every write, once each and in an order that depends on the
screens only; its stored grants are one row for each screen named, and no other role's grants
change. Strings that name a screen that is not active are refused, and nothing changes
(`permission_round_trip`). -/

namespace AdminPlatform.RoleService
open AdminPlatform.Lib AdminPlatform.Lib.Paging

/-! ## Requests with permissions -/

/-- The request gives these permissions. -/
def Op.Gives (given : List PermissionStr) : Op → Prop
  | .create data => data.permissions = given.map PermissionStr.value
  | .update _ data => data.permissions = some (given.map PermissionStr.value)
  | .delete _ => False

/-- The role the request is about. -/
def Op.target (req : Request) : Op → Uuid
  | .create _ => req.newId
  | .update roleId _ => roleId
  | .delete roleId => roleId

/-- An update is one of a role other than super_admin, and the name a request gives is not
that of another role. -/
def Op.Applies (s : Database) : Op → Prop
  | .create data => s.roleByName data.name = none
  | .update roleId data =>
      ∃ role, s.roles.find? roleId = some role ∧ role.name ≠ superAdminRoleName ∧
        ∀ name ∈ data.name, ∀ existing, s.roleByName name = some existing → existing.id = roleId
  | .delete _ => False

/-- The id a new role gets is not in use. -/
def Op.Fresh (req : Request) (s : Database) : Op → Prop
  | .create _ => s.roles.find? req.newId = none ∧ ∀ row ∈ s.roleScreens, row.roleId ≠ req.newId
  | _ => True

/-- What is left by a request that gives these permissions to a role. -/
structure Regranted (req : Request) (roleId : Uuid) (given : List String) (s s' : Database) :
    Prop where
  /-- The role shows what the strings say. -/
  shown : ∃ read, (fetchRole roleId).run s' = (.ok read, s') ∧ read.permissions.Nodup ∧
    ∀ p, p ∈ read.permissions ↔
      ∃ code, (p = code ++ ".R" ∧ Names given code) ∨ (p = code ++ ".W" ∧ code ++ ".W" ∈ given)
  /-- It has one row for every screen code they name. -/
  stored : ∀ row, (row ∈ s'.roleScreens ∧ row.roleId = roleId) ↔
    ∃ code, Names given code ∧ row = grantRow req roleId given code
  others : ∀ row : RoleScreen, row.roleId ≠ roleId → (row ∈ s'.roleScreens ↔ row ∈ s.roleScreens)

/-! ## What is shown -/

section Shown
variable {req : Request} {roleId : Uuid} {given : List String} {s s' : Database}

/-- The rows of a role that was given these permissions. -/
def grantedRows (s : Database) (given : List String) : List PermissionRow :=
  ((s.screens.select fun screen => screen.status = .active).filterMap fun screen =>
    if Names given screen.code then
      some (screen.code, screen.sortOrder, true, decide (screen.code ++ ".W" ∈ given))
    else none).insertionSort
    fun a b => toLex (a.2.1, a.1) ≤ toLex (b.2.1, b.1)

/-- They depend on the set of the strings only. -/
theorem grantedRows_congr {given' : List String} (h : ∀ p, p ∈ given' ↔ p ∈ given) :
    grantedRows s given' = grantedRows s given := by
  simp only [grantedRows, Names, h]

theorem permissionRows_eq_grantedRows (hscreens : s'.screens = s.screens)
    (hstored : ∀ row, (row ∈ s'.roleScreens ∧ row.roleId = roleId) ↔
      ∃ code, Names given code ∧ row = grantRow req roleId given code) :
    RoleRepository.permissionRows s' roleId = grantedRows s given := by
  have hfind : ∀ code, s'.roleScreens.find? (roleId, code) =
      if Names given code then some (grantRow req roleId given code) else none := by
    intro code
    refine Option.ext fun row => ?_
    rw [Table.find?_eq_some]
    constructor
    · rintro ⟨hrow, hkey⟩
      obtain ⟨hrole, hcode⟩ := Prod.mk.inj hkey
      obtain ⟨code', hnamed, rfl⟩ := (hstored row).mp ⟨hrow, hrole⟩
      obtain rfl : code' = code := hcode
      rw [if_pos hnamed]
    · intro hrow
      split at hrow
      · rename_i hnamed
        obtain rfl := Option.some.inj hrow
        exact ⟨((hstored _).mpr ⟨code, hnamed, rfl⟩).1, rfl⟩
      · cases hrow
  unfold RoleRepository.permissionRows grantedRows
  rw [hscreens]
  refine congrArg (List.insertionSort _) (List.filterMap_congr fun screen _ => ?_)
  rw [hfind]
  split <;> rfl

theorem mem_grantedRows {row : PermissionRow} :
    row ∈ grantedRows s given ↔ ∃ screen ∈ s.screens, screen.status = .active ∧
      Names given screen.code ∧
      row = (screen.code, screen.sortOrder, true, decide (screen.code ++ ".W" ∈ given)) := by
  simp only [grantedRows, List.mem_insertionSort, List.mem_filterMap, Table.mem_select,
    decide_eq_true_eq]
  constructor
  · rintro ⟨screen, ⟨hscreen, hactive⟩, hrow⟩
    split at hrow
    · rename_i hnamed
      exact ⟨screen, hscreen, hactive, hnamed, (Option.some.inj hrow).symm⟩
    · cases hrow
  · rintro ⟨screen, hscreen, hactive, hnamed, rfl⟩
    exact ⟨screen, ⟨hscreen, hactive⟩, if_pos hnamed⟩

/-- **What the rows show** is what the strings say, where they name active screens. -/
theorem mem_expand_grantedRows
    (hactive : ∀ code, Names given code → code ∈ ScreenRepository.activeCodes s) {p : String} :
    p ∈ expandPermissions (grantedRows s given) ↔
      ∃ code, (p = code ++ ".R" ∧ Names given code) ∨
        (p = code ++ ".W" ∧ code ++ ".W" ∈ given) := by
  simp only [mem_expandPermissions, mem_grantedRows]
  constructor
  · rintro ⟨_, ⟨screen, -, -, hnamed, rfl⟩, hp⟩
    rcases expandRow_eq.mp hp with rfl | ⟨hwrite, rfl⟩
    · exact ⟨screen.code, .inl ⟨rfl, hnamed⟩⟩
    · exact ⟨screen.code, .inr ⟨rfl, of_decide_eq_true hwrite⟩⟩
  · rintro ⟨code, hp⟩
    have hnamed : Names given code := by
      rcases hp with ⟨-, hnamed⟩ | ⟨-, hwrite⟩
      · exact hnamed
      · exact .inr hwrite
    obtain ⟨screen, hscreen, rfl⟩ := List.mem_map.mp (hactive code hnamed)
    obtain ⟨hmem, hstatus⟩ := Table.mem_select.mp hscreen
    refine ⟨_, ⟨screen, hmem, of_decide_eq_true hstatus, hnamed, rfl⟩, expandRow_eq.mpr ?_⟩
    rcases hp with ⟨rfl, -⟩ | ⟨rfl, hwrite⟩
    · exact .inl rfl
    · exact .inr ⟨decide_eq_true hwrite, rfl⟩

/-- **What a request leaves** that replaces the rows of a role. -/
theorem regranted_of_replaced {role : Role} (hrole : s'.roles.find? roleId = some role)
    (hscreens : s'.screens = s.screens)
    (hactive : ∀ code, Names given code → code ∈ ScreenRepository.activeCodes s)
    (hmem : ∀ x, x ∈ s'.roleScreens ↔ (x ∈ s.roleScreens ∧ x.roleId ≠ roleId) ∨
      ∃ code, Names given code ∧ x = grantRow req roleId given code) :
    Regranted req roleId given s s' := by
  have hstored : ∀ row, (row ∈ s'.roleScreens ∧ row.roleId = roleId) ↔
      ∃ code, Names given code ∧ row = grantRow req roleId given code := by
    intro row
    rw [hmem]
    constructor
    · rintro ⟨⟨-, hother⟩ | hgrant, hrole⟩
      · exact absurd hrole hother
      · exact hgrant
    · rintro ⟨code, hnamed, rfl⟩
      exact ⟨.inr ⟨code, hnamed, rfl⟩, rfl⟩
  refine { shown := ?_, stored := hstored, others := fun row hrow => ?_ }
  · refine ⟨_, run_fetchRole hrole, ?_, fun p => ?_⟩
    · exact nodup_expandPermissions RoleRepository.nodup_permissionRows
    · show p ∈ expandPermissions (RoleRepository.permissionRows s' roleId) ↔ _
      rw [permissionRows_eq_grantedRows hscreens hstored]
      exact mem_expand_grantedRows hactive
  · rw [hmem]
    constructor
    · rintro (⟨hold, -⟩ | ⟨code, -, rfl⟩)
      · exact hold
      · exact absurd rfl hrow
    · exact fun hold => .inl ⟨hold, hrow⟩

end Shown

/-! ## There and back -/

section RoundTrip
variable {req : Request} {op : Op} {given : List PermissionStr} {s : Database}

theorem isPermission_of_mem {p : String} (h : p ∈ given.map PermissionStr.value) :
    IsPermission p := by
  obtain ⟨q, -, rfl⟩ := List.mem_map.mp h
  exact q.isPermission

/-- **Permissions on active screens are granted**, and the screens stay. -/
theorem run_perform_granted (hgives : op.Gives given) (happlies : op.Applies s)
    (hfresh : op.Fresh req s)
    (hactive : ∀ code, Names (given.map PermissionStr.value) code →
      code ∈ ScreenRepository.activeCodes s) :
    ∃ s', (op.perform req).run s = (.ok (), s') ∧ s'.screens = s.screens ∧
      Regranted req (op.target req) (given.map PermissionStr.value) s s' := by
  cases op with
  | create data =>
      obtain ⟨hnew, hfree⟩ := hfresh
      obtain ⟨read, roles, outbox, roleScreens, hrun, hinsert, hmem⟩ :=
        run_createRole_granted happlies hfree hnew hgives (fun _ => isPermission_of_mem) hactive
      have hrole : roles.find? req.newId = some (newRole req data) := by
        simp [Table.find?_insert hinsert, newRole]
      refine ⟨_, Db.run_bind_ok _ hrun, rfl, regranted_of_replaced hrole rfl hactive fun x => ?_⟩
      rw [hmem]
      constructor
      · rintro (hold | hgrant)
        · exact .inl ⟨hold, hfree x hold⟩
        · exact .inr hgrant
      · rintro (⟨hold, -⟩ | hgrant)
        · exact .inl hold
        · exact .inr hgrant
  | update roleId data =>
      obtain ⟨role, hfind, hname, hfree⟩ := happlies
      obtain ⟨read, roles, outbox, roleScreens, hrun, hflush, hmem⟩ :=
        run_updateRole_granted hfind hname hfree hgives (fun _ => isPermission_of_mem) hactive
      obtain rfl : role.id = roleId := (Table.find?_eq_some.mp hfind).2
      have hrole : roles.find? role.id = some (assignUpdate data role) := by
        simpa using Table.find?_flush_loaded hflush hfind rfl role.id
      exact ⟨_, Db.run_bind_ok _ hrun, rfl, regranted_of_replaced hrole rfl hactive hmem⟩
  | delete roleId => exact absurd hgives id

/-- **Permissions on a screen that is not active are refused**, and nothing changes. -/
theorem run_perform_inactive (hgives : op.Gives given) (happlies : op.Applies s)
    {code : String} (hnamed : Names (given.map PermissionStr.value) code)
    (hinactive : code ∉ ScreenRepository.activeCodes s) :
    ∃ fields, (op.perform req).run s = (.error (.app (.validation fields)), s) := by
  cases op with
  | create data =>
      obtain ⟨fields, hrun⟩ :=
        run_createRole_inactive happlies hgives (fun _ => isPermission_of_mem) hnamed hinactive
      exact ⟨fields, Db.run_bind_error _ hrun⟩
  | update roleId data =>
      obtain ⟨role, hfind, hname, hfree⟩ := happlies
      obtain ⟨fields, hrun⟩ := run_updateRole_inactive hfind hname hfree hgives
        (fun _ => isPermission_of_mem) hnamed hinactive
      exact ⟨fields, Db.run_bind_error _ hrun⟩
  | delete roleId => exact absurd hgives id

/-- **The permission round trip.** A request that creates a role, or updates one other than
super_admin, with permissions in the format of permission strings and under a name that is not
taken: where all screens named are active it succeeds, the role shows what the strings say, has
one row for each screen named, and the rows of other roles stay; another request that gives
the same strings, in any order and as often as it likes, leaves a role that shows the same
list. Where a screen named is not active the request is refused with a validation error, and
nothing changes. -/
theorem permission_round_trip (hgives : op.Gives given) (happlies : op.Applies s)
    (hfresh : op.Fresh req s) :
    ((∀ code, Names (given.map PermissionStr.value) code →
        code ∈ ScreenRepository.activeCodes s) →
      ∃ s', (op.perform req).run s = (.ok (), s') ∧
        Regranted req (op.target req) (given.map PermissionStr.value) s s' ∧
        ∀ (req' : Request) (op' : Op) (given' : List PermissionStr),
          op'.Gives given' → op'.Applies s → op'.Fresh req' s →
          (∀ p, p ∈ given'.map PermissionStr.value ↔ p ∈ given.map PermissionStr.value) →
          ∃ s'' read read', (op'.perform req').run s = (.ok (), s'') ∧
            (fetchRole (op.target req)).run s' = (.ok read, s') ∧
            (fetchRole (op'.target req')).run s'' = (.ok read', s'') ∧
            read'.permissions = read.permissions) ∧
    ((∃ code, Names (given.map PermissionStr.value) code ∧
        code ∉ ScreenRepository.activeCodes s) →
      ∃ fields, (op.perform req).run s = (.error (.app (.validation fields)), s)) := by
  constructor
  · intro hactive
    obtain ⟨s', hrun, hscreens, hgranted⟩ := run_perform_granted hgives happlies hfresh hactive
    refine ⟨s', hrun, hgranted, fun req' op' given' hgives' happlies' hfresh' hsame => ?_⟩
    have hactive' : ∀ code, Names (given'.map PermissionStr.value) code →
        code ∈ ScreenRepository.activeCodes s := by
      intro code hnamed
      refine hactive code ?_
      rwa [Names, hsame, hsame] at hnamed
    obtain ⟨s'', hrun', hscreens', hgranted'⟩ :=
      run_perform_granted hgives' happlies' hfresh' hactive'
    obtain ⟨read, hread, -⟩ := hgranted.shown
    obtain ⟨read', hread', -⟩ := hgranted'.shown
    refine ⟨s'', read, read', hrun', hread, hread', ?_⟩
    obtain ⟨_, -, rfl⟩ := run_fetchRole_inv hread
    obtain ⟨_, -, rfl⟩ := run_fetchRole_inv hread'
    show expandPermissions _ = expandPermissions _
    rw [permissionRows_eq_grantedRows hscreens hgranted.stored,
      permissionRows_eq_grantedRows hscreens' hgranted'.stored, grantedRows_congr hsame]
  · rintro ⟨code, hnamed, hinactive⟩
    exact run_perform_inactive hgives happlies hnamed hinactive

end RoundTrip

open Administration (sampleRequest sampleState)

/-- Strings given twice, and a write given with its read. -/
def samplePermissions : List PermissionStr :=
  [⟨"S2.R", by decide, by decide, by decide⟩, ⟨"S1.W", by decide, by decide, by decide⟩,
    ⟨"S1.R", by decide, by decide, by decide⟩, ⟨"S2.R", by decide, by decide, by decide⟩]

def sampleCreate : Op :=
  .create { name := "auditor", permissions := samplePermissions.map PermissionStr.value }

theorem permission_round_trip_sampleCreate :
    ∃ s', (sampleCreate.perform (sampleRequest 1)).run sampleState = (.ok (), s') ∧
      Regranted (sampleRequest 1) (.ofNat 101) (samplePermissions.map PermissionStr.value)
        sampleState s' := by
  have hcodes : ∀ p ∈ samplePermissions.map PermissionStr.value, ∀ parts ∈ rsplit p,
      parts.1 ∈ ScreenRepository.activeCodes sampleState := by decide +kernel
  have hactive : ∀ code, Names (samplePermissions.map PermissionStr.value) code →
      code ∈ ScreenRepository.activeCodes sampleState := by
    rintro code (hread | hwrite)
    · exact hcodes _ hread _ (rsplit_read code)
    · exact hcodes _ hwrite _ (rsplit_write code)
  have hgives : sampleCreate.Gives samplePermissions := rfl
  have happlies : sampleCreate.Applies sampleState := by
    show sampleState.roleByName "auditor" = none
    decide +kernel
  have hfresh : sampleCreate.Fresh (sampleRequest 1) sampleState := by
    show sampleState.roles.find? (.ofNat 101) = none ∧
      ∀ row ∈ sampleState.roleScreens, row.roleId ≠ .ofNat 101
    decide +kernel
  obtain ⟨hgranted, -⟩ := permission_round_trip hgives happlies hfresh
  obtain ⟨s', hrun, hleft, -⟩ := hgranted hactive
  exact ⟨s', hrun, hleft⟩

end AdminPlatform.RoleService
