import AdminPlatform.Access.Administration
import AdminPlatform.Conduct.Retention

/-! # Nobody takes super_admin apart

Requests to all routes take turns, any statement may fail, and admins may be left without the
role or set inactive on the way. The role super_admin itself is out of their reach: its name,
its status, its permissions and the protected screens stay as they are, no assignment is taken
back, and no screen is created that the role would not have: its creation is refused. So
whoever holds the role can do everything, at every moment (`superAdmin_stands`).

What an update checks it checks of a row it has read earlier. The row may have changed since,
but not in what the check is about: that is what the invariant (`Standing`) is for. -/

namespace AdminPlatform
open AdminPlatform.Lib

namespace Administration

/-- The role `superAdmin` is in place, and the protected screens are active. -/
structure InPlace (superAdmin : Uuid) (s : Database) : Prop where
  role : ∃ role ∈ s.roles, role.id = superAdmin ∧ role.name = superAdminRoleName ∧
    role.status = .active
  grants : ∀ g ∈ catalog, Granted s superAdmin g
  screens : ∀ code ∈ ScreenService.protectedScreenCodes,
    ∃ screen ∈ s.screens, screen.code = code ∧ screen.status = .active

/-- An admin can do everything, and whatever the role could do in `start` on a screen that is
active. -/
structure Omnipotent (superAdmin : Uuid) (start s : Database) (adminId : Uuid) : Prop where
  permissions : ∀ p : PermissionName, p.value ∈ RbacService.permissions s adminId
  granted : ∀ g, Granted start superAdmin g → ∀ screen ∈ s.screens, screen.code = g.1 →
    screen.status = .active → ∀ p ∈ RbacService.expandRow g,
      p ∈ RbacService.permissions s adminId

theorem Intact.inPlace {superAdmin : Uuid} {s : Database} (h : Intact superAdmin s) :
    InPlace superAdmin s :=
  ⟨h.role, h.grants, h.screens⟩

/-- What every write keeps. A protected screen is followed by its id, which a request that has
loaded it goes by. -/
structure Standing (superAdmin : Uuid) (start s : Database) : Prop where
  role : ∃ role ∈ s.roles, role.id = superAdmin ∧ role.name = superAdminRoleName ∧
    role.status = .active
  grants : ∀ row ∈ start.roleScreens, row.roleId = superAdmin → row ∈ s.roleScreens
  screens : ∀ old ∈ start.screens, old.code ∈ ScreenService.protectedScreenCodes →
    ∃ screen ∈ s.screens, screen.id = old.id ∧ screen.code = old.code ∧ screen.status = .active
  created : NoNewScreens start s
  assigned : ∀ x ∈ start.adminRoles, x ∈ s.adminRoles

variable {env : Env} {encode : EncodedToken → String} {req : Request} {past : Past}
  {call : Api.Call} {superAdmin : Uuid} {start s s' : Database} {w : Write}

/-! ## The role -/

/-- A write to a role: it is not super_admin, or it leaves its name, status and permissions. -/
theorem role_of_lawful (hpast : ∀ d ∈ past, Standing superAdmin start d.state)
    {loaded current : Role} {rows : Option (List RoleScreen)}
    (h : Api.Lawful env encode req past call (.updateRole loaded current rows)) :
    loaded.id ≠ superAdmin ∨ (loaded.name = superAdminRoleName ∧ loaded.status = .active ∧
      current.name = superAdminRoleName ∧ current.status = .active ∧ rows = none) := by
  -- the row as it was read is super_admin's, which stood then
  have hread : ∀ {roleId : Uuid}, loaded.id = roleId →
      past.Saw (fun s => s.roles.find? roleId = some loaded) → loaded.id = superAdmin →
      loaded.name = superAdminRoleName ∧ loaded.status = .active := by
    rintro _ rfl hsaw hid
    obtain ⟨u, hfind, hstood⟩ := hsaw.of_all hpast
    obtain ⟨role, hmem, hrole, hname, hactive⟩ := hstood.role
    obtain rfl := Table.eq_of_key (Table.find?_eq_some.mp hfind).1 hmem (hid.trans hrole.symm)
    exact ⟨hname, hactive⟩
  by_cases hid : loaded.id = superAdmin
  · right
    cases h with
    | roles _ h =>
        cases h with
        | update hsame hsaw hallowed hnone =>
            obtain ⟨hname, hactive⟩ := hread hsame hsaw hid
            obtain ⟨hname', hactive', hpermissions⟩ := assignUpdate_superAdmin hname hactive hallowed
            exact ⟨hname, hactive, hname', hactive', hnone hpermissions⟩
        | delete hsame hsaw hother => exact absurd (hread hsame hsaw hid).1 hother
    | _ =>
        rename_i h
        cases h
  · exact .inl hid

theorem Standing.role_apply (hs : Standing superAdmin start s)
    (hpast : ∀ d ∈ past, Standing superAdmin start d.state)
    (h : Api.Lawful env encode req past call w) (happly : w.apply s = .ok s') :
    ∃ role ∈ s'.roles, role.id = superAdmin ∧ role.name = superAdminRoleName ∧
      role.status = .active := by
  obtain ⟨role, hmem, hid, hname, hactive⟩ := hs.role
  rcases (framed_apply happly).roles with hsame | ⟨_, _, rfl⟩ | ⟨loaded, current, rows, rfl⟩
  · exact ⟨role, hsame ▸ hmem, hid, hname, hactive⟩
  · obtain ⟨_, _, hinsert, -, rfl⟩ := apply_insertRole happly
    exact ⟨role, (Table.mem_insert hinsert).mpr (.inl hmem), hid, hname, hactive⟩
  · obtain ⟨_, _, hflush, -, -, rfl⟩ := apply_updateRole happly
    rcases Table.flush_inv hflush with ⟨-, rfl⟩ | ⟨stored, hstored, hrows⟩
    · exact ⟨role, hmem, hid, hname, hactive⟩
    · obtain ⟨hin, hkey⟩ := Table.find?_eq_some.mp hstored
      by_cases hsame : role.id = loaded.id
      · -- super_admin itself is written back: neither column was set to anything else
        obtain rfl := Table.eq_of_key hmem hin (hsame.trans hkey.symm)
        obtain ⟨hname₀, hactive₀, hname', hactive', -⟩ :=
          (role_of_lawful hpast h).resolve_left fun hne => hne (hsame.symm.trans hid)
        refine ⟨_, (hrows _).mpr (.inl rfl), hid, ?_, ?_⟩
        · show column loaded.name current.name role.name = superAdminRoleName
          rw [hname', hname₀, column_same, hname]
        · show column loaded.status current.status role.status = .active
          rw [hactive', hactive₀, column_same, hactive]
      · exact ⟨role, (hrows _).mpr (.inr ⟨hmem, hsame⟩), hid, hname, hactive⟩

/-! ## Its permissions -/

/-- No permission of super_admin is taken away. -/
theorem grants_apply (hpast : ∀ d ∈ past, Standing superAdmin start d.state)
    (h : Api.Lawful env encode req past call w) (happly : w.apply s = .ok s') {row : RoleScreen}
    (hrow : row ∈ s.roleScreens) (hrole : row.roleId = superAdmin) : row ∈ s'.roleScreens := by
  rcases (framed_apply happly).roleScreens with hsame | ⟨_, _, rfl⟩ |
    ⟨loaded, current, rows, rfl⟩ | ⟨_, _, rfl⟩
  · exact hsame ▸ hrow
  · obtain ⟨_, _, -, hrows, rfl⟩ := apply_insertRole happly
    exact (hrows row).mpr (.inl hrow)
  · obtain ⟨_, _, -, -, hreplaced, rfl⟩ := apply_updateRole happly
    have hother : loaded.id ≠ superAdmin :=
      (role_of_lawful hpast h).resolve_right fun ⟨_, _, _, _, hnone⟩ => nomatch hnone
    exact (hreplaced rows rfl row).mpr (.inl ⟨hrow, fun heq => hother (heq.symm.trans hrole)⟩)
  · obtain ⟨_, _, -, hrows, rfl⟩ := apply_insertScreen happly
    exact (hrows row).mpr (.inl hrow)

/-! ## The screens -/

/-- A write to a screen leaves its code, and a protected screen active. -/
theorem screen_of_lawful (hpast : ∀ d ∈ past, Standing superAdmin start d.state)
    {loaded current : Screen} (h : Api.Lawful env encode req past call (.updateScreen loaded current)) :
    current.code = loaded.code ∧ ∀ old ∈ start.screens,
      old.code ∈ ScreenService.protectedScreenCodes → old.id = loaded.id →
      loaded.status = .active ∧ current.status = .active := by
  have hread : ∀ {screenId : Uuid}, loaded.id = screenId →
      past.Saw (fun s => s.screens.find? screenId = some loaded) → ∀ old ∈ start.screens,
      old.code ∈ ScreenService.protectedScreenCodes → old.id = loaded.id →
      loaded.code = old.code ∧ loaded.status = .active := by
    rintro _ rfl hsaw old hold hprotected hid
    obtain ⟨u, hfind, hstood⟩ := hsaw.of_all hpast
    obtain ⟨screen, hmem, hsame, hcode, hactive⟩ := hstood.screens old hold hprotected
    obtain rfl := Table.eq_of_key (Table.find?_eq_some.mp hfind).1 hmem (hid.symm.trans hsame.symm)
    exact ⟨hcode, hactive⟩
  cases h with
  | screens _ h =>
      cases h with
      | @update screenId data _ hsame hsaw hguard =>
          refine ⟨rfl, fun old hold hprotected hid => ?_⟩
          obtain ⟨hcode, hactive⟩ := hread hsame hsaw old hold hprotected hid
          refine ⟨hactive, ?_⟩
          have hkept := hguard (hcode ▸ hprotected)
          rcases hstatus : data.status with _ | _ | _
          · simpa [ScreenService.assignUpdate, hstatus] using hactive
          · simp [ScreenService.assignUpdate, hstatus]
          · exact absurd hstatus hkept
      | delete hsame hsaw hother =>
          refine ⟨rfl, fun old hold hprotected hid => ?_⟩
          obtain ⟨hcode, -⟩ := hread hsame hsaw old hold hprotected hid
          exact absurd (hcode ▸ hprotected) hother
  | _ =>
      rename_i h
      cases h

theorem Standing.screens_apply (hs : Standing superAdmin start s)
    (hpast : ∀ d ∈ past, Standing superAdmin start d.state)
    (h : Api.Lawful env encode req past call w) (happly : w.apply s = .ok s') {old : Screen}
    (hold : old ∈ start.screens) (hprotected : old.code ∈ ScreenService.protectedScreenCodes) :
    ∃ screen ∈ s'.screens, screen.id = old.id ∧ screen.code = old.code ∧
      screen.status = .active := by
  obtain ⟨screen, hmem, hid, hcode, hactive⟩ := hs.screens old hold hprotected
  rcases (framed_apply happly).screens with hsame | ⟨_, _, rfl⟩ | ⟨loaded, current, rfl⟩
  · exact ⟨screen, hsame ▸ hmem, hid, hcode, hactive⟩
  · obtain ⟨_, _, hinsert, -, rfl⟩ := apply_insertScreen happly
    exact ⟨screen, (Table.mem_insert hinsert).mpr (.inl hmem), hid, hcode, hactive⟩
  · obtain ⟨_, hflush, rfl⟩ := apply_updateScreen happly
    rcases Table.flush_inv hflush with ⟨-, rfl⟩ | ⟨stored, hstored, hrows⟩
    · exact ⟨screen, hmem, hid, hcode, hactive⟩
    · obtain ⟨hin, hkey⟩ := Table.find?_eq_some.mp hstored
      by_cases hsame : screen.id = loaded.id
      · obtain rfl := Table.eq_of_key hmem hin (hsame.trans hkey.symm)
        obtain ⟨hcode', hstatus⟩ := screen_of_lawful hpast h
        obtain ⟨hactive₀, hactive'⟩ := hstatus old hold hprotected (hid.symm.trans hsame)
        refine ⟨_, (hrows _).mpr (.inl rfl), hid, ?_, ?_⟩
        · show column loaded.code current.code screen.code = old.code
          rw [hcode', column_same, hcode]
        · show column loaded.status current.status screen.status = .active
          rw [hactive', hactive₀, column_same, hactive]
      · exact ⟨screen, (hrows _).mpr (.inr ⟨hmem, hsame⟩), hid, hcode, hactive⟩

/-- A screen would be inserted with a permission of the role that was found. -/
theorem permission_of_lawful (hpast : ∀ d ∈ past, Standing superAdmin start d.state)
    {screen : Screen} {permission : Option RoleScreen}
    (h : Api.Lawful env encode req past call (.insertScreen screen permission)) :
    ∃ row, permission = some row ∧ row.screenCode = screen.code := by
  cases h with
  | screens _ h =>
      cases h with
      | insert _ hsaw =>
          obtain ⟨u, hfound, hstood⟩ := hsaw.of_all hpast
          obtain ⟨role, hmem, -, hname, -⟩ := hstood.role
          rw [Database.roleByName_eq_some.mpr ⟨hmem, hname⟩] at hfound
          subst hfound
          exact ⟨_, rfl, rfl⟩
  | _ =>
      rename_i h
      cases h

theorem Standing.created_apply (hs : Standing superAdmin start s)
    (hpast : ∀ d ∈ past, Standing superAdmin start d.state)
    (h : Api.Lawful env encode req past call w) (happly : w.apply s = .ok s') :
    NoNewScreens start s' := by
  intro x hx
  rcases (framed_apply happly).screens with hsame | ⟨screen, permission, rfl⟩ |
    ⟨loaded, current, rfl⟩
  · exact hs.created x (hsame ▸ hx)
  · -- the permission on the new screen is refused
    obtain ⟨row, rfl, hcode⟩ := permission_of_lawful hpast h
    cases permission_of_insertScreen happly fun _ hrow => Option.mem_some.mp hrow ▸ hcode
  · obtain ⟨_, hflush, rfl⟩ := apply_updateScreen happly
    rcases Table.flush_inv hflush with ⟨-, rfl⟩ | ⟨stored, hstored, hrows⟩
    · exact hs.created x hx
    · rcases (hrows x).mp hx with rfl | ⟨hold, -⟩
      · have hcode : (Entity.merge loaded current stored).code = stored.code := by
          show column loaded.code current.code stored.code = stored.code
          rw [(screen_of_lawful hpast h).1, column_same]
        exact hcode ▸ hs.created stored (Table.find?_eq_some.mp hstored).1
      · exact hs.created x hold

/-! ## Every write -/

/-- **A lawful write leaves super_admin standing.** -/
theorem Standing.lawful (hs : Standing superAdmin start s)
    (hpast : ∀ d ∈ past, Standing superAdmin start d.state)
    (h : Api.Lawful env encode req past call w) (happly : w.apply s = .ok s') :
    Standing superAdmin start s' where
  role := hs.role_apply hpast h happly
  grants row hrow hrole := grants_apply hpast h happly (hs.grants row hrow hrole) hrole
  screens _ hold hprotected := hs.screens_apply hpast h happly hold hprotected
  created := hs.created_apply hpast h happly
  assigned x hx := (Api.retains_of_lawful h happly).assignments x (hs.assigned x hx)

/-! ## What standing is worth -/

theorem InPlace.standing (h : InPlace superAdmin start) : Standing superAdmin start start where
  role := h.role
  grants _ hrow _ := hrow
  screens old hold hprotected := by
    obtain ⟨screen, hmem, hcode, hactive⟩ := h.screens old.code hprotected
    obtain rfl := Table.eq_of_clash hold hmem (.inr hcode.symm)
    exact ⟨old, hold, rfl, rfl, hactive⟩
  created screen hscreen := ⟨screen, hscreen, rfl⟩
  assigned _ hx := hx

theorem Standing.inPlace (hs : Standing superAdmin start s) (h : InPlace superAdmin start) :
    InPlace superAdmin s where
  role := hs.role
  grants g hg := (h.grants g hg).mono hs.grants
  screens code hcode := by
    obtain ⟨old, hold, rfl, -⟩ := h.screens code hcode
    obtain ⟨screen, hmem, -, hsame, hactive⟩ := hs.screens old hold hcode
    exact ⟨screen, hmem, hsame, hactive⟩

/-- A permission of the role is one of whoever holds it, while the screen is active. -/
theorem Standing.mem_permissions (hs : Standing superAdmin start s) {adminId : Uuid}
    (hassigned : (s.adminRoles.find? (adminId, superAdmin)).isSome) {g : String × Bool × Bool}
    (hgranted : Granted s superAdmin g) {screen : Screen} (hscreen : screen ∈ s.screens)
    (hcode : screen.code = g.1) (hactive : screen.status = .active) {p : String}
    (hp : p ∈ RbacService.expandRow g) : p ∈ RbacService.permissions s adminId := by
  obtain ⟨row, hrow, rfl, rfl⟩ := hgranted
  obtain ⟨role, hrole, hid, -, hroleActive⟩ := hs.role
  have hfind : s.roles.find? row.roleId = some role := Table.find?_eq_some.mpr ⟨hrole, hid⟩
  have hbyCode : s.screenByCode row.screenCode = some screen :=
    Database.screenByCode_eq_some.mpr ⟨hscreen, hcode⟩
  refine RbacService.mem_permissions.mpr ⟨row, hrow, hassigned, ?_, ?_, hp⟩
  · simp [hfind, hroleActive]
  · simp [hbyCode, hactive]

theorem Standing.omnipotent (hs : Standing superAdmin start s) (h : InPlace superAdmin start)
    {adminId : Uuid} (hassigned : (s.adminRoles.find? (adminId, superAdmin)).isSome) :
    Omnipotent superAdmin start s adminId where
  permissions p := by
    obtain ⟨g, hg, hcode, hp⟩ := mem_expandRow_catalog p
    obtain ⟨screen, hscreen, hscode, hactive⟩ := (hs.inPlace h).screens g.1 hcode
    exact hs.mem_permissions hassigned ((hs.inPlace h).grants g hg) hscreen hscode hactive hp
  granted _ hgranted _ hscreen hcode hactive _ hp :=
    hs.mem_permissions hassigned (hgranted.mono hs.grants) hscreen hcode hactive hp

/-! ## Runs -/

/-- It stands in every state of a run. -/
theorem standing_of_run {ι : Type} [DecidableEq ι] {calls : ι → Request × Api.Call}
    {t : List (Program.Threads Sql Failure Database ι × (ι × Option Failure))}
    {u : Program.Threads Sql Failure Database ι} (hplace : InPlace superAdmin start)
    (hrun : (Api.machine env encode calls start).Run t u) :
    ∀ v ∈ Machine.visited t u, Standing superAdmin start v.shared := by
  refine Api.invariant_of_lawful hplace.standing ?_ hrun
  intro req past call w s s' hpast hlawful hs happly
  exact hs.lawful hpast hlawful happly

/-- **super_admin stands.** From a state in which the role is in place, whatever requests take
turns, and wherever they fail: in every state the role is in place, every assignment there was
is there, no screen is new, and whoever holds the role can do everything. -/
theorem superAdmin_stands {ι : Type} [DecidableEq ι] {calls : ι → Request × Api.Call}
    {t : List (Program.Threads Sql Failure Database ι × (ι × Option Failure))}
    {u : Program.Threads Sql Failure Database ι} (hplace : InPlace superAdmin start)
    (hrun : (Api.machine env encode calls start).Run t u) :
    ∀ v ∈ Machine.visited t u, InPlace superAdmin v.shared ∧
      (∀ x ∈ start.adminRoles, x ∈ v.shared.adminRoles) ∧ NoNewScreens start v.shared ∧
      ∀ adminId, (v.shared.adminRoles.find? (adminId, superAdmin)).isSome →
        Omnipotent superAdmin start v.shared adminId := by
  intro v hv
  have hs := standing_of_run hplace hrun v hv
  exact ⟨hs.inPlace hplace, hs.assigned, hs.created, fun _ hassigned => hs.omnipotent hplace hassigned⟩

/-- The signed-in admin tries to deactivate super_admin and to create a screen, and renames a
protected one. -/
def standingCalls : Fin 3 → Request × Api.Call
  | 0 => (sampleRequest 1,
      .roles (some Api.signedInToken) (.update (.ofNat 10) { status := some .inactive }))
  | 1 => (sampleRequest 2, .screens (some Api.signedInToken) (.create { name := "Reports" }))
  | 2 => (sampleRequest 3,
      .screens (some Api.signedInToken) (.update (.ofNat 1) { name := some "Admins" }))

def standingThreads : Program.Threads Sql Failure Database (Fin 3) where
  shared := Api.signedInState
  thread i := (standingCalls i).2.serve sampleEnv (fun _ => "") (standingCalls i).1

/-- They are served statement by statement in turn: the first two are refused, the third commits,
and its record fails. -/
def standingTurns : List (Fin 3 × Option Failure) :=
  [(0, none), (1, none), (2, none), (0, none), (1, none), (2, none), (0, none), (1, none),
    (2, none), (1, none), (2, none), (1, none), (2, none), (1, none), (2, some .value)]

theorem superAdmin_stands_standingTurns :
    ∃ t u, (Api.machine sampleEnv (fun _ => "") standingCalls Api.signedInState).Run t u ∧
      t.map Prod.snd = standingTurns ∧ ∀ v ∈ Machine.visited t u,
        InPlace (.ofNat 10) v.shared ∧
        (∀ x ∈ Api.signedInState.adminRoles, x ∈ v.shared.adminRoles) ∧
        NoNewScreens Api.signedInState v.shared ∧
        ∀ adminId, (v.shared.adminRoles.find? (adminId, .ofNat 10)).isSome →
          Omnipotent (.ofNat 10) Api.signedInState v.shared adminId := by
  have hplace : InPlace (.ofNat 10) Api.signedInState := by
    refine ⟨by decide, ?_, by decide⟩
    unfold Granted
    decide
  have hexec : (Api.machine sampleEnv (fun _ => "") standingCalls Api.signedInState).exec
      standingTurns standingThreads = some _ := rfl
  have hinit : (Api.machine sampleEnv (fun _ => "") standingCalls Api.signedInState).init
      standingThreads := ⟨rfl, fun _ => rfl⟩
  have hrun := Machine.Run.of_exec (.start hinit) hexec
  exact ⟨_, _, hrun, Machine.map_snd_trace hexec, superAdmin_stands hplace hrun⟩

end Administration
end AdminPlatform
