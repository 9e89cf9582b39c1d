import AdminPlatform.Access.Seeded
import AdminPlatform.Lib.Machine
import AdminPlatform.Services.Role
import AdminPlatform.Services.User

/-! # Administration is never locked out

Requests to the user, role and screen services, executed one after another. The services
guard each other's assumptions: users keep an active admin and give every new admin the
super_admin role, roles keep super_admin as it is, screens keep the four screens of the
admin interface. `Intact` is what they keep between them, and `administration_survives` draws
from it that some active admin can always do everything. While super_admin exists no screen is
created: its permission is flushed before the screen is, and refused. -/

namespace AdminPlatform
open AdminPlatform.Lib

namespace Administration

/-! ## Requests, one after another -/

inductive Call
  | user (op : UserService.Op)
  | role (op : RoleService.Op)
  | screen (op : ScreenService.Op)

def Call.perform (env : Env) (req : Request) : Call → Db Unit
  | .user op => op.perform env req
  | .role op => op.perform req
  | .screen op => op.perform req

/-- Every request runs to its end, whether it succeeds or not. -/
def machine (env : Env) (seeded : Database) : Machine Database (Request × Call) where
  init s := s = seeded
  step l s := some ((l.2.perform env l.1).run s).2

/-! ## What is kept -/

/-- No screen has a code that none had in `seeded`. -/
def NoNewScreens (seeded s : Database) : Prop :=
  ∀ screen ∈ s.screens, ∃ old ∈ seeded.screens, old.code = screen.code

/-- What the seeding leaves and every request keeps. -/
structure Invariant (superAdmin : Uuid) (seeded s : Database) : Prop
    extends Intact superAdmin s where
  created : NoNewScreens seeded s

/-! ## User requests -/

section
variable {superAdmin : Uuid} {seeded s s' : Database}

/-- Writing an admin back keeps an active admin, unless it takes the last one out of
service. -/
theorem active_flush {admins admins' : Table PlatformAdmin} {user current : PlatformAdmin}
    (hfind : admins.find? user.id = some user) (hid : current.id = user.id)
    (hflush : admins.flush user current = .ok admins')
    (hactive : ∃ admin ∈ admins, admin.status = .active)
    (hguard : user.status = .active → current.status = .active ∨
      ∃ other ∈ admins, other.status = .active ∧ other.id ≠ user.id) :
    ∃ admin ∈ admins', admin.status = .active := by
  have hmem : ∀ x, x ∈ admins' ↔ x = current ∨ (x ∈ admins ∧ x.id ≠ user.id) :=
    fun x => Table.flush_loaded hflush hfind hid
  have hothers : ∀ other ∈ admins, other.status = .active → other.id ≠ user.id →
      ∃ admin ∈ admins', admin.status = .active :=
    fun other hother hact hne => ⟨other, (hmem other).mpr (.inr ⟨hother, hne⟩), hact⟩
  obtain ⟨admin, hadmin, hact⟩ := hactive
  by_cases hsame : admin.id = user.id
  · obtain rfl : admin = user := by
      have := Table.find?_eq_some.mpr ⟨hadmin, hsame⟩
      rw [hfind] at this
      exact (Option.some.inj this).symm
    rcases hguard hact with hcurrent | ⟨other, hother, hact', hne⟩
    · exact ⟨current, (hmem current).mpr (.inl rfl), hcurrent⟩
    · exact hothers other hother hact' hne
  · exact hothers admin hadmin hact hsame

/-- The guard of the last active admin: another one is active. -/
theorem exists_other_of_activeAdmins {userId : Uuid}
    (h : UserRepository.activeAdmins s (some userId) ≠ []) :
    ∃ other ∈ s.admins, other.status = .active ∧ other.id ≠ userId := by
  obtain ⟨other, hother⟩ := List.exists_mem_of_ne_nil _ h
  obtain ⟨hmem, hcond⟩ := Table.mem_select.mp hother
  obtain ⟨hact, hne⟩ := of_decide_eq_true hcond
  exact ⟨other, hmem, hact, fun heq => hne (by rw [heq])⟩

/-- Writing an admin back, with everything else in place. -/
theorem Invariant.flush (h : Invariant superAdmin seeded s) {admins : Table PlatformAdmin}
    {outbox : Table Audit.AuditIntent} {user current : PlatformAdmin}
    (hfind : s.admins.find? user.id = some user)
    (hflush : s.admins.flush user current = .ok admins) (hid : current.id = user.id)
    (hguard : user.status = .active → current.status = .active ∨
      ∃ other ∈ s.admins, other.status = .active ∧ other.id ≠ user.id) :
    Invariant superAdmin seeded { s with admins := admins, auditIntents := outbox } where
  role := h.role
  grants := h.grants
  screens := h.screens
  created := h.created
  active := active_flush hfind hid hflush h.active hguard
  assigned := by
    intro admin hadmin
    rcases (Table.flush_loaded hflush hfind hid).mp hadmin with rfl | ⟨hold, -⟩
    · rw [hid]
      exact h.assigned user (Table.find?_eq_some.mp hfind).1
    · exact h.assigned admin hold

theorem Invariant.userRequest {env : Env} {req : Request} {op : UserService.Op}
    (h : Invariant superAdmin seeded s) (he : op.Effect env req s s') :
    Invariant superAdmin seeded s' := by
  cases he with
  | @create data admins adminRoles outbox hinsert hkept hassigned =>
      refine
        { role := h.role, grants := h.grants, screens := h.screens, created := h.created
          assigned := ?_, active := ?_ }
      · intro admin hadmin
        rcases (Table.mem_insert hinsert).mp hadmin with hold | rfl
        · obtain ⟨x, hx⟩ := Option.isSome_iff_exists.mp (h.assigned admin hold)
          obtain ⟨hmem, hkey⟩ := Table.find?_eq_some.mp hx
          have hstill : adminRoles.find? (admin.id, superAdmin) = some x :=
            Table.find?_eq_some.mpr ⟨hkept x hmem, hkey⟩
          simp [hstill]
        · obtain ⟨role, hrole, rfl, -⟩ := h.roleByName
          exact hassigned role hrole
      · obtain ⟨admin, hadmin, hact⟩ := h.active
        exact ⟨admin, (Table.mem_insert hinsert).mpr (.inl hadmin), hact⟩
  | @update userId data user admins outbox hfind hguard hflush =>
      obtain rfl : user.id = userId := (Table.find?_eq_some.mp hfind).2
      refine h.flush hfind hflush rfl fun hact => ?_
      -- an active admin stays active unless the update takes it out of service
      by_cases hd : UserService.deactivates data user
      · exact .inr (exists_other_of_activeAdmins (hguard hd))
      · left
        rcases hstatus : data.status with _ | _ | _
        · simpa [UserService.assignUpdate, hstatus] using hact
        · simp [UserService.assignUpdate, hstatus]
        · exact absurd (by simp [UserService.deactivates, hstatus, hact]) hd
  | @replace userId data user admins outbox hfind hflush =>
      obtain rfl : user.id = userId := (Table.find?_eq_some.mp hfind).2
      exact h.flush hfind hflush rfl fun hact => .inl hact
  | @delete userId user admins outbox hfind hguard hflush =>
      obtain rfl : user.id = userId := (Table.find?_eq_some.mp hfind).2
      exact h.flush hfind hflush rfl fun hact => .inr (exists_other_of_activeAdmins (hguard hact))

/-! ## Role requests -/

/-- More permission rows take nothing from the role. -/
theorem Invariant.grant (h : Invariant superAdmin seeded s) {roles : Table Role}
    {roleScreens : Table RoleScreen} {outbox : Table Audit.AuditIntent}
    (hrole : ∃ role ∈ roles, role.id = superAdmin ∧ role.name = superAdminRoleName ∧
      role.status = .active)
    (hkept : ∀ row ∈ s.roleScreens, row.roleId = superAdmin → row ∈ roleScreens) :
    Invariant superAdmin seeded
      { s with roles := roles, roleScreens := roleScreens, auditIntents := outbox } where
  role := hrole
  grants g hg := (h.grants g hg).mono hkept
  screens := h.screens
  assigned := h.assigned
  active := h.active
  created := h.created

/-- What an update that is allowed leaves of super_admin: its name and its status. -/
theorem assignUpdate_superAdmin {role : Role} {data : RoleUpdate}
    (hname : role.name = superAdminRoleName) (hactive : role.status = .active)
    (hallowed : RoleService.touchesProtected role data = false) :
    (RoleService.assignUpdate data role).name = superAdminRoleName ∧
      (RoleService.assignUpdate data role).status = .active ∧ data.permissions = none := by
  simp only [RoleService.touchesProtected, hname, true_and, decide_eq_false_iff_not,
    not_or] at hallowed
  obtain ⟨hsame, hstatus, hpermissions⟩ := hallowed
  refine ⟨?_, ?_, by simpa using hpermissions⟩
  · cases hdata : data.name with
    | none => simpa [RoleService.assignUpdate, hdata] using hname
    | some name => simpa [RoleService.assignUpdate, hdata] using hsame
  · rcases hdata : data.status with _ | _ | _
    · simpa [RoleService.assignUpdate, hdata] using hactive
    · simp [RoleService.assignUpdate, hdata]
    · exact absurd hdata hstatus

theorem Invariant.roleRequest {req : Request} {op : RoleService.Op}
    (h : Invariant superAdmin seeded s) (he : op.Effect req s s') :
    Invariant superAdmin seeded s' := by
  obtain ⟨protectedRole, hmem, hprotected, hname, hactive⟩ := h.role
  cases he with
  | create hinsert hrows hscreens =>
      refine h.grant ?_ fun row hrow _ => (hscreens row).mpr (.inl hrow)
      exact ⟨protectedRole, (Table.mem_insert hinsert).mpr (.inl hmem), hprotected, hname, hactive⟩
  | @update roleId data role roles outbox rows roleScreens hfind hallowed hnone hgiven hflush
      hkept hreplaced =>
      obtain ⟨hin, rfl⟩ := Table.find?_eq_some.mp hfind
      have hroles : ∀ x, x ∈ roles ↔ x = RoleService.assignUpdate data role ∨
          (x ∈ s.roles ∧ x.id ≠ role.id) := fun x => Table.flush_loaded hflush hfind rfl
      by_cases hsame : role.id = superAdmin
      · -- super_admin itself: it keeps its name, its status and its rows
        obtain rfl : role = protectedRole := Table.eq_of_key hin hmem (hsame.trans hprotected.symm)
        obtain ⟨hname', hactive', hpermissions⟩ := assignUpdate_superAdmin hname hactive hallowed
        obtain rfl := hkept (hnone hpermissions)
        refine h.grant ?_ fun row hrow _ => hrow
        exact ⟨_, (hroles _).mpr (.inl rfl), hprotected, hname', hactive'⟩
      · refine h.grant ?_ fun row hrow hrole => ?_
        -- another role: super_admin's rows are not among those replaced
        · have hother : protectedRole.id ≠ role.id := fun heq => hsame (heq.symm.trans hprotected)
          exact ⟨protectedRole, (hroles _).mpr (.inr ⟨hmem, hother⟩), hprotected, hname, hactive⟩
        · cases hrows : rows with
          | none => rwa [hkept hrows]
          | some given =>
              exact (hreplaced given hrows row).mpr
                (.inl ⟨hrow, fun heq => hsame (heq.symm.trans hrole)⟩)
  | @delete roleId role roles outbox hfind hnot hflush =>
      obtain ⟨hin, rfl⟩ := Table.find?_eq_some.mp hfind
      -- super_admin is not deleted, so it is another role
      have hother : protectedRole.id ≠ role.id := by
        intro heq
        obtain rfl := Table.eq_of_key hmem hin heq
        exact hnot hname
      refine h.grant ⟨protectedRole, ?_, hprotected, hname, hactive⟩ fun row hrow _ => hrow
      exact (Table.flush_loaded hflush hfind rfl).mpr (.inr ⟨hmem, hother⟩)

/-! ## Screen requests -/

/-- Writing a screen back keeps the screens in place, unless it takes a protected one out of
service. -/
theorem Invariant.flushScreen (h : Invariant superAdmin seeded s) {screens : Table Screen}
    {outbox : Table Audit.AuditIntent} {screen current : Screen}
    (hfind : s.screens.find? screen.id = some screen)
    (hflush : s.screens.flush screen current = .ok screens) (hid : current.id = screen.id)
    (hcode : current.code = screen.code)
    (hguard : screen.code ∈ ScreenService.protectedScreenCodes → screen.status = .active →
      current.status = .active) :
    Invariant superAdmin seeded { s with screens := screens, auditIntents := outbox } := by
  obtain ⟨hin, -⟩ := Table.find?_eq_some.mp hfind
  have hscreens : ∀ x, x ∈ screens ↔ x = current ∨ (x ∈ s.screens ∧ x.id ≠ screen.id) :=
    fun x => Table.flush_loaded hflush hfind hid
  refine { h with screens := ?_, created := ?_ }
  · intro code hprotected
    obtain ⟨old, hold, rfl, hactive⟩ := h.screens code hprotected
    by_cases hsame : old.id = screen.id
    · obtain rfl : old = screen := Table.eq_of_key hold hin hsame
      exact ⟨current, (hscreens _).mpr (.inl rfl), hcode, hguard hprotected hactive⟩
    · exact ⟨old, (hscreens _).mpr (.inr ⟨hold, hsame⟩), rfl, hactive⟩
  · intro x hx
    rcases (hscreens x).mp hx with rfl | ⟨hold, -⟩
    · exact hcode ▸ h.created screen hin
    · exact h.created x hold

theorem Invariant.screenRequest {req : Request} {op : ScreenService.Op}
    (h : Invariant superAdmin seeded s) (he : op.Effect req s s') :
    Invariant superAdmin seeded s' := by
  cases he with
  | @create data code screens outbox hnone hinsert =>
      -- super_admin is there, so nothing is created
      obtain ⟨role, hrole, -⟩ := h.roleByName
      rw [hrole] at hnone
      cases hnone
  | @update screenId data screen screens outbox hfind hallowed hflush =>
      obtain rfl : screen.id = screenId := (Table.find?_eq_some.mp hfind).2
      -- a protected screen is not set inactive
      refine h.flushScreen hfind hflush rfl rfl fun hprotected hactive => ?_
      rcases hstatus : data.status with _ | _ | _
      · simpa [ScreenService.assignUpdate, hstatus] using hactive
      · simp [ScreenService.assignUpdate, hstatus]
      · exact absurd hstatus (hallowed hprotected)
  | @delete screenId screen screens outbox hfind hnot hflush =>
      obtain rfl : screen.id = screenId := (Table.find?_eq_some.mp hfind).2
      exact h.flushScreen hfind hflush rfl rfl fun hprotected => absurd hprotected hnot

/-! ## Every request -/

/-- **One request keeps the invariant**, whether it succeeds or is refused. -/
theorem Invariant.step {env : Env} {l : Request × Call} (h : Invariant superAdmin seeded s)
    (hs : (machine env seeded).step l s = some s') : Invariant superAdmin seeded s' := by
  obtain ⟨req, call⟩ := l
  obtain rfl := Option.some.inj hs
  rcases hrun : (call.perform env req).run s with ⟨r, u⟩
  cases call with
  | user op =>
      rcases UserService.Op.perform_inv hrun with ⟨-, rfl⟩ | ⟨-, he⟩
      · exact h
      · exact h.userRequest he
  | role op =>
      rcases RoleService.Op.perform_inv hrun with ⟨-, rfl⟩ | ⟨-, he⟩
      · exact h
      · exact h.roleRequest he
  | screen op =>
      rcases ScreenService.Op.perform_inv hrun with ⟨-, rfl⟩ | ⟨-, he⟩
      · exact h
      · exact h.screenRequest he

/-! ## The result -/

/-- Somebody can administer the platform: an admin is active, super_admin and the protected
screens are, and every active admin is granted every permission. -/
structure Administered (s : Database) : Prop where
  active : ∃ admin ∈ s.admins, admin.status = .active
  superAdmin : ∃ role, s.roleByName superAdminRoleName = some role ∧ role.status = .active
  screens : ∀ code ∈ ScreenService.protectedScreenCodes,
    ∃ screen, s.screenByCode code = some screen ∧ screen.status = .active
  permissions : ∀ admin ∈ s.admins, admin.status = .active → ∀ p : PermissionName,
    ∃ granted, (RbacService.permissionsForAdmin admin.id).run s = (.ok granted, s) ∧
      p.value ∈ granted

/-- The screens there were not in the seeded state were given to super_admin, to read and to
write. -/
def CreatedScreensGranted (seeded s : Database) : Prop :=
  ∀ screen ∈ s.screens, (∀ old ∈ seeded.screens, old.code ≠ screen.code) →
    ∃ role, s.roleByName superAdminRoleName = some role ∧
      ∃ row ∈ s.roleScreens, row.roleId = role.id ∧ row.screenCode = screen.code ∧
        row.read = true ∧ row.write = true

/-- **Administration survives every sequence of requests.** Whatever requests the user, role
and screen services serve one after another, from a seeded state: the platform stays
administered, and every screen created on the way is super_admin's to read and write (none
is, `Invariant.created`). -/
theorem administration_survives {env : Env} {seeded s : Database} (hseeded : Seeded seeded)
    (h : (machine env seeded).Reachable s) :
    Administered s ∧ CreatedScreensGranted seeded s := by
  obtain ⟨superAdmin, hintact⟩ := hseeded
  have hI : Invariant superAdmin seeded s := by
    refine Machine.Reachable.invariant ?_ (fun s l s' hs hstep => hs.step hstep) h
    rintro _ rfl
    exact { hintact with created := fun screen hscreen => ⟨screen, hscreen, rfl⟩ }
  obtain ⟨role, hrole, -, hactive⟩ := hI.roleByName
  refine ⟨⟨hI.active, ⟨role, hrole, hactive⟩, ?_, ?_⟩, ?_⟩
  · intro code hcode
    obtain ⟨screen, hscreen, hscode, hsactive⟩ := hI.screens code hcode
    exact ⟨screen, Database.screenByCode_eq_some.mpr ⟨hscreen, hscode⟩, hsactive⟩
  · intro admin hadmin _ p
    exact ⟨_, rfl, hI.toIntact.permissions hadmin p⟩
  · intro screen hscreen hnew
    obtain ⟨old, hold, hcode⟩ := hI.created screen hscreen
    exact absurd hcode (hnew old hold)

end

/-- A third admin is created. super_admin cannot be set inactive, no screen can be created and
the audit screen not deleted, and of the three admins two can be. -/
def sampleCalls : List (Request × Call) :=
  [(sampleRequest 1, .user (.create
      { name := "admin3", email := "admin3@example.com", password := "Admin#123456" })),
    (sampleRequest 2, .role (.update (.ofNat 10) { status := some .inactive })),
    (sampleRequest 3, .screen (.create { name := "Reports" })),
    (sampleRequest 4, .screen (.delete (.ofNat 2))),
    (sampleRequest 5, .user (.delete (.ofNat 1))),
    (sampleRequest 6, .user (.delete (.ofNat 2))),
    (sampleRequest 7, .user (.delete (.ofNat 101)))]

theorem administration_survives_sampleCalls :
    ∃ s, (machine sampleEnv sampleState).exec sampleCalls sampleState = some s ∧
      Administered s ∧ CreatedScreensGranted sampleState s := by
  have hexec : (machine sampleEnv sampleState).exec sampleCalls sampleState = some _ := rfl
  exact ⟨_, hexec,
    administration_survives seeded_sampleState (Machine.reachable_of_exec rfl hexec)⟩

end Administration
end AdminPlatform
