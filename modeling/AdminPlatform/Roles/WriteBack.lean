import AdminPlatform.Lib.Machine
import AdminPlatform.Roles.RoundTrip
import AdminPlatform.Services.Screen

/-! # Writing back what was read

`get_role` lists the permissions of a role on active screens. `update_role` replaces all rows
of the role by those of the permissions it is given, and accepts active screens only. So a
client that reads a role and writes its list back deletes the grants on screens that are not
active; when such a screen becomes active again, the role has lost it.

In every state the role and screen services lead to, the grants of a role survive the
write-back if and only if all of them are on active screens (`writeBack_iff`). -/

namespace AdminPlatform.WriteBack
open AdminPlatform.Lib RoleService
open Administration (Granted)

/-! ## Requests to the role and screen services -/

inductive Call
  | role (op : RoleService.Op)
  | screen (op : ScreenService.Op)

def Call.perform (req : Request) : Call → Db Unit
  | .role op => op.perform req
  | .screen op => op.perform req

/-- Every request runs to its end, whether it succeeds or not. -/
def machine (seeded : Database) : Machine Database (Request × Call) where
  init s := s = seeded
  step l s := some ((l.2.perform l.1).run s).2

/-! ## Every grant reads -/

/-- Every row of the table of grants reads its screen. -/
def GrantsRead (s : Database) : Prop := ∀ row ∈ s.roleScreens, row.read = true

/-- The commits that keep it so. -/
def WritesReading : Write → Prop
  | .insertRole _ rows => ∀ row ∈ rows, row.read = true
  | .updateRole _ _ rows => ∀ given ∈ rows, ∀ row ∈ given, row.read = true
  | .insertScreen _ row => ∀ r ∈ row, r.read = true
  | .updateScreen _ _ => True
  | .insertIntent _ => True
  | _ => False

section Reading
variable {req : Request} {s s' : Database}

theorem GrantsRead.apply {w : Write} (h : GrantsRead s) (hw : WritesReading w)
    (happly : w.apply s = .ok s') : GrantsRead s' := by
  cases w with
  | insertRole role rows =>
      obtain ⟨roles, roleScreens, -, hmem, rfl⟩ := apply_insertRole happly
      intro row hrow
      rcases (hmem row).mp hrow with hold | hnew
      · exact h row hold
      · exact hw row hnew
  | updateRole loaded current rows =>
      obtain ⟨roles, roleScreens, -, hkept, hreplaced, rfl⟩ := apply_updateRole happly
      cases rows with
      | none =>
          intro row hrow
          exact h row (hkept rfl ▸ hrow)
      | some rows =>
          intro row hrow
          rcases (hreplaced rows rfl row).mp hrow with ⟨hold, -⟩ | hnew
          · exact h row hold
          · exact hw rows rfl row hnew
  | insertScreen screen row =>
      obtain ⟨screens, roleScreens, -, hmem, rfl⟩ := apply_insertScreen happly
      intro r hr
      rcases (hmem r).mp hr with hold | hnew
      · exact h r hold
      · exact hw r hnew
  | updateScreen loaded current =>
      obtain ⟨t, -, rfl⟩ := apply_updateScreen happly
      exact h
  | insertIntent intent =>
      obtain ⟨t, -, rfl⟩ := apply_insertIntent happly
      exact h
  | _ => exact absurd hw id

theorem mem_of_mem_setEntry {code : String} {entry : Bool × Bool}
    {byCode : List (String × Bool × Bool)} {e : String × Bool × Bool}
    (h : e ∈ setEntry code entry byCode) : e = (code, entry) ∨ e ∈ byCode := by
  induction byCode with
  | nil => exact .inl (List.mem_singleton.mp h)
  | cons head byCode ih =>
      rw [setEntry] at h
      split at h
      · rcases List.mem_cons.mp h with h | h
        · exact .inl h
        · exact .inr (List.mem_cons_of_mem _ h)
      · rcases List.mem_cons.mp h with rfl | h
        · exact .inr List.mem_cons_self
        · exact (ih h).imp_right (List.mem_cons_of_mem _)

/-- Whatever strings are given, every entry they are folded into reads. -/
theorem read_of_normalize {given : List String} {byCode : List (String × Bool × Bool)}
    (h : normalizePermissions given = some byCode) : ∀ e ∈ byCode, e.2.1 = true := by
  unfold normalizePermissions at h
  induction given using List.reverseRecOn generalizing byCode with
  | nil =>
      obtain rfl := Option.some.inj h
      intro e he
      cases he
  | append_singleton given p ih =>
      rw [List.foldlM_append] at h
      obtain ⟨before, hbefore, h⟩ := Option.bind_eq_some_iff.mp h
      obtain ⟨after, hadd, h⟩ := Option.bind_eq_some_iff.mp h
      obtain rfl := Option.some.inj h
      obtain ⟨⟨code, operation⟩, -, rfl⟩ := Option.map_eq_some_iff.mp hadd
      intro e he
      dsimp only at he
      -- both operations set the read flag
      split at he <;> rcases mem_of_mem_setEntry he with rfl | hold
      · rfl
      · exact ih hbefore e hold
      · rfl
      · exact ih hbefore e hold

theorem read_permissionRows {roleId : Uuid} {byCode : List (String × Bool × Bool)}
    (h : ∀ e ∈ byCode, e.2.1 = true) : ∀ row ∈ permissionRows req roleId byCode, row.read = true := by
  intro row hrow
  obtain ⟨e, he, rfl⟩ := List.mem_map.mp hrow
  exact h e he

/-! ## What the requests write -/

/-- After the strings are folded, a request goes on with entries that read. -/
theorem writes_normalized_bind {α : Type} {given : List String}
    {f : List (String × Bool × Bool) → Db α}
    (hf : ∀ byCode, (∀ e ∈ byCode, e.2.1 = true) → (f byCode).Writes WritesReading) :
    (normalized given >>= f).Writes WritesReading := by
  unfold normalized
  cases h : normalizePermissions given with
  | none => exact (Db.writes_throw .value : (throw .value : Db α).Writes WritesReading)
  | some byCode => exact hf byCode (read_of_normalize h)

theorem writes_record (req : Request) (e : Audit.AuditEvent) :
    (AuditService.record req e).Writes WritesReading :=
  AuditService.writes_record (fun _ => trivial) req e

theorem writes_createRole (req : Request) (data : RoleCreate) :
    (createRole req data).Writes WritesReading :=
  (writes_ensureNameAvailable _ _).bind fun _ => writes_normalized_bind fun _ hread =>
    (writes_validateScreenCodes _).bind fun _ =>
      (Db.writes_save (read_permissionRows hread) _ _).bind fun _ =>
        (Db.writes_query _).bind fun _ => (writes_record _ _).bind fun _ => Db.writes_pure _

/-- The rows an update gives, and what it goes on with. -/
theorem writes_updateRows_bind {α : Type} {roleId : Uuid} {permissions : Option (List String)}
    {f : Option (List RoleScreen) → Db α}
    (hf : ∀ rows, (∀ given ∈ rows, ∀ row ∈ given, row.read = true) →
      (f rows).Writes WritesReading) :
    (updateRows req roleId permissions >>= f).Writes WritesReading := by
  cases permissions with
  | none => exact hf none nofun
  | some given =>
      show ((normalized given >>= _) >>= f).Writes WritesReading
      rw [Program.bind_bind]
      refine writes_normalized_bind fun byCode hread => ?_
      rw [Program.bind_bind]
      refine (writes_validateScreenCodes byCode).bind fun _ => hf (some _) ?_
      rintro _ ⟨⟩
      exact read_permissionRows hread

theorem writes_updateRole (req : Request) (roleId : Uuid) (data : RoleUpdate) :
    (updateRole req roleId data).Writes WritesReading := by
  refine (writes_getRole roleId).bind fun role => ((Db.writes_throw _).when _).bind fun _ => ?_
  refine Db.Writes.bind ?_ fun _ => writes_updateRows_bind fun rows hread => ?_
  · cases data.name
    · exact Db.writes_pure _
    · exact writes_ensureNameAvailable _ _
  refine (Db.writes_save hread _ _).bind fun _ => Db.Writes.bind ?_ fun _ =>
    (writes_record _ _).bind fun _ => (Db.writes_query _).bind fun _ => Db.writes_pure _
  cases data.permissions
  · exact Db.writes_pure _
  · exact (Db.writes_query _).bind fun _ => Db.writes_pure _

theorem writes_deleteRole (req : Request) (roleId : Uuid) :
    (deleteRole req roleId).Writes WritesReading := by
  refine (writes_getRole roleId).bind fun role => ((Db.writes_throw _).when _).bind fun _ => ?_
  exact (Db.writes_commit (w := .updateRole _ _ none) nofun).bind fun _ => writes_record _ _

/-- A new screen gets a row that reads and writes. -/
theorem writes_createScreen (req : Request) (data : ScreenCreate) :
    (ScreenService.createScreen req data).Writes WritesReading := by
  refine (ScreenService.writes_chooseCode data).bind fun code => ?_
  refine ((Db.writes_query _).bind fun _ => (Db.writes_throw _).when _).bind fun _ => ?_
  refine (Db.writes_query _).bind fun superAdmin => ?_
  refine (Db.writes_save ?_ _ _).bind fun _ => (writes_record _ _).bind fun _ => Db.writes_pure _
  intro row hrow
  obtain ⟨role, -, rfl⟩ := Option.map_eq_some_iff.mp hrow
  rfl

/-- **Every commit of these requests keeps the grants reading.** -/
theorem writes_perform (req : Request) (call : Call) :
    (call.perform req).Writes WritesReading := by
  cases call with
  | role op =>
      cases op with
      | create data => exact (writes_createRole req data).drop
      | update roleId data => exact (writes_updateRole req roleId data).drop
      | delete roleId => exact writes_deleteRole req roleId
  | screen op =>
      cases op with
      | create data => exact (writes_createScreen req data).drop
      | update screenId data =>
          refine Db.Writes.drop ((ScreenService.writes_getScreen screenId).bind fun screen => ?_)
          refine ((Db.writes_throw _).when _).bind fun _ => ?_
          exact (Db.writes_save (w := .updateScreen _ _) trivial _ _).bind fun _ =>
            (writes_record _ _).bind fun _ => Db.writes_pure _
      | delete screenId =>
          refine (ScreenService.writes_getScreen screenId).bind fun screen => ?_
          refine ((Db.writes_throw _).when _).bind fun _ => ?_
          exact (Db.writes_commit (w := .updateScreen _ _) trivial).bind fun _ =>
            writes_record _ _

theorem grantsRead_of_reachable {seeded : Database} (hseeded : GrantsRead seeded)
    (h : (machine seeded).Reachable s) : GrantsRead s := by
  refine Machine.Reachable.invariant ?_ ?_ h
  · rintro _ rfl
    exact hseeded
  · rintro u ⟨req, call⟩ _ hu ⟨⟩
    exact (writes_perform req call).run_keeps (fun _ _ _ hw hread happly =>
      GrantsRead.apply hread hw happly) hu

end Reading

/-! ## The write-back -/

/-- Every grant of the role is on an active screen. -/
def OnActiveScreens (roleId : Uuid) (s : Database) : Prop :=
  ∀ row ∈ s.roleScreens, row.roleId = roleId → row.screenCode ∈ ScreenRepository.activeCodes s

/-- The grants of the role are as before, and whatever screens are active later, every admin
has the permissions they would have had. -/
structure Unharmed (roleId : Uuid) (s s' : Database) : Prop where
  grants : ∀ g, Granted s' roleId g ↔ Granted s roleId g
  later : ∀ (screens : Table Screen) (adminId : Uuid) (p : String),
    p ∈ RbacService.permissions { s' with screens := screens } adminId ↔
      p ∈ RbacService.permissions { s with screens := screens } adminId

section WriteBack
variable {req : Request} {roleId : Uuid} {s s' : Database}

/-- The list that `get_role` answers. -/
def shownList (s : Database) (roleId : Uuid) : List String :=
  expandPermissions (RoleRepository.permissionRows s roleId)

theorem mem_activeCodes {code : String} :
    code ∈ ScreenRepository.activeCodes s ↔
      (s.screenByCode code).any (fun screen => screen.status = .active) = true := by
  rw [Option.any_eq_true, ScreenRepository.activeCodes, List.mem_map]
  constructor
  · rintro ⟨screen, hscreen, hcode⟩
    obtain ⟨hmem, hactive⟩ := Table.mem_select.mp hscreen
    exact ⟨screen, Database.screenByCode_eq_some.mpr ⟨hmem, hcode⟩, hactive⟩
  · rintro ⟨screen, hfind, hactive⟩
    obtain ⟨hmem, hcode⟩ := Database.screenByCode_eq_some.mp hfind
    exact ⟨screen, Table.mem_select.mpr ⟨hmem, hactive⟩, hcode⟩

/-- What the list says of the grants that read. -/
theorem mem_shownList (hread : GrantsRead s) {p : String} :
    p ∈ shownList s roleId ↔ ∃ row ∈ s.roleScreens, row.roleId = roleId ∧
      row.screenCode ∈ ScreenRepository.activeCodes s ∧
      (p = row.screenCode ++ ".R" ∨ (row.write = true ∧ p = row.screenCode ++ ".W")) := by
  unfold shownList
  rw [mem_shown]
  constructor
  · rintro ⟨row, hrow, hrole, hactive, hp⟩
    rw [hread row hrow] at hp
    exact ⟨row, hrow, hrole, mem_activeCodes.mpr hactive, expandRow_eq.mp hp⟩
  · rintro ⟨row, hrow, hrole, hactive, hp⟩
    refine ⟨row, hrow, hrole, mem_activeCodes.mp hactive, ?_⟩
    rw [hread row hrow]
    exact expandRow_eq.mpr hp

theorem isPermission_of_mem_shownList (hread : GrantsRead s) {p : String}
    (h : p ∈ shownList s roleId) : IsPermission p := by
  obtain ⟨row, -, -, -, hp | ⟨-, hp⟩⟩ := (mem_shownList hread).mp h
  · exact ⟨row.screenCode, .inl hp⟩
  · exact ⟨row.screenCode, .inr hp⟩

theorem write_mem_shownList (hread : GrantsRead s) {code : String} :
    code ++ ".W" ∈ shownList s roleId ↔ ∃ row ∈ s.roleScreens, row.roleId = roleId ∧
      row.screenCode ∈ ScreenRepository.activeCodes s ∧ row.screenCode = code ∧
      row.write = true := by
  rw [mem_shownList hread]
  constructor
  · rintro ⟨row, hrow, hrole, hactive, hp | ⟨hwrite, hp⟩⟩
    · exact absurd hp.symm read_ne_write
    · exact ⟨row, hrow, hrole, hactive, (write_inj.mp hp).symm, hwrite⟩
  · rintro ⟨row, hrow, hrole, hactive, rfl, hwrite⟩
    exact ⟨row, hrow, hrole, hactive, .inr ⟨hwrite, rfl⟩⟩

/-- The list names the screens of the grants on active screens. -/
theorem names_shownList (hread : GrantsRead s) {code : String} :
    Names (shownList s roleId) code ↔ ∃ row ∈ s.roleScreens, row.roleId = roleId ∧
      row.screenCode ∈ ScreenRepository.activeCodes s ∧ row.screenCode = code := by
  rw [Names, write_mem_shownList hread, mem_shownList hread]
  constructor
  · rintro (⟨row, hrow, hrole, hactive, hp | ⟨-, hp⟩⟩ | ⟨row, hrow, hrole, hactive, hcode, -⟩)
    · exact ⟨row, hrow, hrole, hactive, (read_inj.mp hp).symm⟩
    · exact absurd hp read_ne_write
    · exact ⟨row, hrow, hrole, hactive, hcode⟩
  · rintro ⟨row, hrow, hrole, hactive, rfl⟩
    exact .inl ⟨row, hrow, hrole, hactive, .inl rfl⟩

/-- Of a grant on an active screen the list says whether it writes. -/
theorem written_shownList (hread : GrantsRead s) {row : RoleScreen} (hrow : row ∈ s.roleScreens)
    (hactive : row.screenCode ∈ ScreenRepository.activeCodes s) :
    decide (row.screenCode ++ ".W" ∈ shownList s row.roleId) = row.write := by
  rw [Bool.eq_iff_iff, decide_eq_true_eq, write_mem_shownList hread]
  constructor
  · rintro ⟨other, hother, hrole, -, hcode, hwrite⟩
    obtain rfl : other = row := Table.eq_of_key hother hrow (Prod.ext hrole hcode)
    exact hwrite
  · exact fun hwrite => ⟨row, hrow, rfl, hactive, rfl, hwrite⟩

/-- **What the write-back leaves of a role**: its grants on active screens. -/
theorem granted_writeBack (hread : GrantsRead s)
    (hmem : ∀ x, x ∈ s'.roleScreens ↔ (x ∈ s.roleScreens ∧ x.roleId ≠ roleId) ∨
      ∃ code, Names (shownList s roleId) code ∧
        x = grantRow req roleId (shownList s roleId) code) (g : String × Bool × Bool) :
    Granted s' roleId g ↔
      Granted s roleId g ∧ g.1 ∈ ScreenRepository.activeCodes s := by
  constructor
  · rintro ⟨x, hx, hrole, rfl⟩
    rcases (hmem x).mp hx with ⟨-, hother⟩ | ⟨code, hnamed, rfl⟩
    · exact absurd hrole hother
    · obtain ⟨row, hrow, rfl, hactive, rfl⟩ := (names_shownList hread).mp hnamed
      refine ⟨⟨row, hrow, rfl, ?_⟩, hactive⟩
      rw [hread row hrow, ← written_shownList hread hrow hactive]
      rfl
  · rintro ⟨⟨row, hrow, rfl, rfl⟩, hactive⟩
    refine ⟨grantRow req row.roleId (shownList s row.roleId) row.screenCode, ?_, rfl, ?_⟩
    · exact (hmem _).mpr (.inr ⟨_, (names_shownList hread).mpr ⟨row, hrow, rfl, hactive, rfl⟩, rfl⟩)
    · rw [hread row hrow, ← written_shownList hread hrow hactive]
      rfl

/-- The write-back keeps the grants of the role exactly where all are on active screens. -/
theorem grants_kept_iff (hread : GrantsRead s)
    (hmem : ∀ x, x ∈ s'.roleScreens ↔ (x ∈ s.roleScreens ∧ x.roleId ≠ roleId) ∨
      ∃ code, Names (shownList s roleId) code ∧
        x = grantRow req roleId (shownList s roleId) code) :
    (∀ g, Granted s' roleId g ↔ Granted s roleId g) ↔ OnActiveScreens roleId s := by
  simp only [granted_writeBack hread hmem]
  constructor
  · rintro h row hrow rfl
    exact ((h _).mpr ⟨row, hrow, rfl, rfl⟩).2
  · rintro h g
    refine ⟨And.left, fun hg => ⟨hg, ?_⟩⟩
    obtain ⟨row, hrow, hrole, rfl⟩ := hg
    exact h row hrow hrole

/-- Who has a permission, by the grants of roles. -/
theorem mem_permissions_iff_granted {adminId : Uuid} {p : String} :
    p ∈ RbacService.permissions s adminId ↔
      ∃ role g, Granted s role g ∧ (s.adminRoles.find? (adminId, role)).isSome ∧
        (s.roles.find? role).any (fun role => role.status = .active) ∧
        (s.screenByCode g.1).any (fun screen => screen.status = .active) ∧
        p ∈ RbacService.expandRow g := by
  rw [RbacService.mem_permissions]
  constructor
  · rintro ⟨row, hrow, hassigned, hrole, hscreen, hp⟩
    exact ⟨_, _, ⟨row, hrow, rfl, rfl⟩, hassigned, hrole, hscreen, hp⟩
  · rintro ⟨_, _, ⟨row, hrow, rfl, rfl⟩, hassigned, hrole, hscreen, hp⟩
    exact ⟨row, hrow, hassigned, hrole, hscreen, hp⟩

/-- Where the grants of the role are kept, so are the permissions of every admin under any
screens. -/
theorem unharmed_of_grants (hadminRoles : s'.adminRoles = s.adminRoles)
    (hroles : s'.roles = s.roles)
    (hothers : ∀ row : RoleScreen, row.roleId ≠ roleId →
      (row ∈ s'.roleScreens ↔ row ∈ s.roleScreens))
    (hgrants : ∀ g, Granted s' roleId g ↔ Granted s roleId g) : Unharmed roleId s s' where
  grants := hgrants
  later screens adminId p := by
    -- whatever the screens become, each role is granted the same
    have hall : ∀ role g, Granted { s' with screens := screens } role g ↔
        Granted { s with screens := screens } role g := by
      intro role g
      by_cases hrole : role = roleId
      · subst hrole
        exact hgrants g
      · constructor
        · rintro ⟨row, hrow, rfl, hg⟩
          exact ⟨row, (hothers row hrole).mp hrow, rfl, hg⟩
        · rintro ⟨row, hrow, rfl, hg⟩
          exact ⟨row, (hothers row hrole).mpr hrow, rfl, hg⟩
    rw [mem_permissions_iff_granted, mem_permissions_iff_granted]
    refine exists_congr fun role => exists_congr fun g => and_congr (hall role g) ?_
    show (s'.adminRoles.find? _).isSome ∧ (s'.roles.find? _).any _ ∧ _ ↔ _
    rw [hadminRoles, hroles]
    exact Iff.rfl

/-- A role is updated with nothing but the list it shows. -/
def writeBack (req : Request) (roleId : Uuid) (read : RoleRead) : Db RoleRead :=
  updateRole req roleId { permissions := some read.permissions }

/-- **The write-back**, in any state in which the grants read: it succeeds and leaves the grants
on active screens, so it harms nothing exactly where every grant of the role is on one. -/
theorem run_writeBack (req : Request) (hread : GrantsRead s) {role : Role}
    (hfind : s.roles.find? roleId = some role) (hname : role.name ≠ superAdminRoleName) :
    ∃ read read' s', (fetchRole roleId).run s = (.ok read, s) ∧
      (writeBack req roleId read).run s = (.ok read', s') ∧
      (∀ g, Granted s' roleId g ↔
        Granted s roleId g ∧ g.1 ∈ ScreenRepository.activeCodes s) ∧
      (Unharmed roleId s s' ↔ OnActiveScreens roleId s) := by
  have hactive : ∀ code, Names (shownList s roleId) code →
      code ∈ ScreenRepository.activeCodes s := by
    intro code hnamed
    obtain ⟨row, -, -, hactive, rfl⟩ := (names_shownList hread).mp hnamed
    exact hactive
  let data : RoleUpdate := { permissions := some (shownList s roleId) }
  have hfree : ∀ name ∈ data.name, ∀ existing, s.roleByName name = some existing →
      existing.id = roleId := by
    rintro name ⟨⟩
  obtain ⟨read', roles, outbox, roleScreens, hrun, hflush, hmem⟩ :=
    @run_updateRole_granted req _ s roleId data role hfind hname hfree rfl
      (fun _ => isPermission_of_mem_shownList hread) hactive
  -- nothing of the role itself was set
  have hroles : roles = s.roles := by
    rw [show assignUpdate data role = role from rfl, Table.flush, if_pos rfl] at hflush
    exact (Except.ok.inj hflush).symm
  refine ⟨_, read', _, run_fetchRole hfind, hrun, granted_writeBack hread hmem, ?_⟩
  let left : Database :=
    { s with roles := roles, roleScreens := roleScreens, auditIntents := outbox }
  have hkept : (∀ g, Granted left roleId g ↔ Granted s roleId g) ↔ OnActiveScreens roleId s :=
    grants_kept_iff hread hmem
  rw [← hkept]
  constructor
  · exact Unharmed.grants
  · intro hgrants
    refine unharmed_of_grants rfl hroles (fun row hrow => ?_) hgrants
    rw [hmem]
    constructor
    · rintro (⟨hold, -⟩ | ⟨code, -, rfl⟩)
      · exact hold
      · exact absurd rfl hrow
    · exact fun hold => .inl ⟨hold, hrow⟩

/-- **What a write-back keeps.** The role and screen services were called any number of times,
from a state whose grants read, as the migrations leave it and the seed script. Then a role other than super_admin
is read and its list written back: both succeed, the role keeps its grants on active screens
and no others. So the write-back does no harm, now or after screens became active again, if and
only if every grant of the role is on an active screen. -/
theorem writeBack_iff {seeded : Database} (hseeded : GrantsRead seeded)
    (hreach : (machine seeded).Reachable s) (req : Request) {role : Role}
    (hfind : s.roles.find? roleId = some role) (hname : role.name ≠ superAdminRoleName) :
    ∃ read read' s', (fetchRole roleId).run s = (.ok read, s) ∧
      (writeBack req roleId read).run s = (.ok read', s') ∧
      (∀ g, Granted s' roleId g ↔
        Granted s roleId g ∧ g.1 ∈ ScreenRepository.activeCodes s) ∧
      (Unharmed roleId s s' ↔ OnActiveScreens roleId s) :=
  run_writeBack req (grantsRead_of_reachable hseeded hreach) hfind hname

end WriteBack

/-! ## A grant that is lost -/

open Administration (sampleRequest)

/-- On a database that has been migrated but not seeded, two screens are created and a role that
reads them, and one of the screens is deleted. -/
def sampleCalls : List (Request × Call) :=
  [(sampleRequest 1, .screen (.create { name := "Reports", code := some "R1" })),
    (sampleRequest 2, .screen (.create { name := "Ledgers", code := some "R2" })),
    (sampleRequest 3, .role (.create { name := "auditor", permissions := ["R1.R", "R2.R"] })),
    (sampleRequest 4, .screen (.delete (.ofNat 102)))]

/-- What these requests leave. -/
def sampleLeft : Database :=
  ((machine Database.empty).exec sampleCalls Database.empty).getD Database.empty

theorem reachable_sampleLeft : (machine Database.empty).Reachable sampleLeft := by
  have hexec : (machine Database.empty).exec sampleCalls Database.empty = some sampleLeft := rfl
  exact Machine.reachable_of_exec rfl hexec

theorem grantsRead_empty : GrantsRead Database.empty := nofun

/-- The role of the run, and its grant on the deleted screen. -/
theorem auditor_sampleLeft :
    ∃ role, sampleLeft.roles.find? (.ofNat 103) = some role ∧ role.name ≠ superAdminRoleName ∧
      ∃ row ∈ sampleLeft.roleScreens, row.roleId = .ofNat 103 ∧
        row.screenCode ∉ ScreenRepository.activeCodes sampleLeft := by
  have hauditor : (sampleLeft.roles.find? (.ofNat 103)).map Role.name = some "auditor" := by
    decide +kernel
  obtain ⟨role, hfind, hname⟩ := Option.map_eq_some_iff.mp hauditor
  refine ⟨role, hfind, ?_, by decide +kernel⟩
  rw [hname]
  decide

theorem writeBack_iff_sampleLeft :
    ∃ read read' s', (fetchRole (.ofNat 103)).run sampleLeft = (.ok read, sampleLeft) ∧
      (writeBack (sampleRequest 5) (.ofNat 103) read).run sampleLeft = (.ok read', s') ∧
      (∀ g, Granted s' (.ofNat 103) g ↔ Granted sampleLeft (.ofNat 103) g ∧
        g.1 ∈ ScreenRepository.activeCodes sampleLeft) ∧
      (Unharmed (.ofNat 103) sampleLeft s' ↔ OnActiveScreens (.ofNat 103) sampleLeft) := by
  obtain ⟨role, hfind, hname, -⟩ := auditor_sampleLeft
  exact writeBack_iff grantsRead_empty reachable_sampleLeft (sampleRequest 5) hfind hname

/-- **A write-back that loses a grant**: the auditor's, on the screen that was deleted. -/
theorem not_unharmed_sampleLeft :
    (machine Database.empty).Reachable sampleLeft ∧
      ∃ role read read' s', sampleLeft.roles.find? (.ofNat 103) = some role ∧
        role.name ≠ superAdminRoleName ∧
        (fetchRole (.ofNat 103)).run sampleLeft = (.ok read, sampleLeft) ∧
        (writeBack (sampleRequest 5) (.ofNat 103) read).run sampleLeft = (.ok read', s') ∧
        ¬ Unharmed (.ofNat 103) sampleLeft s' := by
  obtain ⟨role, hfind, hname, row, hrow, hrole, hinactive⟩ := auditor_sampleLeft
  have hread : GrantsRead sampleLeft :=
    grantsRead_of_reachable grantsRead_empty reachable_sampleLeft
  obtain ⟨read, read', s', hfetch, hwrite, -, hharm⟩ :=
    run_writeBack (sampleRequest 5) hread hfind hname
  refine ⟨reachable_sampleLeft, role, read, read', s', hfind, hname, hfetch, hwrite, ?_⟩
  rw [hharm]
  intro hactive
  exact hinactive (hactive row hrow hrole)

end AdminPlatform.WriteBack
