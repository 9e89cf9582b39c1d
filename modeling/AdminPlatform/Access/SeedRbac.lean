import AdminPlatform.Access.Seeded

/-! # Seeding the catalog

`app/database/scripts/seed_rbac.py` in one transaction: it creates the role super_admin, the
screens of the catalog and the permissions of the role on them, where they are missing, and then
assigns the role to every admin.

The rows that are there stay as they are, and what is added comes from the catalog
(`seed_spec`). `backfills_iff` says when the admins that had a role keep the roles they had. -/

namespace AdminPlatform.SeedRbac
open AdminPlatform.Lib

/-! ## The script -/

structure CatalogScreen where
  code : String
  name : String
  sortOrder : Nat
  read : Bool
  write : Bool
  deriving DecidableEq

/-- `SCREENS`. -/
def screens : List CatalogScreen :=
  [⟨"S1", "User Management", 1, true, true⟩,
   ⟨"S2", "Audit Logs", 2, true, false⟩,
   ⟨"S3", "Role Management", 3, true, true⟩,
   ⟨"S4", "Screen Management", 4, true, true⟩]

/-- The permissions super_admin gets are those of the catalog. -/
theorem catalog_eq_screens :
    Administration.catalog = screens.map fun entry => (entry.code, entry.read, entry.write) := rfl

/-- What one run of the script draws: the ids of the rows it creates, and the time. -/
structure Draws where
  roleId : Uuid
  /-- By the code of the screen. -/
  screenId : String → Uuid
  now : Instant

variable (draws : Draws)

def newRole (name : String) : Role where
  id := draws.roleId
  name := name
  description := none
  status := .active
  createdAt := draws.now

def newScreen (code name : String) (sortOrder : Nat) : Screen where
  id := draws.screenId code
  code := code
  name := name
  sortOrder := sortOrder
  status := .active
  createdAt := draws.now

def newPermission (roleId : Uuid) (code : String) (read write : Bool) : RoleScreen where
  roleId := roleId
  screenCode := code
  read := read
  write := write
  createdAt := draws.now

def newAssignment (roleId adminId : Uuid) : PlatformAdminRole where
  platformAdminId := adminId
  roleId := roleId
  createdAt := draws.now

/-- The row a look-up finds, else a new one that is added and flushed. -/
def getOrCreateWith {α : Type} (find : Database → Option α) (row : α)
    (add : Database → Except DbError Database) (s : Database) : Except DbError (α × Database) :=
  match find s with
  | some existing => return (existing, s)
  | none => do
      let s ← add s
      return (row, s)

/-- `_get_or_create`, of a role. -/
def getOrCreate (name : String) : Database → Except DbError (Role × Database) :=
  getOrCreateWith (fun s => s.roleByName name) (newRole draws name)
    (Write.insertRole (newRole draws name) []).apply

def getOrCreateScreen (code name : String) (sortOrder : Nat) :
    Database → Except DbError (Screen × Database) :=
  getOrCreateWith (fun s => s.screenByCode code) (newScreen draws code name sortOrder)
    (Write.insertScreen (newScreen draws code name sortOrder) none).apply

def getOrCreatePermission (roleId : Uuid) (code : String) (read write : Bool) :
    Database → Except DbError (RoleScreen × Database) :=
  getOrCreateWith (fun s => s.roleScreens.find? (roleId, code))
    (newPermission draws roleId code read write)
    (fun s => s.insertRoleScreens [newPermission draws roleId code read write])

/-- One turn of the loop over `SCREENS`. -/
def ensureScreen (roleId : Uuid) (s : Database) (entry : CatalogScreen) :
    Except DbError Database := do
  let (_, s) ← getOrCreateScreen draws entry.code entry.name entry.sortOrder s
  let (_, s) ← getOrCreatePermission draws roleId entry.code entry.read entry.write s
  return s

def ensureCatalog (s : Database) : Except DbError Database := do
  let (role, s) ← getOrCreate draws superAdminRoleName s
  screens.foldlM (ensureScreen draws role.id) s

def assignSuperAdmin (s : Database) (adminId : Uuid) : Except DbError Database := do
  let (role, s) ← getOrCreate draws superAdminRoleName s
  match s.adminRoles.find? (adminId, role.id) with
  | none => (Write.insertAdminRole (newAssignment draws role.id adminId)).apply s
  | some _ => return s

/-- The transaction: where a statement fails, nothing is committed. -/
def seed (s : Database) : Except DbError Database := do
  let s ← ensureCatalog draws s
  s.admins.rows.foldlM (fun s admin => assignSuperAdmin draws s admin.id) s

/-! ## What a run adds -/

/-- The rows that were there stay, and what is new comes from the catalog, or is an assignment
of the role to an admin. -/
structure Extends (roleId : Uuid) (s s' : Database) : Prop where
  roles : ∀ x ∈ s.roles, x ∈ s'.roles
  screens : ∀ x ∈ s.screens, x ∈ s'.screens
  roleScreens : ∀ x ∈ s.roleScreens, x ∈ s'.roleScreens
  adminRoles : ∀ x ∈ s.adminRoles, x ∈ s'.adminRoles
  newRoles : ∀ x ∈ s'.roles, x ∈ s.roles ∨ x = newRole draws superAdminRoleName
  newScreens : ∀ x ∈ s'.screens, x ∈ s.screens ∨
    ∃ entry ∈ SeedRbac.screens, x = newScreen draws entry.code entry.name entry.sortOrder
  newRoleScreens : ∀ x ∈ s'.roleScreens, x ∈ s.roleScreens ∨
    ∃ entry ∈ SeedRbac.screens, x = newPermission draws roleId entry.code entry.read entry.write
  newAdminRoles : ∀ x ∈ s'.adminRoles, x ∈ s.adminRoles ∨
    ∃ admin ∈ s.admins, x = newAssignment draws roleId admin.id
  others : s' = { s with
    roles := s'.roles, screens := s'.screens, roleScreens := s'.roleScreens
    adminRoles := s'.adminRoles }

variable {draws} {roleId : Uuid} {s s' s'' : Database}

theorem Extends.admins (h : Extends draws roleId s s') : s'.admins = s.admins := by
  rw [h.others]

theorem Extends.refl : Extends draws roleId s s where
  roles _ hx := hx
  screens _ hx := hx
  roleScreens _ hx := hx
  adminRoles _ hx := hx
  newRoles _ hx := .inl hx
  newScreens _ hx := .inl hx
  newRoleScreens _ hx := .inl hx
  newAdminRoles _ hx := .inl hx
  others := rfl

theorem Extends.trans (h : Extends draws roleId s s') (h' : Extends draws roleId s' s'') :
    Extends draws roleId s s'' where
  roles x hx := h'.roles x (h.roles x hx)
  screens x hx := h'.screens x (h.screens x hx)
  roleScreens x hx := h'.roleScreens x (h.roleScreens x hx)
  adminRoles x hx := h'.adminRoles x (h.adminRoles x hx)
  newRoles x hx := (h'.newRoles x hx).elim (h.newRoles x) .inr
  newScreens x hx := (h'.newScreens x hx).elim (h.newScreens x) .inr
  newRoleScreens x hx := (h'.newRoleScreens x hx).elim (h.newRoleScreens x) .inr
  newAdminRoles x hx := (h'.newAdminRoles x hx).elim (h.newAdminRoles x)
    (fun hnew => .inr (h.admins ▸ hnew))
  others := by
    rw [h'.others, h.others]

/-! ### Look-ups only find more -/

theorem Extends.roleByName (h : Extends draws roleId s s') {name : String} {role : Role}
    (hrole : s.roleByName name = some role) : s'.roleByName name = some role := by
  obtain ⟨hmem, hname⟩ := Database.roleByName_eq_some.mp hrole
  exact Database.roleByName_eq_some.mpr ⟨h.roles _ hmem, hname⟩

theorem Extends.screenByCode (h : Extends draws roleId s s') {code : String}
    (hscreen : (s.screenByCode code).isSome) : (s'.screenByCode code).isSome := by
  obtain ⟨screen, hscreen⟩ := Option.isSome_iff_exists.mp hscreen
  obtain ⟨hmem, hcode⟩ := Database.screenByCode_eq_some.mp hscreen
  rw [Database.screenByCode_eq_some.mpr ⟨h.screens _ hmem, hcode⟩]
  rfl

theorem isSome_find?_mono {α : Type} [Row α] [DecidableEq α] {t t' : Table α} {k : Row.Key α}
    (hsub : ∀ x ∈ t, x ∈ t') (h : (t.find? k).isSome) : (t'.find? k).isSome := by
  obtain ⟨x, hx⟩ := Option.isSome_iff_exists.mp h
  obtain ⟨hmem, hkey⟩ := Table.find?_eq_some.mp hx
  rw [Table.find?_eq_some.mpr ⟨hsub x hmem, hkey⟩]
  rfl

/-! ## The parts of a run -/

/-- The ids a run draws are not in use. -/
structure Fresh (draws : Draws) (s : Database) : Prop where
  role : ∀ role ∈ s.roles, role.id ≠ draws.roleId
  assigned : ∀ x ∈ s.adminRoles, x.roleId ≠ draws.roleId
  granted : ∀ x ∈ s.roleScreens, x.roleId ≠ draws.roleId
  screen : ∀ entry ∈ screens, ∀ screen ∈ s.screens, screen.id ≠ draws.screenId entry.code
  distinct : (screens.map fun entry => draws.screenId entry.code).Nodup

theorem getOrCreateWith_some {α : Type} {find : Database → Option α} {existing row : α}
    {add : Database → Except DbError Database} (h : find s = some existing) :
    getOrCreateWith find row add s = .ok (existing, s) := by
  rw [getOrCreateWith, h]
  rfl

theorem getOrCreateWith_none {α : Type} {find : Database → Option α} {row : α}
    {add : Database → Except DbError Database} (h : find s = none) (hadd : add s = .ok s') :
    getOrCreateWith find row add s = .ok (row, s') := by
  rw [getOrCreateWith, h]
  show (add s >>= _) = _
  rw [hadd]
  rfl

/-- The role is there, or it is created under its fresh id. -/
theorem getOrCreate_spec (hfresh : ∀ role ∈ s.roles, role.id ≠ draws.roleId) :
    ∃ role s', getOrCreate draws superAdminRoleName s = .ok (role, s') ∧
      s'.roleByName superAdminRoleName = some role ∧
      (role ∈ s.roles ∨ role.id = draws.roleId) ∧ s'.screens = s.screens ∧
      Extends draws role.id s s' := by
  unfold getOrCreate
  cases hrole : s.roleByName superAdminRoleName with
  | some role =>
      have hmem := (Database.roleByName_eq_some.mp hrole).1
      exact ⟨role, s, getOrCreateWith_some hrole, hrole, .inl hmem, rfl, .refl⟩
  | none =>
      obtain ⟨roles, hinsert⟩ : ∃ roles,
          s.roles.insert (newRole draws superAdminRoleName) = some roles := by
        refine Table.exists_insert fun other hother hclash => ?_
        rcases hclash with hid | hname
        · exact hfresh other hother hid
        · have hfound := Database.roleByName_eq_some.mpr ⟨hother, hname⟩
          exact Option.some_ne_none other (hfound.symm.trans hrole)
      have hadd : (Write.insertRole (newRole draws superAdminRoleName) []).apply s =
          .ok { s with roles := roles } := by
        rw [Write.apply, hinsert]
        exact Database.insertRoleScreens_nil _
      refine ⟨newRole draws superAdminRoleName, _, getOrCreateWith_none hrole hadd,
        Database.roleByName_eq_some.mpr ⟨(Table.mem_insert hinsert).mpr (.inr rfl), rfl⟩,
        .inr rfl, rfl, ?_⟩
      exact
        { Extends.refl with
          roles := fun x hx => (Table.mem_insert hinsert).mpr (.inl hx)
          newRoles := fun x hx => (Table.mem_insert hinsert).mp hx
          others := rfl }

/-- The screen is there, or it is created under its fresh id. -/
theorem getOrCreateScreen_spec {entry : CatalogScreen} (hentry : entry ∈ screens)
    (hfresh : s.screenByCode entry.code = none →
      ∀ screen ∈ s.screens, screen.id ≠ draws.screenId entry.code) (roleId : Uuid) :
    ∃ screen s', getOrCreateScreen draws entry.code entry.name entry.sortOrder s =
        .ok (screen, s') ∧
      (s'.screenByCode entry.code).isSome ∧ s'.roles = s.roles ∧
      (∀ x ∈ s'.screens, x ∈ s.screens ∨ x.id = draws.screenId entry.code) ∧
      Extends draws roleId s s' := by
  unfold getOrCreateScreen
  cases hscreen : s.screenByCode entry.code with
  | some screen =>
      exact ⟨screen, s, getOrCreateWith_some hscreen, Option.isSome_iff_exists.mpr ⟨_, hscreen⟩,
        rfl, fun x hx => .inl hx, .refl⟩
  | none =>
      obtain ⟨screens, hinsert⟩ : ∃ screens,
          s.screens.insert (newScreen draws entry.code entry.name entry.sortOrder) =
            some screens := by
        refine Table.exists_insert fun other hother hclash => ?_
        rcases hclash with hid | hcode
        · exact hfresh hscreen other hother hid
        · have hfound := Database.screenByCode_eq_some.mpr ⟨hother, hcode⟩
          exact Option.some_ne_none other (hfound.symm.trans hscreen)
      have hadd : (Write.insertScreen (newScreen draws entry.code entry.name entry.sortOrder)
          none).apply s = .ok { s with screens := screens } :=
        apply_insertScreen_none.mpr ⟨screens, hinsert, rfl⟩
      have hnew : newScreen draws entry.code entry.name entry.sortOrder ∈ screens :=
        (Table.mem_insert hinsert).mpr (.inr rfl)
      refine ⟨_, _, getOrCreateWith_none hscreen hadd, ?_, rfl, ?_, ?_⟩
      · exact Option.isSome_iff_exists.mpr ⟨_, Database.screenByCode_eq_some.mpr ⟨hnew, rfl⟩⟩
      · intro x hx
        refine ((Table.mem_insert hinsert).mp hx).imp_right ?_
        rintro rfl
        rfl
      · exact
          { Extends.refl with
            screens := fun x hx => (Table.mem_insert hinsert).mpr (.inl hx)
            newScreens := fun x hx =>
              ((Table.mem_insert hinsert).mp hx).imp_right fun hx => ⟨entry, hentry, hx⟩
            others := rfl }

/-- The permission is there, or it is created. -/
theorem getOrCreatePermission_spec {entry : CatalogScreen} (hentry : entry ∈ screens)
    {role : Role} (hrole : role ∈ s.roles) (hscreen : (s.screenByCode entry.code).isSome) :
    ∃ row s', getOrCreatePermission draws role.id entry.code entry.read entry.write s =
        .ok (row, s') ∧
      (s'.roleScreens.find? (role.id, entry.code)).isSome ∧ s'.roles = s.roles ∧
      s'.screens = s.screens ∧ Extends draws role.id s s' := by
  unfold getOrCreatePermission
  cases hrow : s.roleScreens.find? (role.id, entry.code) with
  | some row =>
      exact ⟨row, s, getOrCreateWith_some hrow, Option.isSome_iff_exists.mpr ⟨_, hrow⟩, rfl, rfl,
        .refl⟩
  | none =>
      have hparents : s.HasParents
          (newPermission draws role.id entry.code entry.read entry.write) :=
        ⟨Option.isSome_iff_exists.mpr ⟨role, Table.find?_eq_some.mpr ⟨hrole, rfl⟩⟩, hscreen⟩
      obtain ⟨roleScreens, hinsert⟩ : ∃ roleScreens, s.roleScreens.insert
          (newPermission draws role.id entry.code entry.read entry.write) = some roleScreens :=
        Table.exists_insert fun other hother hclash =>
          Table.find?_eq_none.mp hrow other hother hclash
      have hadd : s.insertRoleScreens
          [newPermission draws role.id entry.code entry.read entry.write] =
          .ok { s with roleScreens := roleScreens } := by
        have hall : ∀ row ∈ [newPermission draws role.id entry.code entry.read entry.write],
            s.HasParents row := fun row hrow => List.mem_singleton.mp hrow ▸ hparents
        have hrows : s.roleScreens.insertAll
            [newPermission draws role.id entry.code entry.read entry.write] = some roleScreens :=
          hinsert
        rw [Database.insertRoleScreens, if_pos hall, hrows]
      refine ⟨_, _, getOrCreateWith_none hrow hadd, ?_, rfl, rfl, ?_⟩
      · exact Option.isSome_iff_exists.mpr
          ⟨_, Table.find?_eq_some.mpr ⟨(Table.mem_insert hinsert).mpr (.inr rfl), rfl⟩⟩
      · exact
          { Extends.refl with
            roleScreens := fun x hx => (Table.mem_insert hinsert).mpr (.inl hx)
            newRoleScreens := fun x hx =>
              ((Table.mem_insert hinsert).mp hx).imp_right fun hx => ⟨entry, hentry, hx⟩
            others := rfl }

/-! ## The loops -/

/-- A loop whose every turn does its part and undoes no other: it ends with all parts done. -/
theorem exists_foldlM {α σ ε : Type} {f : σ → α → Except ε σ} {R : σ → σ → Prop} {P : σ → Prop}
    {done : α → σ → Prop} {l : List α}
    (hturn : ∀ a ∈ l, ∀ s, P s → ∃ t, f s a = .ok t ∧ R s t ∧ P t ∧ done a t)
    (hrefl : ∀ s, R s s) (htrans : ∀ {s t u}, R s t → R t u → R s u)
    (hkept : ∀ {a s t}, R s t → done a s → done a t) {s : σ} (hs : P s) :
    ∃ t, l.foldlM f s = .ok t ∧ R s t ∧ P t ∧ ∀ a ∈ l, done a t := by
  induction l generalizing s with
  | nil => exact ⟨s, rfl, hrefl s, hs, nofun⟩
  | cons a l ih =>
      obtain ⟨t, ht, hst, hPt, hdone⟩ := hturn a List.mem_cons_self s hs
      obtain ⟨u, hu, htu, hPu, hrest⟩ :=
        ih (fun b hb => hturn b (List.mem_cons_of_mem a hb)) hPt
      refine ⟨u, ?_, htrans hst htu, hPu, List.forall_mem_cons.mpr ⟨hkept htu hdone, hrest⟩⟩
      rw [List.foldlM_cons, ht]
      exact hu

/-- A loop none of whose turns does anything. -/
theorem foldlM_eq_self {α σ ε : Type} {f : σ → α → Except ε σ} {l : List α} {s : σ}
    (h : ∀ a ∈ l, f s a = .ok s) : l.foldlM f s = .ok s := by
  induction l with
  | nil => rfl
  | cons a l ih =>
      rw [List.foldlM_cons, h a List.mem_cons_self]
      exact ih fun b hb => h b (List.mem_cons_of_mem a hb)

/-- The role is in place, and the ids of the screens still to be created are free. -/
structure Ready (draws : Draws) (role : Role) (s : Database) : Prop where
  found : s.roleByName superAdminRoleName = some role
  free : ∀ entry ∈ screens, s.screenByCode entry.code = none →
    ∀ screen ∈ s.screens, screen.id ≠ draws.screenId entry.code

theorem screenId_inj (hdistinct : (screens.map fun entry => draws.screenId entry.code).Nodup)
    {a b : CatalogScreen} (ha : a ∈ screens) (hb : b ∈ screens)
    (h : draws.screenId a.code = draws.screenId b.code) : a = b :=
  List.inj_on_of_nodup_map hdistinct ha hb h

/-- The screen of a catalog entry exists, and the role's permission on it. -/
def InCatalog (role : Role) (entry : CatalogScreen) (s : Database) : Prop :=
  (s.screenByCode entry.code).isSome ∧ (s.roleScreens.find? (role.id, entry.code)).isSome

theorem ensureScreen_spec (hdistinct : (screens.map fun entry => draws.screenId entry.code).Nodup)
    {role : Role} {entry : CatalogScreen} (hentry : entry ∈ screens) (h : Ready draws role s) :
    ∃ s', ensureScreen draws role.id s entry = .ok s' ∧ Extends draws role.id s s' ∧
      Ready draws role s' ∧ InCatalog role entry s' := by
  obtain ⟨screen, t, hcreate, hscreen, hroles, hscreens, hst⟩ :=
    @getOrCreateScreen_spec draws s entry hentry (h.free entry hentry) role.id
  have hrole := hst.roleByName h.found
  obtain ⟨row, u, hgrant, hrow, hroles', hscreens', htu⟩ :=
    @getOrCreatePermission_spec draws t entry hentry role
      (Database.roleByName_eq_some.mp hrole).1 hscreen
  refine ⟨u, ?_, hst.trans htu, ⟨htu.roleByName hrole, ?_⟩, htu.screenByCode hscreen, hrow⟩
  · unfold ensureScreen
    rw [hcreate]
    show (getOrCreatePermission draws role.id entry.code entry.read entry.write t >>= _) = _
    rw [hgrant]
    rfl
  · intro other hother hnone screen hscreen' hid
    have hin : screen ∈ t.screens := hscreens' ▸ hscreen'
    rcases hscreens screen hin with hold | hnew
    · refine h.free other hother ?_ screen hold hid
      refine Option.not_isSome_iff_eq_none.mp fun hsome => ?_
      have hstays := (hst.trans htu).screenByCode hsome
      rw [hnone] at hstays
      cases hstays
    -- the row just created has the id of its own code only
    · obtain rfl := screenId_inj hdistinct hother hentry (hid.symm.trans hnew)
      have hsome := htu.screenByCode hscreen
      rw [hnone] at hsome
      cases hsome

theorem InCatalog.mono {role : Role} {entry : CatalogScreen} (h : Extends draws role.id s s')
    (hin : InCatalog role entry s) : InCatalog role entry s' :=
  ⟨h.screenByCode hin.1, isSome_find?_mono h.roleScreens hin.2⟩

/-- The role has been created, the catalog is complete. -/
theorem ensureCatalog_spec (hfresh : Fresh draws s) :
    ∃ role s', ensureCatalog draws s = .ok s' ∧ s'.roleByName superAdminRoleName = some role ∧
      (role ∈ s.roles ∨ role.id = draws.roleId) ∧ (∀ entry ∈ screens, InCatalog role entry s') ∧
      Extends draws role.id s s' := by
  obtain ⟨role, t, hcreate, hrole, hid, hscreens, hst⟩ := getOrCreate_spec hfresh.role
  have hready : Ready draws role t := by
    refine ⟨hrole, fun entry hentry _ screen hscreen => ?_⟩
    exact hfresh.screen entry hentry screen (hscreens ▸ hscreen)
  have hturn : ∀ entry ∈ screens, ∀ s, Ready draws role s →
      ∃ s', ensureScreen draws role.id s entry = .ok s' ∧ Extends draws role.id s s' ∧
        Ready draws role s' ∧ InCatalog role entry s' :=
    fun _ hentry _ hs => ensureScreen_spec hfresh.distinct hentry hs
  obtain ⟨u, hloop, htu, hready', hcatalog⟩ :=
    exists_foldlM hturn (fun _ => Extends.refl) Extends.trans InCatalog.mono hready
  refine ⟨role, u, ?_, hready'.found, hid, hcatalog, hst.trans htu⟩
  unfold ensureCatalog
  rw [hcreate]
  exact hloop

/-- The role is in place, and so are the admins. -/
structure Assignable (role : Role) (admins : Table PlatformAdmin) (s : Database) : Prop where
  found : s.roleByName superAdminRoleName = some role
  admins : s.admins = admins

/-- An admin holds a role. -/
def Holds (s : Database) (adminId roleId : Uuid) : Prop :=
  (s.adminRoles.find? (adminId, roleId)).isSome

instance (s : Database) (adminId roleId : Uuid) : Decidable (Holds s adminId roleId) := by
  unfold Holds; infer_instance

theorem Holds.mono {adminId roleId' : Uuid} (h : Extends draws roleId s s')
    (hheld : Holds s adminId roleId') : Holds s' adminId roleId' := by
  unfold Holds at *
  exact isSome_find?_mono h.adminRoles hheld

theorem assignSuperAdmin_spec {role : Role} {admins : Table PlatformAdmin}
    {admin : PlatformAdmin} (hadmin : admin ∈ admins) (h : Assignable role admins s) :
    ∃ s', assignSuperAdmin draws s admin.id = .ok s' ∧ Extends draws role.id s s' ∧
      Assignable role admins s' ∧ Holds s' admin.id role.id := by
  unfold assignSuperAdmin getOrCreate
  rw [getOrCreateWith_some h.found]
  show ∃ s', (match s.adminRoles.find? (admin.id, role.id) with
    | none => (Write.insertAdminRole (newAssignment draws role.id admin.id)).apply s
    | some _ => return s) = .ok s' ∧ _
  cases hheld : s.adminRoles.find? (admin.id, role.id) with
  | some row => exact ⟨s, rfl, .refl, h, Option.isSome_iff_exists.mpr ⟨row, hheld⟩⟩
  | none =>
      have hin : admin ∈ s.admins := h.admins ▸ hadmin
      have hrole := (Database.roleByName_eq_some.mp h.found).1
      obtain ⟨t, hinsert⟩ : ∃ t,
          s.adminRoles.insert (newAssignment draws role.id admin.id) = some t :=
        Table.exists_insert fun other hother hclash =>
          Table.find?_eq_none.mp hheld other hother hclash
      refine ⟨{ s with adminRoles := t }, apply_insertAdminRole_eq ?_ ?_ hinsert, ?_,
        ⟨h.found, h.admins⟩, ?_⟩
      · exact Option.isSome_iff_exists.mpr ⟨admin, Table.find?_eq_some.mpr ⟨hin, rfl⟩⟩
      · exact Option.isSome_iff_exists.mpr ⟨role, Table.find?_eq_some.mpr ⟨hrole, rfl⟩⟩
      · exact
          { Extends.refl with
            adminRoles := fun x hx => (Table.mem_insert hinsert).mpr (.inl hx)
            newAdminRoles := fun x hx =>
              ((Table.mem_insert hinsert).mp hx).imp_right fun hx => ⟨admin, hin, hx⟩
            others := rfl }
      · exact Option.isSome_iff_exists.mpr
          ⟨_, Table.find?_eq_some.mpr ⟨(Table.mem_insert hinsert).mpr (.inr rfl), rfl⟩⟩

/-- What a run leaves: the role, the catalog, and the role assigned to every admin. -/
structure Complete (role : Role) (s : Database) : Prop where
  found : s.roleByName superAdminRoleName = some role
  catalog : ∀ entry ∈ screens, InCatalog role entry s
  assigned : ∀ admin ∈ s.admins, Holds s admin.id role.id

/-- **All that seeding does.** -/
theorem seed_spec (hfresh : Fresh draws s) :
    ∃ role s', seed draws s = .ok s' ∧ (role ∈ s.roles ∨ role.id = draws.roleId) ∧
      Complete role s' ∧ Extends draws role.id s s' := by
  obtain ⟨role, t, hcatalog, hrole, hid, hin, hst⟩ := ensureCatalog_spec hfresh
  have hturn : ∀ admin ∈ t.admins.rows, ∀ s, Assignable role t.admins s →
      ∃ s', assignSuperAdmin draws s admin.id = .ok s' ∧ Extends draws role.id s s' ∧
        Assignable role t.admins s' ∧ Holds s' admin.id role.id :=
    fun _ hadmin _ hs => assignSuperAdmin_spec hadmin hs
  obtain ⟨u, hloop, htu, hdone, hassigned⟩ :=
    exists_foldlM hturn (fun _ => Extends.refl) Extends.trans Holds.mono ⟨hrole, rfl⟩
  refine ⟨role, u, ?_, hid, ⟨hdone.found, fun entry hentry => (hin entry hentry).mono htu, ?_⟩,
    hst.trans htu⟩
  · unfold seed
    rw [hcatalog]
    exact hloop
  · intro admin hadmin
    exact hassigned admin (hdone.admins ▸ hadmin)

/-- **Seeding again changes nothing.** -/
theorem seed_complete {role : Role} (h : Complete role s) (draws : Draws) :
    seed draws s = .ok s := by
  have hcatalog : ensureCatalog draws s = .ok s := by
    unfold ensureCatalog getOrCreate
    rw [getOrCreateWith_some h.found]
    refine foldlM_eq_self fun entry hentry => ?_
    obtain ⟨screen, hscreen⟩ := Option.isSome_iff_exists.mp (h.catalog entry hentry).1
    obtain ⟨row, hrow⟩ := Option.isSome_iff_exists.mp (h.catalog entry hentry).2
    unfold ensureScreen getOrCreateScreen getOrCreatePermission
    rw [getOrCreateWith_some hscreen]
    show (getOrCreateWith _ _ _ s >>= _) = _
    rw [getOrCreateWith_some hrow]
    rfl
  unfold seed
  rw [hcatalog]
  refine foldlM_eq_self fun admin hadmin => ?_
  obtain ⟨row, hrow⟩ := Option.isSome_iff_exists.mp (h.assigned admin hadmin)
  unfold assignSuperAdmin getOrCreate
  rw [getOrCreateWith_some h.found]
  show (match s.adminRoles.find? (admin.id, role.id) with
    | none => (Write.insertAdminRole (newAssignment draws role.id admin.id)).apply s
    | some _ => return s) = _
  rw [hrow]
  rfl

/-! ## Backfilling -/

/-- The admin holds some role. -/
def HasRole (s : Database) (adminId : Uuid) : Prop :=
  ∃ x ∈ s.adminRoles, x.platformAdminId = adminId

/-- The admin holds the role super_admin. -/
def IsSuperAdmin (s : Database) (adminId : Uuid) : Prop :=
  ∃ role, s.roleByName superAdminRoleName = some role ∧ Holds s adminId role.id

/-- From `s` to `s'` the rows that were there stay and the catalog is completed; the role is
assigned to the admins that had none, and to no other. -/
structure OnlyBackfills (draws : Draws) (role : Role) (s s' : Database) : Prop where
  kept : Extends draws role.id s s'
  found : s'.roleByName superAdminRoleName = some role
  catalog : ∀ entry ∈ screens, InCatalog role entry s'
  assigned : ∀ admin ∈ s.admins, ¬ HasRole s admin.id → Holds s' admin.id role.id
  others : ∀ x ∈ s'.adminRoles, HasRole s x.platformAdminId → x ∈ s.adminRoles

/-- A run only backfills, and another run right after it changes nothing. -/
def Backfills (draws : Draws) (s : Database) : Prop :=
  ∃ role s', seed draws s = .ok s' ∧ OnlyBackfills draws role s s' ∧
    ∀ draws', seed draws' s' = .ok s'

/-- **When seeding only backfills**: exactly if every admin that has a role is a super_admin
already. -/
theorem backfills_iff (draws : Draws) (s : Database) (hfresh : Fresh draws s) :
    Backfills draws s ↔ ∀ admin ∈ s.admins, HasRole s admin.id → IsSuperAdmin s admin.id := by
  obtain ⟨role, s', hseed, hid, hcomplete, hkept⟩ := seed_spec hfresh
  constructor
  · rintro ⟨role', t, hseed', honly, -⟩ admin hadmin hhas
    obtain rfl : s' = t := Except.ok.inj (hseed.symm.trans hseed')
    have hheld := hcomplete.assigned admin (hkept.admins ▸ hadmin)
    obtain ⟨x, hx⟩ := Option.isSome_iff_exists.mp hheld
    obtain ⟨hmem, hkey⟩ := Table.find?_eq_some.mp hx
    obtain ⟨hxadmin, hxrole⟩ := Prod.mk.inj hkey
    have hold : x ∈ s.adminRoles := honly.others x hmem (hxadmin ▸ hhas)
    -- a role some admin holds is not the one that was created
    have hrole : role ∈ s.roles :=
      hid.resolve_right fun hnew => hfresh.assigned x hold (hxrole.trans hnew)
    have hname := (Database.roleByName_eq_some.mp hcomplete.found).2
    exact ⟨role, Database.roleByName_eq_some.mpr ⟨hrole, hname⟩,
      Option.isSome_iff_exists.mpr ⟨x, Table.find?_eq_some.mpr ⟨hold, hkey⟩⟩⟩
  · intro hsuper
    refine ⟨role, s', hseed, ⟨hkept, hcomplete.found, hcomplete.catalog, ?_, ?_⟩,
      seed_complete hcomplete⟩
    · intro admin hadmin _
      exact hcomplete.assigned admin (hkept.admins ▸ hadmin)
    · intro x hx hhas
      rcases hkept.newAdminRoles x hx with hold | ⟨admin, hadmin, rfl⟩
      · exact hold
      · obtain ⟨role', hrole', hheld⟩ := hsuper admin hadmin hhas
        obtain rfl : role' = role :=
          Option.some.inj ((hkept.roleByName hrole').symm.trans hcomplete.found)
        obtain ⟨y, hy⟩ := Option.isSome_iff_exists.mp hheld
        obtain ⟨hmem, hkey⟩ := Table.find?_eq_some.mp hy
        rwa [← Table.eq_of_key (hkept.adminRoles y hmem) hx hkey]

/-! ## Seeded states -/

theorem code_inj {a b : CatalogScreen} (ha : a ∈ screens) (hb : b ∈ screens)
    (h : a.code = b.code) : a = b :=
  List.inj_on_of_nodup_map (by decide : (screens.map CatalogScreen.code).Nodup) ha hb h

theorem protected_subset_screens :
    ∀ code ∈ ScreenService.protectedScreenCodes, code ∈ screens.map CatalogScreen.code := by
  decide

/-- **From a database without roles, screens and permissions** a run leads to a seeded state, if
it has an active admin. -/
theorem seeded_of_seed (hfresh : Fresh draws s) (hroles : s.roles.rows = [])
    (hscreens : s.screens.rows = []) (hgrants : s.roleScreens.rows = [])
    (hactive : ∃ admin ∈ s.admins, admin.status = .active) (hseed : seed draws s = .ok s') :
    Administration.Seeded s' := by
  obtain ⟨role, t, hrun, -, hcomplete, hkept⟩ := seed_spec hfresh
  obtain rfl : t = s' := Except.ok.inj (hrun.symm.trans hseed)
  obtain ⟨hrole, hname⟩ := Database.roleByName_eq_some.mp hcomplete.found
  have hempty : ∀ {α : Type} [Row α] {table : Table α}, table.rows = [] → ∀ x, x ∉ table := by
    intro α _ table hnil x hx
    have hmem : x ∈ table.rows := hx
    rw [hnil] at hmem
    cases hmem
  refine ⟨role.id, ⟨role, hrole, rfl, hname, ?_⟩, ?_, ?_, ?_, ?_⟩
  · rcases hkept.newRoles role hrole with hold | rfl
    · exact absurd hold (hempty hroles role)
    · rfl
  · rw [catalog_eq_screens]
    intro g hg
    obtain ⟨entry, hentry, rfl⟩ := List.mem_map.mp hg
    obtain ⟨row, hrow⟩ := Option.isSome_iff_exists.mp (hcomplete.catalog entry hentry).2
    obtain ⟨hmem, hkey⟩ := Table.find?_eq_some.mp hrow
    rcases hkept.newRoleScreens row hmem with hold | ⟨other, hother, rfl⟩
    · exact absurd hold (hempty hgrants row)
    · obtain rfl := code_inj hother hentry (Prod.mk.inj hkey).2
      exact ⟨_, hmem, rfl, rfl⟩
  · intro code hcode
    obtain ⟨entry, hentry, rfl⟩ := List.mem_map.mp (protected_subset_screens code hcode)
    obtain ⟨screen, hscreen⟩ := Option.isSome_iff_exists.mp (hcomplete.catalog entry hentry).1
    obtain ⟨hmem, hscode⟩ := Database.screenByCode_eq_some.mp hscreen
    refine ⟨screen, hmem, hscode, ?_⟩
    rcases hkept.newScreens screen hmem with hold | ⟨other, -, rfl⟩
    · exact absurd hold (hempty hscreens screen)
    · rfl
  · exact hcomplete.assigned
  · rw [hkept.admins]
    exact hactive

/-! ## An auditor becomes a super_admin -/

section Sample
open Administration (sampleState sampleAdmin)

def auditorRole : Role where
  id := .ofNat 11
  name := "auditor"
  description := none
  status := .active
  createdAt := 0

def auditorAssignment : PlatformAdminRole where
  platformAdminId := .ofNat 3
  roleId := .ofNat 11
  createdAt := 0

/-- The seeded state with a third admin, who holds the role auditor only. -/
def auditorState : Database :=
  { sampleState with
    admins :=
      ⟨sampleState.admins.rows ++ [sampleAdmin 3 "admin3" "admin3@example.com"], by decide⟩
    roles := ⟨sampleState.roles.rows ++ [auditorRole], by decide⟩
    adminRoles := ⟨sampleState.adminRoles.rows ++ [auditorAssignment], by decide⟩ }

def sampleDraws : Draws where
  roleId := .ofNat 20
  screenId code := .ofNat (code.toList.map Char.toNat).sum
  now := Instant.seconds 5

/-- The catalogue is gone, and a third admin has no role. -/
def unseededState : Database :=
  { sampleState with
    admins := auditorState.admins
    screens := .empty
    roleScreens := .empty }

theorem backfills_iff_unseededState :
    ¬ HasRole unseededState (.ofNat 3) ∧ unseededState.screens.rows = [] ∧
      Backfills sampleDraws unseededState := by
  have hfresh : Fresh sampleDraws unseededState :=
    ⟨by decide, by decide, by decide, by decide, by decide⟩
  have hunassigned : ∀ x ∈ unseededState.adminRoles.rows, x.platformAdminId ≠ .ofNat 3 := by decide
  have hheld : ∀ x ∈ unseededState.adminRoles.rows,
      Holds unseededState x.platformAdminId (.ofNat 10) := by decide
  refine ⟨fun ⟨x, hx, hid⟩ => hunassigned x (Table.mem_rows.mpr hx) hid, rfl,
    (backfills_iff _ _ hfresh).mpr fun admin _ hhas => ?_⟩
  obtain ⟨x, hx, hid⟩ := hhas
  exact ⟨Administration.superAdminRole, rfl, hid ▸ hheld x (Table.mem_rows.mpr hx)⟩

/-- The auditor is given super_admin. -/
theorem not_backfills_auditorState :
    Fresh sampleDraws auditorState ∧ HasRole auditorState (.ofNat 3) ∧
      ¬ Backfills sampleDraws auditorState := by
  have hhas : HasRole auditorState (.ofNat 3) :=
    ⟨auditorAssignment, Table.mem_rows.mp (by decide), rfl⟩
  refine ⟨⟨by decide, by decide, by decide, by decide, by decide⟩, hhas, ?_⟩
  rintro ⟨role, s', hseed, honly, -⟩
  have hrows : (seed sampleDraws auditorState).toOption.map (fun s' => s'.adminRoles.rows) =
      some (auditorState.adminRoles.rows ++ [newAssignment sampleDraws (.ofNat 10) (.ofNat 3)]) := by
    decide
  rw [hseed] at hrows
  have hin : newAssignment sampleDraws (.ofNat 10) (.ofNat 3) ∈ s'.adminRoles := by
    have hafter : s'.adminRoles.rows = _ := Option.some.inj hrows
    rw [← Table.mem_rows, hafter]
    exact List.mem_append_right _ (List.mem_singleton_self _)
  have hold := Table.mem_rows.mpr (honly.others _ hin hhas)
  revert hold
  decide

end Sample

end AdminPlatform.SeedRbac
