import AdminPlatform.Access.SeedRbac
import AdminPlatform.Access.Standing

/-! # Seeding admins

`app/database/scripts/seed_admin.py`: it creates one account or the accounts of the dev team, or
resets those that are there, and gives them super_admin; with `--reset` it takes all admins out
first. Every account is a transaction of its own, and the script stops at the first that fails.

The script adds what is missing of the catalog and repairs nothing that is there, so it leaves
super_admin in place exactly if nothing was wrong before (`inPlace_iff_mendable`). Then an
account that it has reported ready can do everything, whatever requests come later
(`bootstrap`). -/

namespace AdminPlatform.SeedAdmin
open AdminPlatform.Lib AdminPlatform.Administration AdminPlatform.SeedRbac

/-! ## The script -/

structure Account where
  username : String
  email : String
  password : String
  deriving DecidableEq

/-- `DEFAULT_DEV_ADMINS`: username and email. -/
def defaultDevAdmins : List (String × String) :=
  [("admin1", "admin1@example.com"), ("admin2", "admin2@example.com"),
    ("admin3", "admin3@example.com"), ("admin4", "admin4@example.com"),
    ("admin5", "admin5@example.com"), ("shiva", "shiva@gmail.com"),
    ("kishore", "kishore@gmail.com"), ("shaktish", "shaktish@gmail.com"),
    ("satish", "satish@gmail.com"), ("naveen", "naveen@gmail.com")]

/-- `DEFAULT_DEV_PASSWORD`, by the environment variable `SEED_ADMIN_PASSWORD`. -/
def defaultDevPassword (seedAdminPassword : Option String) : String :=
  seedAdminPassword.getD "Admin@1234"

/-- What the transaction of one account draws. -/
structure Draws extends SeedRbac.Draws where
  adminId : Uuid
  salt : String

variable (env : Env)

def newAdmin (account : Account) (draws : Draws) : PlatformAdmin where
  id := draws.adminId
  email := account.email
  username := account.username
  hashedPassword := env.bcrypt.hashPassword draws.salt account.password
  status := .active
  failedLoginAttempts := 0
  lockedUntil := none
  currentRefreshJti := none
  createdAt := draws.now

/-- The admin with another name and password. -/
def renewed (account : Account) (draws : Draws) (admin : PlatformAdmin) : PlatformAdmin :=
  { admin with
    username := account.username
    hashedPassword := env.bcrypt.hashPassword draws.salt account.password }

/-- The columns of the table hold them. -/
def Account.Fits (account : Account) : Prop :=
  VarChar emailMaxLength account.email ∧ VarChar displayNameMaxLength account.username

instance (account : Account) : Decidable account.Fits := by
  unfold Account.Fits; infer_instance

/-- The admin is set or added. It is written by the next query, before what that asks. -/
def writeAdmin (account : Account) (draws : Draws) (s : Database) :
    Except DbError (PlatformAdmin × Database) :=
  if account.Fits then
    match s.adminByEmail account.email with
    | some admin => do
        let s ← (Write.updateAdmin admin (renewed env account draws admin)).apply s
        return (renewed env account draws admin, s)
    | none => do
        let s ← (Write.insertAdmin (newAdmin env account draws)).apply s
        return (newAdmin env account draws, s)
  else .error .dataError

/-- `seed`. -/
def seed (account : Account) (draws : Draws) (s : Database) : Except DbError Database := do
  let (admin, s) ← writeAdmin env account draws s
  let s ← ensureCatalog draws.toDraws s
  assignSuperAdmin draws.toDraws s admin.id

/-- `DELETE FROM platform_admins`, which rows that refer to an admin forbid. -/
def deleteAdmins (s : Database) : Except DbError Database :=
  if s.passwordHistory.rows = [] ∧ s.adminRoles.rows = [] then
    .ok { s with admins := s.admins.delete fun _ => true }
  else .error .integrity

/-- `reset`: children first. -/
def reset (s : Database) : Except DbError Database :=
  deleteAdmins
    { s with
      passwordHistory := s.passwordHistory.delete fun _ => true
      adminRoles := s.adminRoles.delete fun _ => true }

/-- The command line. -/
structure Args where
  reset : Bool := false
  email : Option String := none
  username : String := "admin"
  password : String

/-- Whom `_run` seeds. An email that is empty counts as none. -/
def Args.accounts (args : Args) (seedAdminPassword : Option String) : List Account :=
  match args.email.filter (· ≠ "") with
  | some email => [⟨args.username, email, args.password⟩]
  | none => defaultDevAdmins.map fun admin =>
      ⟨admin.1, admin.2, defaultDevPassword seedAdminPassword⟩

/-- How the script ends: the accounts it has reported ready, and why it stopped. -/
structure Outcome where
  state : Database
  ready : List Account
  failure : Option DbError

/-- `seed_dev_team`, and `seed` of one account: a transaction for each. -/
def seedAll : List (Account × Draws) → Database → Outcome
  | [], s => ⟨s, [], none⟩
  | (account, draws) :: rest, s =>
      match seed env account draws s with
      | .ok s =>
          let o := seedAll rest s
          { o with ready := account :: o.ready }
      | .error e => ⟨s, [], some e⟩

/-- `--reset`. -/
def cleared (args : Args) (s : Database) : Except DbError Database :=
  if args.reset then reset s else .ok s

/-- The accounts, each with what its transaction draws. -/
def Args.transactions (args : Args) (seedAdminPassword : Option String) (draws : Nat → Draws) :
    List (Account × Draws) :=
  (args.accounts seedAdminPassword).mapIdx fun n account => (account, draws n)

/-- `_run`. -/
def run (args : Args) (seedAdminPassword : Option String) (draws : Nat → Draws) (s : Database) :
    Outcome :=
  match cleared args s with
  | .ok s => seedAll env (args.transactions seedAdminPassword draws) s
  | .error e => ⟨s, [], some e⟩

variable {env} {account : Account} {draws : Draws} {admin : PlatformAdmin} {role : Role}
  {s s' : Database}

/-! ## The admin -/

/-- The ids a transaction draws are not in use. -/
structure Fresh (draws : Draws) (s : Database) : Prop where
  catalog : SeedRbac.Fresh draws.toDraws s
  admin : ∀ other ∈ s.admins, other.id ≠ draws.adminId

/-- The admin is the account's, renewed or new. -/
structure Written (env : Env) (account : Account) (draws : Draws) (admin : PlatformAdmin)
    (s : Database) : Prop where
  email : admin.email = account.email
  username : admin.username = account.username
  password : admin.hashedPassword = env.bcrypt.hashPassword draws.salt account.password
  status : admin.status = .active ∨ ∃ old ∈ s.admins, old.id = admin.id ∧ old.status = admin.status

/-- **What writing the admin does**: the account's admin is written, the others stay. -/
theorem writeAdmin_inv (h : writeAdmin env account draws s = .ok (admin, s')) :
    Written env account draws admin s ∧ (∀ x, x ∈ s'.admins ↔
      x = admin ∨ (x ∈ s.admins ∧ x.email ≠ account.email)) ∧
      s' = { s with admins := s'.admins } := by
  unfold writeAdmin at h
  split at h
  · split at h
    · rename_i old hold
      obtain ⟨hmem, hemail⟩ := Database.adminByEmail_eq_some.mp hold
      obtain ⟨u, hwrite, hu⟩ := bind_eq_ok.mp h
      obtain ⟨rfl, rfl⟩ := Prod.mk.inj (Except.ok.inj hu)
      obtain ⟨t, hflush, rfl⟩ := apply_updateAdmin hwrite
      refine ⟨⟨hemail, rfl, rfl, .inr ⟨old, hmem, rfl, rfl⟩⟩, fun x => ?_, rfl⟩
      have hloaded : s.admins.find? (Row.key old) = some old := Table.find?_eq_some.mpr ⟨hmem, rfl⟩
      rw [Table.flush_loaded hflush hloaded rfl]
      refine or_congr_right (and_congr_right fun hx => not_congr ⟨fun hkey => ?_, fun hsame => ?_⟩)
      · rw [Table.eq_of_key hx hmem hkey, hemail]
      · rw [Table.eq_of_clash hx hmem (.inr (.inl (hsame.trans hemail.symm)))]
    · rename_i hnone
      obtain ⟨u, hwrite, hu⟩ := bind_eq_ok.mp h
      obtain ⟨rfl, rfl⟩ := Prod.mk.inj (Except.ok.inj hu)
      obtain ⟨t, hinsert, rfl⟩ := apply_insertAdmin hwrite
      refine ⟨⟨rfl, rfl, rfl, .inl rfl⟩, fun x => ?_, rfl⟩
      rw [Table.mem_insert hinsert, or_comm]
      refine or_congr_right (iff_self_and.mpr fun hx hsame => ?_)
      rw [Database.adminByEmail_eq_some.mpr ⟨hx, hsame⟩] at hnone
      cases hnone
  · cases h

/-- It succeeds if the columns hold the account, and no other admin has its name. -/
theorem exists_writeAdmin (hfits : account.Fits) (hfresh : ∀ other ∈ s.admins, other.id ≠ draws.adminId)
    (hname : ∀ other ∈ s.admins, other.email ≠ account.email → other.username ≠ account.username) :
    ∃ admin s', writeAdmin env account draws s = .ok (admin, s') := by
  unfold writeAdmin
  rw [if_pos hfits]
  cases hfound : s.adminByEmail account.email with
  | some old =>
      obtain ⟨hmem, hemail⟩ := Database.adminByEmail_eq_some.mp hfound
      obtain ⟨t, hflush⟩ : ∃ t, s.admins.flush old (renewed env account draws old) = .ok t := by
        refine Table.exists_flush (Table.find?_eq_some.mpr ⟨hmem, rfl⟩) rfl ?_
        rintro other hother hne (hid | hsame | husername)
        · exact hne hid.symm
        · exact hne (congrArg Row.key (Table.eq_of_clash hother hmem (.inr (.inl hsame.symm))))
        · refine hname other hother (fun hsame => hne ?_) husername.symm
          exact congrArg Row.key
            (Table.eq_of_clash hother hmem (.inr (.inl (hsame.trans hemail.symm))))
      refine ⟨renewed env account draws old, { s with admins := t }, ?_⟩
      simp only [Write.apply, hflush]
      rfl
  | none =>
      obtain ⟨t, hinsert⟩ : ∃ t, s.admins.insert (newAdmin env account draws) = some t := by
        refine Table.exists_insert fun other hother hclash => ?_
        have hemail : other.email ≠ account.email := by
          intro hsame
          rw [Database.adminByEmail_eq_some.mpr ⟨hother, hsame⟩] at hfound
          cases hfound
        rcases hclash with hid | hsame | husername
        · exact hfresh other hother hid
        · exact hemail hsame
        · exact hname other hother hemail husername
      refine ⟨newAdmin env account draws, { s with admins := t }, ?_⟩
      simp only [Write.apply, hinsert]
      rfl

/-! ## One account -/

/-- What the transaction of an account leaves. -/
structure Leaves (env : Env) (account : Account) (draws : Draws) (admin : PlatformAdmin)
    (role : Role) (s s' : Database) : Prop where
  written : Written env account draws admin s
  admins : ∀ x, x ∈ s'.admins ↔ x = admin ∨ (x ∈ s.admins ∧ x.email ≠ account.email)
  found : s'.roleByName superAdminRoleName = some role
  origin : role ∈ s.roles ∨ role.id = draws.roleId
  catalog : ∀ entry ∈ screens, InCatalog role entry s'
  held : Holds s' admin.id role.id
  added : Extends draws.toDraws role.id { s with admins := s'.admins } s'

/-- Once the admin is written nothing can fail. -/
theorem seed_of_writeAdmin (hfresh : Fresh draws s)
    (hwrite : writeAdmin env account draws s = .ok (admin, s')) :
    ∃ role s'', seed env account draws s = .ok s'' ∧ Leaves env account draws admin role s s'' := by
  obtain ⟨hwritten, hadmins, hrest⟩ := writeAdmin_inv hwrite
  have hfresh' : SeedRbac.Fresh draws.toDraws s' := by
    rw [hrest]
    exact { hfresh.catalog with }
  obtain ⟨role, t, hcatalog, hfound, horigin, hin, hst⟩ := ensureCatalog_spec hfresh'
  have hadmin : admin ∈ t.admins := hst.admins ▸ (hadmins admin).mpr (.inl rfl)
  obtain ⟨u, hassign, htu, hdone, hheld⟩ :
      ∃ u, assignSuperAdmin draws.toDraws t admin.id = .ok u ∧ _ :=
    assignSuperAdmin_spec hadmin ⟨hfound, rfl⟩
  have hadded := hst.trans htu
  refine ⟨role, u, ?_, hwritten, fun x => ?_, hdone.found, ?_, ?_, hheld, ?_⟩
  · unfold seed
    rw [hwrite]
    show (ensureCatalog draws.toDraws s' >>= _) = _
    rw [hcatalog]
    exact hassign
  · rw [hadded.admins]
    exact hadmins x
  · rw [hrest] at horigin
    exact horigin
  · exact fun entry hentry => (hin entry hentry).mono htu
  · rw [hadded.admins, ← hrest]
    exact hadded

/-- **What a transaction that commits has done.** -/
theorem seed_inv (hfresh : Fresh draws s) (h : seed env account draws s = .ok s') :
    ∃ admin role, Leaves env account draws admin role s s' := by
  obtain ⟨⟨admin, t⟩, hwrite, -⟩ := bind_eq_ok.mp h
  obtain ⟨role, u, hseed, hleaves⟩ := seed_of_writeAdmin hfresh hwrite
  obtain rfl : u = s' := Except.ok.inj (hseed.symm.trans h)
  exact ⟨admin, role, hleaves⟩

/-! ## The catalog is completed, not repaired -/

/-- Nothing that is there of super_admin and its catalog is wrong. -/
structure Mendable (s : Database) : Prop where
  role : ∀ role, s.roleByName superAdminRoleName = some role → role.status = .active
  grants : ∀ role, s.roleByName superAdminRoleName = some role → ∀ entry ∈ screens,
    ∀ row ∈ s.roleScreens, row.roleId = role.id → row.screenCode = entry.code →
      row.read = entry.read ∧ row.write = entry.write
  screens : ∀ screen ∈ s.screens, screen.code ∈ ScreenService.protectedScreenCodes →
    screen.status = .active

theorem mendable_of_inPlace {superAdmin : Uuid} (h : InPlace superAdmin s) : Mendable s where
  role role hrole := by
    obtain ⟨other, hmem, -, hname, hactive⟩ := h.role
    rw [Database.roleByName_eq_some.mpr ⟨hmem, hname⟩] at hrole
    exact Option.some.inj hrole ▸ hactive
  grants role hrole entry hentry row hrow hid hcode := by
    obtain ⟨other, hmem, hother, hname, -⟩ := h.role
    rw [Database.roleByName_eq_some.mpr ⟨hmem, hname⟩] at hrole
    obtain rfl := Option.some.inj hrole
    have hg : (entry.code, entry.read, entry.write) ∈ catalog := by
      rw [catalog_eq_screens]
      exact List.mem_map_of_mem hentry
    obtain ⟨granted, hgranted, hgrole, hgrant⟩ := h.grants _ hg
    simp only [Prod.mk.injEq] at hgrant
    obtain rfl : row = granted := Table.eq_of_key hrow hgranted
      (Prod.ext (hid.trans (hother.trans hgrole.symm)) (hcode.trans hgrant.1.symm))
    exact hgrant.2
  screens screen hscreen hcode := by
    obtain ⟨other, hmem, hother, hactive⟩ := h.screens _ hcode
    rwa [Table.eq_of_clash hscreen hmem (.inr hother.symm)]

/-- **A transaction leaves super_admin in place exactly if nothing was wrong.** -/
theorem inPlace_iff_mendable (hfresh : Fresh draws s)
    (h : Leaves env account draws admin role s s') : InPlace role.id s' ↔ Mendable s := by
  obtain ⟨hmem, hname⟩ := Database.roleByName_eq_some.mp h.found
  constructor
  · intro hplace
    have hmendable := mendable_of_inPlace hplace
    refine ⟨fun old hold => ?_, fun old hold entry hentry row hrow => ?_, fun screen hscreen => ?_⟩
    · exact hmendable.role old (h.added.roleByName hold)
    · exact hmendable.grants old (h.added.roleByName hold) entry hentry row
        (h.added.roleScreens row hrow)
    · exact hmendable.screens screen (h.added.screens screen hscreen)
  · intro hmendable
    refine ⟨⟨role, hmem, rfl, hname, ?_⟩, fun g hg => ?_, fun code hcode => ?_⟩
    · rcases h.added.newRoles role hmem with hold | rfl
      · exact hmendable.role role (Database.roleByName_eq_some.mpr ⟨hold, hname⟩)
      · rfl
    · rw [catalog_eq_screens] at hg
      obtain ⟨entry, hentry, rfl⟩ := List.mem_map.mp hg
      obtain ⟨row, hrow⟩ := Option.isSome_iff_exists.mp (h.catalog entry hentry).2
      obtain ⟨hin, hkey⟩ := Table.find?_eq_some.mp hrow
      obtain ⟨hid, hcode⟩ := Prod.mk.inj hkey
      refine ⟨row, hin, hid, ?_⟩
      rcases h.added.newRoleScreens row hin with hold | ⟨other, hother, rfl⟩
      · -- a permission that was there is one of a role that was
        have hrole : role ∈ s.roles :=
          h.origin.resolve_right fun hnew => hfresh.catalog.granted row hold (hid.trans hnew)
        obtain ⟨hread, hwrite⟩ := hmendable.grants role
          (Database.roleByName_eq_some.mpr ⟨hrole, hname⟩) entry hentry row hold hid hcode
        rw [hcode, hread, hwrite]
      · rw [code_inj hother hentry hcode]
        rfl
    · obtain ⟨entry, hentry, rfl⟩ := List.mem_map.mp (protected_subset_screens code hcode)
      obtain ⟨screen, hscreen⟩ := Option.isSome_iff_exists.mp (h.catalog entry hentry).1
      obtain ⟨hin, hsame⟩ := Database.screenByCode_eq_some.mp hscreen
      refine ⟨screen, hin, hsame, ?_⟩
      rcases h.added.newScreens screen hin with hold | ⟨other, -, rfl⟩
      · exact hmendable.screens screen hold (hsame ▸ hcode)
      · rfl

/-! ## An account that is ready -/

/-- The account is there, with its name and its password, and holds super_admin. -/
structure IsReady (env : Env) (account : Account) (s : Database) (admin : PlatformAdmin) :
    Prop where
  mem : admin ∈ s.admins
  email : admin.email = account.email
  username : admin.username = account.username
  password : ∃ salt, admin.hashedPassword = env.bcrypt.hashPassword salt account.password
  held : ∃ superAdmin, InPlace superAdmin s ∧ Holds s admin.id superAdmin

theorem Leaves.isReady (hfresh : Fresh draws s) (hmendable : Mendable s)
    (h : Leaves env account draws admin role s s') : IsReady env account s' admin where
  mem := (h.admins admin).mpr (.inl rfl)
  email := h.written.email
  username := h.written.username
  password := ⟨draws.salt, h.written.password⟩
  held := ⟨role.id, (inPlace_iff_mendable hfresh h).mpr hmendable, h.held⟩

/-- Seeding another account leaves it ready. -/
theorem IsReady.leaves {ready : Account} {admin' : PlatformAdmin}
    (hready : IsReady env ready s admin') (hfresh : Fresh draws s)
    (h : Leaves env account draws admin role s s') (hother : ready.email ≠ account.email) :
    IsReady env ready s' admin' where
  mem := (h.admins admin').mpr (.inr ⟨hready.mem, hready.email ▸ hother⟩)
  email := hready.email
  username := hready.username
  password := hready.password
  held := by
    obtain ⟨superAdmin, hplace, hheld⟩ := hready.held
    obtain ⟨old, hmem, rfl, hname, -⟩ := hplace.role
    obtain rfl : old = role := Option.some.inj
      ((h.added.roleByName (Database.roleByName_eq_some.mpr ⟨hmem, hname⟩)).symm.trans h.found)
    exact ⟨old.id, (inPlace_iff_mendable hfresh h).mpr (mendable_of_inPlace hplace),
      Holds.mono h.added hheld⟩

/-- **Whoever holds super_admin stays able.** Whatever requests come, the admin can do
everything. -/
theorem omnipotent_of_holds {env' : Env}
    {encode : EncodedToken → String} {ι : Type} [DecidableEq ι] {calls : ι → Request × Api.Call}
    {t : List (Program.Threads Sql Failure Database ι × (ι × Option Failure))}
    {u : Program.Threads Sql Failure Database ι}
    {superAdmin : Uuid} (hplace : InPlace superAdmin s) (hheld : Holds s admin.id superAdmin)
    (hrun : (Api.machine env' encode calls s).Run t u) :
    ∀ v ∈ Machine.visited t u, Omnipotent superAdmin s v.shared admin.id := by
  intro v hv
  have hs := standing_of_run hplace hrun v hv
  exact hs.omnipotent hplace (isSome_find?_mono hs.assigned hheld)

/-! ## All accounts -/

/-- Every transaction draws ids that are not in use by then. -/
def FreshAlong (env : Env) : List (Account × Draws) → Database → Prop
  | [], _ => True
  | (account, draws) :: rest, s =>
      Fresh draws s ∧ ∀ s', seed env account draws s = .ok s' → FreshAlong env rest s'

variable {l : List (Account × Draws)}

theorem seedAll_ok {p : Account × Draws} (h : seed env p.1 p.2 s = .ok s') :
    seedAll env (p :: l) s =
      { seedAll env l s' with ready := p.1 :: (seedAll env l s').ready } := by
  rw [seedAll, h]

theorem seedAll_error {p : Account × Draws} {e : DbError} (h : seed env p.1 p.2 s = .error e) :
    seedAll env (p :: l) s = ⟨s, [], some e⟩ := by
  rw [seedAll, h]

/-- What every transaction keeps the script keeps, wherever it stops. -/
theorem seedAll_invariant {P : Database → Prop} (hfresh : FreshAlong env l s)
    (hstep : ∀ p ∈ l, ∀ admin role s s', Fresh p.2 s → Leaves env p.1 p.2 admin role s s' →
      P s → P s') (h : P s) : P (seedAll env l s).state := by
  induction l generalizing s with
  | nil => exact h
  | cons p l ih =>
      cases hseed : seed env p.1 p.2 s with
      | error e =>
          rw [seedAll_error hseed]
          exact h
      | ok s' =>
          obtain ⟨admin, role, hleaves⟩ := seed_inv hfresh.1 hseed
          rw [seedAll_ok hseed]
          exact ih (hfresh.2 s' hseed) (fun q hq => hstep q (List.mem_cons_of_mem p hq))
            (hstep p List.mem_cons_self admin role s s' hfresh.1 hleaves h)

/-- **Every account that is reported ready is ready in the end.** -/
theorem seedAll_ready (hfresh : FreshAlong env l s) (hmendable : Mendable s)
    (hdistinct : l.Pairwise fun p q => p.1.email ≠ q.1.email) :
    ∀ account ∈ (seedAll env l s).ready, ∃ admin,
      IsReady env account (seedAll env l s).state admin := by
  induction l generalizing s with
  | nil => exact nofun
  | cons p l ih =>
      obtain ⟨hother, hdistinct⟩ := List.pairwise_cons.mp hdistinct
      cases hseed : seed env p.1 p.2 s with
      | error e =>
          rw [seedAll_error hseed]
          exact nofun
      | ok s' =>
          obtain ⟨admin, role, hleaves⟩ := seed_inv hfresh.1 hseed
          rw [seedAll_ok hseed]
          have hplace := (inPlace_iff_mendable hfresh.1 hleaves).mpr hmendable
          intro account haccount
          rcases List.mem_cons.mp haccount with rfl | hrest
          · have hready := hleaves.isReady hfresh.1 hmendable
            refine ⟨admin, seedAll_invariant (P := fun u => IsReady env p.1 u admin)
              (hfresh.2 s' hseed) (fun q hq admin' role' u u' hdraws hnext h => ?_) hready⟩
            exact h.leaves hdraws hnext (hother q hq)
          · exact ih (hfresh.2 s' hseed) (mendable_of_inPlace hplace) hdistinct account hrest

/-- **When no transaction fails**: the columns hold the accounts, and no name is taken. -/
theorem seedAll_completes (hfresh : FreshAlong env l s) (hfits : ∀ p ∈ l, p.1.Fits)
    (hdistinct : l.Pairwise fun p q => p.1.username ≠ q.1.username)
    (hnames : ∀ p ∈ l, ∀ other ∈ s.admins, other.email ≠ p.1.email →
      other.username ≠ p.1.username) :
    (seedAll env l s).failure = none ∧ (seedAll env l s).ready = l.map Prod.fst := by
  induction l generalizing s with
  | nil => exact ⟨rfl, rfl⟩
  | cons p l ih =>
      obtain ⟨hother, hdistinct⟩ := List.pairwise_cons.mp hdistinct
      obtain ⟨admin, t, hwrite⟩ := exists_writeAdmin (hfits p List.mem_cons_self) hfresh.1.admin
        (hnames p List.mem_cons_self)
      obtain ⟨role, s', hseed, hleaves⟩ := seed_of_writeAdmin hfresh.1 hwrite
      have hrest := ih (hfresh.2 s' hseed) (fun q hq => hfits q (List.mem_cons_of_mem p hq))
        hdistinct ?_
      · rw [seedAll_ok hseed]
        exact ⟨hrest.1, congrArg (p.1 :: ·) hrest.2⟩
      · intro q hq other hmem hemail
        rcases (hleaves.admins other).mp hmem with rfl | ⟨hold, -⟩
        · rw [hleaves.written.username]
          exact hother q hq
        · exact hnames q (List.mem_cons_of_mem p hq) other hold hemail

/-! ## The script -/

/-- Every admin is active and a super_admin. -/
def Staffed (s : Database) : Prop :=
  ∀ admin ∈ s.admins, admin.status = .active ∧ IsSuperAdmin s admin.id

theorem Leaves.staffed (h : Leaves env account draws admin role s s') (hs : Staffed s) :
    Staffed s' := by
  intro x hx
  rcases (h.admins x).mp hx with rfl | ⟨hold, -⟩
  · refine ⟨?_, role, h.found, h.held⟩
    rcases h.written.status with hactive | ⟨old, hmem, -, hsame⟩
    · exact hactive
    · exact hsame.symm.trans (hs old hmem).1
  · obtain ⟨hactive, old, hfound, hheld⟩ := hs x hold
    exact ⟨hactive, old, h.added.roleByName hfound, Holds.mono h.added hheld⟩

/-- **Children first**: the reset never fails. -/
theorem reset_eq (s : Database) :
    reset s = .ok
      { s with
        passwordHistory := s.passwordHistory.delete fun _ => true
        adminRoles := s.adminRoles.delete fun _ => true
        admins := s.admins.delete fun _ => true } := by
  have hempty : ∀ {α : Type} [Row α] (t : Table α), (t.delete fun _ => true).rows = [] := by
    intro α _ t
    exact List.filter_eq_nil_iff.mpr fun _ _ => by simp
  exact if_pos ⟨hempty _, hempty _⟩

theorem not_mem_cleared {args : Args} (hreset : args.reset = true) (h : cleared args s = .ok s')
    (x : PlatformAdmin) : x ∉ s'.admins := by
  rw [cleared, if_pos hreset, reset_eq] at h
  obtain rfl := Except.ok.inj h
  intro hx
  simpa using (Table.mem_delete.mp hx).2

theorem mendable_cleared {args : Args} (h : cleared args s = .ok s') (hs : Mendable s) :
    Mendable s' := by
  rw [cleared] at h
  split at h
  · rw [reset_eq] at h
    obtain rfl := Except.ok.inj h
    exact { hs with }
  · exact Except.ok.inj h ▸ hs

theorem exists_cleared (args : Args) (s : Database) : ∃ s', cleared args s = .ok s' := by
  unfold cleared
  split
  · exact ⟨_, reset_eq s⟩
  · exact ⟨s, rfl⟩

section Transactions
variable (args : Args) (seedAdminPassword : Option String) (draws : Nat → Draws)

theorem map_fst_transactions :
    (args.transactions seedAdminPassword draws).map Prod.fst = args.accounts seedAdminPassword := by
  refine List.ext_getElem (by simp [Args.transactions]) fun n hn hn' => ?_
  simp [Args.transactions]

theorem pairwise_defaultDevAdmins :
    defaultDevAdmins.Pairwise fun a b => a.2 ≠ b.2 ∧ a.1 ≠ b.1 := by decide

/-- No two accounts have a name or an email in common. -/
theorem pairwise_accounts : (args.accounts seedAdminPassword).Pairwise fun a b =>
    a.email ≠ b.email ∧ a.username ≠ b.username := by
  unfold Args.accounts
  split
  · exact List.pairwise_singleton _ _
  · exact List.pairwise_map.mpr pairwise_defaultDevAdmins

theorem pairwise_transactions {R : Account → Account → Prop}
    (h : (args.accounts seedAdminPassword).Pairwise R) :
    (args.transactions seedAdminPassword draws).Pairwise fun p q => R p.1 q.1 := by
  rw [← map_fst_transactions args seedAdminPassword draws] at h
  exact List.pairwise_map.mp h

theorem accounts_ne_nil : args.accounts seedAdminPassword ≠ [] := by
  unfold Args.accounts
  split <;> simp [defaultDevAdmins]

end Transactions

section Run
variable {args : Args} {seedAdminPassword : Option String} {draws : Nat → Draws}

theorem run_eq (h : cleared args s = .ok s') :
    run env args seedAdminPassword draws s =
      seedAll env (args.transactions seedAdminPassword draws) s' := by
  rw [run, h]

/-- **The platform's start.** If nothing of super_admin and its catalog is wrong, then wherever
the script stops: an account it has reported ready has its name, email and password, and in
every state of whatever requests come then it can do everything, and what super_admin could do
on the screens that are active. -/
theorem bootstrap (hmendable : Mendable s)
    (hfresh : ∀ s', cleared args s = .ok s' →
      FreshAlong env (args.transactions seedAdminPassword draws) s') :
    ∀ account ∈ (run env args seedAdminPassword draws s).ready, ∃ admin superAdmin,
      IsReady env account (run env args seedAdminPassword draws s).state admin ∧
      InPlace superAdmin (run env args seedAdminPassword draws s).state ∧
      ∀ {env' : Env} {encode : EncodedToken → String} {ι : Type} [DecidableEq ι]
        {calls : ι → Request × Api.Call}
        {t : List (Program.Threads Sql Failure Database ι × (ι × Option Failure))}
        {u : Program.Threads Sql Failure Database ι},
        (Api.machine env' encode calls (run env args seedAdminPassword draws s).state).Run t u →
        ∀ v ∈ Machine.visited t u, Omnipotent superAdmin
          (run env args seedAdminPassword draws s).state v.shared admin.id := by
  obtain ⟨s', hcleared⟩ := exists_cleared args s
  rw [run_eq hcleared]
  intro account haccount
  have hdistinct := pairwise_transactions args seedAdminPassword draws
    ((pairwise_accounts args seedAdminPassword).imp And.left)
  obtain ⟨admin, hready⟩ := seedAll_ready (hfresh s' hcleared) (mendable_cleared hcleared hmendable)
    hdistinct account haccount
  obtain ⟨superAdmin, hplace, hheld⟩ := hready.held
  exact ⟨admin, superAdmin, hready, hplace, fun hrun => omnipotent_of_holds hplace hheld hrun⟩

/-- **A clean reseed** of accounts that the columns hold comes to its end, reports them all ready,
and leaves a seeded state in which every admin is an active super_admin. -/
theorem reset_seeds (hreset : args.reset = true) (hmendable : Mendable s)
    (hfits : ∀ account ∈ args.accounts seedAdminPassword, account.Fits)
    (hfresh : ∀ s', cleared args s = .ok s' →
      FreshAlong env (args.transactions seedAdminPassword draws) s') :
    (run env args seedAdminPassword draws s).failure = none ∧
      (run env args seedAdminPassword draws s).ready = args.accounts seedAdminPassword ∧
      Seeded (run env args seedAdminPassword draws s).state ∧
      Staffed (run env args seedAdminPassword draws s).state := by
  obtain ⟨s', hcleared⟩ := exists_cleared args s
  rw [run_eq hcleared]
  have hnone := not_mem_cleared hreset hcleared
  have hdistinct := pairwise_accounts args seedAdminPassword
  have hmap := map_fst_transactions args seedAdminPassword draws
  obtain ⟨hfailure, hready⟩ := seedAll_completes (hfresh s' hcleared)
    (fun p hp => hfits p.1 (hmap ▸ List.mem_map_of_mem hp))
    (pairwise_transactions args seedAdminPassword draws (hdistinct.imp And.right))
    (fun _ _ other hother => absurd hother (hnone other))
  rw [hmap] at hready
  refine ⟨hfailure, hready, ?_⟩
  have hstaffed : Staffed (seedAll env (args.transactions seedAdminPassword draws) s').state :=
    seedAll_invariant (hfresh s' hcleared) (fun _ _ _ _ _ _ _ hleaves hs => hleaves.staffed hs)
      fun admin hadmin => absurd hadmin (hnone admin)
  obtain ⟨account, haccount⟩ := List.exists_mem_of_ne_nil _ (accounts_ne_nil args seedAdminPassword)
  obtain ⟨admin, hisReady⟩ := seedAll_ready (hfresh s' hcleared)
    (mendable_cleared hcleared hmendable)
    (pairwise_transactions args seedAdminPassword draws (hdistinct.imp And.left)) account
    (hready ▸ haccount)
  obtain ⟨superAdmin, hplace, -⟩ := hisReady.held
  refine ⟨⟨superAdmin, hplace.role, hplace.grants, hplace.screens, fun x hx => ?_,
    ⟨admin, hisReady.mem, (hstaffed admin hisReady.mem).1⟩⟩, hstaffed⟩
  obtain ⟨-, role, hfound, hheld⟩ := hstaffed x hx
  obtain ⟨old, hmem, rfl, hname, -⟩ := hplace.role
  rw [Database.roleByName_eq_some.mpr ⟨hmem, hname⟩] at hfound
  exact Option.some.inj hfound ▸ hheld

end Run

/-! ## The first admin of a new platform -/

def rootArgs : Args where
  email := some "root@example.com"
  username := "root"
  password := "Secret-1"

def sampleDraws (n : Nat) : Draws where
  toDraws := SeedRbac.sampleDraws
  adminId := .ofNat (50 + n)
  salt := "salt"

theorem bootstrap_rootArgs :
    ∃ account ∈ (run sampleEnv rootArgs none sampleDraws Database.empty).ready, ∃ admin superAdmin,
      IsReady sampleEnv account (run sampleEnv rootArgs none sampleDraws Database.empty).state
        admin ∧
      InPlace superAdmin (run sampleEnv rootArgs none sampleDraws Database.empty).state ∧
      ∀ {env' : Env} {encode : EncodedToken → String} {ι : Type} [DecidableEq ι]
        {calls : ι → Request × Api.Call}
        {t : List (Program.Threads Sql Failure Database ι × (ι × Option Failure))}
        {u : Program.Threads Sql Failure Database ι},
        (Api.machine env' encode calls
          (run sampleEnv rootArgs none sampleDraws Database.empty).state).Run t u →
        ∀ v ∈ Machine.visited t u, Omnipotent superAdmin
          (run sampleEnv rootArgs none sampleDraws Database.empty).state v.shared admin.id := by
  have hmendable : Mendable Database.empty := ⟨nofun, nofun, nofun⟩
  have hready : (⟨"root", "root@example.com", "Secret-1"⟩ : Account) ∈
      (run sampleEnv rootArgs none sampleDraws Database.empty).ready := by decide +kernel
  refine ⟨_, hready, bootstrap hmendable (fun s' hs' => ?_) _ hready⟩
  obtain rfl := Except.ok.inj hs'
  exact ⟨⟨⟨by decide, by decide, by decide, by decide, by decide⟩, by decide⟩, fun _ _ => trivial⟩

/-- The two admins there were are gone. -/
theorem reset_seeds_rootArgs :
    (run sampleEnv { rootArgs with reset := true } none sampleDraws sampleState).failure = none ∧
      (run sampleEnv { rootArgs with reset := true } none sampleDraws sampleState).ready =
        [⟨"root", "root@example.com", "Secret-1"⟩] ∧
      Seeded (run sampleEnv { rootArgs with reset := true } none sampleDraws sampleState).state ∧
      Staffed (run sampleEnv { rootArgs with reset := true } none sampleDraws sampleState).state := by
  have hplace : InPlace (.ofNat 10) sampleState := by
    refine ⟨by decide, ?_, by decide⟩
    unfold Administration.Granted
    decide
  refine reset_seeds rfl (mendable_of_inPlace hplace) (by decide) fun s' hs' => ?_
  obtain rfl := Except.ok.inj hs'
  exact ⟨⟨⟨by decide, by decide, by decide, by decide, by decide⟩, by decide⟩, fun _ _ => trivial⟩

end AdminPlatform.SeedAdmin
