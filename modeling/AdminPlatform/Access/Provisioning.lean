import AdminPlatform.Access.Seeded
import AdminPlatform.Services.User

/-! # Creating an admin when a repository call raises

`create_user` makes four repository calls, of which three commit: the row of the admin, the
assignment of super_admin, and the audit intent, which is best-effort. Here one of the calls
may raise without effect of its own; what the calls before it have committed stays.

`provisioned_iff` says when a creation that raises leaves the tables as they were, and one that
returns leaves an admin with the role. -/

namespace AdminPlatform.Provisioning
open AdminPlatform.Lib UserService

/-! ## Faults -/

/-- The repository calls of `create_user`, in the order it makes them. -/
inductive RepositoryCall
  | getUserByEmail
  | createUser
  | assignSuperAdmin
  | createAuditIntent
  deriving DecidableEq

section Via
variable (via : RepositoryCall → ∀ {α : Type}, Db α → Db α)

def ensureEmailAvailableVia (email : String) : Db Unit := do
  match ← via .getUserByEmail (UserRepository.getUserByEmail email) with
  | some existing => when (none ≠ some existing.id) (raise .emailExists)
  | none => return ()

def recordVia (req : Request) (event : Audit.AuditEvent) : Db Unit :=
  tryCatch
    (do
      let _ ← via .createAuditIntent (AuditRepository.createAuditIntent
        { id := req.intentId
          payload := Audit.record event req.actor req.metadata
          createdAt := Instant.datetime req.now })
      return ())
    (fun _ => pure ())

/-- `create_user`, every repository call of which goes through `via`. -/
def createUserVia (env : Env) (req : Request) (data : UserCreate) : Db PlatformAdmin := do
  ensureEmailAvailableVia via data.email
  let user ← via .createUser (UserRepository.createUser (newUser env req data))
  via .assignSuperAdmin (RbacRepository.assignSuperAdmin req.now user.id)
  recordVia via req
    (AuditService.event .userCreate (some .user) (some user.id.str)
      (.obj [("email", .str user.email), ("name", .str user.username)]))
  return user

end Via

/-- The calls as they are: the creation of the service. -/
theorem createUserVia_id (env : Env) (req : Request) (data : UserCreate) :
    createUserVia (fun _ _ p => p) env req data = createUser env req data := rfl

/-- A call that raises, and what it raises. -/
abbrev Fault := Program.Fault RepositoryCall Failure

def faultyCreateUser (env : Env) (req : Request) (data : UserCreate) (fault : Option Fault) :
    Db PlatformAdmin :=
  createUserVia (fun call _ p => Program.strike fault call p) env req data

/-- Without a fault, it is the creation of the service. -/
theorem faultyCreateUser_none (env : Env) (req : Request) (data : UserCreate) :
    faultyCreateUser env req data none = createUser env req data := rfl

/-! ## No half-provisioned admin -/

/-- A creation that raises leaves the admins and their roles as they were; one that returns
leaves an admin with the data, who holds super_admin. -/
def Provisioned (env : Env) (req : Request) (data : UserCreate) (fault : Option Fault)
    (s : Database) : Prop :=
  match (faultyCreateUser env req data fault).run s with
  | (.error _, s') => s'.admins = s.admins ∧ s'.adminRoles = s.adminRoles
  | (.ok user, s') => user = newUser env req data ∧ user ∈ s'.admins ∧
      ∃ role ∈ s'.roles, role.name = superAdminRoleName ∧
        (s'.adminRoles.find? (user.id, role.id)).isSome

/-- An admin has the email, the username or the id already. -/
def Taken (env : Env) (req : Request) (data : UserCreate) (s : Database) : Prop :=
  ∃ admin ∈ s.admins, Row.Clash admin (newUser env req data)

section Run
variable {env : Env} {req : Request} {data : UserCreate} {fault : Option Fault}
  {s s' : Database}

/-- All that a creation with a fault can do: one constructor for each place it can end in. -/
inductive Effect (env : Env) (req : Request) (data : UserCreate) (s : Database)
    (fault : Option Fault) : Except Failure PlatformAdmin → Database → Prop
  | refused {e : Failure} (h : Taken env req data s ∨ ∃ e, fault = some ⟨.getUserByEmail, e⟩ ∨
      fault = some ⟨.createUser, e⟩) : Effect env req data s fault (.error e) s
  | unassigned {admins e} (hinsert : s.admins.insert (newUser env req data) = some admins)
      (hfault : fault = some ⟨.assignSuperAdmin, e⟩) :
      Effect env req data s fault (.error e) { s with admins := admins }
  | complete {admins adminRoles outbox}
      (hinsert : s.admins.insert (newUser env req data) = some admins)
      (hassigned : ∀ role, s.roleByName superAdminRoleName = some role →
        (adminRoles.find? (req.newId, role.id)).isSome)
      (hfault : ∀ e, fault ≠ some ⟨.assignSuperAdmin, e⟩) :
      Effect env req data s fault (.ok (newUser env req data))
        { s with admins := admins, adminRoles := adminRoles, auditIntents := outbox }

/-- Recording never fails, whatever is struck. -/
theorem run_recordVia (fault : Option Fault) (req : Request) (e : Audit.AuditEvent)
    (s : Database) :
    ∃ outbox, (recordVia (fun call _ p => Program.strike fault call p) req e).run s =
      (.ok (), { s with auditIntents := outbox }) := by
  unfold recordVia
  rcases Program.strike_cases fault .createAuditIntent (AuditRepository.createAuditIntent
      { id := req.intentId
        payload := Audit.record e req.actor req.metadata
        createdAt := Instant.datetime req.now }) with ⟨error, -, hstruck⟩ | ⟨-, hmade⟩
  · dsimp only
    rw [hstruck]
    exact ⟨s.auditIntents, rfl⟩
  · dsimp only
    rw [hmade]
    exact AuditService.run_record req e s

/-- Under a fault the look-up of the email raises, or it is the check of the service. -/
theorem ensureEmailAvailableVia_cases (fault : Option Fault) (email : String) :
    (∃ e, fault = some ⟨.getUserByEmail, e⟩ ∧
        ensureEmailAvailableVia (fun call _ p => Program.strike fault call p) email = throw e) ∨
      ensureEmailAvailableVia (fun call _ p => Program.strike fault call p) email =
        ensureEmailAvailable email := by
  unfold ensureEmailAvailableVia
  dsimp only
  rcases Program.strike_cases fault .getUserByEmail (UserRepository.getUserByEmail email)
    with ⟨e, hfault, hstruck⟩ | ⟨-, hmade⟩
  · rw [hstruck]
    exact .inl ⟨e, hfault, rfl⟩
  · rw [hmade]
    exact .inr rfl

/-- The check of the email refuses only what is taken. -/
theorem ensureEmailAvailable_cases (env : Env) (req : Request) (data : UserCreate)
    (s : Database) :
    (Taken env req data s ∧ (ensureEmailAvailable data.email).Refused s) ∨
      (ensureEmailAvailable data.email).run s = (.ok (), s) := by
  refine (ensureEmailAvailable_isCheck data.email none s).imp ?_ And.right
  rintro ⟨⟨existing, hexisting, -⟩, hrefused⟩
  obtain ⟨hmem, hemail⟩ := Database.adminByEmail_eq_some.mp hexisting
  exact ⟨⟨existing, hmem, .inr (.inl hemail)⟩, hrefused⟩

theorem run_insertUser {admins : Table PlatformAdmin} {user : PlatformAdmin}
    (h : s.admins.insert user = some admins) :
    (UserRepository.createUser user).run s = (.ok user, { s with admins := admins }) := by
  have happly : (Write.insertAdmin user).apply s = .ok { s with admins := admins } := by
    rw [Write.apply, h]
    rfl
  exact Db.run_save_ok happly (by simp [Table.find?_insert h])

/-- **All that a creation with a fault does.** -/
theorem effect_faultyCreateUser {r : Except Failure PlatformAdmin}
    (h : (faultyCreateUser env req data fault).run s = (r, s')) :
    Effect env req data s fault r s' := by
  unfold faultyCreateUser createUserVia at h
  rcases ensureEmailAvailableVia_cases fault data.email with ⟨e, hfault, hensure⟩ | hensure
  · rw [hensure] at h
    obtain ⟨rfl, rfl⟩ := Prod.mk.inj h
    exact .refused (.inr ⟨e, .inl hfault⟩)
  rw [hensure] at h
  rcases ensureEmailAvailable_cases env req data s with ⟨htaken, hrefused⟩ | hpassed
  · obtain ⟨⟨e, rfl⟩, rfl⟩ := hrefused.bind_inv h
    exact .refused (.inl htaken)
  rw [Db.run_bind_ok _ hpassed] at h
  dsimp only at h
  rcases Program.strike_cases fault .createUser
      (UserRepository.createUser (newUser env req data)) with ⟨e, hfault, hstruck⟩ | ⟨-, hmade⟩
  · rw [hstruck] at h
    obtain ⟨rfl, rfl⟩ := Prod.mk.inj h
    exact .refused (.inr ⟨e, .inr hfault⟩)
  rw [hmade] at h
  cases hinsert : s.admins.insert (newUser env req data) with
  | none =>
      rcases run_createUser_bind_inv h with ⟨⟨e, rfl⟩, rfl⟩ | ⟨admins, hadmins, -⟩
      · exact .refused (.inl (Table.insert_eq_none.mp hinsert))
      · rw [hinsert] at hadmins
        cases hadmins
  | some admins =>
      rw [Db.run_bind_ok _ (run_insertUser hinsert)] at h
      rcases Program.strike_cases fault .assignSuperAdmin
          (RbacRepository.assignSuperAdmin req.now (newUser env req data).id)
        with ⟨e, hfault, hstruck⟩ | ⟨hsound, hmade⟩
      · rw [hstruck] at h
        obtain ⟨rfl, rfl⟩ := Prod.mk.inj h
        exact .unassigned hinsert hfault
      have hnew : ({ s with admins := admins }.admins.find? (newUser env req data).id).isSome := by
        simp [Table.find?_insert hinsert]
      obtain ⟨adminRoles, hassign, -, hassigned⟩ :=
        RbacRepository.run_assignSuperAdmin req.now hnew
      rw [hmade, Db.run_bind_ok _ hassign] at h
      obtain ⟨outbox, hrecord⟩ := run_recordVia fault req
        (AuditService.event .userCreate (some .user) (some (newUser env req data).id.str)
          (.obj [("email", .str (newUser env req data).email),
            ("name", .str (newUser env req data).username)]))
        { s with admins := admins, adminRoles := adminRoles }
      rw [Db.run_bind_ok _ hrecord] at h
      obtain ⟨rfl, rfl⟩ := Prod.mk.inj h
      exact .complete hinsert hassigned hsound

/-- **When a creation leaves no half-provisioned admin**: exactly if the call that raises is not
the one that assigns super_admin, or the request is refused before it. -/
theorem provisioned_iff (env : Env) (req : Request) (data : UserCreate) (fault : Option Fault)
    (s : Database) (hrole : (s.roleByName superAdminRoleName).isSome) :
    Provisioned env req data fault s ↔
      Taken env req data s ∨ ∀ e, fault ≠ some ⟨.assignSuperAdmin, e⟩ := by
  obtain ⟨role, hrole⟩ := Option.isSome_iff_exists.mp hrole
  obtain ⟨hmem, hname⟩ := Database.roleByName_eq_some.mp hrole
  unfold Provisioned
  rcases hrun : (faultyCreateUser env req data fault).run s with ⟨r, s'⟩
  cases effect_faultyCreateUser hrun with
  | refused h =>
      refine iff_of_true ⟨rfl, rfl⟩ (h.imp_right ?_)
      rintro ⟨e, rfl | rfl⟩ e' h <;> simp at h
  | unassigned hinsert hfault =>
      refine iff_of_false ?_ ?_
      · rintro ⟨hadmins, -⟩
        have hnew : newUser env req data ∈ s.admins :=
          hadmins ▸ (Table.mem_insert hinsert).mpr (.inr rfl)
        exact Table.not_clash_of_insert hinsert hnew (.inl rfl)
      · rintro (htaken | hsound)
        · rw [Table.insert_eq_none.mpr htaken] at hinsert
          cases hinsert
        · exact hsound _ hfault
  | complete hinsert hassigned hsound =>
      refine iff_of_true ⟨rfl, ?_, role, hmem, hname, hassigned role hrole⟩ (.inr hsound)
      exact (Table.mem_insert hinsert).mpr (.inr rfl)

end Run

/-! ## An admin without a role -/

section Sample
open Administration

/-- The data of the third admin of the seeded state. -/
def sampleCreate : UserCreate where
  name := "admin3"
  email := "admin3@example.com"
  password := "Passw0rd!"

/-- The assignment raises. -/
def assignmentFault : Fault := ⟨.assignSuperAdmin, .database .integrity⟩

/-- A lost audit intent does not matter. -/
theorem provisioned_iff_intentFault :
    Provisioned sampleEnv (sampleRequest 1) sampleCreate
      (some ⟨.createAuditIntent, .database .integrity⟩) sampleState ↔
      Taken sampleEnv (sampleRequest 1) sampleCreate sampleState ∨
        ∀ e, some (⟨.createAuditIntent, .database .integrity⟩ : Fault) ≠
          some ⟨.assignSuperAdmin, e⟩ :=
  provisioned_iff _ _ _ _ _ (by decide)

/-- The row stays without a role, and a second attempt with the same data is refused: its email
is taken. -/
theorem not_provisioned_assignmentFault :
    (sampleState.roleByName superAdminRoleName).isSome ∧
      ¬ Provisioned sampleEnv (sampleRequest 1) sampleCreate (some assignmentFault) sampleState ∧
      ((createUser sampleEnv (sampleRequest 2) sampleCreate).run
        ((faultyCreateUser sampleEnv (sampleRequest 1) sampleCreate (some assignmentFault)).run
          sampleState).2).1 = .error (.app .emailExists) := by
  refine ⟨by decide, ?_, rfl⟩
  have hfacts : (fun x : Except Failure PlatformAdmin × Database =>
      (x.1.toOption.map PlatformAdmin.id, x.2.admins.rows.length))
      ((faultyCreateUser sampleEnv (sampleRequest 1) sampleCreate (some assignmentFault)).run
        sampleState) = (none, 3) := rfl
  intro h
  unfold Provisioned at h
  generalize (faultyCreateUser sampleEnv (sampleRequest 1) sampleCreate
    (some assignmentFault)).run sampleState = x at h hfacts
  obtain ⟨r, s'⟩ := x
  obtain ⟨hraises, hthree⟩ := Prod.mk.inj hfacts
  cases r with
  | ok user => cases hraises
  | error e =>
      have hsame : s'.admins.rows.length = 2 := congrArg (fun t => t.rows.length) h.1
      rw [hsame] at hthree
      cases hthree

end Sample

end AdminPlatform.Provisioning
