import AdminPlatform.Access.Seeded
import AdminPlatform.Lib.Session
import AdminPlatform.Services.Export
import AdminPlatform.Services.Role
import AdminPlatform.Services.User

/-! # Best-effort recording, on a shared session

`record()` swallows what the write of its intent raises, but the write is made on the session
of the request: when its flush fails, every object of the session is expired and the session
raises until it is rolled back, which nobody does. So what a caller sees is the same with and
without the failure exactly where nothing is read from the session after the record
(`bestEffort_iff`): for the operations that answer nothing, for downloads, and for requests
that are refused before they record. -/

namespace AdminPlatform
open AdminPlatform.Lib

/-- The write of an intent. -/
def intentWrite : ∀ {β : Type}, Sql β → Bool
  | _, .commit (.insertIntent _) _ => true
  | _, _ => false

/-- Statements on a session on which the flush of an intent raises `fault`, and every later
statement `pending`. -/
abbrev brokenExec (fault pending : DbError) : Semantics Sql Failure (Program.Session Database) :=
  Program.broken exec intentWrite (.database fault) (.database pending)

/-- A request served on such a session. -/
def Db.runBroken {α : Type} (fault pending : DbError) (p : Db α) (s : Database) :
    Except Failure α × Program.Session Database :=
  Program.run (brokenExec fault pending) p ⟨s, false⟩

/-- No handler, and no intent. -/
abbrev Db.Plain {α : Type} (p : Db α) : Prop := Program.Straight intentWrite p

namespace BestEffort
open Administration

/-! ## Reading what is answered -/

/-- A lazy load: an attribute of an expired object is read from the session again. -/
def attributes : Db Unit := query fun _ => ()

/-- The caller reads the attributes of the entity it is answered. -/
def readable {α : Type} (p : Db α) : Db α := do
  let entity ← p
  attributes
  return entity

/-! ## Plain parts -/

section Plain
variable {α : Type}

theorem plain_query (q : Database → α) : (query q).Plain := Program.straight_issue rfl

theorem plain_raise (e : AppError) : (raise e : Db α).Plain := trivial

theorem plain_commit {w : Write} (hw : intentWrite (.commit w ()) = false) : (commit w).Plain :=
  Program.straight_issue hw

theorem plain_when {p : Db Unit} (hp : p.Plain) (b : Bool) : (when b p).Plain := by
  cases b
  · trivial
  · exact hp

theorem plain_refresh {γ : Type} [Row γ] (table : Database → Table γ) (k : Row.Key γ) :
    (refresh table k).Plain := by
  refine (plain_query _).bind fun row => ?_
  cases row
  · trivial
  · trivial

theorem plain_save {γ : Type} [Row γ] {w : Write} (hw : intentWrite (.commit w ()) = false)
    (table : Database → Table γ) (k : Row.Key γ) : (save w table k).Plain :=
  (plain_commit hw).bind fun _ => plain_refresh table k

end Plain

/-! ## Around a record -/

/-- What is committed apart from the outbox. -/
def business (s : Database) : Database := { s with auditIntents := Table.empty }

/-- The caller sees the same, and the same is committed, whether the intent is written or its
flush fails. -/
def SameOutcome {α : Type} (p : Db α) (s : Database) : Prop :=
  ∀ fault pending, (p.runBroken fault pending s).1 = (p.run s).1 ∧
    business (p.runBroken fault pending s).2.state = business (p.run s).2

/-- The request gets to the write of its intent. -/
def Recording {α : Type} (p : Db α) (s : Database) : Prop := Program.Reaches exec intentWrite p s

section Plain
variable {α γ : Type} {x : Db γ} {f : γ → Db α} {s s' : Database} {a : γ} {e : Failure}

/-- A plain part that raises ends the request before its record. -/
theorem sameOutcome_of_error (hx : x.Plain) (hrun : x.run s = (.error e, s')) :
    SameOutcome (x >>= f) s ∧ ¬ Recording (x >>= f) s := by
  have hrun' : Program.run exec x s = (.error e, s') := hrun
  constructor
  · intro fault pending
    obtain ⟨failed, hbroken, -⟩ := hx.run_broken exec (.database fault) (.database pending) s
    rw [hrun'] at hbroken
    rw [Db.run_bind_error _ hrun, Db.runBroken, Program.run_bind_error hbroken]
    exact ⟨rfl, rfl⟩
  · rw [Recording, Program.reaches_bind]
    rintro (h | ⟨a, u, hok, -⟩)
    · exact hx.not_reaches s h
    · rw [hrun'] at hok
      cases hok

/-- A plain part that answers leaves it to the rest. -/
theorem sameOutcome_of_ok (hx : x.Plain) (hrun : x.run s = (.ok a, s')) :
    (SameOutcome (x >>= f) s ↔ SameOutcome (f a) s') ∧
      (Recording (x >>= f) s ↔ Recording (f a) s') := by
  have hrun' : Program.run exec x s = (.ok a, s') := hrun
  constructor
  · unfold SameOutcome
    refine forall₂_congr fun fault pending => ?_
    obtain ⟨failed, hbroken, hok⟩ := hx.run_broken exec (.database fault) (.database pending) s
    rw [hrun'] at hbroken hok
    obtain rfl := hok a rfl
    rw [Db.run_bind_ok _ hrun, Db.runBroken, Program.run_bind_ok hbroken]
    rfl
  · rw [Recording, Program.reaches_bind]
    constructor
    · rintro (h | ⟨b, u, hok, h⟩)
      · exact absurd h (hx.not_reaches s)
      · rw [hrun'] at hok
        obtain ⟨⟨⟩, rfl⟩ := Prod.mk.inj hok
        exact h
    · exact fun h => .inr ⟨a, s', hrun', h⟩

end Plain

/-- The request records once, after plain parts, and then goes on as `after` says. -/
inductive Records (req : Request) {α : Type} (after : Db α → Prop) : Db α → Prop
  | record {e : Audit.AuditEvent} {rest : Db α} (h : after rest) :
      Records req after (AuditService.record req e >>= fun _ => rest)
  | bind {γ : Type} {x : Db γ} {f : γ → Db α} (hx : x.Plain)
      (hf : ∀ a, Records req after (f a)) : Records req after (x >>= f)

/-- Nothing is left to do. -/
def Answers {α : Type} (rest : Db α) : Prop := ∃ a, rest = pure a

/-- Something is read, and answered if the session answers. -/
def Loads {α : Type} (rest : Db α) : Prop :=
  ∃ (δ : Type) (q : Database → δ) (k : δ → Db α), rest = query q >>= k ∧
    ∀ d s, ∃ a s', (k d).run s = (.ok a, s')

section Records
variable {α : Type} {req : Request} {p : Db α} {after : Db α → Prop}

/-- What is done with what a request answers. -/
theorem Records.bind_after {β : Type} {after' : Db β → Prop} {g : α → Db β}
    (h : Records req after p) (hafter : ∀ rest, after rest → after' (rest >>= g)) :
    Records req after' (p >>= g) := by
  induction h with
  | record hrest =>
      rw [Program.bind_bind]
      exact .record (hafter _ hrest)
  | bind hx _ ih =>
      rw [Program.bind_bind]
      exact .bind hx ih

/-- An entity is read by its caller. -/
theorem Records.read (h : Records req Answers p) : Records req Loads (readable p) := by
  refine h.bind_after ?_
  rintro rest ⟨a, rfl⟩
  exact ⟨Unit, _, _, rfl, fun _ s => ⟨a, s, rfl⟩⟩

/-- What is read once is read again by its caller. -/
theorem Records.read_again (h : Records req Loads p) : Records req Loads (readable p) := by
  refine h.bind_after ?_
  rintro rest ⟨δ, q, k, rfl, hk⟩
  refine ⟨δ, q, _, Program.bind_bind _ _ _, fun d s => ?_⟩
  obtain ⟨a, s', hrun⟩ := hk d s
  exact ⟨a, s', by rw [Db.run_bind_ok _ hrun]; rfl⟩

theorem runBroken_record (req : Request) (e : Audit.AuditEvent) (s : Database)
    (fault pending : DbError) :
    (AuditService.record req e).runBroken fault pending s = (.ok (), ⟨s, true⟩) := rfl

/-- **Nothing is read after the record**: the failure stays unseen. -/
theorem Records.sameOutcome (h : Records req Answers p) (s : Database) : SameOutcome p s := by
  induction h generalizing s with
  | @record e rest hrest =>
      obtain ⟨a, rfl⟩ := hrest
      intro fault pending
      obtain ⟨outbox, hrecord⟩ := AuditService.run_record req e s
      rw [Db.run_bind_ok _ hrecord, Db.runBroken,
        Program.run_bind_ok (runBroken_record req e s fault pending)]
      exact ⟨rfl, rfl⟩
  | @bind γ x f hx _ ih =>
      rcases hrun : x.run s with ⟨e | a, s'⟩
      · exact (sameOutcome_of_error hx hrun).1
      · exact (sameOutcome_of_ok hx hrun).1.mpr (ih a s')

/-- **Something is read after the record**: the failure shows whenever the record is reached. -/
theorem Records.sameOutcome_iff (h : Records req Loads p) (s : Database) :
    SameOutcome p s ↔ ¬ Recording p s := by
  induction h generalizing s with
  | @record e rest hrest =>
      obtain ⟨δ, q, k, rfl, hk⟩ := hrest
      have hreached : Recording (AuditService.record req e >>= fun _ => query q >>= k) s :=
        Program.reaches_bind.mpr (.inl (.inl rfl))
      refine iff_of_false (fun hsame => ?_) (not_not.mpr hreached)
      have hfail := (hsame .integrity .integrity).1
      obtain ⟨outbox, hrecord⟩ := AuditService.run_record req e s
      let s₁ : Database := { s with auditIntents := outbox }
      obtain ⟨a, s', hrun⟩ := hk (q s₁) s₁
      have hpending : Program.run (brokenExec .integrity .integrity) (query q >>= k) ⟨s, true⟩ =
          (.error (.database .integrity), ⟨s, true⟩) := Program.run_broken_issue _ _ _
      rw [Db.run_bind_ok _ hrecord, Db.run_query_bind, hrun, Db.runBroken,
        Program.run_bind_ok (runBroken_record req e s .integrity .integrity), hpending] at hfail
      cases hfail
  | @bind γ x f hx _ ih =>
      rcases hrun : x.run s with ⟨e | a, s'⟩
      · obtain ⟨hsame, hnot⟩ := sameOutcome_of_error (f := f) hx hrun
        exact iff_of_true hsame hnot
      · obtain ⟨hsame, hreached⟩ := sameOutcome_of_ok (f := f) hx hrun
        rw [hsame, hreached]
        exact ih a s'

end Records

/-! ## The operations -/

/-- A request that records once. -/
inductive Op
  | user (op : UserService.Op)
  | role (op : RoleService.Op)
  | screen (op : ScreenService.Op)
  | createExport (adminEmail : String) (data : ExportCreate)
  | downloadExport (exportId : Uuid) (adminEmail : String)

def Op.Answer : Op → Type
  | .user (.delete _) | .role (.delete _) | .screen (.delete _) => Unit
  | .user _ => PlatformAdmin
  | .role _ => RoleRead
  | .screen _ => Screen
  | .createExport .. => Export
  | .downloadExport .. => FileResponse

/-- Serve the request, as far as its caller sees it. Creating and updating a role read the
attributes of the role themselves. -/
def Op.serve (env : Env) (req : Request) : (op : Op) → Db op.Answer
  | .user (.create data) => readable (UserService.createUser env req data)
  | .user (.update userId data) => readable (UserService.updateUser req userId data)
  | .user (.replace userId data) => readable (UserService.replaceUser env req userId data)
  | .user (.delete userId) => UserService.deleteUser req userId
  | .role (.create data) => readable (RoleService.createRole req data)
  | .role (.update roleId data) => readable (RoleService.updateRole req roleId data)
  | .role (.delete roleId) => RoleService.deleteRole req roleId
  | .screen (.create data) => readable (ScreenService.createScreen req data)
  | .screen (.update screenId data) => readable (ScreenService.updateScreen req screenId data)
  | .screen (.delete screenId) => ScreenService.deleteScreen req screenId
  | .createExport adminEmail data => readable (ExportService.createExport env req adminEmail data)
  | .downloadExport exportId adminEmail =>
      ExportService.downloadExport env req exportId adminEmail

/-- Whether nothing is read from the session after the record: deletions answer nothing, a
download a path. -/
def Op.silent : Op → Bool
  | .user (.delete _) | .role (.delete _) | .screen (.delete _) => true
  | .downloadExport .. => true
  | _ => false

/-! ## What comes before their records -/

section Parts

theorem plain_ensureEmailAvailable (email : String) (excludeId : Option Uuid) :
    (UserService.ensureEmailAvailable email excludeId).Plain := by
  refine (plain_query _).bind fun found => ?_
  cases found
  · trivial
  · exact plain_when (plain_raise _) _

theorem plain_guardLastActiveAdmin (adminId : Uuid) :
    (UserService.guardLastActiveAdmin adminId).Plain :=
  (plain_query _).bind fun _ => plain_when (plain_raise _) _

theorem plain_getUser (userId : Uuid) : (UserService.getUser userId).Plain := by
  refine (plain_query _).bind fun found => ?_
  cases found
  · trivial
  · trivial

theorem plain_assignSuperAdmin (now : Instant) (adminId : Uuid) :
    (RbacRepository.assignSuperAdmin now adminId).Plain := by
  refine (plain_query _).bind fun role => ?_
  cases role
  · trivial
  · refine (plain_query _).bind fun existing => ?_
    cases existing
    · exact plain_commit rfl
    · trivial

theorem plain_writeAdmin (loaded current : PlatformAdmin) : (writeAdmin loaded current).Plain :=
  plain_save rfl _ _

theorem plain_ensureNameAvailable (name : String) (excludeId : Option Uuid) :
    (RoleService.ensureNameAvailable name excludeId).Plain := by
  refine (plain_query _).bind fun found => ?_
  cases found
  · trivial
  · exact plain_when (plain_raise _) _

theorem plain_normalized (permissions : List String) :
    (RoleService.normalized permissions).Plain := by
  unfold RoleService.normalized
  split
  · trivial
  · trivial

theorem plain_validateScreenCodes (byCode : List (String × Bool × Bool)) :
    (RoleService.validateScreenCodes byCode).Plain :=
  plain_when ((plain_query _).bind fun _ => plain_when (plain_raise _) _) _

theorem plain_getRole (roleId : Uuid) : (RoleService.getRole roleId).Plain := by
  refine (plain_query _).bind fun found => ?_
  cases found
  · trivial
  · trivial

theorem plain_updateRows (req : Request) (roleId : Uuid) (permissions : Option (List String)) :
    (RoleService.updateRows req roleId permissions).Plain := by
  cases permissions
  · trivial
  · exact (plain_normalized _).bind fun _ => (plain_validateScreenCodes _).bind fun _ => trivial

theorem plain_expandedPermissions (roleId : Uuid) (permissions : Option (List String)) :
    (RoleService.expandedPermissions roleId permissions).Plain := by
  cases permissions
  · trivial
  · exact (plain_query _).bind fun _ => trivial

theorem plain_forM {α : Type} (o : Option α) {f : α → Db Unit} (hf : ∀ a, (f a).Plain) :
    (o.forM f).Plain := by
  cases o
  · trivial
  · exact hf _

theorem plain_chooseCode (data : ScreenCreate) : (ScreenService.chooseCode data).Plain := by
  unfold ScreenService.chooseCode
  split
  · split
    · exact plain_query _
    · trivial
  · exact plain_query _

theorem plain_getScreen (screenId : Uuid) : (ScreenService.getScreen screenId).Plain := by
  refine (plain_query _).bind fun found => ?_
  cases found
  · trivial
  · trivial

theorem plain_spec (module : String) : (ExportService.spec module).Plain := by
  unfold ExportService.spec
  split
  · trivial
  · trivial

theorem plain_filtersForModule (data : ExportCreate) :
    (ExportService.filtersForModule data).Plain := by
  unfold ExportService.filtersForModule
  split <;> trivial

theorem plain_countRows (env : Env) (spec : ExportSpec) (filters : Json) :
    (ExportService.countRows env spec filters).Plain := by
  unfold ExportService.countRows
  split
  · exact plain_query _
  · split
    · exact plain_query _
    · trivial

theorem plain_rowStream (env : Env) (spec : ExportSpec) (filters : Json) :
    (ExportService.rowStream env spec filters).Plain := by
  unfold ExportService.rowStream
  split
  · exact (plain_query _).bind fun _ => trivial
  · split
    · exact (plain_query _).bind fun _ => trivial
    · trivial

theorem plain_getExport (exportId : Uuid) (held : Option Export) :
    (ExportRepository.getExport exportId held).Plain := by
  unfold ExportRepository.getExport
  split
  · trivial
  · exact plain_query _

theorem plain_writeFile (env : Env) (now : Instant) (spec : ExportSpec) (entry : Export)
    (path : String) (rows : List ExportRow) :
    (ExportService.writeFile env now spec entry path rows).Plain := by
  rcases ExportService.writeFile_cases env now spec entry path rows with ⟨-, heq⟩ | ⟨-, heq⟩
  · rw [heq]
    exact (plain_commit rfl).bind fun _ => trivial
  · rw [heq]
    trivial

theorem plain_generate (env : Env) (now : Instant) (exportId : Uuid) (held : Option Export) :
    (ExportService.generate env now exportId held).Plain := by
  refine (plain_getExport _ _).bind fun found => ?_
  cases found
  · trivial
  · refine (plain_spec _).bind fun spec => (plain_rowStream _ _ _).bind fun rows => ?_
    exact (plain_writeFile _ _ _ _ _ _).bind fun _ => (plain_commit rfl).bind fun _ => trivial

theorem plain_ownedExport (exportId : Uuid) (adminEmail : String) :
    (ExportService.ownedExport exportId adminEmail).Plain := by
  refine (plain_getExport _ _).bind fun found => ?_
  cases found
  · trivial
  · exact (plain_when (plain_raise _) _).bind fun _ => trivial

theorem plain_regenerate (env : Env) (now : Instant) (entry : Export) :
    (ExportService.regenerate env now entry).Plain := by
  refine (plain_query _).bind fun present => ?_
  split
  · exact plain_generate _ _ _ _
  · trivial

end Parts

/-! ## Where each operation stands after its record -/

theorem records_createUser (env : Env) (req : Request) (data : UserCreate) :
    Records req Answers (UserService.createUser env req data) :=
  .bind (plain_ensureEmailAvailable _ _) fun _ => .bind (plain_save rfl _ _) fun user =>
    .bind (plain_assignSuperAdmin _ _) fun _ => .record ⟨user, rfl⟩

theorem records_updateUser (req : Request) (userId : Uuid) (data : UserUpdate) :
    Records req Answers (UserService.updateUser req userId data) :=
  .bind (plain_getUser _) fun _ =>
    .bind (plain_forM _ fun _ => plain_ensureEmailAvailable _ _) fun _ =>
      .bind (plain_when (plain_guardLastActiveAdmin _) _) fun _ =>
        .bind (plain_writeAdmin _ _) fun user => .record ⟨user, rfl⟩

theorem records_replaceUser (env : Env) (req : Request) (userId : Uuid) (data : UserReplace) :
    Records req Answers (UserService.replaceUser env req userId data) :=
  .bind (plain_getUser _) fun _ => .bind (plain_ensureEmailAvailable _ _) fun _ =>
    .bind (plain_writeAdmin _ _) fun user => .record ⟨user, rfl⟩

/-- A record at the end of a request. -/
theorem records_last (req : Request) (e : Audit.AuditEvent) :
    Records req Answers (AuditService.record req e) := by
  have hrecord : Records req Answers (AuditService.record req e >>= fun _ => pure ()) :=
    .record ⟨(), rfl⟩
  rwa [Program.bind_pure] at hrecord

theorem records_deleteUser (req : Request) (userId : Uuid) :
    Records req Answers (UserService.deleteUser req userId) :=
  .bind (plain_getUser _) fun _ => .bind (plain_when (plain_guardLastActiveAdmin _) _) fun _ =>
    .bind (plain_commit rfl) fun _ => records_last _ _

theorem records_createRole (req : Request) (data : RoleCreate) :
    Records req Answers (RoleService.createRole req data) :=
  .bind (plain_ensureNameAvailable _ _) fun _ => .bind (plain_normalized _) fun _ =>
    .bind (plain_validateScreenCodes _) fun _ => .bind (plain_save rfl _ _) fun _ =>
      .bind (plain_query _) fun _ => .record ⟨_, rfl⟩

/-- Updating a role reads its permissions once more. -/
theorem records_updateRole (req : Request) (roleId : Uuid) (data : RoleUpdate) :
    Records req Loads (RoleService.updateRole req roleId data) :=
  .bind (plain_getRole _) fun _ => .bind (plain_when (plain_raise _) _) fun _ =>
    .bind (plain_forM _ fun _ => plain_ensureNameAvailable _ _) fun _ =>
      .bind (plain_updateRows _ _ _) fun _ => .bind (plain_save rfl _ _) fun _ =>
        .bind (plain_expandedPermissions _ _) fun _ =>
          .record ⟨_, _, _, rfl, fun _ s => ⟨_, s, rfl⟩⟩

theorem records_deleteRole (req : Request) (roleId : Uuid) :
    Records req Answers (RoleService.deleteRole req roleId) :=
  .bind (plain_getRole _) fun _ => .bind (plain_when (plain_raise _) _) fun _ =>
    .bind (plain_commit rfl) fun _ => records_last _ _

theorem records_createScreen (req : Request) (data : ScreenCreate) :
    Records req Answers (ScreenService.createScreen req data) :=
  .bind (plain_chooseCode _) fun _ =>
    .bind ((plain_query _).bind fun _ => plain_when (plain_raise _) _) fun _ =>
      .bind (plain_query _) fun _ => .bind (plain_save rfl _ _) fun _ => .record ⟨_, rfl⟩

theorem records_updateScreen (req : Request) (screenId : Uuid) (data : ScreenUpdate) :
    Records req Answers (ScreenService.updateScreen req screenId data) :=
  .bind (plain_getScreen _) fun _ => .bind (plain_when (plain_raise _) _) fun _ =>
    .bind (plain_save rfl _ _) fun _ => .record ⟨_, rfl⟩

theorem records_deleteScreen (req : Request) (screenId : Uuid) :
    Records req Answers (ScreenService.deleteScreen req screenId) :=
  .bind (plain_getScreen _) fun _ => .bind (plain_when (plain_raise _) _) fun _ =>
    .bind (plain_commit rfl) fun _ => records_last _ _

theorem records_createExport (env : Env) (req : Request) (adminEmail : String)
    (data : ExportCreate) :
    Records req Answers (ExportService.createExport env req adminEmail data) :=
  .bind (plain_spec _) fun _ => .bind (plain_filtersForModule _) fun _ =>
    .bind (plain_countRows _ _ _) fun _ => .bind (plain_when (plain_raise _) _) fun _ =>
      .bind (plain_save rfl _ _) fun _ => .record ⟨_, rfl⟩

theorem records_downloadExport (env : Env) (req : Request) (exportId : Uuid)
    (adminEmail : String) :
    Records req Answers (ExportService.downloadExport env req exportId adminEmail) :=
  .bind (plain_ownedExport _ _) fun _ =>
    .bind (plain_when ((plain_commit rfl).bind fun _ => plain_raise _) _) fun _ =>
      .bind (plain_regenerate _ _ _) fun _ => .bind (plain_query _) fun _ =>
        .bind (plain_when (plain_raise _) _) fun _ => .record ⟨_, rfl⟩

/-- **When recording is best-effort**: on every operation and in every state, the caller sees
the same and the same is committed whether or not the flush of the intent fails, if and only
if nothing is read from the session after the record, or the record is not reached. -/
theorem bestEffort_iff (env : Env) (req : Request) (op : Op) (s : Database) :
    SameOutcome (op.serve env req) s ↔
      op.silent = true ∨ ¬ Recording (op.serve env req) s := by
  have hsilent : ∀ {α : Type} {p : Db α}, Records req Answers p →
      (SameOutcome p s ↔ true = true ∨ ¬ Recording p s) :=
    fun h => iff_of_true (h.sameOutcome s) (.inl rfl)
  have hreads : ∀ {α : Type} {p : Db α}, Records req Loads p →
      (SameOutcome p s ↔ false = true ∨ ¬ Recording p s) := by
    intro α p h
    rw [h.sameOutcome_iff s]
    simp
  cases op with
  | user op =>
      cases op with
      | create data => exact hreads (records_createUser env req data).read
      | update userId data => exact hreads (records_updateUser req userId data).read
      | replace userId data => exact hreads (records_replaceUser env req userId data).read
      | delete userId => exact hsilent (records_deleteUser req userId)
  | role op =>
      cases op with
      | create data => exact hreads (records_createRole req data).read
      | update roleId data => exact hreads (records_updateRole req roleId data).read_again
      | delete roleId => exact hsilent (records_deleteRole req roleId)
  | screen op =>
      cases op with
      | create data => exact hreads (records_createScreen req data).read
      | update screenId data => exact hreads (records_updateScreen req screenId data).read
      | delete screenId => exact hsilent (records_deleteScreen req screenId)
  | createExport adminEmail data =>
      exact hreads (records_createExport env req adminEmail data).read
  | downloadExport exportId adminEmail =>
      exact hsilent (records_downloadExport env req exportId adminEmail)

/-- A role is created, and its creator told of a database error. -/
def sampleCreate : Op := .role (.create { name := "auditor", permissions := ["S1.R"] })

theorem sampleCreate_fails :
    ¬ SameOutcome (sampleCreate.serve sampleEnv (sampleRequest 1)) sampleState := by
  intro hsame
  have hfails : ((sampleCreate.serve sampleEnv (sampleRequest 1)).runBroken .integrity .integrity
      sampleState).1.isOk = false := by decide
  have hserves : ((sampleCreate.serve sampleEnv (sampleRequest 1)).run sampleState).1.isOk =
      true := by decide
  rw [(hsame .integrity .integrity).1, hserves] at hfails
  cases hfails

end BestEffort
end AdminPlatform
