import AdminPlatform.Exports.Files
import AdminPlatform.Exports.Ownership

/-! # Exports and the permissions of their modules

The list of the users requires one permission, the list of the audit entries another. The
export routes require the second one for both modules. So audit rows are exported only for
those who may list them, in every run: `exports_respect_permissions`. Users are exported for
an admin who may not list them: `users_leak`. -/

namespace AdminPlatform
open AdminPlatform.Lib

namespace Exports

/-- Files are of one module, whatever roles, screens and grants there are. -/
def Filed (env : Env) (st : State) : Prop := ExportService.Filed env st.db

/-- The admin a request is served for holds the permission. -/
def CallerHolds (st : State) (req : Request) (credentials : Option EncodedToken)
    (permission : PermissionName) : Prop :=
  ∃ admin ∈ caller st.db req credentials,
    permission.value ∈ RbacService.permissions st.db admin.id

/-- The request obtains rows of the module, as a new export or in a file that is served, only
for an admin who holds the permission. -/
def Respects (env : Env) (module : String) (permission : PermissionName) (st : State) :
    Request × Call → Prop
  | (req, .create credentials data) =>
      ∀ entry s', (Api.createExport env req credentials data).run st.db = (.ok entry, s') →
        entry.module = module → CallerHolds st req credentials permission
  | (req, .download credentials exportId) =>
      ∀ response s', (Api.downloadExport env req credentials exportId).run st.db =
          (.ok response, s') →
        ((∃ entry ∈ st.db.exports.find? exportId, entry.module = module) ∨
          ∃ file ∈ s'.files.lookup response.path, ∃ row ∈ file.rows, row.module = module) →
        CallerHolds st req credentials permission
  | _ => True

/-- Whoever asks for an export of the users and may list the audit entries may list the users
as well. -/
def AsksAsLister (st : State) : Request × Call → Prop
  | (req, .create credentials data) =>
      data.module = .users → ∀ admin ∈ caller st.db req credentials,
        PermissionName.auditRead.value ∈ RbacService.permissions st.db admin.id →
        PermissionName.usersRead.value ∈ RbacService.permissions st.db admin.id
  | (req, .download credentials exportId) =>
      ∀ entry ∈ st.db.exports.find? exportId, entry.module = "users" →
        ∀ admin ∈ caller st.db req credentials, entry.createdBy = admin.email →
          PermissionName.auditRead.value ∈ RbacService.permissions st.db admin.id →
          PermissionName.usersRead.value ∈ RbacService.permissions st.db admin.id
  | _ => True

instance (st : State) : ∀ l, Decidable (AsksAsLister st l)
  | (req, .create credentials data) =>
      inferInstanceAs (Decidable (data.module = .users →
        ∀ admin ∈ caller st.db req credentials, _ → _))
  | (req, .download credentials exportId) =>
      inferInstanceAs (Decidable (∀ entry ∈ st.db.exports.find? exportId, _ →
        ∀ admin ∈ caller st.db req credentials, _ → _ → _))
  | (_, .access _) => .isTrue trivial
  | (_, .role _) => .isTrue trivial
  | (_, .screen _) => .isTrue trivial
  | (_, .status _ _) => .isTrue trivial
  | (_, .generate _) => .isTrue trivial

section Result
variable {env : Env} {st : State}

/-- **One request keeps files to their module.** -/
theorem filed_next (h : Filed env st) (l : Request × Call) : Filed env (next env l.1 st l.2) := by
  obtain ⟨req, call⟩ := l
  have hframe : ∀ renames {s' : Database}, Frame renames st.db s' →
      ExportService.Filed env s' := fun _ _ hframe => h.congr hframe.exports hframe.files
  cases call with
  | access call => exact hframe _ (frame_serve call)
  | role op => exact hframe (fun _ => False) (frame_role op)
  | screen op => exact hframe (fun _ => False) (frame_screen op)
  | status credentials exportId =>
      obtain ⟨outbox, hstate⟩ := Api.run_getExport_state req credentials exportId st.db
      simp only [next]
      rw [hstate]
      exact h.congr rfl rfl
  | create credentials data =>
      rcases hrun : (Api.createExport env req credentials data).run st.db with ⟨r, u⟩
      have hfiled := h.createRoute hrun
      cases r with
      | ok entry =>
          simp only [next, hrun]
          exact hfiled
      | error e =>
          simp only [next, hrun]
          exact hfiled
  | download credentials exportId =>
      rcases hrun : (Api.downloadExport env req credentials exportId).run st.db with ⟨r, u⟩
      simp only [next, hrun]
      exact (h.downloadRoute hrun).1
  | generate exportId => exact h.generateTask exportId

/-- An export is created for an admin who holds the permission the route checks. -/
theorem granted_create {req : Request} {credentials : Option EncodedToken} {data : ExportCreate}
    {entry : Export} {s' : Database}
    (hrun : (Api.createExport env req credentials data).run st.db = (.ok entry, s')) :
    ∃ admin, caller st.db req credentials = some admin ∧
      PermissionName.auditRead.value ∈ RbacService.permissions st.db admin.id ∧
      entry.module = data.module.value := by
  rcases Api.run_createExport_inv hrun with ⟨e, outbox, ⟨⟩, -⟩ |
    ⟨payload, admin, x, exports, outbox, hcalls, hgranted, -, -, horigin, ⟨⟩, -⟩
  exact ⟨admin, caller_of_callsAs hcalls, hgranted, (Prod.mk.inj horigin).1⟩

/-- Rows of a module are served to an admin who holds the permission the route checks, from an
export of that module which is the admin's. -/
theorem granted_download (h : Filed env st) {req : Request}
    {credentials : Option EncodedToken} {exportId : Uuid} {response : FileResponse}
    {s' : Database} {module : String}
    (hrun : (Api.downloadExport env req credentials exportId).run st.db = (.ok response, s'))
    (hobtains : (∃ entry ∈ st.db.exports.find? exportId, entry.module = module) ∨
      ∃ file ∈ s'.files.lookup response.path, ∃ row ∈ file.rows, row.module = module) :
    ∃ admin entry, caller st.db req credentials = some admin ∧
      PermissionName.auditRead.value ∈ RbacService.permissions st.db admin.id ∧
      st.db.exports.find? exportId = some entry ∧ entry.createdBy = admin.email ∧
      entry.module = module := by
  obtain ⟨-, ⟨e, ⟨⟩⟩ | ⟨payload, admin, entry, hcalls, hgranted, ⟨hfind, howner⟩, hserves⟩⟩ :=
    h.downloadRoute hrun
  refine ⟨admin, entry, caller_of_callsAs hcalls, hgranted, hfind, howner, ?_⟩
  rcases hobtains with ⟨x, hx, hmodule⟩ | ⟨file, hfile, row, hrow, hmodule⟩
  · obtain rfl : entry = x := Option.some.inj (hfind.symm.trans hx)
    exact hmodule
  · obtain ⟨served, hserved, hrows⟩ := hserves
    obtain rfl : file = served := Option.some.inj (hfile.symm.trans hserved)
    exact (hrows row hrow).symm.trans hmodule

/-- Whatever is exported, the caller holds the permission the routes check. -/
theorem respects_audit (h : Filed env st) (module : String)
    (l : Request × Call) : Respects env module .auditRead st l := by
  obtain ⟨req, call⟩ := l
  cases call with
  | create credentials data =>
      intro entry s' hrun _
      obtain ⟨admin, hcaller, hgranted, -⟩ := granted_create hrun
      exact ⟨admin, hcaller, hgranted⟩
  | download credentials exportId =>
      intro response s' hrun hobtains
      obtain ⟨admin, entry, hcaller, hgranted, -⟩ := granted_download h hrun hobtains
      exact ⟨admin, hcaller, hgranted⟩
  | _ => trivial

theorem respects_users (h : Filed env st) {l : Request × Call}
    (hasks : AsksAsLister st l) : Respects env "users" .usersRead st l := by
  obtain ⟨req, call⟩ := l
  cases call with
  | create credentials data =>
      intro entry s' hrun hmodule
      obtain ⟨admin, hcaller, hgranted, hsame⟩ := granted_create hrun
      have husers : data.module = .users := by
        cases hdata : data.module with
        | users => rfl
        | audit =>
            rw [hmodule, hdata] at hsame
            exact absurd hsame (by decide)
      exact ⟨admin, hcaller, hasks husers admin hcaller hgranted⟩
  | download credentials exportId =>
      intro response s' hrun hobtains
      obtain ⟨admin, entry, hcaller, hgranted, hfind, howner, hmodule⟩ :=
        granted_download h hrun hobtains
      exact ⟨admin, hcaller, hasks entry hfind hmodule admin hcaller howner hgranted⟩
  | _ => trivial

/-- **When exports respect the permissions of their modules.** In every run, audit rows are
exported only for admins who may list them; and users are, in every run in which whoever asks
for an export of them, and may list the audit entries, may list the users as well. -/
theorem exports_respect_permissions {t : List (State × (Request × Call))}
    (h : (machine env (Filed env)).Run t st) :
    (∀ p ∈ t, Respects env "audit" .auditRead p.1 p.2) ∧
      ((∀ p ∈ t, AsksAsLister p.1 p.2) → ∀ p ∈ t, Respects env "users" .usersRead p.1 p.2) := by
  have hfiled : ∀ p ∈ t, Filed env p.1 := by
    have hall : ∀ u ∈ Machine.visited t st, Filed env u := by
      refine h.always (fun _ hu => hu) ?_
      intro u l u' hu hnext
      obtain rfl := Option.some.inj hnext
      exact filed_next hu l
    exact fun p hp => hall p.1 (List.mem_append_left _ (List.mem_map_of_mem hp))
  exact ⟨fun p hp => respects_audit (hfiled p hp) "audit" p.2,
    fun hasks p hp => respects_users (hfiled p hp) (hasks p hp)⟩

end Result

open Administration (sampleEnv sampleState sampleRequest sampleAdmin)

/-- A super_admin exports the users. -/
theorem exports_respect_permissions_createdCalls :
    ∃ t st, (machine sampleEnv (Filed sampleEnv)).Run t st ∧
      t.map Prod.snd = createdCalls .users ∧
      ∀ p ∈ t, Respects sampleEnv "users" .usersRead p.1 p.2 := by
  have hexec : (machine sampleEnv (Filed sampleEnv)).exec (createdCalls .users)
      ⟨sampleState, []⟩ = some _ := rfl
  have hinit : Filed sampleEnv ⟨sampleState, []⟩ := .of_none (fun _ hin => by cases hin) rfl
  have hrun := Machine.Run.of_exec (.start hinit) hexec
  refine ⟨_, _, hrun, Machine.map_snd_trace hexec, (exports_respect_permissions hrun).2 ?_⟩
  decide +kernel

/-! ## Users that leak -/

/-- The only admin may read the audit entries and nothing else. -/
def auditorState : Database :=
  { sampleState with
    admins :=
      ⟨[{ sampleAdmin 3 "auditor" "auditor@example.com" with hashedPassword := "salt$Secret-1" }],
        by decide⟩
    adminRoles := ⟨[{ platformAdminId := .ofNat 3, roleId := .ofNat 11, createdAt := 0 }], by decide⟩
    roles :=
      ⟨[{ id := .ofNat 11, name := "auditor", description := none, status := .active
          createdAt := 0 }], by decide⟩
    roleScreens :=
      ⟨[{ roleId := .ofNat 11, screenCode := "S2", read := true, write := false, createdAt := 0 }],
        by decide⟩ }

/-- The access token of the auditor's login. -/
def auditorToken : EncodedToken :=
  .signed
    { userId := some (.ofNat 3), jti := (Uuid.ofNat 401).str, exp := 1201, type := "access"
      extra := some
        { rjti := (Uuid.ofNat 301).str, rexp := 604801
          email := "auditor@example.com", username := "auditor", roles := ["auditor"]
          permissions := ["S2.R"] } }

/-- The auditor logs in and creates an export of the users. -/
def auditorCalls : List (Request × Call) :=
  [(sampleRequest 1, .access (.login { email := "auditor@example.com", password := "Secret-1" })),
    (sampleRequest 2, .create (some auditorToken) { module := .users, reason := "review" }),
    (sampleRequest 3, .generate (.ofNat 102))]

def auditorDownload : Request × Call :=
  (sampleRequest 4, .download (some auditorToken) (.ofNat 102))

/-- **Users leak** to the auditor, who downloads the file of the export. -/
theorem users_leak :
    ∃ t st, (machine sampleEnv (Filed sampleEnv)).Run t st ∧
      ∃ p ∈ t, ¬ Respects sampleEnv "users" .usersRead p.1 p.2 := by
  have hleak : ((machine sampleEnv (Filed sampleEnv)).exec
      auditorCalls ⟨auditorState, []⟩).map (fun st =>
        ((caller st.db (sampleRequest 4) (some auditorToken)).map fun admin =>
            decide (PermissionName.usersRead.value ∈ RbacService.permissions st.db admin.id),
          (st.db.exports.find? (.ofNat 102)).map Export.module,
          succeeded ((Api.downloadExport sampleEnv (sampleRequest 4) (some auditorToken)
            (.ofNat 102)).run st.db).1)) = some (some false, some "users", true) := by
    decide +kernel
  obtain ⟨st, hexec, hst⟩ := Option.map_eq_some_iff.mp hleak
  obtain ⟨hcaller, hmodule, hserved⟩ := by simpa only [Prod.mk.injEq] using hst
  have hinit : Filed sampleEnv ⟨auditorState, []⟩ := .of_none (fun _ hin => by cases hin) rfl
  have hrun := Machine.Run.of_exec (.start hinit) hexec
  refine ⟨_, _, .step hrun (l := auditorDownload) rfl, (st, auditorDownload), by simp, ?_⟩
  intro hrespects
  rcases hdownload : (Api.downloadExport sampleEnv (sampleRequest 4) (some auditorToken)
    (.ofNat 102)).run st.db with ⟨r, s'⟩
  rw [hdownload] at hserved
  obtain ⟨response, rfl⟩ := succeeded_iff.mp hserved
  obtain ⟨entry, hentry, husers⟩ := Option.map_eq_some_iff.mp hmodule
  -- the caller would hold the permission to read users, and does not
  obtain ⟨admin, hadmin, hholds⟩ := hrespects response s' hdownload (.inl ⟨entry, hentry, husers⟩)
  rw [hadmin, Option.map_some, decide_eq_true hholds] at hcaller
  cases hcaller

end Exports
end AdminPlatform
