import AdminPlatform.Services.Audit
import AdminPlatform.Services.XlsxWriter

/-! # The export service

`app/services/export_service.py`, with the per-module specs of `app/core/export_config.py`:
an export is created for an admin, generated in the background into a file, and downloaded
for 24 hours by whoever has the email it was created by. -/

namespace AdminPlatform
open AdminPlatform.Lib

/-! ## Modules and their filters -/

/-- The modules a request can name. -/
inductive ExportModule
  | audit
  | users
  deriving DecidableEq, Repr

def ExportModule.value : ExportModule → String
  | .audit => "audit"
  | .users => "users"

structure ExportSpec where
  module : String
  label : String
  classification : String
  filenamePrefix : String
  sheetName : String
  /-- The field and the header of each column. -/
  columns : List (String × String)

def auditExportSpec : ExportSpec where
  module := "audit"
  label := "Audit Logs"
  classification := "Restricted"
  filenamePrefix := "audit_export"
  sheetName := "Audit Events"
  columns :=
    [("id", "Event ID"), ("created_at", "Created At (UTC)"), ("actor", "Actor"),
      ("actor_type", "Actor Type"), ("action", "Action"), ("resource_type", "Resource Type"),
      ("resource_id", "Resource ID"), ("details", "Details"), ("payload", "Payload"),
      ("response", "Response"), ("url", "URL"), ("request_id", "Request ID"),
      ("ip_address", "IP Address"), ("user_agent", "User Agent")]

def usersExportSpec : ExportSpec where
  module := "users"
  label := "Users"
  classification := "Confidential"
  filenamePrefix := "users_export"
  sheetName := "Users"
  columns :=
    [("id", "User ID"), ("username", "Name"), ("email", "Email"), ("status", "Status"),
      ("created_at", "Created At (UTC)"), ("updated_at", "Updated At (UTC)")]

def exportSpecs : List (String × ExportSpec) :=
  [auditExportSpec, usersExportSpec].map fun spec => (spec.module, spec)

/-- The filters of an audit export; `none` of an enumeration is `All`. -/
structure AuditExportFilters where
  actor : Option String := none
  action : Option AuditAction := none
  resourceType : Option AuditResourceType := none
  actorType : Option ActorType := none

structure UsersExportFilters where
  search : Option String := none
  status : Option Status := none

inductive ExportFilters
  | audit (filters : AuditExportFilters)
  | users (filters : UsersExportFilters)

structure ExportCreate where
  module : ExportModule
  reason : String
  format : String := "xlsx"
  filters : Option ExportFilters := none

/-- What a download answers with: the path of the file and the name it is offered under. -/
structure FileResponse where
  path : String
  filename : String

/-- An enumeration as a filter, `All` for no filter. -/
def filterText {α : Type} (value : α → String) : Option α → Json
  | some a => .str (value a)
  | none => .str "All"

/-- `filters.model_dump(mode="json")`. -/
def ExportFilters.dump : ExportFilters → Json
  | .audit f =>
      .obj
        [("actor", .ofOption f.actor), ("action", filterText AuditAction.value f.action),
          ("resource_type", filterText AuditResourceType.value f.resourceType),
          ("actor_type", filterText ActorType.value f.actorType)]
  | .users f =>
      .obj [("search", .ofOption f.search), ("status", filterText Status.value f.status)]

/-- The module whose filters these are. -/
def ExportFilters.module : ExportFilters → ExportModule
  | .audit _ => .audit
  | .users _ => .users

/-- The filters a request stands for: those it gives, else the defaults of its module. -/
def ExportCreate.requested (data : ExportCreate) : ExportFilters :=
  data.filters.getD (match data.module with
    | .audit => .audit {}
    | .users => .users {})

namespace ExportService

/-! ## Reading stored filters -/

def auditActions : List AuditAction :=
  [.loginSuccess, .loginFailure, .loginLockout, .refreshSuccess, .refreshFailure, .logout,
    .otpRequested, .otpThrottled, .otpVerifySuccess, .otpVerifyFailure, .passwordResetSuccess,
    .passwordResetFailure, .userCreate, .userUpdate, .userReplace, .userDelete, .roleCreate,
    .roleUpdate, .roleDelete, .screenCreate, .screenUpdate, .screenDelete, .auditRead,
    .accessDenied, .exportGenerated, .exportDownloaded]

def auditResourceTypes : List AuditResourceType := [.auth, .user, .role, .screen, .audit, .export]

def actorTypes : List ActorType := [.admin, .system]

def statuses : List Status := [.active, .inactive]

/-- The member of an enumeration a stored filter names, none for `All` and for what is not
one of its values. -/
def resolveStored {α : Type} (members : List α) (value : α → String) : Option Json → Option α
  | some (.str s) => if s = "All" then none else members.find? (fun a => value a = s)
  | _ => none

/-- `not filters`: none, or an empty dictionary. -/
def noFilters : Json → Bool
  | .null => true
  | .obj [] => true
  | _ => false

def auditFiltersFromDict (filters : Json) : AuditLogFilter :=
  if noFilters filters then {}
  else
    { actor :=
        match filters.get? "actor" with
        | some (.str actor) => some actor
        | _ => none
      action :=
        (resolveStored auditActions AuditAction.value (filters.get? "action")).map AuditAction.value
      resourceType :=
        (resolveStored auditResourceTypes AuditResourceType.value (filters.get? "resource_type")).map
          AuditResourceType.value
      actorType :=
        (resolveStored actorTypes ActorType.value (filters.get? "actor_type")).map
          ActorType.value }

def usersFiltersFromDict (filters : Json) : Option String × Option Status :=
  if noFilters filters then (none, none)
  else
    (match filters.get? "search" with
      | some (.str search) => if search = "" then none else some search
      | _ => none,
    resolveStored statuses Status.value (filters.get? "status"))

/-! ## Creating an export -/

def unsupportedModule (module : String) : AppError :=
  .validation [("module", s!"unsupported export module: {module}")]

def spec (module : String) : Db ExportSpec :=
  match exportSpecs.lookup module with
  | some spec => return spec
  | none => raise (unsupportedModule module)

/-- Resolve the per-module filter shape; a mismatch is rejected. -/
def filtersForModule (data : ExportCreate) : Db ExportFilters :=
  match data.module, data.filters with
  | .audit, none => return .audit {}
  | .users, none => return .users {}
  | .audit, some (.audit filters) => return .audit filters
  | .users, some (.users filters) => return .users filters
  | module, _ =>
      raise (.validation [("filters", s!"filters shape does not match module '{module.value}'")])

def countRows (env : Env) (spec : ExportSpec) (filters : Json) : Db Nat :=
  if spec.module = "audit" then
    ExportRepository.countAuditLogs (auditFiltersFromDict filters)
  else if spec.module = "users" then
    let (search, status) := usersFiltersFromDict filters
    ExportRepository.countPlatformAdmins env search status
  else raise (unsupportedModule spec.module)

/-- Validate, count and persist; the generation runs in the background (`generateTask`). -/
def createExport (env : Env) (req : Request) (adminEmail : String) (data : ExportCreate) :
    Db Export := do
  let spec ← spec data.module.value
  let filtersModel ← filtersForModule data
  let filters := filtersModel.dump
  let rowCount ← countRows env spec filters
  when (env.settings.exportMaxRows < rowCount)
    (raise (.exportTooLarge rowCount env.settings.exportMaxRows))
  let entry ← ExportRepository.createExport req.newId req.now data.module.value data.reason
    data.format spec.classification filters adminEmail
  AuditService.record req
    (AuditService.event .exportGenerated (some .export) (some entry.id.str)
      (.obj
        [("module", .str data.module.value), ("reason", .str data.reason),
          ("row_count", .int rowCount), ("filters", filters)]))
  return entry

/-! ## Generating the file -/

def filename (spec : ExportSpec) (entry : Export) : String :=
  s!"{spec.filenamePrefix}_{String.ofList (Instant.datetime entry.createdAt).stamp}_" ++
    s!"{String.ofList (entry.id.hex.take 8)}.xlsx"

/-- The rows of the data sheet. -/
def rowStream (env : Env) (spec : ExportSpec) (filters : Json) : Db (List ExportRow) :=
  if spec.module = "audit" then do
    let entries ← ExportRepository.streamAuditLogs (auditFiltersFromDict filters)
    return entries.map .audit
  else if spec.module = "users" then do
    let (search, status) := usersFiltersFromDict filters
    let entries ← ExportRepository.streamPlatformAdmins env search status
    return entries.map .user
  else raise (unsupportedModule spec.module)

/-- The metadata of a file, the filters as the value their text is written from. -/
def metadata (env : Env) (now : Instant) (spec : ExportSpec) (entry : Export) :
    List (String × Json) :=
  [("Export ID", .str entry.id.str), ("Module", .str spec.label),
    ("Exported By", .str entry.createdBy), ("Reason", .str entry.reason),
    ("Classification", .str spec.classification), ("Applied Filters", entry.filters),
    ("Generated At (UTC)", .str (Instant.datetime now).isoformat),
    ("Time Zone", .str "UTC (the UI displays IST)"),
    ("Max Records Per File", .int env.settings.exportMaxRows)]

/-- The metadata that go to the writer. -/
def metadataValues (env : Env) (now : Instant) (spec : ExportSpec) (entry : Export) :
    List (String × XlsxWriter.Value) :=
  [("Export ID", .json (.str entry.id.str)), ("Module", .json (.str spec.label)),
    ("Exported By", .json (.str entry.createdBy)), ("Reason", .json (.str entry.reason)),
    ("Classification", .json (.str spec.classification)),
    ("Applied Filters", .json (.str (String.ofList (XlsxWriter.dumps entry.filters)))),
    ("Generated At (UTC)", .json (.str (Instant.datetime now).isoformat)),
    ("Time Zone", .json (.str "UTC (the UI displays IST)")),
    ("Max Records Per File", .json (.int env.settings.exportMaxRows))]

/-- `getattr(entry, field)`. No column names another field. The `updated_at` of an admin is not
kept in the row. -/
def getattr (updatedAt : PlatformAdmin → Datetime) : ExportRow → String → XlsxWriter.Value
  | .audit row, "id" => .uuid row.id
  | .audit row, "created_at" => .datetime row.createdAt
  | .audit row, "actor" => .json (.ofOption row.actor)
  | .audit row, "actor_type" => .json (.ofOption row.actorType)
  | .audit row, "action" => .json (.str row.action)
  | .audit row, "resource_type" => .json (.ofOption row.resourceType)
  | .audit row, "resource_id" => .json (.ofOption row.resourceId)
  | .audit row, "details" => .json row.details
  | .audit row, "payload" => .json row.payload
  | .audit row, "response" => .json row.response
  | .audit row, "url" => .json (.ofOption row.url)
  | .audit row, "request_id" => .json (.ofOption row.requestId)
  | .audit row, "ip_address" => .json (.ofOption row.ipAddress)
  | .audit row, "user_agent" => .json (.ofOption row.userAgent)
  | .user row, "id" => .uuid row.id
  | .user row, "username" => .json (.str row.username)
  | .user row, "email" => .json (.str row.email)
  | .user row, "status" => .json (.str row.status.value)
  | .user row, "created_at" => .datetime (Instant.datetime row.createdAt)
  | .user row, "updated_at" => .datetime (updatedAt row)
  | _, _ => .json .null

/-- `_extract_row`: the values of the spec's columns. -/
def extractRow (getattr : ExportRow → String → XlsxWriter.Value) (spec : ExportSpec)
    (entry : ExportRow) : List XlsxWriter.Value :=
  spec.columns.map fun column => getattr entry column.1

/-- What the writer makes of an export: the sheets and the number of rows, `none` where a cell is
refused. -/
def written (updatedAt : PlatformAdmin → Datetime) (env : Env) (now : Instant)
    (spec : ExportSpec) (entry : Export) (rows : List ExportRow) :
    Option (List (XlsxWriter.Sheet StoredCell) × Nat) :=
  XlsxWriter.writeExportXlsx env.openpyxl (metadataValues env now spec entry) "Metadata"
    spec.sheetName (spec.columns.map Prod.snd) (rows.map (extractRow (getattr updatedAt) spec))

/-- The file of an export. -/
def workbook (env : Env) (now : Instant) (spec : ExportSpec) (entry : Export)
    (rows : List ExportRow) : Workbook where
  metadata := metadata env now spec entry
  headers := spec.columns.map Prod.snd
  rows := rows

/-- Put the file in place and count its rows. -/
def writeFile (env : Env) (now : Instant) (spec : ExportSpec) (entry : Export) (path : String)
    (rows : List ExportRow) : Db Nat :=
  -- an `updated_at` is a time, and those are never refused: any other time will do for it
  match written (fun row => Instant.datetime row.createdAt) env now spec entry rows with
  | none => throw .illegalCharacter
  | some (_, rowCount) => do
      commit (.writeFile path (workbook env now spec entry rows))
      return rowCount

/-- Write the matching rows into a file and mark the export ready. `held` is the export where
the session holds it already. -/
def generate (env : Env) (now : Instant) (exportId : Uuid) (held : Option Export := none) :
    Db Export := do
  match ← ExportRepository.getExport exportId held with
  | none => raise .exportNotFound
  | some entry =>
      let spec ← spec entry.module
      let path := s!"{env.settings.exportDir}/{filename spec entry}"
      -- the writer takes the rows as they come, and leaves no trace where it refuses a cell
      let rows ← rowStream env spec entry.filters
      let rowCount ← writeFile env now spec entry path rows
      let ready : Export :=
        { entry with
          status := .ready, rowCount := some rowCount, filePath := some path
          expiresAt := some (now + Instant.hours env.settings.exportLinkTtlHours) }
      ExportRepository.updateExport entry ready
      return ready

def generationFailed : String := "Generation failed; retry the download."

/-- Background generation with failure marking; a download regenerates. -/
def generateTask (env : Env) (now : Instant) (exportId : Uuid) : Db Unit :=
  tryCatch (drop (generate env now exportId)) fun _ =>
    tryCatch
      (do
        match ← ExportRepository.getExport exportId with
        | none => return ()
        | some entry =>
            when (entry.status = .pending)
              (ExportRepository.updateExport entry
                { entry with status := .failed, generationError := some generationFailed }))
      fun _ => pure ()

/-! ## Status and download -/

/-- The export, for the admin it was created by. -/
def ownedExport (exportId : Uuid) (adminEmail : String) : Db Export := do
  match ← ExportRepository.getExport exportId with
  | none => raise .exportNotFound
  | some entry =>
      when (entry.createdBy ≠ adminEmail) (raise .permissionDenied)
      return entry

def getExportStatus (exportId : Uuid) (adminEmail : String) : Db Export :=
  ownedExport exportId adminEmail

/-- A window that has run out is noted before the request is refused. -/
def refuseExpired (now : Instant) (entry : Export) : Db Unit :=
  when (entry.expiresAt.any fun expiresAt => expiresAt ≤ now) do
    ExportRepository.updateExport entry { entry with status := .expired }
    raise .exportExpired

def fileExists (s : Database) (entry : Export) : Bool := entry.filePath.any s.isFile

/-- `path.name`. -/
def fileName (path : String) : String :=
  String.ofList (path.toList.reverse.takeWhile (· ≠ '/')).reverse

/-- Lazy regeneration. -/
def regenerate (env : Env) (now : Instant) (entry : Export) : Db Export := do
  let present ← query fun s => fileExists s entry
  if entry.status ≠ .ready ∨ !present then generate env now entry.id (some entry)
  else return entry

/-- The file of an export: expiry, regeneration where there is no file, audited. -/
def serveExport (env : Env) (req : Request) (entry : Export) : Db FileResponse := do
  refuseExpired req.now entry
  let entry ← regenerate env req.now entry
  let path := entry.filePath.getD ""
  let isFile ← query fun s => s.isFile path
  when (!isFile) (raise .exportNotFound)
  AuditService.record req
    (AuditService.event .exportDownloaded (some .export) (some entry.id.str)
      (.obj
        [("module", .str entry.module), ("reason", .str entry.reason),
          ("row_count", (entry.rowCount.map fun (n : Nat) => Json.int n).getD .null),
          ("classification", .str entry.classification)]))
  return { path := path, filename := fileName path }

/-- Serve the file to the admin the export was created by. -/
def downloadExport (env : Env) (req : Request) (exportId : Uuid) (adminEmail : String) :
    Db FileResponse := do
  let entry ← ownedExport exportId adminEmail
  serveExport env req entry

/-! ## Specs and their rows -/

theorem lookup_exportSpecs {module : String} {spec : ExportSpec}
    (h : exportSpecs.lookup module = some spec) :
    (module = "audit" ∧ spec = auditExportSpec) ∨ (module = "users" ∧ spec = usersExportSpec) := by
  rw [exportSpecs, List.map_cons, List.map_cons, List.map_nil] at h
  by_cases haudit : module = "audit"
  · subst haudit
    exact .inl ⟨rfl, (Option.some.inj h).symm⟩
  by_cases husers : module = "users"
  · subst husers
    exact .inr ⟨rfl, (Option.some.inj h).symm⟩
  have hnone : List.lookup module
      [(auditExportSpec.module, auditExportSpec), (usersExportSpec.module, usersExportSpec)] =
        none := by
    simp [auditExportSpec, usersExportSpec, haudit, husers]
  rw [hnone] at h
  cases h

theorem module_of_lookup {module : String} {spec : ExportSpec}
    (h : exportSpecs.lookup module = some spec) : spec.module = module := by
  rcases lookup_exportSpecs h with ⟨rfl, rfl⟩ | ⟨rfl, rfl⟩ <;> rfl

/-- The rows the stream of a module yields, and `_count_rows` counts. -/
def selected (env : Env) (spec : ExportSpec) (filters : Json) (s : Database) : List ExportRow :=
  match ((rowStream env spec filters).run s).1 with
  | .ok rows => rows
  | .error _ => []

theorem selected_audit (env : Env) (filters : Json) (s : Database) :
    selected env auditExportSpec filters s =
      ((s.auditLogs.filter (auditFiltersFromDict filters).matches).insertionSort
        fun a b => toLex (b.createdAt, b.id.bits) ≤ toLex (a.createdAt, a.id.bits)).map .audit :=
  rfl

theorem selected_users (env : Env) (filters : Json) (s : Database) :
    selected env usersExportSpec filters s =
      ((s.admins.select (platformAdminMatches env (usersFiltersFromDict filters).1
        (usersFiltersFromDict filters).2)).insertionSort
          fun a b => toLex (a.createdAt, a.id.bits) ≤ toLex (b.createdAt, b.id.bits)).map .user :=
  rfl

theorem run_rowStream {env : Env} {module : String} {spec : ExportSpec}
    (h : exportSpecs.lookup module = some spec) (filters : Json) (s : Database) :
    (rowStream env spec filters).run s = (.ok (selected env spec filters s), s) := by
  rcases lookup_exportSpecs h with ⟨-, rfl⟩ | ⟨-, rfl⟩ <;> rfl

/-- **The count is that of the rows.** -/
theorem run_countRows {env : Env} {module : String} {spec : ExportSpec}
    (h : exportSpecs.lookup module = some spec) (filters : Json) (s : Database) :
    (countRows env spec filters).run s = (.ok (selected env spec filters s).length, s) := by
  rcases lookup_exportSpecs h with ⟨-, rfl⟩ | ⟨-, rfl⟩
  · rw [selected_audit, List.length_map, List.length_insertionSort]
    rfl
  · rw [selected_users, List.length_map, List.length_insertionSort]
    rfl

/-! ## The writer -/

/-- openpyxl takes every cell of the file. -/
def writable (env : Env) (now : Instant) (spec : ExportSpec) (entry : Export)
    (rows : List ExportRow) : Bool :=
  (written (fun row => Instant.datetime row.createdAt) env now spec entry rows).isSome

/-- **The file is put in place and its rows are counted**, or a cell is refused. -/
theorem writeFile_cases (env : Env) (now : Instant) (spec : ExportSpec) (entry : Export)
    (path : String) (rows : List ExportRow) :
    (writable env now spec entry rows = true ∧
      writeFile env now spec entry path rows = (do
        commit (.writeFile path (workbook env now spec entry rows))
        return rows.length)) ∨
      (writable env now spec entry rows = false ∧
        writeFile env now spec entry path rows = throw .illegalCharacter) := by
  unfold writable writeFile
  cases hwritten : written (fun row => Instant.datetime row.createdAt) env now spec entry rows with
  | none => exact .inr ⟨rfl, rfl⟩
  | some file =>
      rw [written, XlsxWriter.writeExportXlsx_eq] at hwritten
      obtain ⟨stored, -, rfl⟩ := Option.map_eq_some_iff.mp hwritten
      exact .inl ⟨rfl, by rw [List.length_map]⟩

/-! ## What stays of an export -/

/-- What an export is of, and the email it was created by. -/
def origin (entry : Export) : String × String := (entry.module, entry.createdBy)

/-- An export as it is created. -/
structure Untouched (entry : Export) : Prop where
  status : entry.status = .pending
  rowCount : entry.rowCount = none
  filePath : entry.filePath = none
  generationError : entry.generationError = none
  expiresAt : entry.expiresAt = none

/-- The export keeps the filters of the request, and they are of the module it names. -/
structure Retains (data : ExportCreate) (entry : Export) : Prop where
  module : data.requested.module = data.module
  filters : entry.filters = data.requested.dump

/-- Only exports, files and intents have changed since `s`, and every export has its origin. -/
structure Maintained (s s' : Database) : Prop where
  rest : ∃ exports files outbox,
    s' = { s with exports := exports, files := files, auditIntents := outbox }
  origin : ∀ id, (s'.exports.find? id).map origin = (s.exports.find? id).map origin

/-- The commits of generating and serving files. -/
def Maintains : Write → Prop
  | .insertIntent _ => True
  | .writeFile _ _ => True
  | .updateExport loaded current => origin current = origin loaded
  | _ => False

theorem origin_merge {loaded current : Export} (h : origin current = origin loaded)
    (stored : Export) : origin (Entity.merge loaded current stored) = origin stored := by
  obtain ⟨hmodule, hcreatedBy⟩ := Prod.mk.inj h
  show (column _ _ _, column _ _ _) = _
  rw [hmodule, hcreatedBy, column_same, column_same]
  rfl

section Run
variable {env : Env} {req : Request} {s s' : Database}

theorem Maintained.refl (s : Database) : Maintained s s := ⟨⟨_, _, _, rfl⟩, fun _ => rfl⟩

theorem Maintained.apply {u : Database} (h : Maintained s u) {w : Write} (hw : Maintains w)
    (happly : w.apply u = .ok s') : Maintained s s' := by
  obtain ⟨exports, files, outbox, rfl⟩ := h.rest
  cases w with
  | insertIntent intent =>
      obtain ⟨t, -, rfl⟩ := apply_insertIntent happly
      exact ⟨⟨exports, files, t, rfl⟩, h.origin⟩
  | writeFile path file =>
      obtain rfl := Except.ok.inj happly
      exact ⟨⟨exports, _, outbox, rfl⟩, h.origin⟩
  | updateExport loaded current =>
      obtain ⟨t, hflush, rfl⟩ := apply_updateExport happly
      refine ⟨⟨t, files, outbox, rfl⟩, fun id => ?_⟩
      rw [← h.origin id]
      rcases Table.find?_flush hflush id with hsame | ⟨stored, hstored, hmerged⟩
      · exact congrArg _ hsame
      · show (t.find? id).map _ = (exports.find? id).map _
        rw [hmerged, hstored, Option.map_some, Option.map_some, origin_merge hw]
  | _ => exact absurd hw id

/-- What a request of such commits leaves. -/
theorem maintained_run {α : Type} {p : Db α} (hp : p.Writes Maintains) (s : Database) :
    Maintained s (p.run s).2 :=
  hp.run_keeps (fun _ _ _ hw h happly => h.apply hw happly) (Maintained.refl s)

theorem writes_spec {W : Write → Prop} (module : String) : (spec module).Writes W := by
  unfold spec
  split
  · exact Db.writes_pure _
  · exact Db.writes_throw _

theorem writes_rowStream {W : Write → Prop} (spec : ExportSpec) (filters : Json) :
    (rowStream env spec filters).Writes W := by
  unfold rowStream
  split
  · exact (Db.writes_query _).bind fun _ => Db.writes_pure _
  · split
    · exact (Db.writes_query _).bind fun _ => Db.writes_pure _
    · exact Db.writes_throw _

theorem writes_getExport {W : Write → Prop} (exportId : Uuid) (held : Option Export) :
    (ExportRepository.getExport exportId held).Writes W := by
  unfold ExportRepository.getExport
  split
  · exact Db.writes_pure _
  · exact Db.writes_query _

theorem writes_updateExport {loaded entry : Export} (h : origin entry = origin loaded) :
    (ExportRepository.updateExport loaded entry).Writes Maintains := Db.writes_commit h

theorem writes_writeFile {W : Write → Prop} (now : Instant) (spec : ExportSpec) (entry : Export)
    (path : String) (rows : List ExportRow) (h : ∀ file, W (.writeFile path file)) :
    (writeFile env now spec entry path rows).Writes W := by
  rcases writeFile_cases env now spec entry path rows with ⟨-, heq⟩ | ⟨-, heq⟩
  · rw [heq]
    exact (Db.writes_commit (h _)).bind fun _ => Db.writes_pure _
  · rw [heq]
    exact Db.writes_throw _

/-- A request that writes a file: a cell is refused, or it goes on with the count. -/
theorem run_writeFile_bind_inv {α : Type} {now : Instant} {spec : ExportSpec} {entry : Export}
    {path : String} {rows : List ExportRow} {f : Nat → Db α} {r : Except Failure α}
    (h : (writeFile env now spec entry path rows >>= f).run s = (r, s')) :
    ((∃ e, r = .error e) ∧ s' = s) ∨
      ∃ u, (Write.writeFile path (workbook env now spec entry rows)).apply s = .ok u ∧
        (f rows.length).run u = (r, s') := by
  rcases writeFile_cases env now spec entry path rows with ⟨-, heq⟩ | ⟨-, heq⟩
  · rw [heq, Program.bind_bind] at h
    exact Db.run_commit_bind_inv h
  · rw [heq] at h
    obtain ⟨rfl, rfl⟩ := Prod.mk.inj h
    exact .inl ⟨⟨_, rfl⟩, rfl⟩

theorem writes_generate (now : Instant) (exportId : Uuid) (held : Option Export) :
    (generate env now exportId held).Writes Maintains := by
  refine (writes_getExport exportId held).bind fun entry => ?_
  cases entry with
  | none => exact Db.writes_throw _
  | some entry =>
      refine (writes_spec _).bind fun spec => (writes_rowStream spec _).bind fun rows => ?_
      refine (writes_writeFile now spec entry _ rows fun _ => trivial).bind fun _ => ?_
      refine Db.Writes.bind (writes_updateExport ?_) fun _ => Db.writes_pure _
      rfl

theorem writes_generateTask (now : Instant) (exportId : Uuid) :
    (generateTask env now exportId).Writes Maintains := by
  refine (writes_generate now exportId none).drop.tryCatch fun _ => ?_
  refine Db.Writes.tryCatch ?_ fun _ => Db.writes_pure ()
  refine (writes_getExport exportId none).bind fun entry => ?_
  cases entry with
  | none => exact Db.writes_pure ()
  | some entry =>
      refine Db.Writes.when (writes_updateExport ?_) _
      rfl

/-- The background task maintains the exports. -/
theorem maintained_generateTask (env : Env) (now : Instant) (exportId : Uuid) (s : Database) :
    Maintained s ((generateTask env now exportId).run s).2 :=
  maintained_run (writes_generateTask now exportId) s

/-! ## What the operations do -/

/-- The export is there, and it was created by that email. -/
def Owns (s : Database) (exportId : Uuid) (adminEmail : String) (entry : Export) : Prop :=
  s.exports.find? exportId = some entry ∧ entry.createdBy = adminEmail

/-- **The owner check** passes for the email the export was created by, and denies every other
one. -/
theorem run_ownedExport (exportId : Uuid) (adminEmail : String) (s : Database) :
    (∃ e, (ownedExport exportId adminEmail).run s = (.error (.app e), s) ∧
      (e = .permissionDenied ↔ ∃ entry, s.exports.find? exportId = some entry ∧
        entry.createdBy ≠ adminEmail)) ∨
      ∃ entry, (ownedExport exportId adminEmail).run s = (.ok entry, s) ∧
        Owns s exportId adminEmail entry := by
  unfold ownedExport Owns
  show (∃ e, (query _ >>= _ : Db Export).run s = _ ∧ _) ∨
    ∃ entry, (query _ >>= _ : Db Export).run s = _ ∧ _
  rw [Db.run_query_bind]
  cases hfind : s.exports.find? exportId with
  | none => exact .inl ⟨.exportNotFound, rfl, by simp⟩
  | some entry =>
      by_cases howner : entry.createdBy = adminEmail
      · refine .inr ⟨entry, ?_, rfl, howner⟩
        simp only [howner, ne_eq, not_true_eq_false, decide_false]
        rfl
      · refine .inl ⟨.permissionDenied, ?_, by simp [howner]⟩
        simp [howner, when]

theorem filtersForModule_reads (data : ExportCreate) (s : Database) :
    (filtersForModule data).Reads s fun filters =>
      filters = data.requested ∧ filters.module = data.module := by
  rcases data with ⟨_ | _, reason, format, _ | _ | _⟩
  all_goals first
    | exact .pure ⟨rfl, rfl⟩
    | exact .throw _

/-- **All that creating an export does**: it is refused, or the export is there, of the module
and by the email. -/
theorem run_createExport_inv {adminEmail : String} {data : ExportCreate}
    {r : Except Failure Export} (h : (createExport env req adminEmail data).run s = (r, s')) :
    ((∃ e, r = .error e) ∧ s' = s) ∨
      ∃ entry exports outbox, s.exports.insert entry = some exports ∧ Untouched entry ∧
        origin entry = (data.module.value, adminEmail) ∧ Retains data entry ∧ r = .ok entry ∧
        s' = { s with exports := exports, auditIntents := outbox } := by
  have hspec : (spec data.module.value).Reads s fun _ => True := by
    unfold spec
    split
    · exact .pure trivial
    · exact .throw _
  rcases hspec.bind_inv h with hrefused | ⟨spec, -, h⟩
  · exact .inl hrefused
  rcases (filtersForModule_reads data s).bind_inv h with hrefused | ⟨_, ⟨rfl, hmodule⟩, h⟩
  · exact .inl hrefused
  have hcount : (countRows env spec data.requested.dump).Reads s fun _ => True := by
    unfold countRows
    split
    · exact .query trivial
    · split
      · exact .query trivial
      · exact .throw _
  rcases hcount.bind_inv h with hrefused | ⟨rowCount, -, h⟩
  · exact .inl hrefused
  rcases (Db.isCheck_raise _ _ s).bind_inv h with hrefused | ⟨-, h⟩
  · exact .inl hrefused
  rcases run_createExport_bind_inv h with hrefused | ⟨entry, exports, hinsert, hentry, h⟩
  · exact .inl hrefused
  obtain ⟨outbox, h⟩ := AuditService.run_record_bind_inv h
  obtain ⟨rfl, rfl⟩ := Prod.mk.inj h
  refine .inr ⟨entry, exports, outbox, hinsert, ?_, ?_, ⟨hmodule, ?_⟩, rfl, rfl⟩
  · rw [hentry]
    exact ⟨rfl, rfl, rfl, rfl, rfl⟩
  · rw [hentry]
    rfl
  · rw [hentry]

/-- The path a file of the export is written under. -/
def pathOf (env : Env) (spec : ExportSpec) (entry : Export) : String :=
  s!"{env.settings.exportDir}/{filename spec entry}"

/-- The export once a file of so many rows is written. -/
def readied (env : Env) (now : Instant) (spec : ExportSpec) (entry : Export) (rowCount : Nat) :
    Export :=
  { entry with
    status := .ready, rowCount := some rowCount, filePath := some (pathOf env spec entry)
    expiresAt := some (now + Instant.hours env.settings.exportLinkTtlHours) }

theorem raises_writeFile (now : Instant) (spec : ExportSpec) (entry : Export) (path : String)
    (rows : List ExportRow) :
    (writeFile env now spec entry path rows).Raises (· ≠ .permissionDenied) := by
  rcases writeFile_cases env now spec entry path rows with ⟨-, heq⟩ | ⟨-, heq⟩
  · rw [heq]
    exact (Db.raises_commit _).bind fun _ => Db.raises_pure _
  · rw [heq]
    rintro _ ⟨⟩

theorem raises_generate (now : Instant) (exportId : Uuid) (held : Option Export) :
    (generate env now exportId held).Raises (· ≠ .permissionDenied) := by
  refine Db.Raises.bind ?_ fun entry => ?_
  · unfold ExportRepository.getExport
    split
    · exact Db.raises_pure _
    · exact Db.raises_query _
  cases entry with
  | none => exact Db.raises_raise (by simp)
  | some entry =>
      refine Db.Raises.bind ?_ fun spec => Db.Raises.bind ?_ fun rows => ?_
      · unfold ExportService.spec
        split
        · exact Db.raises_pure _
        · exact Db.raises_raise (by simp [unsupportedModule])
      · unfold rowStream
        split
        · exact (Db.raises_query _).bind fun _ => Db.raises_pure _
        · split
          · exact (Db.raises_query _).bind fun _ => Db.raises_pure _
          · exact Db.raises_raise (by simp [unsupportedModule])
      · exact (raises_writeFile _ _ _ _ _).bind fun _ => (Db.raises_commit _).bind fun _ =>
          Db.raises_pure _

theorem raises_serveExport (env : Env) (req : Request) (entry : Export) :
    (serveExport env req entry).Raises (· ≠ .permissionDenied) := by
  refine Db.Raises.bind ?_ fun _ => ?_
  · exact ((Db.raises_commit _).bind fun _ => Db.raises_raise (by simp)).when _
  refine Db.Raises.bind ?_ fun entry => (Db.raises_query _).bind fun isFile => ?_
  · refine (Db.raises_query _).bind fun present => ?_
    split
    · exact raises_generate _ _ _
    · exact Db.raises_pure _
  refine ((Db.raises_raise (by simp)).when _).bind fun _ => ?_
  exact (AuditService.raises_record _ _).bind fun _ => Db.raises_pure _

theorem writes_serveExport (env : Env) (req : Request) (entry : Export) :
    (serveExport env req entry).Writes Maintains := by
  refine Db.Writes.bind ?_ fun _ => ?_
  · refine Db.Writes.when (Db.Writes.bind (writes_updateExport ?_) fun _ => Db.writes_throw _) _
    rfl
  refine Db.Writes.bind ?_ fun entry => (Db.writes_query _).bind fun isFile => ?_
  · refine (Db.writes_query _).bind fun present => ?_
    split
    · exact writes_generate _ _ _
    · exact Db.writes_pure _
  refine ((Db.writes_throw _).when _).bind fun _ => ?_
  exact (AuditService.writes_record (fun _ => trivial) _ _).bind fun _ => Db.writes_pure _

/-- **All that a download does**: the owner check turns it away and changes nothing, or the
export is that of the email, nothing denies it any more, and every export keeps its origin. -/
theorem run_downloadExport_inv {exportId : Uuid} {adminEmail : String}
    {r : Except Failure FileResponse}
    (h : (downloadExport env req exportId adminEmail).run s = (r, s')) :
    (∃ e, r = .error (.app e) ∧ s' = s ∧
      (e = .permissionDenied ↔ ∃ entry, s.exports.find? exportId = some entry ∧
        entry.createdBy ≠ adminEmail)) ∨
      ∃ entry, Owns s exportId adminEmail entry ∧ r ≠ .error (.app .permissionDenied) ∧
        Maintained s s' := by
  unfold downloadExport at h
  rcases run_ownedExport exportId adminEmail s with ⟨e, hrun, he⟩ | ⟨entry, hrun, howns⟩
  · rw [Db.run_bind_error _ hrun] at h
    obtain ⟨rfl, rfl⟩ := Prod.mk.inj h
    exact .inl ⟨e, rfl, rfl, he⟩
  · rw [Db.run_bind_ok _ hrun] at h
    refine .inr ⟨entry, howns, ?_, ?_⟩
    · rintro rfl
      exact (raises_serveExport env req entry).run (by rw [h]) rfl
    · have hmaintained := maintained_run (writes_serveExport env req entry) s
      rwa [h] at hmaintained

end Run
end ExportService
end AdminPlatform
