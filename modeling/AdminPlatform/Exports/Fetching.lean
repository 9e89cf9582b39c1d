import AdminPlatform.Exports.Streaming

/-! # Generating an export, query by query

The background task and the downloads with a stream of rows that makes a query for every chunk
(`rowStreamByQuery`), so that others can commit between any two of them. The session of a
download holds the caller, whose row the stream then takes from it (`rowStreamInSession`).

Alone, a stream fetches its chunks (`run_rowStreamByQuery`, `run_rowStreamInSession`); with one
query for all the rows, the requests are those of the service (`requestsFrom_rowStream`). -/

namespace AdminPlatform
open AdminPlatform.Lib

/-! ## The rows, query by query -/

namespace ExportRepository

/-- The loop of a stream, each chunk a query of its own. A loop that goes on for longer is one
of more fuel. -/
def fetch {α κ : Type} (chunk : Option κ → Database → List α) (cursor : α → κ) (size : Nat) :
    Nat → Option κ → Db (List α)
  | 0, _ => throw .value
  | fuel + 1, last => do
      let rows ← query (chunk last)
      match rows.getLast? with
      | none => return []
      | some row =>
          if rows.length < size then return rows
          else
            let rest ← fetch chunk cursor size fuel (some (cursor row))
            return rows ++ rest

/-- Alone, it fetches the rows of the stream. -/
theorem run_fetch {α κ : Type} {chunk : Option κ → Database → List α} {cursor : α → κ}
    {size fuel : Nat} {last : Option κ} {s : Database} {chunks : List (List α)}
    (h : Keyset.stream chunk cursor size fuel (fun _ => s) last = some chunks) :
    (fetch chunk cursor size fuel last).run s = (.ok chunks.flatten, s) := by
  induction fuel generalizing last chunks with
  | zero => cases h
  | succ fuel ih =>
      show (query (chunk last) >>= _ : Db (List α)).run s = _
      rw [Db.run_query_bind]
      rcases Keyset.stream_succ_inv h with ⟨rfl, hshort⟩ | ⟨row, rest, hrow, hfull, rfl, hrest⟩
      · cases hrow : (chunk last s).getLast? with
        | none =>
            have hnil := List.getLast?_eq_none_iff.mp hrow
            simp [hnil]
        | some row =>
            have hlt : (chunk last s).length < size := by
              rcases hshort with hlt | hnil
              · exact hlt
              · rw [hnil] at hrow
                cases hrow
            simp [hlt]
      · simp only [hrow, if_neg (not_lt.mpr hfull)]
        rw [Db.run_bind_ok _ (ih hrest)]
        simp

theorem writes_fetch {α κ : Type} {W : Write → Prop} (chunk : Option κ → Database → List α)
    (cursor : α → κ) (size fuel : Nat) (last : Option κ) :
    (fetch chunk cursor size fuel last).Writes W := by
  induction fuel generalizing last with
  | zero => exact Db.writes_throw _
  | succ fuel ih =>
      refine (Db.writes_query _).bind fun rows => ?_
      split
      · exact Db.writes_pure _
      · split
        · exact Db.writes_pure _
        · exact (ih _).bind fun _ => Db.writes_pure _

end ExportRepository

namespace ExportService

/-- `_row_stream`, with every query that the streams make. -/
def rowStreamByQuery (env : Env) (fuel : Nat) (spec : ExportSpec) (filters : Json) :
    Db (List ExportRow) :=
  if spec.module = "audit" then do
    let entries ← ExportRepository.fetch
      (ExportRepository.auditLogsChunk env (auditFiltersFromDict filters))
      (fun row => (row.createdAt, row.id)) env.settings.exportStreamChunkSize fuel none
    return entries.map .audit
  else if spec.module = "users" then do
    let (search, status) := usersFiltersFromDict filters
    let entries ← ExportRepository.fetch (ExportRepository.platformAdminsChunk env search status)
      (fun row => (row.createdAt, row.id)) env.settings.exportStreamChunkSize fuel none
    return entries.map .user
  else raise (unsupportedModule spec.module)

/-- Alone, they are the chunks of the stream. -/
theorem run_rowStreamByQuery {env : Env} {fuel : Nat} {spec : ExportSpec} {filters : Json}
    {s : Database} {chunks : List (List ExportRow)}
    (h : rowStreamByChunk env spec filters fuel (fun _ => s) = .ok (some chunks)) :
    (rowStreamByQuery env fuel spec filters).run s = (.ok chunks.flatten, s) := by
  unfold rowStreamByChunk at h
  unfold rowStreamByQuery
  split at h
  · rename_i haudit
    obtain ⟨pages, hpages, rfl⟩ := Option.map_eq_some_iff.mp (Except.ok.inj h)
    rw [if_pos haudit, Db.run_bind_ok _ (ExportRepository.run_fetch hpages), ← List.map_flatten]
    rfl
  · rename_i haudit
    split at h
    · rename_i husers
      obtain ⟨pages, hpages, rfl⟩ := Option.map_eq_some_iff.mp (Except.ok.inj h)
      rw [if_neg haudit, if_pos husers]
      show (ExportRepository.fetch _ _ _ _ _ >>= _ : Db (List ExportRow)).run s = _
      rw [Db.run_bind_ok _ (ExportRepository.run_fetch hpages), ← List.map_flatten]
      rfl
    · cases h

theorem writes_rowStreamByQuery {W : Write → Prop} (env : Env) (fuel : Nat) (spec : ExportSpec)
    (filters : Json) : (rowStreamByQuery env fuel spec filters).Writes W := by
  unfold rowStreamByQuery
  split
  · exact (ExportRepository.writes_fetch _ _ _ _ _).bind fun _ => Db.writes_pure _
  · split
    · exact (ExportRepository.writes_fetch _ _ _ _ _).bind fun _ => Db.writes_pure _
    · exact Db.writes_throw _

/-- A row in a session that may hold an admin: if it is this admin's, it comes as the object that
is there already, with the values it was loaded with. -/
def inSession (held : Option PlatformAdmin) : ExportRow → ExportRow
  | .user row => .user ((held.filter fun admin => admin.id = row.id).getD row)
  | .audit row => .audit row

theorem map_inSession_none (rows : List ExportRow) : rows.map (inSession none) = rows := by
  refine (List.map_congr_left fun row _ => ?_).trans (List.map_id rows)
  cases row <;> rfl

/-- The rows, in a session that holds the caller. The loop goes on from the `created_at` and the
`id` of a row, which are never written, so that the object has them too. -/
def rowStreamInSession (env : Env) (fuel : Nat) (held : PlatformAdmin) (spec : ExportSpec)
    (filters : Json) : Db (List ExportRow) := do
  let rows ← rowStreamByQuery env fuel spec filters
  return rows.map (inSession (some held))

theorem writes_rowStreamInSession {W : Write → Prop} (env : Env) (fuel : Nat)
    (held : PlatformAdmin) (spec : ExportSpec) (filters : Json) :
    (rowStreamInSession env fuel held spec filters).Writes W :=
  (writes_rowStreamByQuery env fuel spec filters).bind fun _ => Db.writes_pure _

/-- Rows that are in the table together with the held admin come as they are. -/
theorem map_inSession {s : Database} {held : PlatformAdmin} {rows : List ExportRow}
    (hheld : held ∈ s.admins) (hrows : ∀ row, .user row ∈ rows → row ∈ s.admins) :
    rows.map (inSession (some held)) = rows := by
  refine (List.map_congr_left fun row hrow => ?_).trans (List.map_id rows)
  cases row with
  | audit row => rfl
  | user row =>
      by_cases hid : held.id = row.id
      · have hsame : held = row := Table.eq_of_key hheld (hrows row hrow) hid
        simp [inSession, Option.filter, hsame]
      · simp [inSession, Option.filter, hid]

/-- The admins of a stream are in the table. -/
theorem mem_admins_of_rowStreamByChunk {env : Env} {fuel : Nat} {spec : ExportSpec}
    {filters : Json} {s : Database} {chunks : List (List ExportRow)}
    (h : rowStreamByChunk env spec filters fuel (fun _ => s) = .ok (some chunks))
    {row : PlatformAdmin} (hrow : .user row ∈ chunks.flatten) : row ∈ s.admins := by
  unfold rowStreamByChunk at h
  split at h
  · obtain ⟨pages, -, rfl⟩ := Option.map_eq_some_iff.mp (Except.ok.inj h)
    rw [← List.map_flatten] at hrow
    obtain ⟨entry, -, ⟨⟩⟩ := List.mem_map.mp hrow
  · split at h
    · obtain ⟨pages, hpages, rfl⟩ := Option.map_eq_some_iff.mp (Except.ok.inj h)
      rw [← List.map_flatten] at hrow
      obtain ⟨entry, hin, ⟨⟩⟩ := List.mem_map.mp hrow
      obtain ⟨n, page, hn, hpage⟩ := Keyset.exists_page_of_mem hin
      rw [Exports.streamPlatformAdminsByChunk_eq] at hpages
      exact (Keyset.stream_sound hpages hn hpage).1
    · cases h

/-- **The object is the row**, to a stream that runs alone. -/
theorem run_rowStreamInSession {env : Env} {fuel : Nat} {spec : ExportSpec} {filters : Json}
    {s : Database} {held : PlatformAdmin} {chunks : List (List ExportRow)} (hheld : held ∈ s.admins)
    (h : rowStreamByChunk env spec filters fuel (fun _ => s) = .ok (some chunks)) :
    (rowStreamInSession env fuel held spec filters).run s = (.ok chunks.flatten, s) := by
  rw [rowStreamInSession, Db.run_bind_ok _ (run_rowStreamByQuery h),
    map_inSession hheld fun row hrow => mem_admins_of_rowStreamByChunk h hrow]
  rfl

/-! ## The requests, query by query

As `generateTask` and `downloadExport`, which fetch the rows with one query, with the stream of
the rows given. -/

def generateFrom (stream : ExportSpec → Json → Db (List ExportRow)) (env : Env) (now : Instant)
    (exportId : Uuid) (held : Option Export := none) : Db Export := do
  match ← ExportRepository.getExport exportId held with
  | none => raise .exportNotFound
  | some entry =>
      let spec ← spec entry.module
      let path := pathOf env spec entry
      let rows ← stream spec entry.filters
      let rowCount ← writeFile env now spec entry path rows
      let ready := readied env now spec entry rowCount
      ExportRepository.updateExport entry ready
      return ready

def generateTaskFrom (stream : ExportSpec → Json → Db (List ExportRow)) (env : Env)
    (now : Instant) (exportId : Uuid) : Db Unit :=
  tryCatch (drop (generateFrom stream env now exportId)) fun _ =>
    tryCatch
      (do
        match ← ExportRepository.getExport exportId with
        | none => return ()
        | some entry =>
            when (entry.status = .pending)
              (ExportRepository.updateExport entry
                { entry with status := .failed, generationError := some generationFailed }))
      fun _ => pure ()

def regenerateFrom (stream : ExportSpec → Json → Db (List ExportRow)) (env : Env)
    (now : Instant) (entry : Export) : Db Export := do
  let present ← query fun s => fileExists s entry
  if entry.status ≠ .ready ∨ !present then generateFrom stream env now entry.id (some entry)
  else return entry

/-- The event of a download. -/
def downloaded (entry : Export) : Audit.AuditEvent :=
  AuditService.event .exportDownloaded (some .export) (some entry.id.str)
    (.obj
      [("module", .str entry.module), ("reason", .str entry.reason),
        ("row_count", (entry.rowCount.map fun (n : Nat) => Json.int n).getD .null),
        ("classification", .str entry.classification)])

def serveExportFrom (stream : ExportSpec → Json → Db (List ExportRow)) (env : Env)
    (req : Request) (entry : Export) : Db FileResponse := do
  refuseExpired req.now entry
  let entry ← regenerateFrom stream env req.now entry
  let path := entry.filePath.getD ""
  let isFile ← query fun s => s.isFile path
  when (!isFile) (raise .exportNotFound)
  AuditService.record req (downloaded entry)
  return { path := path, filename := fileName path }

def downloadExportFrom (stream : ExportSpec → Json → Db (List ExportRow)) (env : Env)
    (req : Request) (exportId : Uuid) (adminEmail : String) : Db FileResponse := do
  let entry ← ownedExport exportId adminEmail
  serveExportFrom stream env req entry

/-- With one query for the rows they are the requests as they are. -/
theorem requestsFrom_rowStream (env : Env) (now : Instant) (req : Request) (exportId : Uuid)
    (adminEmail : String) :
    generateTaskFrom (rowStream env) env now exportId = generateTask env now exportId ∧
      downloadExportFrom (rowStream env) env req exportId adminEmail =
        downloadExport env req exportId adminEmail := ⟨rfl, rfl⟩

end ExportService

end AdminPlatform
