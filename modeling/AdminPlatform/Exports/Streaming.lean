import AdminPlatform.Access.Seeded
import AdminPlatform.Audit.Promotion
import AdminPlatform.Lib.Keyset
import AdminPlatform.Services.Export

/-! # Streaming an export

The rows of an export are fetched chunk by chunk (`stream_platform_admins`,
`stream_audit_logs`), each chunk after the `(created_at, id)` of the last row of the chunk
before, while others commit between the queries. Both streams are keyset paginations, so no
row is lost or repeated, and the rows are those of the file wherever openpyxl takes all their
cells (`streaming_lossless_iff`); on a quiet database they are the one ordered select that the
generation of a file is modelled with (`streamAuditLogs_eq`, `streamPlatformAdmins_eq`). -/

namespace AdminPlatform
open AdminPlatform.Lib

/-! ## The streams -/

namespace ExportRepository

/-- One query of the stream of admins; `last` holds `last_created_at` and `last_id`. -/
def platformAdminsChunk (env : Env) (search : Option String) (status : Option Status)
    (last : Option (Instant × Uuid)) (s : Database) : List PlatformAdmin :=
  ((s.admins.select fun row =>
      platformAdminMatches env search status row &&
        last.all fun (lastCreatedAt, lastId) =>
          row.createdAt > lastCreatedAt ||
            (row.createdAt = lastCreatedAt && row.id.bits > lastId.bits)).insertionSort
    fun a b => toLex (a.createdAt, a.id.bits) ≤ toLex (b.createdAt, b.id.bits)).take
      env.settings.exportStreamChunkSize

/-- The chunks of `stream_platform_admins`, where the `n`-th query finds the tables
`seen n`. -/
def streamPlatformAdminsByChunk (env : Env) (search : Option String) (status : Option Status)
    (fuel : Nat) (seen : Nat → Database) : Option (List (List PlatformAdmin)) :=
  Keyset.stream (platformAdminsChunk env search status) (fun row => (row.createdAt, row.id))
    env.settings.exportStreamChunkSize fuel seen none

/-- One query of the stream of audit logs. -/
def auditLogsChunk (env : Env) (filters : AuditLogFilter) (last : Option (Datetime × Uuid))
    (s : Database) : List Audit.AuditLog :=
  ((s.auditLogs.filter fun row =>
      filters.matches row &&
        last.all fun (lastCreatedAt, lastId) =>
          row.createdAt < lastCreatedAt ||
            (row.createdAt = lastCreatedAt && row.id.bits < lastId.bits)).insertionSort
    fun a b => toLex (b.createdAt, b.id.bits) ≤ toLex (a.createdAt, a.id.bits)).take
      env.settings.exportStreamChunkSize

/-- The chunks of `stream_audit_logs`. -/
def streamAuditLogsByChunk (env : Env) (filters : AuditLogFilter) (fuel : Nat)
    (seen : Nat → Database) : Option (List (List Audit.AuditLog)) :=
  Keyset.stream (auditLogsChunk env filters) (fun row => (row.createdAt, row.id))
    env.settings.exportStreamChunkSize fuel seen none

end ExportRepository

namespace ExportService

/-- `_row_stream`, before the columns are taken: the chunks of the module's stream. -/
def rowStreamByChunk (env : Env) (spec : ExportSpec) (filters : Json) (fuel : Nat)
    (seen : Nat → Database) : Except AppError (Option (List (List ExportRow))) :=
  if spec.module = "audit" then
    .ok ((ExportRepository.streamAuditLogsByChunk env (auditFiltersFromDict filters) fuel
      seen).map (List.map (List.map .audit)))
  else if spec.module = "users" then
    let (search, status) := usersFiltersFromDict filters
    .ok ((ExportRepository.streamPlatformAdminsByChunk env search status fuel
      seen).map (List.map (List.map .user)))
  else .error (unsupportedModule spec.module)

/-- The stream of each of the two specs. -/
theorem rowStreamByChunk_eq (env : Env) (filters : Json) (fuel : Nat)
    (seen : Nat → Database) :
    rowStreamByChunk env auditExportSpec filters fuel seen =
        .ok ((ExportRepository.streamAuditLogsByChunk env (auditFiltersFromDict filters) fuel
          seen).map (List.map (List.map .audit))) ∧
      rowStreamByChunk env usersExportSpec filters fuel seen =
        .ok ((ExportRepository.streamPlatformAdminsByChunk env (usersFiltersFromDict filters).1
          (usersFiltersFromDict filters).2 fuel seen).map (List.map (List.map .user))) := by
  refine ⟨if_pos rfl, ?_⟩
  rw [rowStreamByChunk, if_neg (by decide)]
  exact if_pos rfl

end ExportService

namespace Exports
open ExportRepository

/-! ## The streams as paginations -/

/-- Audit logs are ordered newest first. -/
def auditKey (row : Audit.AuditLog) : (Datetime ×ₗ Fin (2 ^ 128))ᵒᵈ :=
  .toDual (toLex (row.createdAt, row.id.bits))

def userKey (row : PlatformAdmin) : Instant ×ₗ Fin (2 ^ 128) := toLex (row.createdAt, row.id.bits)

theorem id_eq_of_auditKey (a b : Audit.AuditLog) (h : auditKey a = auditKey b) : a.id = b.id :=
  Uuid.eq_of_bits (congrArg (fun k => (ofLex (OrderDual.ofDual k)).2) h)

theorem auditKey_lt {row : Audit.AuditLog} {createdAt : Datetime} {bits : Fin (2 ^ 128)} :
    OrderDual.toDual (toLex (createdAt, bits)) < auditKey row ↔
      row.createdAt < createdAt ∨ row.createdAt = createdAt ∧ row.id.bits < bits := by
  rw [auditKey, OrderDual.toDual_lt_toDual, Prod.Lex.toLex_lt_toLex]

theorem id_eq_of_userKey (a b : PlatformAdmin) (h : userKey a = userKey b) : a.id = b.id :=
  Uuid.eq_of_bits (congrArg (fun k => (ofLex k).2) h)

theorem platformAdminsChunk_eq (env : Env) (search : Option String) (status : Option Status)
    (last : Option (Instant × Uuid)) (s : Database) :
    platformAdminsChunk env search status last s =
      Keyset.page userKey (platformAdminMatches env search status)
        env.settings.exportStreamChunkSize
        (last.map fun cursor => toLex (cursor.1, cursor.2.bits)) s.admins.rows := by
  have hbeyond : (s.admins.select fun row =>
      platformAdminMatches env search status row &&
        last.all fun (lastCreatedAt, lastId) =>
          row.createdAt > lastCreatedAt ||
            (row.createdAt = lastCreatedAt && row.id.bits > lastId.bits)) =
      Keyset.beyond userKey (platformAdminMatches env search status)
        (last.map fun cursor => toLex (cursor.1, cursor.2.bits)) s.admins.rows := by
    refine List.filter_congr fun row _ => ?_
    cases last with
    | none => rfl
    | some cursor =>
        simp [userKey, Prod.Lex.toLex_lt_toLex, eq_comm]
  rw [platformAdminsChunk, hbeyond]
  rfl

theorem auditLogsChunk_eq (env : Env) (filters : AuditLogFilter)
    (last : Option (Datetime × Uuid)) (s : Database) :
    auditLogsChunk env filters last s =
      Keyset.page auditKey filters.matches env.settings.exportStreamChunkSize
        (last.map fun cursor => .toDual (toLex (cursor.1, cursor.2.bits))) s.auditLogs := by
  have hbeyond : (s.auditLogs.filter fun row =>
      filters.matches row &&
        last.all fun (lastCreatedAt, lastId) =>
          row.createdAt < lastCreatedAt ||
            (row.createdAt = lastCreatedAt && row.id.bits < lastId.bits)) =
      Keyset.beyond auditKey filters.matches
        (last.map fun cursor => .toDual (toLex (cursor.1, cursor.2.bits))) s.auditLogs := by
    refine List.filter_congr fun row _ => ?_
    cases last with
    | none => rfl
    | some cursor =>
        obtain ⟨lastCreatedAt, lastId⟩ := cursor
        refine congrArg (filters.matches row && ·) (Bool.eq_iff_iff.mpr ?_)
        rw [Option.map_some, Option.all_some, Option.all_some, decide_eq_true_iff, auditKey_lt]
        rw [Bool.or_eq_true, Bool.and_eq_true, decide_eq_true_iff, decide_eq_true_iff,
          decide_eq_true_iff]
  rw [auditLogsChunk, hbeyond, Keyset.page]
  exact congrArg (List.take _)
    (Keyset.insertionSort_congr (fun _ _ => OrderDual.toDual_le_toDual.symm) _)

/-- **The stream of admins is a keyset pagination** by `(created_at, id)`. -/
theorem streamPlatformAdminsByChunk_eq (env : Env) (search : Option String)
    (status : Option Status) (fuel : Nat) (seen : Nat → Database) :
    streamPlatformAdminsByChunk env search status fuel seen =
      Keyset.stream
        (Keyset.page userKey (platformAdminMatches env search status)
          env.settings.exportStreamChunkSize)
        userKey env.settings.exportStreamChunkSize fuel (fun n => (seen n).admins.rows) none :=
  Keyset.stream_congr (platformAdminsChunk_eq env search status) fuel seen none

theorem streamAuditLogsByChunk_eq (env : Env) (filters : AuditLogFilter) (fuel : Nat)
    (seen : Nat → Database) :
    streamAuditLogsByChunk env filters fuel seen =
      Keyset.stream
        (Keyset.page auditKey filters.matches env.settings.exportStreamChunkSize)
        auditKey env.settings.exportStreamChunkSize fuel (fun n => (seen n).auditLogs) none :=
  Keyset.stream_congr (auditLogsChunk_eq env filters) fuel seen none

/-! ## On a quiet database -/

/-- The chunks of an unchanging table are the ordered select that `generate` takes its rows
from. -/
theorem streamPlatformAdmins_eq {env : Env} (hsize : 1 ≤ env.settings.exportStreamChunkSize)
    {search : Option String} {status : Option Status} {fuel : Nat} {s : Database}
    {chunks : List (List PlatformAdmin)}
    (h : streamPlatformAdminsByChunk env search status fuel (fun _ => s) = some chunks) :
    (streamPlatformAdmins env search status).run s = (.ok chunks.flatten, s) := by
  have hnodup : (s.admins.rows.map userKey).Nodup :=
    List.pairwise_map.mpr (s.admins.unique.imp fun hclash heq =>
      hclash (Row.of_key (id_eq_of_userKey _ _ heq)))
  rw [streamPlatformAdminsByChunk_eq] at h
  rw [Keyset.flatten_quiet hsize hnodup h]
  rfl

theorem streamAuditLogs_eq {env : Env} (hsize : 1 ≤ env.settings.exportStreamChunkSize)
    {filters : AuditLogFilter} {fuel : Nat} {s : Database} {chunks : List (List Audit.AuditLog)}
    (hunique : (s.auditLogs.map Audit.AuditLog.id).Nodup)
    (h : streamAuditLogsByChunk env filters fuel (fun _ => s) = some chunks) :
    (streamAuditLogs filters).run s = (.ok chunks.flatten, s) := by
  have hnodup : (s.auditLogs.map auditKey).Nodup :=
    List.pairwise_map.mpr ((List.pairwise_map.mp hunique).imp fun hne heq =>
      hne (id_eq_of_auditKey _ _ heq))
  rw [streamAuditLogsByChunk_eq] at h
  rw [Keyset.flatten_quiet hsize hnodup h, streamAuditLogs, Db.run_query,
    Keyset.insertionSort_congr (fun _ _ => OrderDual.toDual_le_toDual.symm)]
  rfl

/-! ## What others commit -/

/-- The audit logs as the queries find them: ids are unique, and rows are added, finitely
often. -/
structure AuditSchedule (seen : Nat → Database) : Prop where
  unique : ∀ n, ((seen n).auditLogs.map Audit.AuditLog.id).Nodup
  inserted : ∀ n, (seen n).auditLogs ⊆ (seen (n + 1)).auditLogs
  finite : ∃ m, ∀ n, m ≤ n → (seen n).auditLogs = (seen m).auditLogs

/-- The admins as the queries find them: rows are added, and updated but for their id and
`created_at`, finitely often. -/
structure UserSchedule (seen : Nat → Database) : Prop where
  kept : ∀ n, ∀ row ∈ (seen n).admins, ∃ row' ∈ (seen (n + 1)).admins,
    row'.id = row.id ∧ row'.createdAt = row.createdAt
  finite : ∃ m, ∀ n, m ≤ n → (seen n).admins = (seen m).admins

theorem AuditSchedule.toKept {seen : Nat → Database} (h : AuditSchedule seen) :
    Keyset.Kept Audit.AuditLog.id auditKey fun n => (seen n).auditLogs where
  unique := h.unique
  kept n row hrow := ⟨row, h.inserted n hrow, rfl, rfl⟩
  settles := h.finite

theorem UserSchedule.toKept {seen : Nat → Database} (h : UserSchedule seen) :
    Keyset.Kept PlatformAdmin.id userKey fun n => (seen n).admins.rows where
  unique n := List.pairwise_map.mpr ((seen n).admins.unique.imp fun hclash heq =>
    hclash (Row.of_key heq))
  kept n row hrow := by
    obtain ⟨row', hrow', hid, hcreatedAt⟩ := h.kept n row hrow
    refine ⟨row', hrow', hid, ?_⟩
    rw [userKey, userKey, hid, hcreatedAt]
  settles := by
    obtain ⟨m, hm⟩ := h.finite
    exact ⟨m, fun n hn => congrArg Table.rows (hm n hn)⟩

/-- A commit that adds an admin or leaves the `created_at` of one alone. -/
def KeepsCreatedAt : Write → Prop
  | .insertAdmin _ => True
  | .updateAdmin loaded current => current.createdAt = loaded.createdAt
  | _ => False

theorem kept_of_apply {w : Write} {s s' : Database} (hw : KeepsCreatedAt w)
    (happly : w.apply s = .ok s') :
    ∀ row ∈ s.admins, ∃ row' ∈ s'.admins, row'.id = row.id ∧ row'.createdAt = row.createdAt := by
  intro row hrow
  cases w with
  | insertAdmin admin =>
      obtain ⟨t, ht, rfl⟩ := apply_insertAdmin happly
      exact ⟨row, (Table.mem_insert ht).mpr (.inl hrow), rfl, rfl⟩
  | updateAdmin loaded current =>
      obtain ⟨t, ht, rfl⟩ := apply_updateAdmin happly
      rcases Table.flush_inv ht with ⟨-, rfl⟩ | ⟨stored, hstored, hmem⟩
      · exact ⟨row, hrow, rfl, rfl⟩
      · by_cases hid : row.id = loaded.id
        · obtain ⟨hin, hkey⟩ := Table.find?_eq_some.mp hstored
          obtain rfl := Table.eq_of_key hrow hin (hid.trans hkey.symm)
          refine ⟨_, (hmem _).mpr (.inl rfl), rfl, ?_⟩
          show column loaded.createdAt current.createdAt row.createdAt = row.createdAt
          rw [show current.createdAt = loaded.createdAt from hw, column_same]
        · exact ⟨row, (hmem _).mpr (.inr ⟨hrow, hid⟩), rfl, rfl⟩
  | _ => exact absurd hw id

/-- What commits leave; one that a constraint refuses changes nothing. -/
def committed (s : Database) (writes : List Write) : Database :=
  writes.foldl (fun s w => (w.apply s).toOption.getD s) s

/-- The tables the `n`-th query finds, when the `n`-th batch is committed after it. -/
def seenAfter (s : Database) (batches : List (List Write)) (n : Nat) : Database :=
  committed s (batches.take n).flatten

/-- **Whatever the services commit** between the queries is such a schedule. -/
theorem userSchedule_seenAfter {batches : List (List Write)}
    (h : ∀ w ∈ batches.flatten, KeepsCreatedAt w) (s : Database) :
    UserSchedule (seenAfter s batches) where
  kept n := by
    have hbatch : ∀ writes : List Write, (∀ w ∈ writes, KeepsCreatedAt w) → ∀ u : Database,
        ∀ row ∈ u.admins, ∃ row' ∈ (committed u writes).admins,
          row'.id = row.id ∧ row'.createdAt = row.createdAt := by
      intro writes
      induction writes with
      | nil => exact fun _ u row hrow => ⟨row, hrow, rfl, rfl⟩
      | cons w writes ih =>
          intro hw u row hrow
          obtain ⟨row', hrow', hid, hcreatedAt⟩ : ∃ row' ∈ ((w.apply u).toOption.getD u).admins,
              row'.id = row.id ∧ row'.createdAt = row.createdAt := by
            cases happly : w.apply u with
            | error e => exact ⟨row, hrow, rfl, rfl⟩
            | ok u' => exact kept_of_apply (hw w List.mem_cons_self) happly row hrow
          obtain ⟨row'', hrow'', hid', hcreatedAt'⟩ :=
            ih (fun v hv => hw v (List.mem_cons_of_mem _ hv)) _ row' hrow'
          exact ⟨row'', hrow'', hid'.trans hid, hcreatedAt'.trans hcreatedAt⟩
    -- the next page sees one batch more
    have hsplit : seenAfter s batches (n + 1) =
        committed (seenAfter s batches n) (batches[n]?.toList).flatten := by
      rw [seenAfter, seenAfter, List.take_add_one, List.flatten_append]
      exact List.foldl_append
    rw [hsplit]
    refine hbatch _ (fun w hw => h w ?_) _
    obtain ⟨batch, hbatch, hin⟩ := List.mem_flatten.mp hw
    exact List.mem_flatten.mpr ⟨batch, List.mem_of_getElem? (Option.mem_toList.mp hbatch), hin⟩
  finite := by
    refine ⟨batches.length, fun n hn => ?_⟩
    rw [seenAfter, seenAfter, List.take_of_length_le hn, List.take_length]

/-! ## The data sheet -/

section Sheet
open XlsxWriter

variable (env : Env) (metadata : List (String × Value)) (metadataSheet : String)
  (getattr : ExportRow → String → Value) (spec : ExportSpec) (rows : List ExportRow)

/-- What goes into the sheets of a file. -/
def handed : List (Sheet Json) :=
  sheets metadata metadataSheet spec.sheetName (spec.columns.map Prod.snd)
    (rows.map (ExportService.extractRow getattr spec))

/-- The data sheet has exactly these rows, in their order and below the headers, each with a
cell for every value, and their number is returned. -/
def WritesRows : Prop :=
  ∃ sheet headers data,
    writeExportXlsx env.openpyxl metadata metadataSheet spec.sheetName
        (spec.columns.map Prod.snd) (rows.map (ExportService.extractRow getattr spec)) =
      some ([sheet, { title := spec.sheetName, rows := headers :: data }], rows.length) ∧
    List.Forall₂ (fun column c => env.openpyxl (.str column.2) = some c) spec.columns headers ∧
    List.Forall₂ (fun row cells => List.Forall₂ (fun v c => env.openpyxl (cell v) = some c)
      (ExportService.extractRow getattr spec row) cells) rows data

variable {env metadata metadataSheet getattr spec rows}

/-- **Where no cell is refused the sheet has the rows.** -/
theorem writesRows_iff : WritesRows env metadata metadataSheet getattr spec rows ↔
    Accepted env.openpyxl (handed metadata metadataSheet getattr spec rows) := by
  rw [handed, ← isSome_writeExportXlsx_iff]
  constructor
  · rintro ⟨sheet, headers, data, hwritten, -⟩
    rw [hwritten]
    rfl
  · intro hsome
    obtain ⟨⟨stored, count⟩, hwritten⟩ := Option.isSome_iff_exists.mp hsome
    obtain ⟨hcount, hbound⟩ := writeExportXlsx_eq_some_iff.mp hwritten
    obtain ⟨sheet, _, -, hrest, rfl⟩ := List.forall₂_cons_left_iff.mp hbound
    obtain ⟨⟨title, _⟩, _, ⟨rfl, hsheet⟩, hnil, rfl⟩ := List.forall₂_cons_left_iff.mp hrest
    obtain rfl := List.forall₂_nil_left_iff.mp hnil
    obtain ⟨headers, data, hheaders, hdata, rfl⟩ := List.forall₂_cons_left_iff.mp hsheet
    rw [List.length_map] at hcount
    refine ⟨sheet, headers, data, by rw [hwritten, hcount], ?_, ?_⟩
    · rwa [List.forall₂_map_left_iff, List.forall₂_map_left_iff] at hheaders
    · rw [List.forall₂_map_left_iff, List.forall₂_map_left_iff] at hdata
      exact hdata.imp fun row cells hcells => by rwa [List.forall₂_map_left_iff] at hcells

end Sheet

/-! ## The exports -/

/-- **Streaming loses and repeats nothing**: whatever others commit between the queries, each
stream ends, in its order, with no row twice and with every row that matches at each of the
queries. **And the file has these rows**, in their order and below the headers, and their number
is returned, exactly if openpyxl refuses none of the cells. -/
theorem streaming_lossless_iff (env : Env) (hsize : 1 ≤ env.settings.exportStreamChunkSize) :
    (∀ filters seen, AuditSchedule seen → ∃ chunks enough,
      (∀ fuel, enough ≤ fuel → streamAuditLogsByChunk env filters fuel seen = some chunks) ∧
        Keyset.Lossless
          (fun a b => toLex (b.createdAt, b.id.bits) < toLex (a.createdAt, a.id.bits))
          Audit.AuditLog.id filters.matches (fun n => (seen n).auditLogs) chunks ∧
        ∀ metadata metadataSheet getattr,
          WritesRows env metadata metadataSheet getattr auditExportSpec
              (chunks.flatten.map .audit) ↔
            XlsxWriter.Accepted env.openpyxl (handed metadata metadataSheet getattr
              auditExportSpec (chunks.flatten.map .audit))) ∧
    ∀ search status seen, UserSchedule seen → ∃ chunks enough,
      (∀ fuel, enough ≤ fuel →
        streamPlatformAdminsByChunk env search status fuel seen = some chunks) ∧
        Keyset.Lossless
          (fun a b => toLex (a.createdAt, a.id.bits) < toLex (b.createdAt, b.id.bits))
          PlatformAdmin.id (platformAdminMatches env search status)
          (fun n => (seen n).admins.rows) chunks ∧
        ∀ metadata metadataSheet getattr,
          WritesRows env metadata metadataSheet getattr usersExportSpec
              (chunks.flatten.map .user) ↔
            XlsxWriter.Accepted env.openpyxl (handed metadata metadataSheet getattr
              usersExportSpec (chunks.flatten.map .user)) := by
  refine ⟨fun filters seen h => ?_, fun search status seen h => ?_⟩
  · obtain ⟨chunks, enough, hstream, hlossless⟩ :=
      h.toKept.exists_lossless id_eq_of_auditKey filters.matches hsize
    refine ⟨chunks, enough, fun fuel hle => ?_, hlossless, fun _ _ _ => writesRows_iff⟩
    rw [streamAuditLogsByChunk_eq, hstream fuel hle]
  · obtain ⟨chunks, enough, hstream, hlossless⟩ :=
      h.toKept.exists_lossless id_eq_of_userKey (platformAdminMatches env search status) hsize
    refine ⟨chunks, enough, fun fuel hle => ?_, hlossless, fun _ _ _ => writesRows_iff⟩
    rw [streamPlatformAdminsByChunk_eq, hstream fuel hle]

/-! ## A table that moves -/

open Administration (sampleEnv sampleState sampleAdmin)

/-- One row at a time. -/
def singleRows : Env := { sampleEnv with settings := { exportStreamChunkSize := 1 } }

/-- After the first query an admin is added, after the second one the first admin is renamed;
all have one `created_at`. -/
def sampleBatches : List (List Write) :=
  [[.insertAdmin (sampleAdmin 3 "admin3" "admin3@example.com")],
    [.updateAdmin (sampleAdmin 1 "admin1" "admin1@example.com")
      (sampleAdmin 1 "renamed" "admin1@example.com")]]

def sampleLog (n : Nat) : Audit.AuditLog where
  toAuditFields := Audit.sampleFields
  seq := some n
  createdAt := Audit.sampleTime
  id := .ofNat n
  prevHash := none
  entryHash := none

/-- Two logs of one time; a third one is added after the first query. -/
def sampleLogs (n : Nat) : Database :=
  { Database.empty with auditLogs := [sampleLog 2, sampleLog 1, sampleLog 3].take (n + 2) }

theorem auditSchedule_sampleLogs : AuditSchedule sampleLogs where
  unique n := by
    have hall : ([sampleLog 2, sampleLog 1, sampleLog 3].map Audit.AuditLog.id).Nodup := by decide
    exact hall.sublist ((List.take_sublist _ _).map _)
  inserted n := List.take_subset_take_left _ (Nat.le_succ _)
  finite := by
    refine ⟨1, fun n hn => ?_⟩
    show List.take (n + 2) _ = _
    rw [List.take_of_length_le (by simpa using hn)]
    rfl

/-- The columns of a row, whose last update is at the epoch. -/
def sampleAttr : ExportRow → String → XlsxWriter.Value :=
  ExportService.getattr fun _ => Instant.datetime 0

/-- Row by row, the logs that were there at the first query and all three admins, who are in
the data sheet. -/
theorem streaming_lossless_iff_singleRows :
    (∃ chunks : List (List Audit.AuditLog),
      chunks.flatten.map Audit.AuditLog.id = [.ofNat 2, .ofNat 1] ∧
        Keyset.Lossless
          (fun a b => toLex (b.createdAt, b.id.bits) < toLex (a.createdAt, a.id.bits))
          Audit.AuditLog.id (AuditLogFilter.matches {}) (fun n => (sampleLogs n).auditLogs)
          chunks ∧
        WritesRows singleRows [("Reason", .json (.str "review"))] "Metadata" sampleAttr
          auditExportSpec (chunks.flatten.map .audit)) ∧
    ∃ chunks : List (List PlatformAdmin),
      chunks.flatten.map PlatformAdmin.id = [.ofNat 1, .ofNat 2, .ofNat 3] ∧
        Keyset.Lossless
          (fun a b => toLex (a.createdAt, a.id.bits) < toLex (b.createdAt, b.id.bits))
          PlatformAdmin.id (platformAdminMatches singleRows none none)
          (fun n => (seenAfter sampleState sampleBatches n).admins.rows) chunks ∧
        WritesRows singleRows [("Reason", .json (.str "review"))] "Metadata" sampleAttr
          usersExportSpec (chunks.flatten.map .user) := by
  obtain ⟨haudit, husers⟩ := streaming_lossless_iff singleRows le_rfl
  constructor
  · obtain ⟨chunks, enough, hstream, hlossless, hwrites⟩ := haudit {} _ auditSchedule_sampleLogs
    have hchunks : streamAuditLogsByChunk singleRows {} 4 sampleLogs =
        some [[sampleLog 2], [sampleLog 1], []] := by decide +kernel
    have hmore := Keyset.stream_mono hchunks (le_max_right enough 4)
    obtain rfl := Option.some.inj ((hstream _ (le_max_left enough 4)).symm.trans hmore)
    refine ⟨_, rfl, hlossless, (hwrites _ _ _).mpr ?_⟩
    unfold XlsxWriter.Accepted
    decide +kernel
  · have hbatches : ∀ w ∈ sampleBatches.flatten, KeepsCreatedAt w := by
      simp [sampleBatches, KeepsCreatedAt, sampleAdmin]
    obtain ⟨chunks, enough, hstream, hlossless, hwrites⟩ :=
      husers none none _ (userSchedule_seenAfter hbatches sampleState)
    have hchunks : streamPlatformAdminsByChunk singleRows none none 4
        (seenAfter sampleState sampleBatches) =
          some [[sampleAdmin 1 "admin1" "admin1@example.com"],
            [sampleAdmin 2 "admin2" "admin2@example.com"],
            [sampleAdmin 3 "admin3" "admin3@example.com"], []] := by decide +kernel
    have hmore := Keyset.stream_mono hchunks (le_max_right enough 4)
    obtain rfl := Option.some.inj ((hstream _ (le_max_left enough 4)).symm.trans hmore)
    refine ⟨_, rfl, hlossless, (hwrites _ _ _).mpr ?_⟩
    unfold XlsxWriter.Accepted
    decide +kernel

/-- The log of a client that calls itself by a control character. -/
def controlLog : Audit.AuditLog :=
  { sampleLog 1 with userAgent := some (String.singleton (Char.ofNat 1)) }

/-- **A row that cannot be written**: the stream yields it, and the writer raises. -/
theorem not_writesRows_controlLog :
    streamAuditLogsByChunk singleRows {} 2
        (fun _ => { Database.empty with auditLogs := [controlLog] }) = some [[controlLog], []] ∧
      ¬ WritesRows singleRows [("Reason", .json (.str "review"))] "Metadata" sampleAttr
        auditExportSpec [.audit controlLog] := by
  constructor
  · decide +kernel
  · rw [writesRows_iff]
    unfold XlsxWriter.Accepted
    decide +kernel

end Exports
end AdminPlatform
