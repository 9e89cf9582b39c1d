import AdminPlatform.Exports.Fetching
import AdminPlatform.Past

/-! # What export requests write

For creating an export, for downloading it, and for the task that generates its file, which
writes are lawful after what has been read and committed before. The rows of a file that is
written are those that the queries since its export was loaded have found (`Fetched`), each in
the state the database was in by then. -/

namespace AdminPlatform
open AdminPlatform.Lib

/-! ## A stream among others -/

/-- The queries of a stream, and the chunks they have fetched. -/
theorem ExportRepository.keeps_fetch {γ κ : Type} {L : Db.Policy}
    {chunk : Option κ → Database → List γ} {cursor : γ → κ} {size : Nat} (fuel : Nat)
    (last : Option κ) (past : Past) :
    (fetch chunk cursor size fuel last).Keeps L past fun later rows =>
      ∃ (fetched : Past) (chunks : List (List γ)), later = fetched ++ past ∧ fetched.Reads ∧
        (∀ s, Keyset.stream chunk cursor size fetched.length (fun n => fetched.states.getD n s)
          last = some chunks) ∧ rows = chunks.flatten := by
  have hreads : ∀ (q : Database → List γ) (s : Database), Past.Reads [⟨.query q, s⟩] :=
    fun q s d hd => List.mem_singleton.mp hd ▸ ⟨q, rfl⟩
  induction fuel generalizing last past with
  | zero => exact Db.keeps_throw _
  | succ fuel ih =>
      refine Db.keeps_query_bind_cons fun s => ?_
      cases hrow : (chunk last s).getLast? with
      | none =>
          have hnil := List.getLast?_eq_none_iff.mp hrow
          exact Db.keeps_return ⟨[⟨.query (chunk last), s⟩], [chunk last s], rfl, hreads _ s,
            fun _ => Keyset.stream_last (.inr hnil), by simp [hnil]⟩
      | some row =>
          by_cases hshort : (chunk last s).length < size
          · simp only [hshort, if_true]
            exact Db.keeps_return ⟨[⟨.query (chunk last), s⟩], [chunk last s], rfl, hreads _ s,
              fun _ => Keyset.stream_last (.inl hshort), by simp⟩
          · simp only [hshort, if_false]
            refine (ih (some (cursor row)) _).bind fun later rest _ hrest => ?_
            obtain ⟨fetched, chunks, hlater, hqueries, hstream, rfl⟩ := hrest
            -- the query made here is the oldest of the stream
            refine Db.keeps_return ⟨fetched ++ [⟨.query (chunk last), s⟩],
              chunk last s :: chunks, ?_, ?_, fun u => ?_, rfl⟩
            · rw [hlater, List.append_assoc]
              rfl
            · exact List.forall_mem_append.mpr ⟨hqueries, hreads _ s⟩
            · have hstates : Past.states (fetched ++ [⟨.query (chunk last), s⟩]) =
                  s :: fetched.states := by
                simp [Past.states]
              rw [List.length_append, hstates]
              show Keyset.stream chunk cursor size (fetched.length + 1) _ _ = _
              rw [Keyset.stream_more hrow (not_lt.mp hshort)]
              exact congrArg _ (hstream u)

namespace ExportService
variable {env : Env} {req : Request}

/-- The rows are the chunks of the stream, as the queries have found them that were made since
`before`; an admin the session holds comes as the session has it. -/
def Fetched (env : Env) (held : Option PlatformAdmin) (spec : ExportSpec) (filters : Json)
    (before past : Past) (rows : List ExportRow) : Prop :=
  ∃ (fetched : Past) (chunks : List (List ExportRow)), past = fetched ++ before ∧ fetched.Reads ∧
    (∀ s, rowStreamByChunk env spec filters fetched.length (fun n => fetched.states.getD n s) =
      .ok (some chunks)) ∧ rows = chunks.flatten.map (inSession held)

theorem keeps_rowStreamByQuery {L : Db.Policy} (queries : Nat) (spec : ExportSpec)
    (filters : Json) (past : Past) :
    (rowStreamByQuery env queries spec filters).Keeps L past
      (Fetched env none spec filters past) := by
  unfold rowStreamByQuery
  by_cases haudit : spec.module = "audit"
  · rw [if_pos haudit]
    refine (ExportRepository.keeps_fetch _ _ _).bind fun later rows _ hrows => ?_
    obtain ⟨fetched, chunks, hlater, hreads, hstream, rfl⟩ := hrows
    refine Db.keeps_return ⟨fetched, chunks.map (List.map .audit), hlater, hreads, fun s => ?_, ?_⟩
    · rw [rowStreamByChunk, if_pos haudit]
      exact congrArg (fun pages => Except.ok (Option.map _ pages)) (hstream s)
    · rw [map_inSession_none, ← List.map_flatten]
  · rw [if_neg haudit]
    by_cases husers : spec.module = "users"
    · rw [if_pos husers]
      refine (ExportRepository.keeps_fetch _ _ _).bind fun later rows _ hrows => ?_
      obtain ⟨fetched, chunks, hlater, hreads, hstream, rfl⟩ := hrows
      refine Db.keeps_return ⟨fetched, chunks.map (List.map .user), hlater, hreads, fun s => ?_, ?_⟩
      · rw [rowStreamByChunk, if_neg haudit, if_pos husers]
        exact congrArg (fun pages => Except.ok (Option.map _ pages)) (hstream s)
      · rw [map_inSession_none, ← List.map_flatten]
    · rw [if_neg husers]
      exact Db.keeps_throw _

theorem keeps_rowStreamInSession {L : Db.Policy} (queries : Nat) (held : PlatformAdmin)
    (spec : ExportSpec) (filters : Json) (past : Past) :
    (rowStreamInSession env queries held spec filters).Keeps L past
      (Fetched env (some held) spec filters past) := by
  refine (keeps_rowStreamByQuery queries spec filters past).bind fun later rows _ hrows => ?_
  obtain ⟨fetched, chunks, hlater, hreads, hstream, rfl⟩ := hrows
  exact Db.keeps_return ⟨fetched, chunks, hlater, hreads, hstream, by rw [map_inSession_none]⟩

/-! ## The writes -/

/-- The row a request to create an export builds. -/
def newExport (req : Request) (adminEmail : String) (data : ExportCreate)
    (classification : String) (filters : Json) : Export where
  id := req.newId
  module := data.module.value
  reason := data.reason
  fileFormat := data.format
  classification := classification
  filters := filters
  status := .pending
  rowCount := none
  filePath := none
  generationError := none
  expiresAt := none
  createdBy := adminEmail
  createdAt := req.now

/-- The writes of a request to create an export. -/
inductive CreateLawful (req : Request) (adminEmail : String) (data : ExportCreate)
    (past : Past) : Write → Prop
  | insert {classification filters} : CreateLawful req adminEmail data past
      (.insertExport (newExport req adminEmail data classification filters))
  | created {classification filters} {rowCount : Nat} :
      past.Wrote (.insertExport (newExport req adminEmail data classification filters)) →
      CreateLawful req adminEmail data past
        (.insertIntent (AuditService.intent req
          (AuditService.event .exportGenerated (some .export) (some req.newId.str)
            (.obj
              [("module", .str data.module.value), ("reason", .str data.reason),
                ("row_count", .int rowCount), ("filters", filters)]))))

/-- The writes of the task that generates a file. -/
inductive TaskLawful (env : Env) (now : Instant) (exportId : Uuid) (past : Past) : Write → Prop
  | file {entry spec rows} {before : Past} :
      before.Saw (fun s => s.exports.find? exportId = some entry) →
      exportSpecs.lookup entry.module = some spec →
      Fetched env none spec entry.filters before past rows →
      TaskLawful env now exportId past
        (.writeFile (pathOf env spec entry) (workbook env now spec entry rows))
  | ready {entry spec rowCount} : past.Saw (fun s => s.exports.find? exportId = some entry) →
      exportSpecs.lookup entry.module = some spec →
      TaskLawful env now exportId past (.updateExport entry (readied env now spec entry rowCount))
  | failed {entry} : past.Saw (fun s => s.exports.find? exportId = some entry) →
      entry.status = .pending →
      TaskLawful env now exportId past
        (.updateExport entry
          { entry with status := .failed, generationError := some generationFailed })

/-- The export is the admin's, whoever else there is. -/
def Owned (exportId : Uuid) (adminEmail : String) (past : Past) (entry : Export) : Prop :=
  entry.createdBy = adminEmail ∧ past.Saw fun s => s.exports.find? exportId = some entry

theorem Owned.mono {exportId : Uuid} {adminEmail : String} {past later : Past} {entry : Export}
    (h : Owned exportId adminEmail past entry) (hlater : past <:+ later) :
    Owned exportId adminEmail later entry :=
  ⟨h.1, h.2.mono hlater⟩

/-- The window of an export has run out. -/
def windowOver (now : Instant) (entry : Export) : Bool :=
  entry.expiresAt.any fun expiresAt => expiresAt ≤ now

/-- The writes of a download, in the session that holds the caller. -/
inductive DownloadLawful (env : Env) (req : Request) (exportId : Uuid) (caller : PlatformAdmin)
    (past : Past) : Write → Prop
  | expired {entry} : Owned exportId caller.email past entry → windowOver req.now entry = true →
      DownloadLawful env req exportId caller past
        (.updateExport entry { entry with status := .expired })
  | file {entry spec rows} {before : Past} : Owned exportId caller.email before entry →
      windowOver req.now entry = false → exportSpecs.lookup entry.module = some spec →
      Fetched env (some caller) spec entry.filters before past rows →
      DownloadLawful env req exportId caller past
        (.writeFile (pathOf env spec entry) (workbook env req.now spec entry rows))
  | ready {entry spec rowCount} : Owned exportId caller.email past entry →
      windowOver req.now entry = false → exportSpecs.lookup entry.module = some spec →
      DownloadLawful env req exportId caller past
        (.updateExport entry (readied env req.now spec entry rowCount))
  | served {entry served : Export} : Owned exportId caller.email past entry →
      windowOver req.now entry = false → served.id = exportId →
      past.Saw (fun s => s.isFile (served.filePath.getD "")) →
      DownloadLawful env req exportId caller past
        (.insertIntent (AuditService.intent req
          (AuditService.event .exportDownloaded (some .export) (some served.id.str)
            (.obj
              [("module", .str served.module), ("reason", .str served.reason),
                ("row_count", (served.rowCount.map fun (n : Nat) => Json.int n).getD .null),
                ("classification", .str served.classification)]))))

section Keeps
variable {α : Type} {L : Db.Policy} {past : Past} {Q : Past → α → Prop}

theorem writes_countRows {W : Write → Prop} (spec : ExportSpec) (filters : Json) :
    (countRows env spec filters).Writes W := by
  unfold countRows
  split
  · exact Db.writes_query _
  · split
    · exact Db.writes_query _
    · exact Db.writes_throw _

theorem writes_filtersForModule {W : Write → Prop} (data : ExportCreate) :
    (filtersForModule data).Writes W := by
  unfold filtersForModule
  split
  · exact Db.writes_pure _
  · exact Db.writes_pure _
  · exact Db.writes_pure _
  · exact Db.writes_pure _
  · exact Db.writes_throw _

/-- **A request to create an export writes only what is lawful.** -/
theorem keeps_createExport (adminEmail : String) (data : ExportCreate) (past : Past) :
    (createExport env req adminEmail data).Keeps (CreateLawful req adminEmail data) past := by
  refine Db.keeps_reading_bind (writes_spec _) fun _ spec _ => ?_
  refine Db.keeps_reading_bind (writes_filtersForModule data) fun _ filtersModel _ => ?_
  refine Db.keeps_reading_bind (writes_countRows _ _) fun _ rowCount _ => ?_
  refine Db.keeps_check_bind fun _ => ?_
  refine Db.keeps_save_bind .insert fun _ _ entry _ hwrote _ hfind => ?_
  have hid : entry.id = req.newId := (Table.find?_eq_some.mp hfind).2
  rw [hid]
  exact AuditService.keeps_record_bind (.created hwrote) fun _ _ => Db.keeps_pure _

/-- Where a loaded export comes from: the session, or, if that does not hold it, the table. -/
def Loaded (exportId : Uuid) (held : Option Export) (past : Past) (entry : Export) : Prop :=
  entry.id = exportId ∧ (held = some entry ∨
    ((∀ other ∈ held, other.id ≠ exportId) ∧
      past.Saw fun s => s.exports.find? exportId = some entry))

theorem Loaded.mono {exportId : Uuid} {held : Option Export} {past later : Past} {entry : Export}
    (h : Loaded exportId held past entry) (hlater : past <:+ later) :
    Loaded exportId held later entry :=
  ⟨h.1, h.2.imp id fun hsource => ⟨hsource.1, hsource.2.mono hlater⟩⟩

/-- In a session that does not hold it, an export comes from the table. -/
theorem Loaded.saw {exportId : Uuid} {past : Past} {entry : Export}
    (h : Loaded exportId none past entry) :
    past.Saw fun s => s.exports.find? exportId = some entry :=
  (h.2.resolve_left nofun).2

/-- A session that holds the export answers with it. -/
theorem Loaded.eq_held {past : Past} {held entry : Export}
    (h : Loaded held.id (some held) past entry) : entry = held := by
  rcases h.2 with hheld | ⟨hother, -⟩
  · exact (Option.some.inj hheld).symm
  · exact absurd rfl (hother held rfl)

theorem keeps_getExport_bind {exportId : Uuid} {held : Option Export}
    {f : Option Export → Db α}
    (h : ∀ (later : Past) o, past <:+ later →
      (∀ entry, o = some entry → Loaded exportId held later entry) → (f o).Keeps L later Q) :
    (ExportRepository.getExport exportId held >>= f).Keeps L past Q := by
  unfold ExportRepository.getExport
  cases hheld : held.filter (fun entry => entry.id = exportId) with
  | some entry =>
      obtain ⟨rfl, hid⟩ := Option.filter_eq_some_iff.mp hheld
      refine h past _ (List.suffix_refl _) ?_
      rintro _ ⟨⟩
      exact ⟨of_decide_eq_true hid, .inl rfl⟩
  | none =>
      refine Db.keeps_query_bind fun later s hlater hat => ?_
      refine h later _ hlater fun entry hentry =>
        ⟨(Table.find?_eq_some.mp hentry).2, .inr ⟨fun other hother => ?_, hat.saw hentry⟩⟩
      have hne := Option.filter_eq_none_iff.mp hheld other hother
      simpa using hne

theorem keeps_spec_bind {module : String} {f : ExportSpec → Db α}
    (h : ∀ spec, exportSpecs.lookup module = some spec → (f spec).Keeps L past Q) :
    (spec module >>= f).Keeps L past Q := by
  unfold ExportService.spec
  cases hspec : exportSpecs.lookup module with
  | none => exact Db.keeps_throw _
  | some spec => exact h spec hspec

/-- The file is put in place, and its rows are counted. -/
theorem keeps_writeFile_bind {now : Instant} {spec : ExportSpec} {entry : Export} {path : String}
    {rows : List ExportRow} {f : Nat → Db α}
    (hwrite : L past (.writeFile path (workbook env now spec entry rows)))
    (h : ∀ later : Past, past <:+ later → (f rows.length).Keeps L later Q) :
    (writeFile env now spec entry path rows >>= f).Keeps L past Q := by
  rcases writeFile_cases env now spec entry path rows with ⟨-, heq⟩ | ⟨-, heq⟩
  · rw [heq, Program.bind_bind]
    exact Db.keeps_commit_bind hwrite fun later hlater _ => h later hlater
  · rw [heq]
    exact Db.keeps_throw _

/-- Generating a file writes it, and then the row of the export it was loaded from. -/
theorem keeps_generateFrom {stream : ExportSpec → Json → Db (List ExportRow)}
    {admin : Option PlatformAdmin}
    (hstream : ∀ spec filters past,
      (stream spec filters).Keeps L past (Fetched env admin spec filters past))
    {now : Instant} {exportId : Uuid} {held : Option Export}
    (hL : ∀ (loaded : Past) entry spec, past <:+ loaded → Loaded exportId held loaded entry →
      exportSpecs.lookup entry.module = some spec →
      (∀ (later : Past) rows, Fetched env admin spec entry.filters loaded later rows →
        L later (.writeFile (pathOf env spec entry) (workbook env now spec entry rows))) ∧
        ∀ (later : Past) rowCount, loaded <:+ later →
          L later (.updateExport entry (readied env now spec entry rowCount))) :
    (generateFrom stream env now exportId held).Keeps L past
      fun _ ready => ready.id = exportId := by
  refine keeps_getExport_bind fun loaded o hloaded hentry => ?_
  cases o with
  | none => exact Db.keeps_throw _
  | some entry =>
      have hsource := hentry entry rfl
      refine keeps_spec_bind fun spec hspec => ?_
      obtain ⟨hfile, hready⟩ := hL loaded entry spec hloaded hsource hspec
      refine (hstream spec entry.filters loaded).bind fun streamed rows hstreamed hrows => ?_
      refine keeps_writeFile_bind (hfile streamed rows hrows) fun filed hfiled => ?_
      refine Db.keeps_commit_bind (hready _ rows.length (hstreamed.trans hfiled)) fun _ _ _ => ?_
      exact Db.keeps_return hsource.1

/-- **The task writes only what is lawful.** -/
theorem keeps_generateTask (now : Instant) (exportId : Uuid) (queries : Nat) (past : Past) :
    (generateTaskFrom (rowStreamByQuery env queries) env now exportId).Keeps
      (TaskLawful env now exportId) past := by
  refine Db.Keeps.tryCatch ?_ fun later _ _ => Db.Keeps.tryCatch ?_ fun _ _ _ => Db.keeps_pure _
  · refine (keeps_generateFrom (keeps_rowStreamByQuery queries)
      fun loaded entry spec _ hsource hspec => ?_).drop
    exact ⟨fun later rows hrows => .file hsource.saw hspec hrows,
      fun later rowCount hlater => .ready (hsource.saw.mono hlater) hspec⟩
  · refine keeps_getExport_bind fun last o _ hentry => ?_
    cases o with
    | none => exact Db.keeps_pure _
    | some entry =>
        have hsaw := (hentry entry rfl).saw
        by_cases hpending : entry.status = .pending
        · exact (Db.keeps_commit (.failed hsaw hpending)).when _
        · dsimp only
          rw [decide_eq_false hpending]
          exact Db.keeps_pure _

theorem keeps_ownedExport_bind {exportId : Uuid} {adminEmail : String} {f : Export → Db α}
    (h : ∀ (later : Past) entry, past <:+ later → entry.id = exportId →
      Owned exportId adminEmail later entry → (f entry).Keeps L later Q) :
    (ownedExport exportId adminEmail >>= f).Keeps L past Q := by
  unfold ownedExport
  rw [Program.bind_bind]
  refine keeps_getExport_bind fun later o hlater hentry => ?_
  cases o with
  | none => exact Db.keeps_throw _
  | some entry =>
      have hsource := hentry entry rfl
      dsimp only
      rw [Program.bind_bind]
      refine Db.keeps_check_bind fun howner => h later entry hlater hsource.1 ⟨?_, hsource.saw⟩
      simpa using howner

/-- **A download writes only what is lawful.** -/
theorem keeps_downloadExport (exportId : Uuid) (caller : PlatformAdmin) (queries : Nat)
    (past : Past) :
    (downloadExportFrom (rowStreamInSession env queries caller) env req exportId
      caller.email).Keeps (DownloadLawful env req exportId caller) past := by
  refine keeps_ownedExport_bind fun loaded entry _ hid howned => ?_
  refine Db.keeps_when_bind (fun hover => ?_) fun hopen => ?_
  · rw [Program.bind_bind]
    exact Db.keeps_commit_bind (.expired howned hover) fun _ _ _ => Db.keeps_throw _
  have hregenerate : (regenerateFrom (rowStreamInSession env queries caller) env req.now
      entry).Keeps (DownloadLawful env req exportId caller) loaded
        fun _ ready => ready.id = exportId := by
    refine Db.keeps_query_bind fun looked s hlooked _ => ?_
    split
    · rw [← hid] at howned ⊢
      -- the object the session holds is the one that was loaded
      refine keeps_generateFrom (keeps_rowStreamInSession queries caller)
        fun again source spec hagain hsource hspec => ?_
      obtain rfl := hsource.eq_held
      have howned' := howned.mono (hlooked.trans hagain)
      exact ⟨fun later rows hrows => .file howned' hopen hspec hrows,
        fun later rowCount hlater => .ready (howned'.mono hlater) hopen hspec⟩
    · exact Db.keeps_return hid
  refine hregenerate.bind fun later served hlater hserved => ?_
  refine Db.keeps_query_bind fun last s hlast hat => ?_
  refine Db.keeps_check_bind fun hfile => ?_
  refine AuditService.keeps_record_bind ?_ fun _ _ => Db.keeps_pure _
  refine .served (howned.mono (hlater.trans hlast)) hopen hserved (hat.saw ?_)
  simpa using hfile

end Keeps
end ExportService
end AdminPlatform
