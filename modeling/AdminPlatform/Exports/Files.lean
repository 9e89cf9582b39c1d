import AdminPlatform.Api.Exports

/-! # What the files hold

The files of audit exports hold audit rows only, and those of users exports admins only:
the file that an export notes is of the export's module (`Filed`), however exports are
created, generated and downloaded. -/

namespace AdminPlatform
open AdminPlatform.Lib

/-- The module a row is exported under. -/
def ExportRow.module : ExportRow → String
  | .audit _ => "audit"
  | .user _ => "users"

namespace ExportService

/-! ## Paths -/

/-- A path that `generate` puts files of the module under. -/
def FileOf (env : Env) (module path : String) : Prop :=
  ∃ spec entry, exportSpecs.lookup module = some spec ∧
    path = s!"{env.settings.exportDir}/{filename spec entry}"

/-- The name of a file starts as its module does. -/
theorem head?_filename {module : String} {spec : ExportSpec}
    (h : exportSpecs.lookup module = some spec) (entry : Export) :
    (filename spec entry).toList.head? = module.toList.head? := by
  have hprefix : ∀ c, spec.filenamePrefix.toList.head? = some c →
      (filename spec entry).toList.head? = some c := by
    intro c hc
    simp only [filename, String.toList_append, List.head?_append]
    show (((spec.filenamePrefix.toList.head?.or _).or _).or _).or _ = _
    rw [hc]
    rfl
  rcases lookup_exportSpecs h with ⟨rfl, rfl⟩ | ⟨rfl, rfl⟩
  · exact hprefix 'a' (by decide)
  · exact hprefix 'u' (by decide)

/-- A path is of one module. -/
theorem FileOf.unique {env : Env} {module module' path : String} (h : FileOf env module path)
    (h' : FileOf env module' path) : module = module' := by
  obtain ⟨spec, entry, hspec, rfl⟩ := h
  obtain ⟨spec', entry', hspec', hpath⟩ := h'
  have hname : (filename spec entry).toList = (filename spec' entry').toList := by
    have hlist := congrArg String.toList hpath
    simp only [String.toList_append] at hlist
    exact List.append_cancel_left hlist
  have hhead : module.toList.head? = module'.toList.head? := by
    rw [← head?_filename hspec entry, hname, head?_filename hspec' entry']
  rcases lookup_exportSpecs hspec with ⟨rfl, -⟩ | ⟨rfl, -⟩ <;>
    rcases lookup_exportSpecs hspec' with ⟨rfl, -⟩ | ⟨rfl, -⟩
  · rfl
  · exact absurd hhead (by decide)
  · exact absurd hhead (by decide)
  · rfl

/-! ## Files of one module -/

/-- The path an export notes is of its module, and so are the rows under a path. -/
structure Filed (env : Env) (s : Database) : Prop where
  noted : ∀ entry ∈ s.exports, ∀ path, entry.filePath = some path → FileOf env entry.module path
  rows : ∀ f ∈ s.files, ∃ module, FileOf env module f.1 ∧ ∀ row ∈ f.2.rows, row.module = module

/-- What a request serves is a file of the module. -/
def Serves (module : String) (s : Database) : Except Failure FileResponse → Prop
  | .ok response => ∃ file, s.files.lookup response.path = some file ∧
      ∀ row ∈ file.rows, row.module = module
  | .error _ => True

section Run
variable {env : Env} {req : Request} {now : Instant} {s s' : Database} {entry : Export}

theorem Filed.congr (h : Filed env s) (hexports : s'.exports = s.exports)
    (hfiles : s'.files = s.files) : Filed env s' :=
  ⟨hexports ▸ h.noted, hfiles ▸ h.rows⟩

theorem Filed.of_none (hexports : ∀ entry, entry ∉ s.exports) (hfiles : s.files = []) :
    Filed env s :=
  ⟨fun entry hentry => absurd hentry (hexports entry), by simp [hfiles]⟩

/-- A new export notes no path yet. -/
theorem Filed.insert (h : Filed env s) {exports : Table Export} {outbox : Table Audit.AuditIntent}
    (hinsert : s.exports.insert entry = some exports) (hnone : entry.filePath = none) :
    Filed env { s with exports := exports, auditIntents := outbox } := by
  refine ⟨fun x hx path hpath => ?_, h.rows⟩
  rcases (Table.mem_insert hinsert).mp hx with hold | rfl
  · exact h.noted x hold path hpath
  · rw [hnone] at hpath
    cases hpath

theorem Filed.writeFile (h : Filed env s) {module path : String} {file : Workbook}
    (hpath : FileOf env module path) (hrows : ∀ row ∈ file.rows, row.module = module)
    (happly : (Write.writeFile path file).apply s = .ok s') : Filed env s' := by
  obtain rfl := Except.ok.inj happly
  refine ⟨h.noted, fun f hf => ?_⟩
  rcases List.mem_cons.mp hf with rfl | hold
  · exact ⟨module, hpath, hrows⟩
  · exact h.rows f (List.mem_of_mem_filter hold)

theorem Filed.updateExport (h : Filed env s) {current : Export}
    (hfind : s.exports.find? entry.id = some entry) (hid : current.id = entry.id)
    (hnoted : ∀ path, current.filePath = some path → FileOf env current.module path)
    (happly : (Write.updateExport entry current).apply s = .ok s') : Filed env s' := by
  obtain ⟨exports, hflush, rfl⟩ := apply_updateExport happly
  refine ⟨fun x hx path hpath => ?_, h.rows⟩
  rcases (Table.flush_loaded hflush hfind hid).mp hx with rfl | ⟨hold, -⟩
  · exact hnoted path hpath
  · exact h.noted x hold path hpath

theorem reads_spec (module : String) (s : Database) :
    (spec module).Reads s fun spec => exportSpecs.lookup module = some spec := by
  unfold spec
  split
  · exact .pure ‹_›
  · exact .throw _

theorem reads_rowStream (spec : ExportSpec) (filters : Json) (s : Database) :
    (rowStream env spec filters).Reads s fun rows => ∀ row ∈ rows, row.module = spec.module := by
  unfold rowStream
  split
  · rename_i haudit
    refine .inr ⟨_, rfl, fun row hrow => ?_⟩
    obtain ⟨log, -, rfl⟩ := List.mem_map.mp hrow
    exact haudit.symm
  · split
    · rename_i husers
      refine .inr ⟨_, rfl, fun row hrow => ?_⟩
      obtain ⟨admin, -, rfl⟩ := List.mem_map.mp hrow
      exact husers.symm
    · exact .throw _

/-- **Generating keeps files to their module**, and what is ready notes a file of the module of
the export. -/
theorem Filed.generate (h : Filed env s) {exportId : Uuid} {held : Option Export}
    (hheld : ∀ x, held = some x → s.exports.find? exportId = some x) {r : Except Failure Export}
    (hrun : (generate env now exportId held).run s = (r, s')) :
    Filed env s' ∧ ((∃ e, r = .error e) ∨ ∃ entry ready path,
      s.exports.find? exportId = some entry ∧ r = .ok ready ∧ ready.filePath = some path ∧
        FileOf env entry.module path) := by
  have hget : (ExportRepository.getExport exportId held).run s =
      (.ok (s.exports.find? exportId), s) := ExportRepository.run_getExport hheld
  unfold ExportService.generate at hrun
  rw [Db.run_bind_ok _ hget] at hrun
  cases hfind : s.exports.find? exportId with
  | none =>
      rw [hfind] at hrun
      obtain ⟨rfl, rfl⟩ := Prod.mk.inj hrun
      exact ⟨h, .inl ⟨_, rfl⟩⟩
  | some entry =>
      rw [hfind] at hrun
      obtain rfl : entry.id = exportId := (Table.find?_eq_some.mp hfind).2
      rcases (reads_spec entry.module s).bind_inv hrun with ⟨he, rfl⟩ | ⟨spec, hspec, hrun⟩
      · exact ⟨h, .inl he⟩
      rcases (reads_rowStream spec entry.filters s).bind_inv hrun with ⟨he, rfl⟩ |
        ⟨rows, hrows, hrun⟩
      · exact ⟨h, .inl he⟩
      have hpath : FileOf env entry.module s!"{env.settings.exportDir}/{filename spec entry}" :=
        ⟨spec, entry, hspec, rfl⟩
      rcases run_writeFile_bind_inv hrun with ⟨he, rfl⟩ | ⟨u, hwrite, hrun⟩
      · exact ⟨h, .inl he⟩
      -- the file is of the export's module, under a path of that module
      have hfiled : Filed env u := h.writeFile hpath (module_of_lookup hspec ▸ hrows) hwrite
      have hsame : u.exports = s.exports := by
        obtain rfl := Except.ok.inj hwrite
        rfl
      rcases Db.run_commit_bind_inv hrun with ⟨he, rfl⟩ | ⟨v, hupdate, hrun⟩
      · exact ⟨hfiled, .inl he⟩
      obtain ⟨rfl, rfl⟩ := Prod.mk.inj hrun
      -- the export notes just that path
      refine ⟨hfiled.updateExport (hsame ▸ hfind) ?_ ?_ hupdate, .inr ⟨entry, _, _, rfl, rfl, rfl,
        hpath⟩⟩
      · rfl
      · intro path hnoted
        obtain rfl := Option.some.inj hnoted
        exact hpath

/-- The background task keeps files to their module. -/
theorem Filed.generateTask (h : Filed env s) (exportId : Uuid) :
    Filed env ((generateTask env now exportId).run s).2 := by
  refine Db.run_tryCatch_keeps ?_ fun _ u hu => Db.run_tryCatch_keeps ?_ fun _ _ hv => hv
  · rcases hrun : (drop (ExportService.generate env now exportId)).run s with ⟨r, u⟩
    obtain ⟨r', hgenerate, -⟩ := Db.run_drop_inv hrun
    exact (h.generate (fun x hx => by cases hx) hgenerate).1
  -- the handler marks a pending export as failed
  · show Filed env ((query _ >>= _ : Db Unit).run u).2
    rw [Db.run_query_bind]
    cases hfind : u.exports.find? exportId with
    | none => exact hu
    | some entry =>
        obtain rfl : entry.id = exportId := (Table.find?_eq_some.mp hfind).2
        show Filed env ((when (decide (entry.status = .pending)) (commit _)).run u).2
        unfold when
        split
        · cases hupdate : (Write.updateExport entry _).apply u with
          | ok v =>
              rw [Db.run_commit_ok hupdate]
              refine hu.updateExport hfind ?_ ?_ hupdate
              · rfl
              · exact hu.noted entry (Table.find?_eq_some.mp hfind).1
          | error e =>
              rw [Db.run_commit_error hupdate]
              exact hu
        · exact hu

/-- A window that has run out is noted, which keeps files to their module. -/
theorem Filed.refuseExpired (h : Filed env s) (hfind : s.exports.find? entry.id = some entry)
    {r : Except Failure Unit} (hrun : (refuseExpired now entry).run s = (r, s')) :
    Filed env s' ∧ ((∃ e, r = .error e) ∨ s' = s) := by
  unfold ExportService.refuseExpired when at hrun
  split at hrun
  · rcases Db.run_commit_bind_inv hrun with ⟨he, rfl⟩ | ⟨u, hupdate, hrun⟩
    · exact ⟨h, .inl he⟩
    · obtain ⟨rfl, rfl⟩ := Prod.mk.inj hrun
      refine ⟨h.updateExport hfind ?_ ?_ hupdate, .inl ⟨_, rfl⟩⟩
      · rfl
      · exact h.noted entry (Table.find?_eq_some.mp hfind).1
  · obtain ⟨rfl, rfl⟩ := Prod.mk.inj hrun
    exact ⟨h, .inr rfl⟩

/-- Lazy regeneration keeps files to their module, and leaves the export with a path. -/
theorem Filed.regenerate (h : Filed env s) (hfind : s.exports.find? entry.id = some entry)
    {r : Except Failure Export} (hrun : (regenerate env now entry).run s = (r, s')) :
    Filed env s' ∧ ((∃ e, r = .error e) ∨ ∃ ready path, r = .ok ready ∧
      ready.filePath = some path ∧ FileOf env entry.module path) := by
  unfold ExportService.regenerate at hrun
  rw [Db.run_query_bind] at hrun
  split at hrun
  · obtain ⟨hfiled, he | ⟨x, ready, path, hx, hready⟩⟩ := h.generate (by simpa using hfind) hrun
    · exact ⟨hfiled, .inl he⟩
    · obtain rfl : entry = x := Option.some.inj (hfind.symm.trans hx)
      exact ⟨hfiled, .inr ⟨ready, path, hready⟩⟩
  · rename_i hready
    obtain ⟨rfl, rfl⟩ := Prod.mk.inj hrun
    have hpresent : entry.filePath.any s.isFile = true := by
      by_contra habsent
      exact hready (.inr (by simpa [fileExists] using habsent))
    obtain ⟨path, hpath, -⟩ := (Option.any_eq_true _ _).mp hpresent
    exact ⟨h, .inr ⟨entry, path, rfl, hpath, h.noted entry (Table.find?_eq_some.mp hfind).1 path
      hpath⟩⟩

/-- **The file that is served** is of the module of the export. -/
theorem Filed.serve (h : Filed env s) (hfind : s.exports.find? entry.id = some entry)
    {r : Except Failure FileResponse} (hrun : (serveExport env req entry).run s = (r, s')) :
    Filed env s' ∧ Serves entry.module s' r := by
  unfold ExportService.serveExport at hrun
  rcases Db.run_bind_inv hrun with ⟨⟨⟩, u, hexpiry, hafter⟩ | ⟨e, hexpiry, rfl⟩
  swap
  · exact ⟨(h.refuseExpired hfind hexpiry).1, trivial⟩
  obtain ⟨-, ⟨e, he⟩ | rfl⟩ := h.refuseExpired hfind hexpiry
  · cases he
  rcases Db.run_bind_inv hafter with ⟨ready, v, hregenerate, hrun⟩ | ⟨e, hregenerate, rfl⟩
  swap
  · exact ⟨(h.regenerate hfind hregenerate).1, trivial⟩
  obtain ⟨hfiled, ⟨e, he⟩ | ⟨_, path, ⟨⟩, hnoted, hpath⟩⟩ := h.regenerate hfind hregenerate
  · cases he
  rw [Db.run_query_bind] at hrun
  rcases (Db.isCheck_raise _ _ v).bind_inv hrun with ⟨⟨e, rfl⟩, rfl⟩ | ⟨hisFile, hrun⟩
  · exact ⟨hfiled, trivial⟩
  obtain ⟨outbox, hrun⟩ := AuditService.run_record_bind_inv hrun
  obtain ⟨rfl, rfl⟩ := Prod.mk.inj hrun
  refine ⟨hfiled.congr rfl rfl, ?_⟩
  -- what is under the path is of one module only
  rw [hnoted, Option.getD_some] at hisFile
  have hsome : (v.files.lookup path).isSome = true := by simpa [Database.isFile] using hisFile
  obtain ⟨file, hfile⟩ := Option.isSome_iff_exists.mp hsome
  refine ⟨file, by rwa [hnoted, Option.getD_some], ?_⟩
  obtain ⟨before, after, hsplit, -⟩ := List.lookup_eq_some_iff.mp hfile
  obtain ⟨module, hof, hrows⟩ := hfiled.rows (path, file) (by simp [hsplit])
  obtain rfl := hpath.unique hof
  exact hrows

/-- A download serves a file of the module of an export that is the caller's. -/
theorem Filed.download (h : Filed env s) {exportId : Uuid} {adminEmail : String}
    {r : Except Failure FileResponse}
    (hrun : (downloadExport env req exportId adminEmail).run s = (r, s')) :
    Filed env s' ∧ ((∃ e, r = .error e) ∨
      ∃ entry, Owns s exportId adminEmail entry ∧ Serves entry.module s' r) := by
  unfold ExportService.downloadExport at hrun
  rcases run_ownedExport exportId adminEmail s with ⟨e, howned, -⟩ | ⟨entry, howned, howns⟩
  · rw [Db.run_bind_error _ howned] at hrun
    obtain ⟨rfl, rfl⟩ := Prod.mk.inj hrun
    exact ⟨h, .inl ⟨_, rfl⟩⟩
  · rw [Db.run_bind_ok _ howned] at hrun
    have hfind : s.exports.find? entry.id = some entry := by
      obtain rfl : entry.id = exportId := (Table.find?_eq_some.mp howns.1).2
      exact howns.1
    obtain ⟨hfiled, hserves⟩ := h.serve hfind hrun
    exact ⟨hfiled, .inr ⟨entry, howns, hserves⟩⟩

/-! ## The routes -/

theorem Filed.createRoute (h : Filed env s) {credentials : Option EncodedToken}
    {data : ExportCreate} {r : Except Failure Export}
    (hrun : (Api.createExport env req credentials data).run s = (r, s')) : Filed env s' := by
  rcases Api.run_createExport_inv hrun with ⟨e, outbox, -, rfl⟩ |
    ⟨payload, admin, entry, exports, outbox, -, -, hinsert, hnew, -, -, rfl⟩
  · exact h.congr rfl rfl
  · exact h.insert hinsert hnew

/-- **What the download route serves** is a file of the module of an export, and the caller
holds the permission the route checks. -/
theorem Filed.downloadRoute (h : Filed env s) {credentials : Option EncodedToken}
    {exportId : Uuid} {r : Except Failure FileResponse}
    (hrun : (Api.downloadExport env req credentials exportId).run s = (r, s')) :
    Filed env s' ∧ ((∃ e, r = .error e) ∨
      ∃ payload admin entry, Api.CallsAs s req.now credentials payload admin ∧
        PermissionName.auditRead.value ∈ RbacService.permissions s admin.id ∧
        Owns s exportId admin.email entry ∧ Serves entry.module s' r) := by
  rcases Api.run_guarded_inv hrun with ⟨hr, rfl⟩ |
    ⟨payload, admin, hcalls, ⟨-, rfl, outbox, rfl⟩ | ⟨hgranted, hserved⟩⟩
  · exact ⟨h, .inl hr⟩
  · exact ⟨h.congr rfl rfl, .inl ⟨_, rfl⟩⟩
  · obtain ⟨hfiled, he | ⟨entry, howns, hserves⟩⟩ := h.download hserved
    · exact ⟨hfiled, .inl he⟩
    · exact ⟨hfiled, .inr ⟨payload, admin, entry, hcalls, hgranted, howns, hserves⟩⟩

end Run
end ExportService
end AdminPlatform
