import AdminPlatform.Services.Export

/-! # Generating a file

What the requests for an export do to exports and files while any statement of theirs may fail.
A generation reads the rows, puts the file in place and marks the export ready: it ends where a
statement fails or a cell is refused, and what is done by then stays (`outcome_generateRows`).
Everything else that is committed marks no export ready and leaves the files alone
(`keeps_settles`). -/

namespace AdminPlatform
open AdminPlatform.Lib

namespace Lifecycle
open ExportService

/-! ## What a generation leaves -/

/-- The file of an export is in place of whatever was under its path. -/
def InPlace (env : Env) (spec : ExportSpec) (entry : Export) (s s' : Database) : Prop :=
  ∃ file, file.rows = selected env spec entry.filters s ∧
    s'.files = (pathOf env spec entry, file) ::
      s.files.filter fun f => f.1 ≠ pathOf env spec entry

/-- A file of the selected rows, and the export ready. -/
structure Generated (env : Env) (now : Instant) (spec : ExportSpec) (entry : Export)
    (s s' : Database) : Prop where
  file : InPlace env spec entry s s'
  exports : ∀ x, x ∈ s'.exports ↔
    x = readied env now spec entry (selected env spec entry.filters s).length ∨
      (x ∈ s.exports ∧ x.id ≠ entry.id)

/-- An export that has never been ready. -/
structure Unready (entry : Export) : Prop where
  status : entry.status ≠ .ready
  rowCount : entry.rowCount = none
  expiresAt : entry.expiresAt = none

/-- No export is ready that was not. -/
structure Marked (s s' : Database) : Prop where
  exports : ∀ x ∈ s'.exports, Unready x ∨ ∃ old ∈ s.exports, old.id = x.id ∧
    old.rowCount = x.rowCount ∧ old.expiresAt = x.expiresAt ∧
      (x.status = .ready → old.status = .ready)
  kept : ∀ old ∈ s.exports, ∃ x ∈ s'.exports, x.id = old.id ∧ x.expiresAt = old.expiresAt

/-- The commits besides those of a generation. -/
def Settles : Write → Prop
  | .insertExport entry => Unready entry
  | .updateExport loaded current =>
      current.id = loaded.id ∧ current.rowCount = loaded.rowCount ∧
        current.expiresAt = loaded.expiresAt ∧ current.status ≠ .ready
  | .insertIntent _ => True
  | _ => False

/-- The commits of a record. -/
def Intents : Write → Prop
  | .insertIntent _ => True
  | _ => False

section Marked
variable {s u s' : Database}

theorem Marked.of_exports (h : s'.exports = s.exports) : Marked s s' where
  exports x hx := .inr ⟨x, h ▸ hx, rfl, rfl, rfl, id⟩
  kept old hold := ⟨old, h ▸ hold, rfl, rfl⟩

theorem Marked.trans (h : Marked s u) (h' : Marked u s') : Marked s s' where
  exports x hx := by
    rcases h'.exports x hx with hnew | ⟨y, hy, hid, hrowCount, hexpiresAt, hwas⟩
    · exact .inl hnew
    rcases h.exports y hy with hnew | ⟨old, hold, hid', hrowCount', hexpiresAt', hwas'⟩
    · exact .inl ⟨fun hready => hnew.status (hwas hready), hrowCount.symm.trans hnew.rowCount,
        hexpiresAt.symm.trans hnew.expiresAt⟩
    · exact .inr ⟨old, hold, hid'.trans hid, hrowCount'.trans hrowCount,
        hexpiresAt'.trans hexpiresAt, hwas' ∘ hwas⟩
  kept old hold := by
    obtain ⟨y, hy, hid, hexpiresAt⟩ := h.kept old hold
    obtain ⟨x, hx, hid', hexpiresAt'⟩ := h'.kept y hy
    exact ⟨x, hx, hid'.trans hid, hexpiresAt'.trans hexpiresAt⟩

/-- A new export is not ready. -/
theorem Marked.insert {entry : Export} {t : Table Export}
    (hinsert : s.exports.insert entry = some t) (hnew : Unready entry) :
    Marked s { s with exports := t } where
  exports x hx := by
    rcases (Table.mem_insert hinsert).mp hx with hold | rfl
    · exact .inr ⟨x, hold, rfl, rfl, rfl, id⟩
    · exact .inl hnew
  kept old hold := ⟨old, (Table.mem_insert hinsert).mpr (.inl hold), rfl, rfl⟩

/-- An export is marked as failed or expired, whatever it was when it was read. -/
theorem Marked.update {loaded current : Export} {t : Table Export}
    (hflush : s.exports.flush loaded current = .ok t)
    (hrowCount : current.rowCount = loaded.rowCount)
    (hexpiresAt : current.expiresAt = loaded.expiresAt) (hstatus : current.status ≠ .ready) :
    Marked s { s with exports := t } := by
  rcases Table.flush_inv hflush with ⟨-, rfl⟩ | ⟨stored, hstored, hmem⟩
  · exact .of_exports rfl
  obtain ⟨hin, hkey⟩ := Table.find?_eq_some.mp hstored
  let merged := Entity.merge loaded current stored
  have hmergedRowCount : merged.rowCount = stored.rowCount := by
    show column loaded.rowCount current.rowCount stored.rowCount = _
    rw [hrowCount, column_same]
  have hmergedExpiresAt : merged.expiresAt = stored.expiresAt := by
    show column loaded.expiresAt current.expiresAt stored.expiresAt = _
    rw [hexpiresAt, column_same]
  have hmergedStatus : merged.status = .ready → stored.status = .ready := by
    show column loaded.status current.status stored.status = .ready → _
    unfold column
    split
    · exact id
    · exact fun hready => absurd hready hstatus
  refine ⟨fun x hx => ?_, fun old hold => ?_⟩
  · rcases (hmem x).mp hx with rfl | ⟨hold, -⟩
    · exact .inr ⟨stored, hin, rfl, hmergedRowCount.symm, hmergedExpiresAt.symm,
        hmergedStatus⟩
    · exact .inr ⟨x, hold, rfl, rfl, rfl, id⟩
  · by_cases hsame : old.id = loaded.id
    · obtain rfl := Table.eq_of_key hold hin (hsame.trans hkey.symm)
      exact ⟨merged, (hmem _).mpr (.inl rfl), rfl, hmergedExpiresAt⟩
    · exact ⟨old, (hmem _).mpr (.inr ⟨hold, hsame⟩), rfl, rfl⟩

theorem marked_apply {w : Write} (hw : Settles w) (happly : w.apply s = .ok s') :
    s'.files = s.files ∧ Marked s s' := by
  cases w with
  | insertExport entry =>
      obtain ⟨t, hinsert, rfl⟩ := apply_insertExport happly
      exact ⟨rfl, .insert hinsert hw⟩
  | updateExport loaded current =>
      obtain ⟨t, hflush, rfl⟩ := apply_updateExport happly
      obtain ⟨-, hrowCount, hexpiresAt, hstatus⟩ := hw
      exact ⟨rfl, .update hflush hrowCount hexpiresAt hstatus⟩
  | insertIntent intent =>
      obtain ⟨t, -, rfl⟩ := apply_insertIntent happly
      exact ⟨rfl, .of_exports rfl⟩
  | _ => exact absurd hw id

/-- **What is no generation** leaves the files alone and marks no export ready. -/
theorem keeps_settles {α : Type} {p : Db α} (hp : p.Writes Settles)
    (faults : List (Option Failure)) (s : Database) :
    (p.runFaulty faults s).2.2.files = s.files ∧ Marked s (p.runFaulty faults s).2.2 :=
  hp.runFaulty_keeps (I := fun u => u.files = s.files ∧ Marked s u)
    (fun _ _ _ hw hu happly =>
      have hstep := marked_apply hw happly
      ⟨hstep.1.trans hu.1, hu.2.trans hstep.2⟩)
    faults ⟨rfl, .of_exports rfl⟩

theorem keeps_intents {α : Type} {p : Db α} (hp : p.Writes Intents)
    (faults : List (Option Failure)) (s : Database) :
    (p.runFaulty faults s).2.2.exports = s.exports ∧
      (p.runFaulty faults s).2.2.files = s.files := by
  refine hp.runFaulty_keeps (I := fun u => u.exports = s.exports ∧ u.files = s.files)
    (fun w u u' hw hu happly => ?_) faults ⟨rfl, rfl⟩
  cases w with
  | insertIntent intent =>
      obtain ⟨t, -, rfl⟩ := apply_insertIntent happly
      exact hu
  | _ => exact absurd hw id

end Marked

/-! ## How far a generation gets -/

/-- A generation from the reading of the rows on. -/
def generateRows (env : Env) (now : Instant) (spec : ExportSpec) (entry : Export) : Db Export := do
  let rows ← rowStream env spec entry.filters
  let rowCount ← writeFile env now spec entry (pathOf env spec entry) rows
  ExportRepository.updateExport entry (readied env now spec entry rowCount)
  return readied env now spec entry rowCount

/-- A generation, once the export has been looked up. -/
def generateFound (env : Env) (now : Instant) : Option Export → Db Export
  | none => raise .exportNotFound
  | some entry =>
      ExportService.spec entry.module >>= fun spec => generateRows env now spec entry

theorem generate_eq (env : Env) (now : Instant) (exportId : Uuid) (held : Option Export) :
    ExportService.generate env now exportId held =
      ExportRepository.getExport exportId held >>= generateFound env now := by
  refine congrArg (Bind.bind _) (funext fun found => ?_)
  cases found <;> rfl

/-- Where its module is known, the rows are read next. -/
theorem generateFound_known {env : Env} {now : Instant} {entry : Export} {spec : ExportSpec}
    (hspec : exportSpecs.lookup entry.module = some spec) :
    generateFound env now (some entry) = generateRows env now spec entry := by
  rw [generateFound, ExportService.spec, hspec]
  rfl

theorem generateFound_unknown {env : Env} {now : Instant} {entry : Export}
    (hspec : exportSpecs.lookup entry.module = none) :
    generateFound env now (some entry) = raise (unsupportedModule entry.module) := by
  rw [generateFound, ExportService.spec, hspec]
  rfl

/-- It puts the file in place: openpyxl takes every cell of it, and neither reading the rows nor
putting it there fails. -/
def putsFile (env : Env) (now : Instant) (spec : ExportSpec) (entry : Export) (s : Database)
    (faults : List (Option Failure)) : Bool :=
  writable env now spec entry (selected env spec entry.filters s) && Program.sound 2 faults

/-- The ends of a generation. -/
inductive Outcome (env : Env) (now : Instant) (spec : ExportSpec) (entry : Export) (s : Database)
    (faults : List (Option Failure)) : Except Failure Export → Database → Prop
  | stopped {e : Failure} (h : putsFile env now spec entry s faults = false) :
      Outcome env now spec entry s faults (.error e) s
  /-- The file is in place, but the update of the export fails. -/
  | unmarked {e : Failure} {s' : Database} (h : putsFile env now spec entry s faults = true)
      (hfault : Program.sound 3 faults = false) (hfile : InPlace env spec entry s s')
      (hexports : s'.exports = s.exports) : Outcome env now spec entry s faults (.error e) s'
  | ready {s' : Database} (h : putsFile env now spec entry s faults = true)
      (hsound : Program.sound 3 faults = true) (hgenerated : Generated env now spec entry s s') :
      Outcome env now spec entry s faults
        (.ok (readied env now spec entry (selected env spec entry.filters s).length)) s'

section Outcome
variable (env : Env) (now : Instant) {spec : ExportSpec} {entry : Export} {s : Database}

theorem runFaulty_rowStream {module : String} (h : exportSpecs.lookup module = some spec)
    (filters : Json) (faults : List (Option Failure)) (s : Database) :
    (∃ e, Program.sound 1 faults = false ∧
      (rowStream env spec filters).runFaulty faults s = (.error e, faults.tail, s)) ∨
      (Program.sound 1 faults = true ∧ (rowStream env spec filters).runFaulty faults s =
        (.ok (selected env spec filters s), faults.tail, s)) := by
  rcases lookup_exportSpecs h with ⟨-, rfl⟩ | ⟨-, rfl⟩
  · exact Db.runFaulty_query_map _ (List.map ExportRow.audit) faults s
  · exact Db.runFaulty_query_map _ (List.map ExportRow.user) faults s

/-- **How a generation ends**, where the export is there and its module known. -/
theorem outcome_generateRows (hfind : s.exports.find? entry.id = some entry)
    (hspec : exportSpecs.lookup entry.module = some spec) (faults : List (Option Failure)) :
    ∃ r faults' s', (generateRows env now spec entry).runFaulty faults s = (r, faults', s') ∧
      Outcome env now spec entry s faults r s' := by
  have hread := runFaulty_rowStream env hspec entry.filters faults s
  unfold generateRows
  rcases hread with ⟨e, hfails, hrun⟩ | ⟨hread, hrun⟩
  · have hstopped : putsFile env now spec entry s faults = false := by
      simp [putsFile, Program.sound_succ 1, hfails]
    exact ⟨_, _, _, Db.runFaulty_bind_error _ hrun, .stopped hstopped⟩
  rw [Db.runFaulty_bind_ok _ hrun]
  rcases writeFile_cases env now spec entry (pathOf env spec entry) (selected env spec entry.filters s)
    with ⟨hwritable, hwrite⟩ | ⟨hrefused, hwrite⟩
  swap
  · rw [hwrite]
    exact ⟨_, _, _, rfl, .stopped (by simp [putsFile, hrefused])⟩
  have hputs : putsFile env now spec entry s faults = Program.sound 1 faults.tail := by
    rw [putsFile, hwritable, Program.sound_succ 1, hread, Bool.true_and, Bool.true_and]
  have hmarks : Program.sound 3 faults =
      (Program.sound 1 faults.tail && Program.sound 1 faults.tail.tail) := by
    rw [Program.sound_succ 2, hread, Program.sound_succ 1, Bool.true_and]
  let rows := selected env spec entry.filters s
  let ready := readied env now spec entry rows.length
  let placed : Database :=
    { s with
      files := (pathOf env spec entry, workbook env now spec entry rows) ::
        s.files.filter fun f => f.1 ≠ pathOf env spec entry }
  rw [hwrite, Program.bind_bind]
  have hplaced : (Write.writeFile (pathOf env spec entry)
      (workbook env now spec entry rows)).apply s = .ok placed := rfl
  rcases Db.runFaulty_commit hplaced faults.tail with
    ⟨e, hfails, hrun⟩ | ⟨hput, hrun⟩
  · exact ⟨_, _, _, Db.runFaulty_bind_error _ hrun, .stopped (hputs.trans hfails)⟩
  rw [Db.runFaulty_bind_ok _ hrun]
  show ∃ r faults' s', (commit (.updateExport entry ready) >>= fun _ => pure ready).runFaulty
    faults.tail.tail placed = (r, faults', s') ∧ _
  have hfile : InPlace env spec entry s placed := ⟨_, rfl, rfl⟩
  obtain ⟨t, hflush⟩ : ∃ t, s.exports.flush entry ready = .ok t :=
    Table.exists_flush hfind rfl fun b _ hne hclash => hne hclash.symm
  have hupdate : (Write.updateExport entry ready).apply placed =
      .ok { placed with exports := t } := bind_eq_ok.mpr ⟨t, hflush, rfl⟩
  rcases Db.runFaulty_commit hupdate faults.tail.tail with ⟨e, hfails, hrun⟩ | ⟨hmark, hrun⟩
  · refine ⟨_, _, _, Db.runFaulty_bind_error _ hrun, .unmarked (hputs.trans hput) ?_ hfile rfl⟩
    rw [hmarks, hfails, Bool.and_false]
  · refine ⟨_, _, _, Db.runFaulty_bind_ok _ hrun, .ready (hputs.trans hput) ?_ ⟨⟨_, rfl, rfl⟩, ?_⟩⟩
    · rw [hmarks, hput, hmark, Bool.and_true]
    · exact fun x => Table.flush_loaded hflush hfind rfl

end Outcome

end Lifecycle
end AdminPlatform
