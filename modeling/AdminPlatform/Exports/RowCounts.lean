import AdminPlatform.Exports.Fetching
import AdminPlatform.Exports.Status
import AdminPlatform.Lib.Handover
import Mathlib.Data.Fintype.Option

/-! # The row count of an export

The background task of an export and its downloads each fetch the rows chunk by chunk, put a
file in place and then commit how many rows it has. They write under one path, so the last file
put in place and the last count committed may be of different generations, while rows are added
between the two. Where a file is put in place only as long as every count that is committed or
due by then is that of its rows, the count of a ready export is that of its file, and so is that
of every download event (`row_count_described`). -/

namespace AdminPlatform
open AdminPlatform.Lib

namespace RowCounts
open ExportService StatusMoves

/-! ## Runs -/

/-- The background task (`none`) and the downloads of one export. That the session of a download
holds the caller changes what the caller's row says, and not how many rows there are. -/
def requests (env : Env) (fuel : Nat) (now : Instant) (exportId : Uuid) {ι : Type}
    (calls : ι → Request × String) : Option ι → Db Unit
  | none => generateTaskFrom (rowStreamByQuery env fuel) env now exportId
  | some i =>
      drop (downloadExportFrom (rowStreamByQuery env fuel) env (calls i).1 exportId (calls i).2)

inductive Move (ι : Type)
  /-- One statement of a request, which may fail. -/
  | turn (i : Option ι) (fault : Option Failure)
  /-- Others commit to the other tables. -/
  | others (db : Database)
  /-- A file gets lost from `export_dir`. -/
  | lose (path : String)

/-- An event of a download of the export. -/
def IsDownload (exportId : Uuid) (intent : Audit.AuditIntent) : Prop :=
  intent.payload.action = AuditAction.exportDownloaded.value ∧
    intent.payload.resourceId = some exportId.str

instance (exportId : Uuid) (intent : Audit.AuditIntent) : Decidable (IsDownload exportId intent) :=
  inferInstanceAs (Decidable (_ ∧ _))

def next {ι : Type} [DecidableEq ι] (t : Threads ι) : Move ι → Option (Threads ι)
  | .turn i fault => Program.faultyTurn exec (i, fault) t
  | .others db =>
      some
        { t with
          shared :=
            { db with
              exports := t.shared.exports, files := t.shared.files
              auditIntents := t.shared.auditIntents } }
  | .lose path =>
      some
        { t with
          shared := { t.shared with files := t.shared.files.filter fun f => f.1 ≠ path } }

/-- The requests take turns, from an export that was just created on. -/
def machine (env : Env) (fuel : Nat) (now : Instant) (exportId : Uuid) {ι : Type} [DecidableEq ι]
    (calls : ι → Request × String) : Machine (Threads ι) (Move ι) where
  init t :=
    (∃ entry, t.shared.exports.find? exportId = some entry ∧ Untouched entry) ∧
      (∀ intent ∈ t.shared.auditIntents, ¬ IsDownload exportId intent) ∧
      t.thread = requests env fuel now exportId calls
  step l t := next t l

/-! ## What is to hold -/

/-- The count of a ready export is the number of rows of its file. -/
def Counted (exportId : Uuid) (s : Database) : Prop :=
  ∀ x, s.exports.find? exportId = some x → x.status = .ready → ∀ path file,
    x.filePath = some path → s.files.lookup path = some file →
      x.rowCount = some file.rows.length

/-- From the event on, a download serves a file of as many rows as its event says. -/
def Truthful (exportId : Uuid) (s : Database) : Prop :=
  ∀ intent ∈ s.auditIntents, IsDownload exportId intent → ∀ x,
    s.exports.find? exportId = some x → ∀ path file, x.filePath = some path →
      s.files.lookup path = some file →
        intent.payload.details.get? "row_count" = some (.int file.rows.length)

/-! ## When it does -/

/-- The rows of a file that a statement puts in place. -/
def puts : ∀ {β : Type}, Sql β → Option Nat
  | _, .commit (.writeFile _ file) _ => some file.rows.length
  | _, _ => none

/-- The count that a statement commits. -/
def counts : ∀ {β : Type}, Sql β → Option Nat
  | _, .commit (.updateExport _ current) _ =>
      if current.status = .ready then current.rowCount else none
  | _, _ => none

/-- A count that is committed is `n`. -/
def CountedAs (exportId : Uuid) (n : Nat) (s : Database) : Prop :=
  ∀ x ∈ s.exports.find? exportId, ∀ m ∈ x.rowCount, m = n

instance (exportId : Uuid) (n : Nat) (s : Database) : Decidable (CountedAs exportId n s) := by
  unfold CountedAs; infer_instance

/-- A file is put in place only where every count that is committed or due is that of its
rows. -/
def Matching {ι : Type} (exportId : Uuid) (t : Threads ι) : Move ι → Prop
  | .turn i none =>
      ∀ n ∈ Program.due puts (t.thread i),
        CountedAs exportId n t.shared ∧ ∀ j, ∀ m ∈ Program.due counts (t.thread j), m = n
  | _ => True

instance {ι : Type} [Fintype ι] (exportId : Uuid) (t : Threads ι) (l : Move ι) :
    Decidable (Matching exportId t l) := by
  unfold Matching; split <;> infer_instance

/-! ## What the requests may do -/

/-- An export whose file goes under `path`, and that is not ready without a count. -/
structure Placed (env : Env) (exportId : Uuid) (path : String) (entry : Export) : Prop where
  id : entry.id = exportId
  place : ∀ spec, exportSpecs.lookup entry.module = some spec → pathOf env spec entry = path
  filePath : ∀ q, entry.filePath = some q → q = path
  ready : entry.status = .ready → entry.rowCount ≠ none

def Committed (exportId : Uuid) (n : Nat) (s : Database) : Prop :=
  ∃ x, s.exports.find? exportId = some x ∧ x.rowCount = some n

/-- The invariant: the file is of as many rows as are committed, and so are the events. -/
structure Lawful (env : Env) (exportId : Uuid) (path : String) (s : Database) : Prop where
  row : ∃ x, s.exports.find? exportId = some x ∧ Placed env exportId path x
  file : ∀ n, Committed exportId n s → ∀ file, s.files.lookup path = some file →
    file.rows.length = n
  events : ∀ intent ∈ s.auditIntents, IsDownload exportId intent →
    ∃ n : Nat, Committed exportId n s ∧ intent.payload.details.get? "row_count" = some (.int n)

/-- An export that a request has read. -/
structure Loaded (env : Env) (exportId : Uuid) (path : String) (entry : Export)
    (s : Database) : Prop where
  placed : Placed env exportId path entry
  counted : ∀ n, entry.rowCount = some n → Committed exportId n s

/-- Statements of requests for one export. -/
def Allowed (env : Env) (exportId : Uuid) (path : String) : ∀ {β : Type}, Sql β → Database → Prop
  | _, .query _, _ => True
  | _, .commit (.updateExport loaded current) _, s =>
      Loaded env exportId path loaded s ∧ Sets loaded current ∧
        ∀ q, current.filePath = some q → q = path
  | _, .commit (.insertIntent intent) _, s => IsDownload exportId intent →
      ∃ n : Nat, Committed exportId n s ∧ intent.payload.details.get? "row_count" = some (.int n)
  | _, .commit (.writeFile q _) _, _ => q = path
  | _, .commit _ _, _ => False

/-- What requests for one export leave to each other: a count that is committed stays. -/
def interference (env : Env) (exportId : Uuid) (path : String) :
    Program.Interference Sql Database where
  inv := Lawful env exportId path
  rely s u := ∀ n, Committed exportId n s → Committed exportId n u
  refl _ _ := id
  trans h h' n := h' n ∘ h n
  allows := Allowed env exportId path

/-- A count is due: no other is committed, and the file is of as many rows. -/
structure Due (exportId : Uuid) (path : String) (n : Nat) (s : Database) : Prop where
  counted : CountedAs exportId n s
  file : ∀ file, s.files.lookup path = some file → file.rows.length = n

/-! ## One statement -/

section Statement
variable {env : Env} {exportId : Uuid} {path : String} {s s' : Database}
  {loaded current stored : Export}

theorem CountedAs.eq_of_committed {n m : Nat} (h : CountedAs exportId n s)
    (hm : Committed exportId m s) : m = n := by
  obtain ⟨x, hx, hcount⟩ := hm
  exact h x hx m hcount

/-- What an update leaves of the row. -/
theorem placed_merge (hloaded : Loaded env exportId path loaded s)
    (hfind : s.exports.find? exportId = some stored) (hstored : Placed env exportId path stored)
    (hsets : Sets loaded current) (hpath : ∀ q, current.filePath = some q → q = path) :
    Placed env exportId path (Entity.merge loaded current stored) := by
  have horigin : current.module = loaded.module ∧ current.createdAt = loaded.createdAt := by
    cases hsets <;> exact ⟨rfl, rfl⟩
  have hmodule : (Entity.merge loaded current stored).module = stored.module := by
    show column _ _ _ = _
    rw [horigin.1, column_same]
  have hcreatedAt : (Entity.merge loaded current stored).createdAt = stored.createdAt := by
    show column _ _ _ = _
    rw [horigin.2, column_same]
  refine ⟨hstored.id, fun spec hspec => ?_, fun q hq => ?_, fun hready => ?_⟩
  · rw [hmodule] at hspec
    rw [← hstored.place spec hspec, pathOf, pathOf, filename, filename, hcreatedAt]
    rfl
  · have hq : column loaded.filePath current.filePath stored.filePath = some q := hq
    unfold column at hq
    split at hq
    · exact hstored.filePath q hq
    · exact hpath q hq
  · cases hsets with
    | failed hpending =>
        have hstatus : column loaded.status .failed stored.status = .ready := hready
        rw [column_changed _ (by rw [hpending]; exact nofun)] at hstatus
        cases hstatus
    -- a row that is expired already keeps its status and its count
    | expired =>
        have hstatus : column loaded.status .expired stored.status = .ready := hready
        show column loaded.rowCount loaded.rowCount stored.rowCount ≠ none
        rw [column_same]
        unfold column at hstatus
        split at hstatus
        · exact hstored.ready hstatus
        · cases hstatus
    | @ready n =>
        show column loaded.rowCount (some n) stored.rowCount ≠ none
        unfold column
        split
        · rename_i hsame
          obtain ⟨x, hx, hn⟩ := hloaded.counted n hsame.symm
          obtain rfl := Option.some.inj (hfind.symm.trans hx)
          rw [hn]
          exact nofun
        · exact nofun

/-- An update commits the count that it carries, or none. -/
theorem rowCount_merge {β : Type} (answer : β) (hloaded : Loaded env exportId path loaded s)
    (hfind : s.exports.find? exportId = some stored) (hsets : Sets loaded current) :
    (counts (Sql.commit (.updateExport loaded current) answer) = none ∧
        (Entity.merge loaded current stored).rowCount = stored.rowCount) ∨
      ∃ n, counts (Sql.commit (.updateExport loaded current) answer) = some n ∧
        (Entity.merge loaded current stored).rowCount = some n := by
  cases hsets with
  | failed hpending => exact .inl ⟨rfl, column_same _ _⟩
  | expired => exact .inl ⟨rfl, column_same _ _⟩
  | @ready n =>
      refine .inr ⟨n, rfl, ?_⟩
      show column loaded.rowCount (some n) stored.rowCount = some n
      unfold column
      split
      · rename_i hsame
        obtain ⟨x, hx, hn⟩ := hloaded.counted n hsame.symm
        obtain rfl := Option.some.inj (hfind.symm.trans hx)
        exact hn
      · rfl

theorem committed_congr (hrow : s'.exports.find? exportId = s.exports.find? exportId) (n : Nat) :
    Committed exportId n s' ↔ Committed exportId n s := by
  rw [Committed, Committed, hrow]

theorem Due.congr {n : Nat} (h : Due exportId path n s)
    (hrow : s'.exports.find? exportId = s.exports.find? exportId)
    (hfile : ∀ file, s'.files.lookup path = some file → s.files.lookup path = some file) :
    Due exportId path n s' := by
  refine ⟨fun x hx => h.counted x ?_, fun file hfile' => h.file file (hfile file hfile')⟩
  rwa [← hrow]

/-- The row stays, the file may get lost, and what is recorded is lawful. -/
theorem Lawful.congr (h : Lawful env exportId path s)
    (hrow : s'.exports.find? exportId = s.exports.find? exportId)
    (hfile : ∀ file, s'.files.lookup path = some file → s.files.lookup path = some file)
    (hevents : ∀ intent ∈ s'.auditIntents, intent ∉ s.auditIntents → IsDownload exportId intent →
      ∃ n : Nat, Committed exportId n s ∧
        intent.payload.details.get? "row_count" = some (.int n)) :
    Lawful env exportId path s' := by
  obtain ⟨x, hx, hplaced⟩ := h.row
  refine ⟨⟨x, hrow.trans hx, hplaced⟩, fun n hn file hfile' => ?_, fun intent hintent hdownload => ?_⟩
  · exact h.file n ((committed_congr hrow n).mp hn) file (hfile file hfile')
  · have hbefore : ∃ n : Nat, Committed exportId n s ∧
        intent.payload.details.get? "row_count" = some (.int n) := by
      by_cases hold : intent ∈ s.auditIntents
      · exact h.events intent hold hdownload
      · exact hevents intent hintent hold hdownload
    obtain ⟨n, hn, hcount⟩ := hbefore
    exact ⟨n, (committed_congr hrow n).mpr hn, hcount⟩

/-- A file is put in place that has as many rows as are committed. -/
theorem lawful_writeFile (h : Lawful env exportId path s) {file : Workbook}
    (hcounted : CountedAs exportId file.rows.length s) (files : List (String × Workbook)) :
    Lawful env exportId path { s with files := (path, file) :: files } := by
  refine ⟨h.row, fun n hn file' hfile => ?_, h.events⟩
  rw [List.lookup_cons_self] at hfile
  rw [← Option.some.inj hfile]
  exact (hcounted.eq_of_committed hn).symm

/-- The count that is due stays so, also where another file of as many rows is put in place. -/
theorem Due.writeFile {n : Nat} (h : Due exportId path n s) {file : Workbook}
    (hrows : n = file.rows.length) (files : List (String × Workbook)) :
    Due exportId path n { s with files := (path, file) :: files } := by
  refine ⟨h.counted, fun file' hfile => ?_⟩
  rw [List.lookup_cons_self] at hfile
  rw [← Option.some.inj hfile, hrows]

/-- **An update** keeps the row lawful; it commits a count only where that is due. -/
theorem lawful_updateExport {β : Type} (answer : β) (h : Lawful env exportId path s)
    (hallowed : Allowed env exportId path (Sql.commit (.updateExport loaded current) answer) s)
    (hcounts : ∀ n, counts (Sql.commit (.updateExport loaded current) answer) = some n →
      Due exportId path n s)
    (happly : (Write.updateExport loaded current).apply s = .ok s') :
    Lawful env exportId path s' ∧ (interference env exportId path).rely s s' ∧
      ∀ n, (∀ m ∈ counts (Sql.commit (.updateExport loaded current) answer), n = m) →
        Due exportId path n s → Due exportId path n s' := by
  obtain ⟨hloaded, hsets, hpath⟩ := hallowed
  obtain ⟨t, hflush, rfl⟩ := apply_updateExport happly
  rcases Table.find?_flush hflush exportId with hkept | ⟨stored, hstored, hmerged⟩
  · refine ⟨h.congr hkept (fun _ => id) fun _ hold hnew => absurd hold hnew,
      fun n => (committed_congr hkept n).mpr, fun n _ hdue => hdue.congr hkept fun _ => id⟩
  obtain ⟨x, hx, hplaced⟩ := h.row
  obtain rfl := Option.some.inj (hstored.symm.trans hx)
  have hmerge := placed_merge hloaded hstored hplaced hsets hpath
  rcases rowCount_merge answer hloaded hstored hsets with ⟨hnone, hcount⟩ | ⟨m, hm, hcount⟩
  -- the count stays as it is
  · have hcommitted : ∀ n, Committed exportId n { s with exports := t } ↔
        Committed exportId n s := by
      intro n
      unfold Committed
      rw [hmerged, hstored]
      simp only [Option.some.injEq, exists_eq_left', hcount]
    refine ⟨⟨⟨_, hmerged, hmerge⟩, fun n hn => h.file n ((hcommitted n).mp hn), ?_⟩,
      fun n => (hcommitted n).mpr, fun n _ hdue => ⟨fun y hy => ?_, hdue.file⟩⟩
    · intro intent hintent hdownload
      obtain ⟨n, hn, hevent⟩ := h.events intent hintent hdownload
      exact ⟨n, (hcommitted n).mpr hn, hevent⟩
    · obtain rfl := Option.some.inj (hmerged.symm.trans hy)
      rw [hcount]
      exact hdue.counted stored hstored
  -- the count that was due is committed
  · have hdue := hcounts m hm
    have hnow : Committed exportId m { s with exports := t } := ⟨_, hmerged, hcount⟩
    have honly : CountedAs exportId m { s with exports := t } := by
      intro y hy n hn
      obtain rfl := Option.some.inj (hmerged.symm.trans hy)
      exact Option.some.inj (hn.symm.trans hcount)
    have hrely : (interference env exportId path).rely s { s with exports := t } := by
      intro n hn
      rwa [hdue.counted.eq_of_committed hn]
    refine ⟨⟨⟨_, hmerged, hmerge⟩, fun n hn file hfile => ?_, fun intent hintent hd => ?_⟩,
      hrely, fun n hsame hdue' => ?_⟩
    · rw [hdue.file file hfile]
      exact (honly.eq_of_committed hn).symm
    · obtain ⟨n, hn, hevent⟩ := h.events intent hintent hd
      exact ⟨n, hrely n hn, hevent⟩
    · obtain rfl := hsame m hm
      exact ⟨honly, hdue'.file⟩

/-- **One statement**: a file is put in place where no other count is committed, and a count is
committed where it is due. -/
theorem allowed_keeps {β : Type} {c : Sql β} (h : Lawful env exportId path s)
    (hallowed : Allowed env exportId path c s)
    (hputs : ∀ n, puts c = some n → CountedAs exportId n s)
    (hcounts : ∀ n, counts c = some n → Due exportId path n s) :
    Lawful env exportId path (exec c s).2 ∧ (interference env exportId path).rely s (exec c s).2 ∧
      ∀ n, (∀ m ∈ puts c, n = m) → (∀ m ∈ counts c, n = m) →
        Due exportId path n s → Due exportId path n (exec c s).2 := by
  cases c with
  | query q => exact ⟨h, fun _ => id, fun _ _ _ => id⟩
  | commit w answer =>
      rw [exec]
      cases happly : w.apply s with
      | error e => exact ⟨h, fun _ => id, fun _ _ _ => id⟩
      | ok u =>
          cases w with
          | updateExport loaded current =>
              obtain ⟨hlawful, hrely, hdue⟩ :=
                lawful_updateExport answer h hallowed hcounts happly
              exact ⟨hlawful, hrely, fun n _ => hdue n⟩
          | insertIntent intent =>
              obtain ⟨t, hinsert, rfl⟩ := apply_insertIntent happly
              refine ⟨h.congr rfl (fun _ => id) fun new hnew hold => ?_, fun _ => id,
                fun n _ _ hdue => hdue.congr rfl fun _ => id⟩
              rcases (Table.mem_insert hinsert).mp hnew with hbefore | rfl
              · exact absurd hbefore hold
              · exact hallowed
          | writeFile q file =>
              obtain rfl := Except.ok.inj happly
              obtain rfl : q = path := hallowed
              exact ⟨lawful_writeFile h (hputs _ rfl) _, fun _ => id,
                fun n hrows _ hdue => hdue.writeFile (hrows _ rfl) _⟩
          | _ => exact absurd hallowed id

/-- A file that is put in place has as many rows as are due then. -/
theorem due_of_puts {β : Type} {c : Sql β} {b : β} {n : Nat}
    (hallowed : Allowed env exportId path c s) (hputs : puts c = some n)
    (hcounted : CountedAs exportId n s) (hexec : exec c s = (.ok b, s')) :
    Due exportId path n s' := by
  cases c with
  | query q => cases hputs
  | commit w answer =>
      cases w with
      | writeFile q file =>
          obtain rfl := Option.some.inj hputs
          obtain rfl : q = path := hallowed
          obtain ⟨-, rfl⟩ := Prod.mk.inj hexec
          refine ⟨hcounted, fun file' hfile => ?_⟩
          rw [List.lookup_cons_self] at hfile
          rw [Option.some.inj hfile]
      | _ => cases hputs

end Statement

/-! ## The requests keep to it -/

section Requests
variable {env : Env} {exportId : Uuid} {path : String} {s : Database} {α : Type}

/-- The request is one of those of the export. -/
abbrev Keeps (env : Env) (exportId : Uuid) (path : String) (p : Db α) (s : Database) : Prop :=
  p.Under (interference env exportId path) exec (fun _ _ => True) s

theorem keeps_of_reads {p : Db α} (hp : p.Writes fun _ => False) (s : Database) :
    Keeps env exportId path p s := by
  refine Program.under_of_within hp fun c u hc => ?_
  cases c with
  | query q => trivial
  | commit w answer => exact absurd hc id

theorem keeps_when {p : Db Unit} (hp : Keeps env exportId path p s) (b : Bool) :
    Keeps env exportId path (when b p) s := by
  cases b
  · exact fun _ _ _ => trivial
  · exact hp

theorem Loaded.mono {entry : Export} {u : Database} (h : Loaded env exportId path entry s)
    (hu : (interference env exportId path).rely s u) : Loaded env exportId path entry u :=
  ⟨h.placed, fun n hn => hu n (h.counted n hn)⟩

/-- An export that is read, or held by the session since it was read. -/
theorem under_getExport {held : Option Export}
    (hheld : ∀ x ∈ held, Loaded env exportId path x s) :
    (ExportRepository.getExport exportId held).Under (interference env exportId path) exec
      (fun found u => ∀ x, found = some x → Loaded env exportId path x u) s := by
  unfold ExportRepository.getExport
  split
  · rename_i entry hentry
    intro u _ hsu x hx
    obtain rfl := Option.some.inj hx
    exact (hheld _ (Option.filter_eq_some_iff.mp hentry).1).mono hsu
  · refine Program.under_issue fun u hu hsu => ⟨trivial, ?_⟩
    rintro found u' hanswer - v - hrely x rfl
    obtain ⟨hfound, rfl⟩ := Prod.mk.inj hanswer
    have hfind : u.exports.find? exportId = some x := Except.ok.inj hfound
    obtain ⟨y, hy, hplaced⟩ := hu.row
    obtain rfl := Option.some.inj (hfind.symm.trans hy)
    exact ⟨hplaced, fun n hn => hrely n ⟨x, hfind, hn⟩⟩

/-- A count that an update carries is committed by it. -/
theorem committed_updateExport {s' : Database} {loaded current : Export} {n : Nat}
    (hloaded : Loaded env exportId path loaded s) (hsets : Sets loaded current)
    (hn : counts (Sql.commit (.updateExport loaded current) ()) = some n)
    (happly : (Write.updateExport loaded current).apply s = .ok s') :
    Committed exportId n s' := by
  obtain ⟨t, hflush, rfl⟩ := apply_updateExport happly
  rcases Table.flush_inv hflush with ⟨rfl, rfl⟩ | ⟨stored, hstored, hmem⟩
  · have hcount : current.rowCount = some n := by
      have hcarried : (if current.status = .ready then current.rowCount else none) = some n := hn
      split at hcarried
      · exact hcarried
      · cases hcarried
    exact hloaded.counted n hcount
  · have hid : loaded.id = exportId := hloaded.placed.id
    rw [← hid] at hloaded ⊢
    rcases rowCount_merge () hloaded hstored hsets with ⟨hnone, -⟩ | ⟨m, hm, hcount⟩
    · cases hnone.symm.trans hn
    · obtain rfl := Option.some.inj (hm.symm.trans hn)
      refine ⟨_, Table.find?_eq_some.mpr ⟨(hmem _).mpr (.inl rfl), ?_⟩, hcount⟩
      exact (Table.find?_eq_some.mp hstored).2

/-- What a download goes on with: an export whose count is committed. -/
def Served (exportId : Uuid) (entry : Export) (s : Database) : Prop :=
  entry.id = exportId ∧ ∃ n, entry.rowCount = some n ∧ Committed exportId n s

theorem Served.mono {entry : Export} {u : Database} (h : Served exportId entry s)
    (hu : (interference env exportId path).rely s u) : Served exportId entry u := by
  obtain ⟨hid, n, hn, hcommitted⟩ := h
  exact ⟨hid, n, hn, hu n hcommitted⟩

/-- **A generation** commits the count of the file that it has put in place. -/
theorem under_generateFrom {stream : ExportSpec → Json → Db (List ExportRow)}
    (hstream : ∀ spec filters, (stream spec filters).Writes fun _ => False) (now : Instant)
    {held : Option Export} (hheld : ∀ x ∈ held, Loaded env exportId path x s) :
    (generateFrom stream env now exportId held).Under (interference env exportId path) exec
      (Served exportId) s := by
  refine (under_getExport hheld).bind fun found u _ _ hfound => ?_
  cases found with
  | none => trivial
  | some entry =>
      have hentry := hfound entry rfl
      have hspec : (spec entry.module).Under (interference env exportId path) exec
          (fun spec _ => exportSpecs.lookup entry.module = some spec) u := by
        unfold ExportService.spec
        split
        · rename_i hlookup
          exact fun _ _ _ => hlookup
        · trivial
      refine hspec.bind fun spec v _ huv hlookup => ?_
      have hpath : pathOf env spec entry = path := hentry.placed.place spec hlookup
      refine (keeps_of_reads (hstream spec _) v).bind fun rows w _ hvw _ => ?_
      have hwrite : ∀ file, Keeps env exportId path
          (commit (.writeFile (pathOf env spec entry) file)) w :=
        fun file => Program.under_issue fun _ _ _ => ⟨hpath, fun _ _ _ _ _ _ _ => trivial⟩
      rcases writeFile_cases env now spec entry (pathOf env spec entry) rows with
        ⟨-, hfile⟩ | ⟨-, hfile⟩
      swap
      · rw [hfile]
        trivial
      rw [hfile, Program.bind_bind]
      refine (hwrite _).bind fun _ z _ hwz _ => ?_
      have hloaded : Loaded env exportId path entry z := ((hentry.mono huv).mono hvw).mono hwz
      have hsets : Sets entry (readied env now spec entry rows.length) := .ready
      have hupdate : (ExportRepository.updateExport entry
          (readied env now spec entry rows.length)).Under (interference env exportId path) exec
            (fun _ u => Committed exportId rows.length u) z := by
        refine Program.under_issue fun y _ hzy => ⟨⟨hloaded.mono hzy, hsets, ?_⟩, ?_⟩
        · intro q hq
          exact (Option.some.inj hq).symm.trans hpath
        · intro _ y' hexec _ y'' _ hrely
          rw [exec] at hexec
          split at hexec
          · rename_i happly
            obtain ⟨-, rfl⟩ := Prod.mk.inj hexec
            exact hrely _ (committed_updateExport (hloaded.mono hzy) hsets rfl happly)
          · cases (Prod.mk.inj hexec).1
      refine hupdate.bind fun _ y _ _ hcommitted => ?_
      exact fun y' _ hyy' => ⟨hentry.placed.id, rows.length, rfl, hyy' _ hcommitted⟩

/-- Setting a read export, but for its file. -/
theorem keeps_updateExport {loaded current : Export} (hloaded : Loaded env exportId path loaded s)
    (hsets : Sets loaded current) (hpath : current.filePath = loaded.filePath) :
    Keeps env exportId path (ExportRepository.updateExport loaded current) s := by
  refine Program.under_issue fun u _ hsu => ⟨⟨hloaded.mono hsu, hsets, fun q hq => ?_⟩, ?_⟩
  · exact hloaded.placed.filePath q (hpath.symm.trans hq)
  · exact fun _ _ _ _ _ _ _ => trivial

/-- **The background task keeps to it**, and so does its failure handler. -/
theorem keeps_generateTaskFrom {stream : ExportSpec → Json → Db (List ExportRow)}
    (hstream : ∀ spec filters, (stream spec filters).Writes fun _ => False) (now : Instant)
    (s : Database) : Keeps env exportId path (generateTaskFrom stream env now exportId) s := by
  refine Program.Under.tryCatch ?_ fun _ u => Program.Under.tryCatch ?_ fun _ v => ?_
  · exact (under_generateFrom hstream now fun x hx => by cases hx).bind
      fun _ _ _ _ _ _ _ _ => trivial
  · refine (under_getExport fun x hx => by cases hx).bind fun found v _ _ hfound => ?_
    cases found with
    | none => exact fun _ _ _ => trivial
    | some entry =>
        have hentry := hfound entry rfl
        cases hpending : decide (entry.status = .pending) with
        | false =>
            show Keeps env exportId path (when (decide (entry.status = .pending)) _) v
            rw [hpending]
            exact fun _ _ _ => trivial
        | true =>
            have hsets : Sets entry
                { entry with status := .failed, generationError := some generationFailed } :=
              .failed (of_decide_eq_true hpending)
            exact keeps_when (keeps_updateExport hentry hsets rfl) _
  · exact fun _ _ _ => trivial

/-- The event of a download carries the count of the export. -/
theorem rowCount_downloaded {entry : Export} {n : Nat} (hn : entry.rowCount = some n)
    (actor : Option Audit.AuditActor) (metadata : Option Audit.RequestMetadata) :
    (Audit.record (downloaded entry) actor metadata).details.get? "row_count" =
      some (.int n) := by
  show (Audit.redact (.obj _)).get? "row_count" = _
  rw [hn]
  rfl

theorem keeps_record {entry : Export} (hserved : Served exportId entry s) (req : Request) :
    Keeps env exportId path (AuditService.record req (downloaded entry)) s := by
  let intent : Audit.AuditIntent :=
    { id := req.intentId
      payload := Audit.record (downloaded entry) req.actor req.metadata
      createdAt := Instant.datetime req.now }
  have hinsert : Keeps env exportId path (commit (.insertIntent intent)) s := by
    refine Program.under_issue fun u _ hsu => ⟨fun _ => ?_, fun _ _ _ _ _ _ _ => trivial⟩
    obtain ⟨-, n, hn, hcommitted⟩ := hserved.mono hsu
    exact ⟨n, hcommitted, rowCount_downloaded hn _ _⟩
  have hcreate : Keeps env exportId path (AuditRepository.createAuditIntent intent) s :=
    hinsert.bind fun _ u _ _ _ => keeps_of_reads (Db.writes_refresh _ _) u
  refine Program.Under.tryCatch ?_ fun _ _ => fun _ _ _ => trivial
  exact hcreate.bind fun _ _ _ _ _ _ _ _ => trivial

theorem under_ownedExport (adminEmail : String) (s : Database) :
    (ownedExport exportId adminEmail).Under (interference env exportId path) exec
      (Loaded env exportId path) s := by
  refine (under_getExport fun x hx => by cases hx).bind fun found u _ _ hfound => ?_
  cases found with
  | none => trivial
  | some entry =>
      refine (keeps_of_reads ((Db.writes_throw _).when _) u).bind fun _ v _ huv _ => ?_
      exact fun w _ hvw => ((hfound entry rfl).mono huv).mono hvw

/-- Whatever is served has a count that is committed. -/
theorem under_regenerateFrom {stream : ExportSpec → Json → Db (List ExportRow)}
    (hstream : ∀ spec filters, (stream spec filters).Writes fun _ => False) (now : Instant)
    {entry : Export} (hentry : Loaded env exportId path entry s) :
    (regenerateFrom stream env now entry).Under (interference env exportId path) exec
      (Served exportId) s := by
  refine (keeps_of_reads (Db.writes_query _) s).bind fun present u _ hsu _ => ?_
  have hid : entry.id = exportId := hentry.placed.id
  split
  · rw [hid]
    refine under_generateFrom hstream now fun x hx => ?_
    obtain rfl := Option.some.inj hx
    exact hentry.mono hsu
  · rename_i hready
    have hstatus : entry.status = .ready := Classical.not_not.mp fun h => hready (.inl h)
    obtain ⟨n, hn⟩ := Option.ne_none_iff_exists'.mp (hentry.placed.ready hstatus)
    exact fun v _ huv => ⟨hid, n, hn, huv n (hsu n (hentry.counted n hn))⟩

theorem keeps_downloadExportFrom {stream : ExportSpec → Json → Db (List ExportRow)}
    (hstream : ∀ spec filters, (stream spec filters).Writes fun _ => False) (req : Request)
    (adminEmail : String) (s : Database) :
    Keeps env exportId path (downloadExportFrom stream env req exportId adminEmail) s := by
  refine (under_ownedExport adminEmail s).bind fun entry u _ _ hentry => ?_
  have hexpiry : Keeps env exportId path (refuseExpired req.now entry) u := by
    refine keeps_when ((keeps_updateExport hentry .expired rfl).bind fun _ _ _ _ _ => ?_) _
    trivial
  refine hexpiry.bind fun _ v _ huv _ => ?_
  refine (under_regenerateFrom hstream req.now (hentry.mono huv)).bind
    fun ready w _ _ hserved => ?_
  refine (keeps_of_reads (Db.writes_query _) w).bind fun isFile x _ hwx _ => ?_
  refine (keeps_of_reads ((Db.writes_throw _).when _) x).bind fun _ y _ hxy _ => ?_
  have hrecord : Keeps env exportId path (AuditService.record req (downloaded ready)) y :=
    keeps_record ((hserved.mono hwx).mono hxy) req
  exact hrecord.bind fun _ _ _ _ _ _ _ _ => trivial

/-! ## The counts that are due -/

/-- A commit that carries no count. -/
def Countless (w : Write) : Prop := counts (Sql.commit w ()) = none

theorem counts_of_countless {β : Type} (c : Sql β) (h : Db.Allowed Countless c) :
    counts c = none := by
  cases c with
  | query q => rfl
  | commit w answer => cases w <;> exact h

theorem countless_updateExport {loaded current : Export} (h : current.status ≠ .ready) :
    (ExportRepository.updateExport loaded current).Writes Countless :=
  Db.writes_commit (if_neg h)

abbrev Orderly (p : Db α) : Prop := Program.Orderly counts puts p

theorem orderly_of_writes {p : Db α} (hp : p.Writes Countless) : Orderly p :=
  Program.orderly_of_within hp counts_of_countless

/-- **A generation hands its count on**, from the file to the update. -/
theorem orderly_generateFrom {stream : ExportSpec → Json → Db (List ExportRow)}
    (hstream : ∀ spec filters, (stream spec filters).Writes Countless) (now : Instant)
    (held : Option Export) : Orderly (generateFrom stream env now exportId held) := by
  refine Program.Orderly.bind (orderly_of_writes (writes_getExport _ _)) fun found => ?_
  cases found with
  | none => exact orderly_of_writes (Db.writes_throw _)
  | some entry =>
      refine Program.Orderly.bind (orderly_of_writes (writes_spec _)) fun spec => ?_
      refine Program.Orderly.bind (orderly_of_writes (hstream _ _)) fun rows => ?_
      rcases writeFile_cases env now spec entry (pathOf env spec entry) rows with
        ⟨-, hfile⟩ | ⟨-, hfile⟩
      swap
      · rw [hfile]
        exact orderly_of_writes (Db.writes_throw _)
      rw [hfile, Program.bind_bind]
      refine ⟨Program.handsOn_issue_bind (fun _ n hn => ?_) fun _ => ?_, rfl⟩
      · exact hn
      · exact Program.handsOn_issue_bind (fun _ _ hn => by cases hn) fun _ => trivial

theorem orderly_generateTaskFrom {stream : ExportSpec → Json → Db (List ExportRow)}
    (hstream : ∀ spec filters, (stream spec filters).Writes Countless) (now : Instant) :
    Orderly (generateTaskFrom stream env now exportId) := by
  refine Program.Orderly.tryCatch ?_ fun _ => orderly_of_writes ?_
  · exact (orderly_generateFrom hstream now none).bind fun _ => orderly_of_writes (Db.writes_pure _)
  · refine Db.Writes.tryCatch ?_ fun _ => Db.writes_pure _
    refine (writes_getExport _ _).bind fun found => ?_
    cases found with
    | none => exact Db.writes_pure _
    | some entry => exact (countless_updateExport (by simp)).when _

theorem orderly_downloadExportFrom {stream : ExportSpec → Json → Db (List ExportRow)}
    (hstream : ∀ spec filters, (stream spec filters).Writes Countless) (req : Request)
    (adminEmail : String) : Orderly (downloadExportFrom stream env req exportId adminEmail) := by
  have howned : (ownedExport exportId adminEmail).Writes Countless := by
    refine (writes_getExport _ _).bind fun found => ?_
    cases found with
    | none => exact Db.writes_throw _
    | some entry => exact ((Db.writes_throw _).when _).bind fun _ => Db.writes_pure _
  refine Program.Orderly.bind (orderly_of_writes howned) fun entry => ?_
  refine Program.Orderly.bind (orderly_of_writes ?_) fun _ => ?_
  · exact ((countless_updateExport (by simp)).bind fun _ => Db.writes_throw _).when _
  refine Program.Orderly.bind ?_ fun ready => orderly_of_writes ?_
  · refine Program.Orderly.bind (orderly_of_writes (Db.writes_query _)) fun present => ?_
    split
    · exact orderly_generateFrom hstream req.now _
    · exact orderly_of_writes (Db.writes_pure _)
  · refine (Db.writes_query _).bind fun _ => ((Db.writes_throw _).when _).bind fun _ => ?_
    exact (AuditService.writes_record (fun _ => rfl) _ _).bind fun _ => Db.writes_pure _

end Requests

/-! ## Runs of requests -/

section Runs
variable {ι : Type} [DecidableEq ι] {env : Env} {fuel : Nat} {now : Instant} {exportId : Uuid}
  {calls : ι → Request × String} {path : String}

/-- The requests keep to their statements, and the counts that are due are one. -/
structure Sound (env : Env) (exportId : Uuid) (path : String) (t : Threads ι) : Prop where
  threads : Program.Threads.Sound (interference env exportId path) exec t
  handsOn : ∀ i, Program.HandsOn counts puts (t.thread i)
  due : ∀ i, ∀ n ∈ Program.due counts (t.thread i), Due exportId path n t.shared
  agree : ∀ i j, ∀ n ∈ Program.due counts (t.thread i),
    ∀ m ∈ Program.due counts (t.thread j), n = m

/-- Where a file of the export goes. -/
def placeOf (env : Env) (entry : Export) : String :=
  match exportSpecs.lookup entry.module with
  | some spec => pathOf env spec entry
  | none => ""

theorem exists_sound_of_init {t : Threads ι} (h : (machine env fuel now exportId calls).init t) :
    ∃ path, Sound env exportId path t := by
  obtain ⟨⟨entry, hfind, hnew⟩, hevents, hthreads⟩ := h
  have hplaced : Placed env exportId (placeOf env entry) entry := by
    refine ⟨(Table.find?_eq_some.mp hfind).2, fun spec hspec => ?_, fun q hq => ?_, fun hready => ?_⟩
    · rw [placeOf, hspec]
    · rw [hnew.filePath] at hq
      cases hq
    · rw [hnew.status] at hready
      cases hready
  have hlawful : Lawful env exportId (placeOf env entry) t.shared := by
    refine ⟨⟨entry, hfind, hplaced⟩, ?_, fun intent hintent hd => absurd hd (hevents intent hintent)⟩
    rintro n ⟨x, hx, hn⟩
    obtain rfl := Option.some.inj (hfind.symm.trans hx)
    rw [hnew.rowCount] at hn
    cases hn
  have hstream : ∀ {W : Write → Prop} spec filters,
      (rowStreamByQuery env fuel spec filters).Writes W :=
    fun spec filters => writes_rowStreamByQuery env fuel spec filters
  have horderly : ∀ i, Orderly (t.thread i) := by
    intro i
    rw [hthreads]
    cases i with
    | none => exact orderly_generateTaskFrom hstream now
    | some i =>
        exact (orderly_downloadExportFrom hstream (calls i).1 (calls i).2).bind
          fun _ => orderly_of_writes (Db.writes_pure _)
  refine ⟨placeOf env entry, ⟨hlawful, fun i => ?_⟩, fun i => (horderly i).handsOn, ?_, ?_⟩
  · rw [hthreads]
    cases i with
    | none => exact keeps_generateTaskFrom hstream now _
    | some i =>
        exact (keeps_downloadExportFrom hstream (calls i).1 (calls i).2 _).bind
          fun _ _ _ _ _ _ _ _ => trivial
  · intro i n hn
    rw [(horderly i).due] at hn
    cases hn
  · intro i j n hn
    rw [(horderly i).due] at hn
    cases hn

/-- A file that is not lost was there. -/
theorem lookup_of_filter {files : List (String × Workbook)} {lost : String} {file : Workbook}
    (h : (files.filter fun f => f.1 ≠ lost).lookup path = some file) :
    files.lookup path = some file := by
  have hne : path ≠ lost := by
    obtain ⟨before, after, hsplit, -⟩ := List.lookup_eq_some_iff.mp h
    have hmem : (path, file) ∈ files.filter fun f => f.1 ≠ lost := by
      rw [hsplit]
      exact List.mem_append_right _ List.mem_cons_self
    simpa using (List.mem_filter.mp hmem).2
  induction files with
  | nil => exact h
  | cons f files ih =>
      by_cases hlost : f.1 = lost
      · rw [List.filter_cons_of_neg (by simpa using hlost)] at h
        have hother : (path == f.1) = false := by simpa [hlost] using hne
        rw [List.lookup_cons, hother]
        exact ih h
      · rw [List.filter_cons_of_pos (by simpa using hlost), List.lookup_cons] at h
        rw [List.lookup_cons]
        cases hsame : path == f.1 with
        | true =>
            rw [hsame] at h
            exact h
        | false =>
            rw [hsame] at h
            exact ih h

omit [DecidableEq ι] in
/-- Others leave the export, and the file or nothing. -/
theorem Sound.others {t : Threads ι} (h : Sound env exportId path t) {u : Database}
    (hexports : u.exports = t.shared.exports) (hintents : u.auditIntents = t.shared.auditIntents)
    (hfile : ∀ file, u.files.lookup path = some file → t.shared.files.lookup path = some file) :
    Sound env exportId path { t with shared := u } := by
  have hrow : u.exports.find? exportId = t.shared.exports.find? exportId := by rw [hexports]
  have hrely : (interference env exportId path).rely t.shared u :=
    fun n => (committed_congr hrow n).mpr
  refine ⟨⟨h.threads.inv.congr hrow hfile fun intent hnew hold => ?_, fun i => ?_⟩, h.handsOn,
    fun i n hn => (h.due i n hn).congr hrow hfile, h.agree⟩
  · rw [hintents] at hnew
    exact absurd hnew hold
  · exact (h.threads.thread i).mono hrely

/-- **One turn** that matches. -/
theorem Sound.turn {t t' : Threads ι} (h : Sound env exportId path t) {i : Option ι}
    {fault : Option Failure} (hmatching : Matching exportId t (.turn i fault))
    (hturn : Program.faultyTurn exec (i, fault) t = some t') : Sound env exportId path t' := by
  obtain ⟨hhands, hothers, hnext⟩ := Program.HandsOn.turn_inv h.handsOn hturn
  obtain ⟨hstatement, hsound⟩ := h.threads.turn_inv hturn
  -- what the statement of the turn does to the shared state
  have hkept : (interference env exportId path).inv t'.shared ∧
      (interference env exportId path).rely t.shared t'.shared ∧
      ∀ j ≠ i, ∀ n ∈ Program.due counts (t.thread j), Due exportId path n t'.shared := by
    rcases hstatement with hsame | ⟨β, c, k, rfl, hcall, hallows, hshared⟩
    · rw [hsame]
      exact ⟨h.threads.inv, fun _ => id, fun j _ => h.due j⟩
    have hputs : ∀ n, puts c = some n → CountedAs exportId n t.shared ∧
        ∀ j, ∀ m ∈ Program.due counts (t.thread j), m = n := by
      intro n hn
      refine hmatching n ?_
      rw [hcall]
      exact hn
    have hcounts : Program.due counts (t.thread i) = counts c := by
      rw [hcall]
      rfl
    obtain ⟨hinv, hrely, hdue⟩ := allowed_keeps h.threads.inv hallows (fun n hn => (hputs n hn).1)
      fun n hn => h.due i n (hcounts.trans hn)
    rw [← hshared] at hinv hrely hdue
    refine ⟨hinv, hrely, fun j _ n hn => hdue n ?_ ?_ (h.due j n hn)⟩
    · exact fun m hm => (hputs m hm).2 j n hn
    · exact fun m hm => h.agree j i n hn m (hcounts.trans hm)
  obtain ⟨hinv, hrely, hdue⟩ := hkept
  -- a count that is due next is that of the file just put in place
  have hplaced : ∀ n ∈ Program.due counts (t'.thread i), Due exportId path n t'.shared ∧
      ∀ j, ∀ m ∈ Program.due counts (t.thread j), m = n := by
    intro n hn
    obtain ⟨β, c, k, b, rfl, hcall, hputs, hexec⟩ := hnext n hn
    have hput : n ∈ Program.due puts (t.thread i) := by
      rw [hcall]
      exact hputs
    obtain ⟨hcounted, hsame⟩ := hmatching n hput
    have hunder := h.threads.thread i
    rw [hcall] at hunder
    obtain ⟨hallows, -, -⟩ := hunder t.shared h.threads.inv fun _ => id
    exact ⟨due_of_puts hallows hputs hcounted hexec, hsame⟩
  refine ⟨hsound hinv hrely, hhands, fun j n hn => ?_, fun j j' n hn m hm => ?_⟩
  · by_cases hji : j = i
    · subst hji
      exact (hplaced n hn).1
    · rw [hothers j hji] at hn
      exact hdue j hji n hn
  · by_cases hji : j = i
    · subst hji
      by_cases hji' : j' = j
      · subst hji'
        exact Option.some.inj (hn.symm.trans hm)
      · rw [hothers j' hji'] at hm
        exact ((hplaced n hn).2 j' m hm).symm
    · rw [hothers j hji] at hn
      by_cases hji' : j' = i
      · subst hji'
        exact (hplaced m hm).2 j n hn
      · rw [hothers j' hji'] at hm
        exact h.agree j j' n hn m hm

theorem Sound.step {t t' : Threads ι} (h : Sound env exportId path t) {l : Move ι}
    (hmatching : Matching exportId t l) (hstep : (machine env fuel now exportId calls).step l t = some t') :
    Sound env exportId path t' := by
  cases l with
  | turn i fault => exact h.turn hmatching hstep
  | others db =>
      obtain rfl := Option.some.inj hstep
      exact h.others rfl rfl fun _ => id
  | lose q =>
      obtain rfl := Option.some.inj hstep
      exact h.others rfl rfl fun _ => lookup_of_filter

omit [DecidableEq ι] in
theorem Sound.counted {t : Threads ι} (h : Sound env exportId path t) :
    Counted exportId t.shared ∧ Truthful exportId t.shared := by
  obtain ⟨y, hy, hplaced⟩ := h.threads.inv.row
  constructor
  · intro x hx hready q file hq hfile
    obtain rfl := Option.some.inj (hx.symm.trans hy)
    obtain rfl := hplaced.filePath q hq
    obtain ⟨n, hn⟩ := Option.ne_none_iff_exists'.mp (hplaced.ready hready)
    rw [hn, h.threads.inv.file n ⟨x, hx, hn⟩ file hfile]
  · intro intent hintent hdownload x hx q file hq hfile
    obtain rfl := Option.some.inj (hx.symm.trans hy)
    obtain rfl := hplaced.filePath q hq
    obtain ⟨n, hn, hcount⟩ := h.threads.inv.events intent hintent hdownload
    rw [hcount, h.threads.inv.file n hn file hfile]

end Runs

/-- **When row counts describe the files.** In every run of the background task of an export and
any number of downloads, query by query, while others commit to the other tables, files get
lost and statements fail: where a file is put in place only as long as every count that is
committed or due by then is that of its rows, the count of a ready export is always that of its
file, and the file is of as many rows as every download event says. -/
theorem row_count_described {ι : Type} [DecidableEq ι] {env : Env} {fuel : Nat} {now : Instant}
    {exportId : Uuid} {calls : ι → Request × String} {t : List (Threads ι × Move ι)}
    {st : Threads ι} (h : (machine env fuel now exportId calls).Run t st)
    (hmatching : ∀ p ∈ t, Matching exportId p.1 p.2) :
    ∀ u ∈ Machine.visited t st, Counted exportId u.shared ∧ Truthful exportId u.shared := by
  have hsound : ∀ u ∈ Machine.visited t st, ∃ path, Sound env exportId path u :=
    h.always_while (fun _ hu => exists_sound_of_init hu)
      (fun _ _ _ ⟨path, hu⟩ hok hstep => ⟨path, hu.step hok hstep⟩) hmatching
  intro u hu
  obtain ⟨path, hu⟩ := hsound u hu
  exact hu.counted

/-- Conversely, a file of another number of rows put in place under a ready export breaks it. -/
theorem not_counted_of_put {ι : Type} [DecidableEq ι] {exportId : Uuid} {t t' : Threads ι}
    {i : Option ι} {path : String} {file : Workbook} {β : Type} {answer : β}
    {k : Except Failure β → Program Sql Failure Unit} {x : Export}
    (hcall : t.thread i = .call (.commit (.writeFile path file) answer) k)
    (hfind : t.shared.exports.find? exportId = some x) (hready : x.status = .ready)
    (hpath : x.filePath = some path) (hcount : x.rowCount ≠ some file.rows.length)
    (hturn : Program.faultyTurn exec (i, none) t = some t') : ¬ Counted exportId t'.shared := by
  intro hcounted
  obtain ⟨β', c, k', hcall', hshared, -⟩ := Program.turn_inv hturn
  cases hcall.symm.trans hcall'
  have hfind' : t'.shared.exports.find? exportId = some x := by
    rw [hshared]
    exact hfind
  refine hcount (hcounted x hfind' hready path file hpath ?_)
  rw [hshared]
  exact List.lookup_cons_self

/-! ## Two generations at once -/

open Administration (sampleState sampleAdmin)
open Exports (singleRows)

/-- One row at a time. -/
def sampleMachine : Machine (Threads Unit) (Move Unit) :=
  machine singleRows 4 (Instant.seconds 1) (.ofNat 101) sampleCalls

def sampleThreads : Threads Unit where
  shared := StatusMoves.sampleThreads.shared
  thread := requests singleRows 4 (Instant.seconds 1) (.ofNat 101) sampleCalls

theorem init_sampleThreads : sampleMachine.init sampleThreads :=
  ⟨⟨sampleExport, rfl, ⟨rfl, rfl, rfl, rfl, rfl⟩⟩, by decide, rfl⟩

/-- Turns without a failure. -/
def turns (i : Option Unit) (n : Nat) : List (Move Unit) := List.replicate n (.turn i none)

/-- A third admin is added. -/
def grow : Move Unit :=
  .others
    (((Write.insertAdmin (sampleAdmin 3 "admin3" "admin3@example.com")).apply
      sampleState).toOption.getD sampleState)

/-- The export, its file and the counts of its download events. -/
def found (s : Database) : Option (Export × Workbook × List Json) := do
  let entry ← s.exports.find? (.ofNat 101)
  let path ← entry.filePath
  let file ← s.files.lookup path
  let events := s.auditIntents.select fun intent => IsDownload (.ofNat 101) intent
  return (entry, file, events.filterMap fun intent => intent.payload.details.get? "row_count")

/-- The number of rows of the file, the count of the export if it is ready, and the counts of
its download events. -/
def rowCounts (s : Database) : Option (Nat × Option (Option Nat) × List Json) :=
  (found s).map fun (entry, file, events) =>
    (file.rows.length, if entry.status = .ready then some entry.rowCount else none, events)

theorem rowCounts_inv {s : Database} {n : Nat} {count : Option (Option Nat)}
    {events : List Json} (h : rowCounts s = some (n, count, events)) :
    (Counted (.ofNat 101) s → ∀ k ∈ count, k = some n) ∧
      (Truthful (.ofNat 101) s → ∀ event ∈ events, event = .int n) := by
  obtain ⟨⟨entry, file, events'⟩, hfound, hcounts⟩ := Option.map_eq_some_iff.mp h
  obtain ⟨x, hx, hrest⟩ := Option.bind_eq_some_iff.mp hfound
  obtain ⟨path, hpath, hrest⟩ := Option.bind_eq_some_iff.mp hrest
  obtain ⟨y, hy, hrest⟩ := Option.bind_eq_some_iff.mp hrest
  obtain ⟨rfl, rfl, rfl⟩ := Option.some.inj hrest
  obtain ⟨rfl, rfl, rfl⟩ := hcounts
  refine ⟨fun hcounted k hk => ?_, fun htruthful event hevent => ?_⟩
  · by_cases hready : entry.status = .ready
    · rw [if_pos hready] at hk
      rw [← Option.some.inj hk]
      exact hcounted entry hx hready path file hpath hy
    · rw [if_neg hready] at hk
      cases hk
  · obtain ⟨intent, hintent, hcount⟩ := List.mem_filterMap.mp hevent
    obtain ⟨hin, hdownload⟩ := Table.mem_select.mp hintent
    have htrue := htruthful intent hin (of_decide_eq_true hdownload) entry hx path
      file hpath hy
    exact Option.some.inj (hcount.symm.trans htrue)

/-- An admin is added while the task fetches the rows; then the download finds the file. -/
def inOrder : List (Move Unit) := turns none 2 ++ [grow] ++ turns none 5 ++ turns (some ()) 4

/-- An admin is added when the task has fetched the rows; the download does not find a file and
generates one, and the task puts its own in place before that is served. -/
def overlapping : List (Move Unit) :=
  turns none 4 ++ [grow] ++ turns (some ()) 8 ++ turns none 1 ++ turns (some ()) 2

theorem row_count_described_inOrder :
    ∃ t st, sampleMachine.Run t st ∧ t.map Prod.snd = inOrder ∧
      rowCounts st.shared = some (3, some (some 3), [.int 3]) ∧
      ∀ u ∈ Machine.visited t st, Counted (.ofNat 101) u.shared ∧ Truthful (.ofNat 101) u.shared := by
  have hcounts : (sampleMachine.exec inOrder sampleThreads).map (fun t => rowCounts t.shared) =
      some (some (3, some (some 3), [.int 3])) := by decide +kernel
  obtain ⟨st, hexec, hst⟩ := Option.map_eq_some_iff.mp hcounts
  have hrun := Machine.Run.of_exec (.start init_sampleThreads) hexec
  refine ⟨_, st, hrun, Machine.map_snd_trace hexec, hst, row_count_described hrun ?_⟩
  decide +kernel

/-- **The count of a ready export is not that of its file**, nor is that of the event. -/
theorem row_count_misleads :
    (¬ ∀ t st, sampleMachine.Run t st → Counted (.ofNat 101) st.shared) ∧
      ¬ ∀ t st, sampleMachine.Run t st → Truthful (.ofNat 101) st.shared := by
  have hcounts : (sampleMachine.exec overlapping sampleThreads).map (fun t => rowCounts t.shared) =
      some (some (2, some (some 3), [.int 3])) := by decide +kernel
  obtain ⟨st, hexec, hst⟩ := Option.map_eq_some_iff.mp hcounts
  have hrun := Machine.Run.of_exec (.start init_sampleThreads) hexec
  obtain ⟨hcounted, htruthful⟩ := rowCounts_inv hst
  refine ⟨fun h => ?_, fun h => ?_⟩
  · have hsame := hcounted (h _ st hrun) (some 3) rfl
    cases hsame
  · have hsame := htruthful (h _ st hrun) (.int 3) (by simp)
    cases hsame

end RowCounts
end AdminPlatform
