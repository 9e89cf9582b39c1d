import AdminPlatform.Access.Seeded
import AdminPlatform.Exports.Generation
import AdminPlatform.Lib.Machine

/-! # Lives of exports

Exports are created, generated in the background, polled and downloaded, while statements fail,
files get lost and others commit whatever they like to the other tables.

A step puts one file in place or none, and marks one export ready or none (`effect`). What is to
hold over a whole life is then a matter of the steps that do. The row cap is checked when an
export is created, not when its rows are read, so it holds exactly as long as every generation
that gets to its file finds few enough of them (`capped_iff`). The window of a download starts
anew with every generation that goes through, so it is fixed exactly as long as none of an export
does a second time (`window_fixed_iff`). -/

namespace AdminPlatform
open AdminPlatform.Lib

namespace Lifecycle
open ExportService

/-! ## Runs -/

inductive Event
  | create (adminEmail : String) (data : ExportCreate)
  /-- The background task. -/
  | generate (exportId : Uuid)
  | status (exportId : Uuid) (adminEmail : String)
  | download (exportId : Uuid) (adminEmail : String)
  /-- A file gets lost from `export_dir`. -/
  | lose (path : String)
  /-- Others commit to the other tables. -/
  | others (db : Database)

/-- An event, and which of its statements fail; all of the rest do where the process dies. -/
structure Label where
  req : Request
  event : Event
  faults : List (Option Failure) := []

/-- What an event leaves of the database. -/
def Label.leaves (env : Env) (l : Label) (s : Database) : Database :=
  match l.event with
  | .create adminEmail data =>
      ((createExport env l.req adminEmail data).runFaulty l.faults s).2.2
  | .generate exportId => ((generateTask env l.req.now exportId).runFaulty l.faults s).2.2
  | .status exportId adminEmail =>
      ((getExportStatus exportId adminEmail).runFaulty l.faults s).2.2
  | .download exportId adminEmail =>
      ((downloadExport env l.req exportId adminEmail).runFaulty l.faults s).2.2
  | .lose path => { s with files := s.files.filter fun f => f.1 ≠ path }
  | .others db => { db with exports := s.exports, files := s.files }

/-- No request reads `readySince`: when each export was first found ready. -/
structure State where
  db : Database
  readySince : List (Uuid × Instant)

/-- The exports that have become ready by now. -/
def newlyReady (now : Instant) (s : Database) (readySince : List (Uuid × Instant)) :
    List (Uuid × Instant) :=
  (s.exports.select fun entry =>
      entry.status = .ready ∧ entry.id ∉ readySince.map Prod.fst).map fun entry => (entry.id, now)

def next (env : Env) (l : Label) (st : State) : State :=
  let db := l.leaves env st.db
  ⟨db, newlyReady l.req.now db st.readySince ++ st.readySince⟩

/-- Events one after another, from a platform without exports. -/
def machine (env : Env) : Machine State Label where
  init st := (∀ entry, entry ∉ st.db.exports) ∧ st.db.files = [] ∧ st.readySince = []
  step l st := some (next env l st)

/-! ## What a step does -/

/-- Whether a download generates the export anew: its owner asks for it in time, and it is not
ready, or its file is not there. -/
def regenerates (now : Instant) (adminEmail : String) (s : Database) (entry : Export) : Bool :=
  entry.createdBy = adminEmail && !(entry.expiresAt.any fun expiresAt => expiresAt ≤ now) &&
    (entry.status ≠ .ready || !fileExists s entry)

/-- An export with the spec of its module. -/
def known (entry : Export) : Option (Export × ExportSpec) :=
  (exportSpecs.lookup entry.module).map fun spec => (entry, spec)

/-- The export that an event generates, with its spec. -/
def Event.generates (now : Instant) (s : Database) : Event → Option (Export × ExportSpec)
  | .generate exportId => (s.exports.find? exportId).bind known
  | .download exportId adminEmail =>
      ((s.exports.find? exportId).filter (regenerates now adminEmail s)).bind known
  | _ => none

/-- The statements of an event before its generation reads the rows: the export is looked up,
and on a download its file. -/
def Event.lookups : Event → Nat
  | .download _ _ => 2
  | _ => 1

/-- The export whose file an event puts in place, with its spec: openpyxl takes every cell, and
no statement fails until the file is there. -/
def Label.puts (env : Env) (s : Database) (l : Label) : Option (Export × ExportSpec) :=
  (l.event.generates l.req.now s).filter fun g =>
    writable env l.req.now g.2 g.1 (selected env g.2 g.1.filters s) &&
      Program.sound (l.event.lookups + 2) l.faults

/-- The export that an event marks ready: nor does its update fail. -/
def Label.readies (env : Env) (s : Database) (l : Label) : Option (Export × ExportSpec) :=
  (l.puts env s).filter fun _ => Program.sound (l.event.lookups + 3) l.faults

/-- All that a step can do to exports and files. -/
inductive Effect (env : Env) (l : Label) (s : Database) : Database → Prop
  | settles {s' : Database} (hputs : l.puts env s = none) (hfiles : ∀ f ∈ s'.files, f ∈ s.files)
      (hmarked : Marked s s') : Effect env l s s'
  | puts {entry : Export} {spec : ExportSpec} {s' : Database}
      (hputs : l.puts env s = some (entry, spec)) (hreadies : l.readies env s = none)
      (hspec : exportSpecs.lookup entry.module = some spec)
      (hfile : InPlace env spec entry s s') (hmarked : Marked s s') : Effect env l s s'
  | readies {entry : Export} {spec : ExportSpec} {s' : Database}
      (hreadies : l.readies env s = some (entry, spec))
      (hfind : s.exports.find? entry.id = some entry)
      (hspec : exportSpecs.lookup entry.module = some spec)
      (hgenerated : Generated env l.req.now spec entry s s') : Effect env l s s'

section Effect
variable {env : Env} {l : Label} {s s' : Database}

theorem known_eq_some {entry x : Export} {spec : ExportSpec} :
    known entry = some (x, spec) ↔ entry = x ∧ exportSpecs.lookup entry.module = some spec := by
  rw [known, Option.map_eq_some_iff]
  constructor
  · rintro ⟨spec', hspec, heq⟩
    obtain ⟨rfl, rfl⟩ := Prod.mk.inj heq
    exact ⟨rfl, hspec⟩
  · rintro ⟨rfl, hspec⟩
    exact ⟨spec, hspec, rfl⟩

theorem known_eq_none {entry : Export} :
    known entry = none ↔ exportSpecs.lookup entry.module = none := Option.map_eq_none_iff

theorem puts_of_readies {g : Export × ExportSpec} (h : l.readies env s = some g) :
    l.puts env s = some g := (Option.filter_eq_some_iff.mp h).1

theorem puts_of_generates_none (h : l.event.generates l.req.now s = none) :
    l.puts env s = none := by
  rw [Label.puts, h, Option.filter_none]

/-- Where a look-up fails, nothing is put in place. -/
theorem puts_of_unsound (h : Program.sound l.event.lookups l.faults = false) :
    l.puts env s = none := by
  rw [Label.puts, Option.filter_eq_none_iff]
  intro g _ hboth
  have hsound := Program.sound_of_succ (Program.sound_of_succ (Bool.and_eq_true_iff.mp hboth).2)
  rw [hsound] at h
  cases h

/-- **A step whose generation has come to the rows**: what it does is how the generation ends,
and what follows leaves that. -/
theorem effect_of_outcome {entry : Export} {spec : ExportSpec} {faults : List (Option Failure)}
    {r : Except Failure Export} {u : Database}
    (hgenerates : l.event.generates l.req.now s = some (entry, spec))
    (hfind : s.exports.find? entry.id = some entry)
    (hspec : exportSpecs.lookup entry.module = some spec)
    (hfaults : ∀ n, Program.sound (l.event.lookups + n) l.faults = Program.sound n faults)
    (h : Outcome env l.req.now spec entry s faults r u) (hfiles : s'.files = u.files)
    (hfailed : ∀ e, r = .error e → Marked u s')
    (hmade : ∀ x, r = .ok x → s'.exports = u.exports) : Effect env l s s' := by
  have hputs : l.puts env s =
      if putsFile env l.req.now spec entry s faults then some (entry, spec) else none := by
    rw [Label.puts, hgenerates, Option.filter_some, hfaults]
    rfl
  have hreadies : l.readies env s = (l.puts env s).filter fun _ => Program.sound 3 faults := by
    rw [Label.readies, hfaults]
  cases h with
  | stopped hstopped =>
      rw [hstopped] at hputs
      exact .settles hputs (fun f hf => hfiles ▸ hf) (hfailed _ rfl)
  | unmarked hput hfault hfile hexports =>
      rw [hput] at hputs
      rw [hputs, hfault] at hreadies
      obtain ⟨file, hrows, hplaced⟩ := hfile
      exact .puts hputs hreadies hspec ⟨file, hrows, hfiles.trans hplaced⟩
        ((Marked.of_exports hexports).trans (hfailed _ rfl))
  | ready hput hsound hgenerated =>
      rw [hput] at hputs
      rw [hputs, hsound] at hreadies
      obtain ⟨⟨file, hrows, hplaced⟩, hexports⟩ := hgenerated
      exact .readies hreadies hfind hspec
        ⟨⟨file, hrows, hfiles.trans hplaced⟩, fun x => by rw [hmade _ rfl]; exact hexports x⟩

end Effect

/-! ### The background task -/

section Task
variable {env : Env} {l : Label} {s : Database} {exportId : Uuid}

/-- The failure handler marks an export that is pending; what it raises itself is logged. -/
theorem generateTask_eq (env : Env) (now : Instant) (exportId : Uuid) :
    ∃ handler : Failure → Db Unit,
      generateTask env now exportId =
        tryCatch (drop (ExportService.generate env now exportId)) handler ∧
      ∀ e, (handler e).Writes Settles := by
  refine ⟨_, rfl, fun _ => Db.Writes.tryCatch ?_ fun _ => Db.writes_pure ()⟩
  refine (writes_getExport exportId none).bind fun found => ?_
  cases found with
  | none => exact Db.writes_pure ()
  | some entry =>
      refine Db.Writes.when (Db.writes_commit ⟨?_, ?_, ?_, ?_⟩) _
      · rfl
      · rfl
      · rfl
      · simp

/-- What the handler leaves of a generation that has raised, or has not. -/
theorem runFaulty_handled {α : Type} {p : Db α} {handler : Failure → Db Unit}
    (hhandler : ∀ e, (handler e).Writes Settles) {faults faults' : List (Option Failure)}
    {r : Except Failure α} {u : Database} (hrun : p.runFaulty faults s = (r, faults', u)) :
    ∃ v, ((tryCatch (drop p) handler : Db Unit).runFaulty faults s).2.2 = v ∧
      v.files = u.files ∧ (∀ e, r = .error e → Marked u v) ∧
        ∀ a, r = .ok a → v.exports = u.exports := by
  refine ⟨_, rfl, ?_⟩
  cases r with
  | error e =>
      have hdrop : (drop p).runFaulty faults s = (.error e, faults', u) :=
        Db.runFaulty_bind_error _ hrun
      obtain ⟨hfiles, hmarked⟩ := keeps_settles (hhandler e) faults' u
      rw [Db.runFaulty_tryCatch_error _ hdrop]
      exact ⟨hfiles, fun _ _ => hmarked, fun a h => by cases h⟩
  | ok a =>
      have hdrop : (drop p).runFaulty faults s = (.ok (), faults', u) := Db.runFaulty_bind_ok _ hrun
      rw [Db.runFaulty_tryCatch_ok _ hdrop]
      exact ⟨rfl, fun _ h => (by cases h), fun _ _ => rfl⟩

theorem effect_generateTask (hevent : l.event = .generate exportId) :
    Effect env l s ((generateTask env l.req.now exportId).runFaulty l.faults s).2.2 := by
  obtain ⟨handler, htask, hhandler⟩ := generateTask_eq env l.req.now exportId
  have hlookups : l.event.lookups = 1 := by rw [hevent]; rfl
  have hgenerates : l.event.generates l.req.now s = (s.exports.find? exportId).bind known := by
    rw [hevent]; rfl
  rw [htask]
  -- a generation that stops before it reads the rows has done nothing
  have hstops : l.puts env s = none → ∀ e faults',
      (ExportService.generate env l.req.now exportId).runFaulty l.faults s =
        (.error e, faults', s) →
      Effect env l s ((tryCatch (drop (ExportService.generate env l.req.now exportId)) handler :
        Db Unit).runFaulty l.faults s).2.2 := by
    intro hputs e faults' hrun
    obtain ⟨v, rfl, hfiles, hmarked, -⟩ := runFaulty_handled hhandler hrun
    exact .settles hputs (fun f hf => hfiles ▸ hf) (hmarked e rfl)
  rw [generate_eq] at hstops ⊢
  rcases Db.runFaulty_query (fun s => s.exports.find? exportId) l.faults s with
    ⟨e, hfails, hget⟩ | ⟨hsound, hget⟩
  · exact hstops (puts_of_unsound (by rw [hlookups, hfails])) e _ (Db.runFaulty_bind_error _ hget)
  cases hfind : s.exports.find? exportId with
  | none =>
      rw [hfind] at hget hgenerates
      exact hstops (puts_of_generates_none hgenerates) _ _ (Db.runFaulty_bind_ok _ hget)
  | some entry =>
      obtain rfl : entry.id = exportId := (Table.find?_eq_some.mp hfind).2
      rw [hfind] at hget hgenerates
      have hfound := Db.runFaulty_bind_ok (generateFound env l.req.now) hget
      cases hspec : exportSpecs.lookup entry.module with
      | none =>
          rw [generateFound_unknown hspec] at hfound
          refine hstops (puts_of_generates_none ?_) _ _ hfound
          rw [hgenerates, Option.bind_some, known_eq_none.mpr hspec]
      | some spec =>
          rw [generateFound_known hspec] at hfound
          obtain ⟨r, faults', u, hrows, houtcome⟩ :=
            outcome_generateRows env l.req.now hfind hspec l.faults.tail
          obtain ⟨v, rfl, hfiles, hmarked, hexports⟩ :=
            runFaulty_handled hhandler (hfound.trans hrows)
          refine effect_of_outcome ?_ hfind hspec (fun n => ?_) houtcome hfiles hmarked hexports
          · rw [hgenerates, Option.bind_some, known_eq_some.mpr ⟨rfl, hspec⟩]
          · rw [hlookups, Nat.add_comm, Program.sound_succ, hsound, Bool.true_and]

end Task

/-! ### Downloads -/

section Download
variable {env : Env} {l : Label} {s : Database} {exportId : Uuid} {adminEmail : String}

/-- Serving a file: what comes after the expiry and the regeneration only records. -/
theorem serveExport_eq (env : Env) (req : Request) (entry : Export) :
    ∃ tail : Export → Db FileResponse,
      serveExport env req entry =
        (refuseExpired req.now entry >>= fun _ => regenerate env req.now entry >>= tail) ∧
      ∀ x, (tail x).Writes Intents :=
  ⟨_, rfl, fun _ => (Db.writes_query _).bind fun _ => ((Db.writes_throw _).when _).bind fun _ =>
    (AuditService.writes_record (fun _ => trivial) _ _).bind fun _ => Db.writes_pure _⟩

/-- A window that has run out is noted, and the request refused, wherever it fails. -/
theorem runFaulty_refuseExpired {now : Instant} {entry : Export}
    (hexpired : (entry.expiresAt.any fun expiresAt => expiresAt ≤ now) = true)
    (faults : List (Option Failure)) (s : Database) :
    ∃ e faults' u, (refuseExpired now entry).runFaulty faults s = (.error e, faults', u) ∧
      u.files = s.files ∧ Marked s u := by
  have hwrites : (refuseExpired now entry).Writes Settles := by
    refine Db.Writes.when (Db.Writes.bind (Db.writes_commit ⟨?_, ?_, ?_, ?_⟩) fun _ =>
      Db.writes_throw _) _
    · rfl
    · rfl
    · rfl
    · simp
  obtain ⟨hfiles, hmarked⟩ := keeps_settles hwrites faults s
  rcases hrun : (refuseExpired now entry).runFaulty faults s with ⟨r, faults', u⟩
  rw [hrun] at hfiles hmarked
  cases r with
  | error e => exact ⟨e, faults', u, rfl, hfiles, hmarked⟩
  | ok a =>
      -- it raises even where the update goes through
      rw [refuseExpired, hexpired] at hrun
      have hbody : (ExportRepository.updateExport entry { entry with status := .expired } >>=
          fun _ => raise .exportExpired : Db Unit).runFaulty faults s = (.ok a, faults', u) := hrun
      rcases Program.run_bind_inv hbody with ⟨_, _, -, h⟩ | ⟨_, -, h⟩ <;> cases h

theorem runFaulty_refuseExpired_open {now : Instant} {entry : Export}
    (hopen : (entry.expiresAt.any fun expiresAt => expiresAt ≤ now) = false)
    (faults : List (Option Failure)) (s : Database) :
    (refuseExpired now entry).runFaulty faults s = (.ok (), faults, s) := by
  rw [refuseExpired, hopen]
  rfl

/-- The owner check fails, turns the request away, or goes on with an export of the email. -/
theorem runFaulty_ownedExport (exportId : Uuid) (adminEmail : String)
    (faults : List (Option Failure)) (s : Database) :
    (∃ e, (ownedExport exportId adminEmail).runFaulty faults s = (.error e, faults.tail, s) ∧
      (Program.sound 1 faults = true → ∀ entry, s.exports.find? exportId = some entry →
        entry.createdBy ≠ adminEmail)) ∨
      (Program.sound 1 faults = true ∧ ∃ entry,
        (ownedExport exportId adminEmail).runFaulty faults s = (.ok entry, faults.tail, s) ∧
        Owns s exportId adminEmail entry) := by
  unfold ownedExport Owns
  rcases Db.runFaulty_query (fun s => s.exports.find? exportId) faults s with
    ⟨e, hfails, hget⟩ | ⟨hsound, hget⟩
  · refine .inl ⟨e, Db.runFaulty_bind_error _ hget, fun hsound => ?_⟩
    rw [hfails] at hsound
    cases hsound
  cases hfind : s.exports.find? exportId with
  | none =>
      rw [hfind] at hget
      exact .inl ⟨_, Db.runFaulty_bind_ok _ hget, fun _ entry h => by cases h⟩
  | some entry =>
      rw [hfind] at hget
      by_cases howner : entry.createdBy = adminEmail
      · refine .inr ⟨hsound, entry, (Db.runFaulty_bind_ok _ hget).trans ?_, rfl, howner⟩
        simp only [howner, ne_eq, not_true_eq_false, decide_false]
        rfl
      · refine .inl ⟨.app .permissionDenied, (Db.runFaulty_bind_ok _ hget).trans ?_, ?_⟩
        · simp only [howner, ne_eq, not_false_eq_true, decide_true]
          rfl
        · rintro - x ⟨⟩
          exact howner

/-- What recording leaves. -/
theorem runFaulty_recorded {p : Db Export} {tail : Export → Db FileResponse}
    (htail : ∀ x, (tail x).Writes Intents) {faults faults' : List (Option Failure)}
    {r : Except Failure Export} {u : Database} (hrun : p.runFaulty faults s = (r, faults', u)) :
    ∃ v, ((p >>= tail).runFaulty faults s).2.2 = v ∧ v.files = u.files ∧
      v.exports = u.exports := by
  refine ⟨_, rfl, ?_⟩
  cases r with
  | error e =>
      rw [Db.runFaulty_bind_error _ hrun]
      exact ⟨rfl, rfl⟩
  | ok x =>
      rw [Db.runFaulty_bind_ok _ hrun]
      obtain ⟨hexports, hfiles⟩ := keeps_intents (htail x) faults' u
      exact ⟨hfiles, hexports⟩

/-- **What serving an export does**: it generates the export where there is no file of it and
its window is open. -/
theorem effect_serveExport {entry : Export} {faults : List (Option Failure)}
    (hevent : l.event = .download entry.id entry.createdBy)
    (hfind : s.exports.find? entry.id = some entry)
    (hfaults : ∀ n, Program.sound (n + 1) l.faults = Program.sound n faults) :
    Effect env l s ((serveExport env l.req entry).runFaulty faults s).2.2 := by
  obtain ⟨tail, hserve, htail⟩ := serveExport_eq env l.req entry
  have hlookups : l.event.lookups = 2 := by rw [hevent]; rfl
  have hgenerates : l.event.generates l.req.now s =
      if regenerates l.req.now entry.createdBy s entry then known entry else none := by
    rw [hevent, Event.generates, hfind, Option.filter_some]
    split <;> rfl
  rw [hserve]
  cases hexpired : entry.expiresAt.any fun expiresAt => decide (expiresAt ≤ l.req.now) with
  | true =>
      obtain ⟨e, faults', u, hrun, hfiles, hmarked⟩ := runFaulty_refuseExpired hexpired faults s
      have hnot : regenerates l.req.now entry.createdBy s entry = false := by
        simp [regenerates, hexpired]
      rw [hnot] at hgenerates
      rw [Db.runFaulty_bind_error _ hrun]
      exact .settles (puts_of_generates_none hgenerates) (fun f hf => hfiles ▸ hf) hmarked
  | false =>
      rw [Db.runFaulty_bind_ok _ (runFaulty_refuseExpired_open hexpired faults s)]
      have hregenerates : regenerates l.req.now entry.createdBy s entry =
          decide (entry.status ≠ .ready ∨ !fileExists s entry) := by
        simp [regenerates, hexpired]
      -- a regeneration that leaves everything as it was, whatever is recorded then
      have hrests : l.puts env s = none → ∀ r faults',
          (regenerate env l.req.now entry).runFaulty faults s = (r, faults', s) →
          Effect env l s ((regenerate env l.req.now entry >>= tail).runFaulty faults s).2.2 := by
        intro hputs r faults' hrun
        obtain ⟨v, rfl, hfiles, hexports⟩ := runFaulty_recorded htail hrun
        exact .settles hputs (fun f hf => hfiles ▸ hf) (.of_exports hexports)
      rcases Db.runFaulty_query (fun s => fileExists s entry) faults s with
        ⟨e, hfails, hpresent⟩ | ⟨hsound, hpresent⟩
      · refine hrests (puts_of_unsound ?_) _ _ (Db.runFaulty_bind_error _ hpresent)
        rw [hlookups, hfaults, hfails]
      by_cases hneeded : entry.status ≠ .ready ∨ !fileExists s entry
      swap
      · rw [hregenerates, decide_eq_false hneeded] at hgenerates
        refine hrests (puts_of_generates_none hgenerates) (.ok entry) faults.tail ?_
        refine (Db.runFaulty_bind_ok _ hpresent).trans ?_
        exact congrArg (fun p => Db.runFaulty p faults.tail s) (if_neg hneeded)
      rw [hregenerates, decide_eq_true hneeded] at hgenerates
      have hfound : (regenerate env l.req.now entry).runFaulty faults s =
          (generateFound env l.req.now (some entry)).runFaulty faults.tail s := by
        refine (Db.runFaulty_bind_ok _ hpresent).trans ?_
        refine (congrArg (fun p => Db.runFaulty p faults.tail s) (if_pos hneeded)).trans ?_
        -- the session holds the export: it is not looked up again
        rw [generate_eq, ExportRepository.getExport, Option.filter_some, decide_eq_true rfl]
        rfl
      cases hspec : exportSpecs.lookup entry.module with
      | none =>
          rw [generateFound_unknown hspec] at hfound
          refine hrests (puts_of_generates_none ?_) _ _ hfound
          rw [hgenerates, if_pos rfl, known_eq_none.mpr hspec]
      | some spec =>
          rw [generateFound_known hspec] at hfound
          obtain ⟨r, faults', u, hrows, houtcome⟩ :=
            outcome_generateRows env l.req.now hfind hspec faults.tail
          obtain ⟨v, rfl, hfiles, hexports⟩ := runFaulty_recorded htail (hfound.trans hrows)
          refine effect_of_outcome ?_ hfind hspec (fun n => ?_) houtcome hfiles
            (fun _ _ => .of_exports hexports) (fun _ _ => hexports)
          · rw [hgenerates, if_pos rfl, known_eq_some.mpr ⟨rfl, hspec⟩]
          · rw [hlookups, Nat.add_comm, hfaults, Program.sound_succ, hsound, Bool.true_and]

theorem effect_downloadExport (hevent : l.event = .download exportId adminEmail) :
    Effect env l s ((downloadExport env l.req exportId adminEmail).runFaulty l.faults s).2.2 := by
  rw [downloadExport]
  rcases runFaulty_ownedExport exportId adminEmail l.faults s with
    ⟨e, hrun, hforeign⟩ | ⟨hsound, entry, hrun, hfind, rfl⟩
  · rw [Db.runFaulty_bind_error _ hrun]
    refine .settles ?_ (fun f hf => hf) (.of_exports rfl)
    cases hsound : Program.sound 1 l.faults with
    | false =>
        refine puts_of_unsound ?_
        rw [hevent, Event.lookups, Program.sound_succ, hsound, Bool.false_and]
    | true =>
        refine puts_of_generates_none ?_
        rw [hevent, Event.generates]
        cases hfind : s.exports.find? exportId with
        | none => rfl
        | some entry =>
            have hnot : regenerates l.req.now adminEmail s entry = false := by
              simp [regenerates, hforeign hsound entry hfind]
            rw [Option.filter_some, hnot]
            rfl
  · obtain rfl : entry.id = exportId := (Table.find?_eq_some.mp hfind).2
    rw [Db.runFaulty_bind_ok _ hrun]
    refine effect_serveExport hevent hfind fun n => ?_
    rw [Program.sound_succ, hsound, Bool.true_and]

end Download

/-! ### All events -/

theorem writes_createExport (env : Env) (req : Request) (adminEmail : String)
    (data : ExportCreate) : (createExport env req adminEmail data).Writes Settles := by
  refine (writes_spec _).bind fun spec => ?_
  have hfilters : (filtersForModule data).Writes Settles := by
    rcases data with ⟨_ | _, reason, format, _ | _ | _⟩
    all_goals first
      | exact Db.writes_pure _
      | exact Db.writes_throw _
  refine hfilters.bind fun filters => ?_
  have hcount : (countRows env spec filters.dump).Writes Settles := by
    unfold countRows
    split
    · exact Db.writes_query _
    · split
      · exact Db.writes_query _
      · exact Db.writes_throw _
  refine hcount.bind fun rowCount => ((Db.writes_throw _).when _).bind fun _ => ?_
  refine Db.Writes.bind (Db.writes_save (w := .insertExport _) ⟨?_, rfl, rfl⟩ _ _) fun entry => ?_
  · refine Db.Writes.bind (AuditService.writes_record ?_ _ _) fun _ => Db.writes_pure _
    exact fun _ => trivial
  · exact ExportStatus.noConfusion

/-- **What a step does.** -/
theorem effect (env : Env) (l : Label) (s : Database) : Effect env l s (l.leaves env s) := by
  have hnone : ∀ {α : Type} {p : Db α}, p.Writes Settles →
      l.event.generates l.req.now s = none →
      Effect env l s (p.runFaulty l.faults s).2.2 := by
    intro α p hp hgenerates
    obtain ⟨hfiles, hmarked⟩ := keeps_settles hp l.faults s
    exact .settles (puts_of_generates_none hgenerates) (fun f hf => hfiles ▸ hf) hmarked
  obtain ⟨req, event, faults⟩ := l
  cases event with
  | create adminEmail data => exact hnone (writes_createExport env req adminEmail data) rfl
  | generate exportId => exact effect_generateTask rfl
  | status exportId adminEmail =>
      refine hnone ((Db.writes_query _).bind fun found => ?_) rfl
      cases found with
      | none => exact Db.writes_throw _
      | some entry => exact ((Db.writes_throw _).when _).bind fun _ => Db.writes_pure _
  | download exportId adminEmail => exact effect_downloadExport rfl
  | lose path =>
      exact .settles (puts_of_generates_none rfl) (fun f hf => (List.mem_filter.mp hf).1)
        (.of_exports rfl)
  | others db => exact .settles (puts_of_generates_none rfl) (fun f hf => hf) (.of_exports rfl)

/-! ## The row cap -/

/-- No file has more rows than a file may have, and no export is ready with more. -/
structure Capped (env : Env) (s : Database) : Prop where
  files : ∀ f ∈ s.files, f.2.rows.length ≤ env.settings.exportMaxRows
  exports : ∀ x ∈ s.exports, x.status = .ready → ∀ n, x.rowCount = some n →
    n ≤ env.settings.exportMaxRows

/-- Where a file is put in place, the filters of its export still select no more rows than
that. -/
def Fits (env : Env) (st : State) (l : Label) : Prop :=
  ∀ g ∈ l.puts env st.db,
    ∀ n ∈ ((countRows env g.2 g.1.filters).run st.db).1.toOption, n ≤ env.settings.exportMaxRows

instance (env : Env) (st : State) (l : Label) : Decidable (Fits env st l) := by
  unfold Fits; infer_instance

section Cap
variable {env : Env} {s s' : Database} {entry : Export} {spec : ExportSpec}

theorem Capped.marked (h : Capped env s) (hfiles : ∀ f ∈ s'.files, f ∈ s.files)
    (hmarked : Marked s s') : Capped env s' where
  files f hf := h.files f (hfiles f hf)
  exports x hx hready n hn := by
    rcases hmarked.exports x hx with hnew | ⟨old, hold, -, hrowCount, -, hwas⟩
    · exact absurd hready hnew.status
    · exact h.exports old hold (hwas hready) n (hrowCount.trans hn)

/-- A file of too many rows breaks the cap; nothing else does. -/
theorem Capped.placed_iff (h : Capped env s) (hfile : InPlace env spec entry s s')
    (hexports : (selected env spec entry.filters s).length ≤ env.settings.exportMaxRows →
      ∀ x ∈ s'.exports, x.status = .ready → ∀ n, x.rowCount = some n →
        n ≤ env.settings.exportMaxRows) :
    Capped env s' ↔ (selected env spec entry.filters s).length ≤ env.settings.exportMaxRows := by
  obtain ⟨file, hrows, hfiles⟩ := hfile
  constructor
  · intro hcapped
    have hfile := hcapped.files (pathOf env spec entry, file) (by simp [hfiles])
    rwa [hrows] at hfile
  · intro hle
    refine ⟨fun f hf => ?_, hexports hle⟩
    rw [hfiles] at hf
    rcases List.mem_cons.mp hf with rfl | hold
    · rwa [hrows]
    · exact h.files f (List.mem_filter.mp hold).1

/-- One event keeps the cap exactly where the rows of its file fit. -/
theorem Capped.step_iff {st : State} (h : Capped env st.db) (l : Label) :
    Capped env (next env l st).db ↔ Fits env st l := by
  have hfits : ∀ {entry : Export} {spec : ExportSpec}, l.puts env st.db = some (entry, spec) →
      exportSpecs.lookup entry.module = some spec →
      ((selected env spec entry.filters st.db).length ≤ env.settings.exportMaxRows ↔
        Fits env st l) := by
    intro entry spec hputs hspec
    rw [Fits, hputs]
    simp [run_countRows hspec, Except.toOption]
  cases effect env l st.db with
  | settles hputs hfiles hmarked =>
      refine iff_of_true (h.marked hfiles hmarked) fun g hg => ?_
      rw [hputs] at hg
      cases hg
  | puts hputs _ hspec hfile hmarked =>
      refine (h.placed_iff hfile fun _ x hx hready n hn => ?_).trans (hfits hputs hspec)
      rcases hmarked.exports x hx with hnew | ⟨old, hold, -, hrowCount, -, hwas⟩
      · exact absurd hready hnew.status
      · exact h.exports old hold (hwas hready) n (hrowCount.trans hn)
  | readies hreadies _ hspec hgenerated =>
      refine (h.placed_iff hgenerated.file fun hle x hx hready n hn => ?_).trans
        (hfits (puts_of_readies hreadies) hspec)
      rcases (hgenerated.exports x).mp hx with rfl | ⟨hold, -⟩
      · obtain rfl := Option.some.inj hn
        exact hle
      · exact h.exports x hold hready n hn

end Cap

/-- **When the row cap holds.** In every run, whatever others commit in between and whatever
fails, no file and no ready export ever has more rows than allowed exactly if every generation
that puts its file in place, in the background or on a download, finds no more than that. -/
theorem capped_iff {env : Env} {t : List (State × Label)} {st : State}
    (h : (machine env).Run t st) :
    (∀ u ∈ Machine.visited t st, Capped env u.db) ↔ ∀ p ∈ t, Fits env p.1 p.2 := by
  refine h.always_iff (I := fun _ => True) (fun u hu => ⟨trivial, ?_⟩)
    (fun _ _ _ _ _ => trivial) fun u l u' _ hu hnext => ?_
  · exact ⟨by simp [hu.2.1], fun x hx => absurd hx (hu.1 x)⟩
  · obtain rfl := Option.some.inj hnext
    exact hu.step_iff l

/-! ## The window of the download -/

/-- The window of a file that is generated now. -/
def windowFrom (env : Env) (now : Instant) : Instant :=
  now + Instant.hours env.settings.exportLinkTtlHours

/-- An export that has been ready expires as its first file does. -/
def WindowFixed (env : Env) (st : State) : Prop :=
  ∀ exportId since, (exportId, since) ∈ st.readySince →
    ∃ entry, st.db.exports.find? exportId = some entry ∧
      entry.expiresAt = some (windowFrom env since)

/-- A download after the window of the first file is refused. -/
def RefusesLate (env : Env) (st : State) (l : Label) : Prop :=
  ∀ exportId adminEmail since, l.event = .download exportId adminEmail →
    (exportId, since) ∈ st.readySince → windowFrom env since ≤ l.req.now →
    ∃ e, ((downloadExport env l.req exportId adminEmail).runFaulty l.faults st.db).1 = .error e

/-- Where an export is marked ready, it has had no window before, or the same. -/
def FirstWindow (env : Env) (st : State) (l : Label) : Prop :=
  ∀ g ∈ l.readies env st.db, ∀ expiresAt ∈ g.1.expiresAt, expiresAt = windowFrom env l.req.now

instance (env : Env) (st : State) (l : Label) : Decidable (FirstWindow env st l) := by
  unfold FirstWindow; infer_instance

/-- Every export that is ready or has a window is noted. -/
def Noted (st : State) : Prop :=
  ∀ x ∈ st.db.exports, x.status = .ready ∨ x.expiresAt ≠ none →
    ∃ since, (x.id, since) ∈ st.readySince

section Window
variable {env : Env} {st : State} {l : Label}

theorem mem_newlyReady {now : Instant} {s : Database} {readySince : List (Uuid × Instant)}
    {exportId : Uuid} {since : Instant} :
    (exportId, since) ∈ newlyReady now s readySince ↔
      since = now ∧ exportId ∉ readySince.map Prod.fst ∧
        ∃ x ∈ s.exports, x.id = exportId ∧ x.status = .ready := by
  simp only [newlyReady, List.mem_map, Table.mem_select, decide_eq_true_eq, Prod.mk.injEq]
  constructor
  · rintro ⟨x, ⟨hx, hready, hnew⟩, rfl, rfl⟩
    exact ⟨rfl, hnew, x, hx, rfl, hready⟩
  · rintro ⟨rfl, hnew, x, hx, rfl, hready⟩
    exact ⟨x, ⟨hx, hready, hnew⟩, rfl, rfl⟩

/-- A ready export is noted by the step that finds it ready. -/
theorem noted_of_ready {x : Export} (hx : x ∈ (next env l st).db.exports)
    (hready : x.status = .ready) : ∃ since, (x.id, since) ∈ (next env l st).readySince := by
  by_cases hold : x.id ∈ st.readySince.map Prod.fst
  · obtain ⟨⟨_, since⟩, hin, rfl⟩ := List.mem_map.mp hold
    exact ⟨since, List.mem_append_right _ hin⟩
  · exact ⟨l.req.now, List.mem_append_left _ (mem_newlyReady.mpr ⟨rfl, hold, x, hx, rfl, hready⟩)⟩

theorem Noted.marked (h : Noted st) (hmarked : Marked st.db (l.leaves env st.db)) :
    Noted (next env l st) := by
  intro x hx hstatus
  rcases hstatus with hready | hwindow
  · exact noted_of_ready hx hready
  rcases hmarked.exports x hx with hnew | ⟨old, hold, hid, -, hexpiresAt, -⟩
  · exact absurd hnew.expiresAt hwindow
  · obtain ⟨since, hin⟩ := h old hold (.inr (hexpiresAt ▸ hwindow))
    exact ⟨since, List.mem_append_right _ (hid ▸ hin)⟩

theorem Noted.step (h : Noted st) (l : Label) : Noted (next env l st) := by
  have heffect := effect env l st.db
  generalize hdb : l.leaves env st.db = db at heffect
  cases heffect with
  | settles _ _ hmarked => exact h.marked (hdb ▸ hmarked)
  | puts _ _ _ _ hmarked => exact h.marked (hdb ▸ hmarked)
  | readies _ _ _ hgenerated =>
      intro x hx hstatus
      have hin : x ∈ db.exports := hdb ▸ hx
      rcases (hgenerated.exports x).mp hin with rfl | ⟨hold, -⟩
      · exact noted_of_ready hx rfl
      · obtain ⟨since, hnoted⟩ := h x hold hstatus
        exact ⟨since, List.mem_append_right _ hnoted⟩

/-- An export that has just become ready was not ready before. -/
theorem not_mem_newlyReady {s : Database} (h : Noted st) {exportId : Uuid} {since : Instant}
    {now : Instant} (hwas : ∀ x ∈ s.exports, x.id = exportId → x.status = .ready →
      ∃ old ∈ st.db.exports, old.id = exportId ∧ old.status = .ready) :
    (exportId, since) ∉ newlyReady now s st.readySince := by
  intro hin
  obtain ⟨-, hnew, x, hx, hid, hready⟩ := mem_newlyReady.mp hin
  obtain ⟨old, hold, rfl, hwasReady⟩ := hwas x hx hid hready
  obtain ⟨since', hnoted⟩ := h old hold (.inl hwasReady)
  exact hnew (List.mem_map_of_mem hnoted)

theorem WindowFixed.marked (h : WindowFixed env st) (hn : Noted st)
    (hmarked : Marked st.db (l.leaves env st.db)) : WindowFixed env (next env l st) := by
  intro exportId since hin
  rcases List.mem_append.mp hin with hnew | hold
  · refine absurd hnew (not_mem_newlyReady hn fun x hx hid hready => ?_)
    rcases hmarked.exports x hx with hunready | ⟨old, hold, hsame, -, -, hwas⟩
    · exact absurd hready hunready.status
    · exact ⟨old, hold, hsame.trans hid, hwas hready⟩
  · obtain ⟨entry, hfind, hexpiresAt⟩ := h exportId since hold
    obtain ⟨hmem, hid⟩ := Table.find?_eq_some.mp hfind
    obtain ⟨x, hx, hxid, hxexpires⟩ := hmarked.kept entry hmem
    exact ⟨x, Table.find?_eq_some.mpr ⟨hx, hxid.trans hid⟩, hxexpires.trans hexpiresAt⟩

/-- A generation that goes through keeps the windows fixed exactly where the export has had
none, or the same. -/
theorem WindowFixed.generated_iff (h : WindowFixed env st) (hn : Noted st) {entry : Export}
    {spec : ExportSpec} (hfind : st.db.exports.find? entry.id = some entry)
    (hg : Generated env l.req.now spec entry st.db (l.leaves env st.db)) :
    WindowFixed env (next env l st) ↔
      ∀ expiresAt ∈ entry.expiresAt, expiresAt = windowFrom env l.req.now := by
  have hmem : entry ∈ st.db.exports := (Table.find?_eq_some.mp hfind).1
  -- the export that is generated has the window of this step
  have hready : ∀ x, (l.leaves env st.db).exports.find? entry.id = some x →
      x.expiresAt = some (windowFrom env l.req.now) := by
    intro x hx
    obtain ⟨hin, hid⟩ := Table.find?_eq_some.mp hx
    rcases (hg.exports x).mp hin with rfl | ⟨-, hne⟩
    · rfl
    · exact absurd hid hne
  constructor
  · intro hfixed expiresAt hexpiresAt
    have hexpiresAt : entry.expiresAt = some expiresAt := hexpiresAt
    obtain ⟨since, hnoted⟩ := hn entry hmem (.inr (by simp [hexpiresAt]))
    obtain ⟨y, hy, hold⟩ := h entry.id since hnoted
    obtain rfl := Option.some.inj (hfind.symm.trans hy)
    obtain ⟨z, hz, hnew⟩ := hfixed entry.id since (List.mem_append_right _ hnoted)
    rw [hready z hz] at hnew
    rw [hexpiresAt] at hold
    exact (Option.some.inj hold).trans (Option.some.inj hnew).symm
  · intro hfirst exportId since hin
    by_cases hid : exportId = entry.id
    · subst hid
      refine ⟨_, Table.find?_eq_some.mpr ⟨(hg.exports _).mpr (.inl rfl), rfl⟩, ?_⟩
      show some (windowFrom env l.req.now) = some (windowFrom env since)
      rcases List.mem_append.mp hin with hnew | hold
      · rw [(mem_newlyReady.mp hnew).1]
      · obtain ⟨y, hy, hwindow⟩ := h entry.id since hold
        obtain rfl := Option.some.inj (hfind.symm.trans hy)
        rw [hfirst _ hwindow]
    · rcases List.mem_append.mp hin with hnew | hold
      · refine absurd hnew (not_mem_newlyReady hn fun x hx hxid hready => ?_)
        rcases (hg.exports x).mp hx with rfl | ⟨hold, -⟩
        · exact absurd hxid.symm hid
        · exact ⟨x, hold, hxid, hready⟩
      · obtain ⟨y, hy, hwindow⟩ := h exportId since hold
        obtain ⟨hymem, rfl⟩ := Table.find?_eq_some.mp hy
        exact ⟨y, Table.find?_eq_some.mpr ⟨(hg.exports y).mpr (.inr ⟨hymem, hid⟩), rfl⟩, hwindow⟩

/-- One event keeps the windows fixed exactly where it marks no export ready a second time. -/
theorem WindowFixed.step_iff (h : WindowFixed env st) (hn : Noted st) (l : Label) :
    WindowFixed env (next env l st) ↔ FirstWindow env st l := by
  have hnone : l.readies env st.db = none → FirstWindow env st l := by
    intro hreadies g hg
    rw [hreadies] at hg
    cases hg
  have heffect := effect env l st.db
  generalize hdb : l.leaves env st.db = db at heffect
  cases heffect with
  | settles hputs _ hmarked =>
      refine iff_of_true (h.marked hn (hdb ▸ hmarked)) (hnone ?_)
      rw [Label.readies, hputs, Option.filter_none]
  | puts _ hreadies _ _ hmarked =>
      exact iff_of_true (h.marked hn (hdb ▸ hmarked)) (hnone hreadies)
  | readies hreadies hfind _ hgenerated =>
      refine (h.generated_iff hn hfind (hdb ▸ hgenerated)).trans ?_
      rw [FirstWindow, hreadies]
      simp

/-- Where the window is that of the first file, a late download is refused. -/
theorem WindowFixed.refusesLate (h : WindowFixed env st) (l : Label) : RefusesLate env st l := by
  intro exportId adminEmail since _ hin hlate
  obtain ⟨entry, hfind, hexpiresAt⟩ := h exportId since hin
  rw [downloadExport]
  rcases runFaulty_ownedExport exportId adminEmail l.faults st.db with
    ⟨e, hrun, -⟩ | ⟨-, x, hrun, hx, -⟩
  · exact ⟨e, congrArg Prod.fst (Db.runFaulty_bind_error _ hrun)⟩
  · obtain rfl := Option.some.inj (hfind.symm.trans hx)
    have hexpired : (entry.expiresAt.any fun expiresAt => expiresAt ≤ l.req.now) = true := by
      rw [hexpiresAt, Option.any_some]
      exact decide_eq_true hlate
    obtain ⟨e, faults', u, hrefused, -⟩ := runFaulty_refuseExpired hexpired l.faults.tail st.db
    have hserve : (serveExport env l.req entry).runFaulty l.faults.tail st.db =
        (.error e, faults', u) := Db.runFaulty_bind_error _ hrefused
    exact ⟨e, congrArg Prod.fst ((Db.runFaulty_bind_ok _ hrun).trans hserve)⟩

end Window

/-- **When the download window is fixed.** In every run, whatever fails, no export that has been
ready ever expires at another time than its first file and every later download is refused,
exactly if no step marks an export ready that has a window already (but at the very time it got
it). -/
theorem window_fixed_iff {env : Env} {t : List (State × Label)} {st : State}
    (h : (machine env).Run t st) :
    ((∀ u ∈ Machine.visited t st, WindowFixed env u) ∧ ∀ p ∈ t, RefusesLate env p.1 p.2) ↔
      ∀ p ∈ t, FirstWindow env p.1 p.2 := by
  have hfixed : (∀ u ∈ Machine.visited t st, WindowFixed env u) ↔
      ∀ p ∈ t, FirstWindow env p.1 p.2 := by
    refine h.always_iff (I := Noted) (fun u hu => ?_) (fun u l u' hu hnext => ?_)
      fun u l u' hu hwindow hnext => ?_
    · obtain ⟨hnone, -, hsince⟩ := hu
      refine ⟨fun x hx => absurd hx (hnone x), fun exportId since hin => ?_⟩
      rw [hsince] at hin
      cases hin
    · obtain rfl := Option.some.inj hnext
      exact hu.step l
    · obtain rfl := Option.some.inj hnext
      exact hwindow.step_iff hu l
  refine ⟨fun hboth => hfixed.mp hboth.1, fun hfirst => ⟨hfixed.mpr hfirst, fun p hp => ?_⟩⟩
  have hmem : p.1 ∈ Machine.visited t st := by simp [Machine.visited, List.mem_map_of_mem hp]
  exact (hfixed.mpr hfirst p.1 hmem).refusesLate p.2

/-! ## Sample lives -/

open Administration (sampleEnv sampleState sampleRequest sampleAdmin)

/-- Files of two rows at most. -/
def smallFiles : Env := { sampleEnv with settings := { exportMaxRows := 2 } }

/-- The export of the admins is created. -/
def createdLabel : Label where
  req := sampleRequest 1
  event := .create "admin1@example.com" { module := .users, reason := "review" }

/-- There are two admins, and a third one. -/
def joinedBy (username : String) : Event :=
  .others
    { sampleState with
      admins :=
        (sampleState.admins.insert (sampleAdmin 3 username "admin3@example.com")).getD
          sampleState.admins }

/-- While the name of a third admin cannot be written, the generation fails; the first download
generates the export, and its file has two rows. -/
def refusedCalls : List Label :=
  [createdLabel, ⟨sampleRequest 2, joinedBy "\u0001", []⟩,
    ⟨sampleRequest 3, .generate (.ofNat 101), []⟩, ⟨sampleRequest 4, .others sampleState, []⟩,
    ⟨sampleRequest 5, .download (.ofNat 101) "admin1@example.com", []⟩]

/-- A third admin is added before the export is generated. -/
def grownCalls : List Label :=
  [createdLabel, ⟨sampleRequest 2, joinedBy "admin3", []⟩,
    ⟨sampleRequest 3, .generate (.ofNat 101), []⟩]

/-- The export is generated, its file gets lost, and a download generates it anew, whose
statements fail as given. -/
def lostCalls (faults : List (Option Failure)) : List Label :=
  [createdLabel, ⟨sampleRequest 2, .generate (.ofNat 101), []⟩,
    ⟨sampleRequest 3, .lose "exports/users_export_19700101_000001_00000000.xlsx", []⟩,
    ⟨sampleRequest 4, .download (.ofNat 101) "admin1@example.com", faults⟩]

/-- The update of the export fails, after the file is in place. -/
def lostUpdate : List (Option Failure) := [none, none, none, none, some (.database .integrity)]

theorem init_sampleState (env : Env) : (machine env).init ⟨sampleState, []⟩ := by
  refine ⟨fun entry hentry => ?_, rfl, rfl⟩
  cases hentry

theorem capped_refusedCalls :
    ∃ t st, (machine smallFiles).Run t st ∧ t.map Prod.snd = refusedCalls ∧
      (t.map fun p => p.1.db.exports.rows.map Export.status) =
        [[], [.pending], [.pending], [.failed], [.failed]] ∧
      st.db.files.map (fun f => f.2.rows.length) = [2] ∧
      ∀ u ∈ Machine.visited t st, Capped smallFiles u.db := by
  have hfiles : ((machine smallFiles).exec refusedCalls ⟨sampleState, []⟩).map
      (fun st => st.db.files.map fun f => f.2.rows.length) = some [2] := by decide +kernel
  obtain ⟨st, hexec, hst⟩ := Option.map_eq_some_iff.mp hfiles
  have hrun := Machine.Run.of_exec (.start (init_sampleState _)) hexec
  refine ⟨_, st, hrun, Machine.map_snd_trace hexec, ?_, hst, (capped_iff hrun).mpr ?_⟩
  · decide +kernel
  · decide +kernel

theorem window_fixed_lostUpdate :
    ∃ t st, (machine sampleEnv).Run t st ∧ t.map Prod.snd = lostCalls lostUpdate ∧
      st.readySince = [(.ofNat 101, Instant.seconds 2)] ∧ st.db.files.length = 1 ∧
      (∀ u ∈ Machine.visited t st, WindowFixed sampleEnv u) ∧
        ∀ p ∈ t, RefusesLate sampleEnv p.1 p.2 := by
  have hsince : ((machine sampleEnv).exec (lostCalls lostUpdate) ⟨sampleState, []⟩).map
      (fun st => (st.readySince, st.db.files.length)) =
      some ([(.ofNat 101, Instant.seconds 2)], 1) := by decide +kernel
  obtain ⟨st, hexec, hst⟩ := Option.map_eq_some_iff.mp hsince
  obtain ⟨hready, hfiles⟩ := Prod.mk.inj hst
  have hrun := Machine.Run.of_exec (.start (init_sampleState _)) hexec
  refine ⟨_, st, hrun, Machine.map_snd_trace hexec, hready, hfiles, (window_fixed_iff hrun).mpr ?_⟩
  decide +kernel

/-- **A file of three rows**, where two are allowed. -/
theorem cap_exceeded :
    ¬ ∀ t st, (machine smallFiles).Run t st → ∀ u ∈ Machine.visited t st,
      Capped smallFiles u.db := by
  intro hcapped
  have hfiles : ((machine smallFiles).exec grownCalls ⟨sampleState, []⟩).map
      (fun st => st.db.files.map fun f => f.2.rows.length) = some [3] := by decide +kernel
  obtain ⟨st, hexec, hst⟩ := Option.map_eq_some_iff.mp hfiles
  have hrun := Machine.Run.of_exec (.start (init_sampleState _)) hexec
  have hle := (hcapped _ st hrun st (by simp [Machine.visited])).files
  have hlong : 3 ∈ st.db.files.map fun f => f.2.rows.length := by simp [hst]
  obtain ⟨f, hf, hlength⟩ := List.mem_map.mp hlong
  have htwo : f.2.rows.length ≤ 2 := hle f hf
  omega

/-- **A window that moves** when the lost file is generated anew, two seconds later. -/
theorem window_moves :
    ¬ ∀ t st, (machine sampleEnv).Run t st → (t.map fun p => p.2.req.now).Pairwise (· ≤ ·) →
      ∀ u ∈ Machine.visited t st, WindowFixed sampleEnv u := by
  intro hfixed
  have hwindows : ((machine sampleEnv).exec (lostCalls []) ⟨sampleState, []⟩).map
      (fun st => (st.readySince, st.db.exports.rows.map fun entry => (entry.id, entry.expiresAt))) =
      some ([(.ofNat 101, Instant.seconds 2)],
        [(.ofNat 101, some (windowFrom sampleEnv (Instant.seconds 4)))]) := by decide +kernel
  obtain ⟨st, hexec, hst⟩ := Option.map_eq_some_iff.mp hwindows
  obtain ⟨hsince, hexports⟩ := Prod.mk.inj hst
  have hrun := Machine.Run.of_exec (.start (init_sampleState _)) hexec
  have htimes : ((Machine.trace (machine sampleEnv) (lostCalls []) ⟨sampleState, []⟩).map
      fun p => p.2.req.now) = (lostCalls []).map fun l => l.req.now := by
    rw [← Machine.map_snd_trace hexec, List.map_map]
    rfl
  obtain ⟨entry, hfind, hexpiresAt⟩ := hfixed _ st hrun (by rw [List.nil_append, htimes]; decide) st
    (by simp [Machine.visited]) (.ofNat 101) (Instant.seconds 2) (by simp [hsince])
  obtain ⟨hmem, -⟩ := Table.find?_eq_some.mp hfind
  have hin : (entry.id, entry.expiresAt) ∈ st.db.exports.rows.map
      fun entry => (entry.id, entry.expiresAt) := List.mem_map_of_mem hmem
  rw [hexports, List.mem_singleton, hexpiresAt] at hin
  exact absurd (Prod.mk.inj hin).2 (by decide)

end Lifecycle
end AdminPlatform
