import AdminPlatform.Exports.Status
import AdminPlatform.Exports.Streaming
import AdminPlatform.Platform

/-! # What is in the file of an export

An export is generated while the platform is at work: between any two queries of its stream
requests are served, statements fail and audit entries are promoted. Requests never take an
admin out or change what the stream goes by, and promoters only add entries (`Grows`), so the
file captures the table, of all the states its stream has seen (`file_captures`). In a download
the row of the caller is the object that the session holds, which stands where the row does. -/

namespace AdminPlatform
open AdminPlatform.Lib

/-! ## What a stream goes by stays -/

/-- No admin and no audit entry is lost, and the columns a stream goes by are kept. -/
structure Grows (s s' : Database) : Prop where
  admins : Table.Stays PlatformAdmin.permanent s.admins s'.admins
  logs : ∀ row ∈ s.auditLogs, row ∈ s'.auditLogs

theorem Grows.refl (s : Database) : Grows s s := ⟨.refl _, fun _ hrow => hrow⟩

theorem Grows.trans {s s' s'' : Database} (h : Grows s s') (h' : Grows s' s'') : Grows s s'' :=
  ⟨h.admins.trans h'.admins, fun row hrow => h'.logs row (h.logs row hrow)⟩

/-- A promoter only adds entries. -/
theorem Audit.table_of_step {π κ : Type*} [DecidableEq π] [DecidableEq κ] {l : Audit.Label π κ}
    {a a' : Audit.State π κ} (h : Audit.Step l a a') : ∀ row ∈ a.table, row ∈ a'.table := by
  intro row hrow
  cases h with
  | commit hp =>
      show row ∈ (a.logs ++ _).map Entry.row
      rw [List.map_append]
      exact List.mem_append_left _ hrow
  | _ => exact hrow

namespace Platform
variable {ι π : Type} [DecidableEq ι] [DecidableEq π] {env : Env}
  {encode : EncodedToken → String} {calls : ι → Request × Api.Call} {start : Database}
  {s s' : Platform ι π} {t : List (Platform ι π × Label ι π)}

theorem grows_step (hrun : (machine env encode calls start).Run t s) {l : Label ι π}
    (hs : step l s = some s') : Grows s.database s'.database := by
  cases l with
  | turn i fault =>
      obtain ⟨u, hturn, -, rfl⟩ := turn_inv hs
      rcases write_of_turn hrun hturn with hsame | ⟨w, happly, hlawful, -⟩
      · show Grows s.database u.shared
        rw [hsame]
        exact .refl _
      · have hretains := Api.retains_of_lawful hlawful happly
        exact ⟨hretains.admins, fun row hrow => hretains.logs ▸ hrow⟩
  | promote l =>
      obtain ⟨-, a, ha, rfl⟩ := promote_inv hs
      refine ⟨.refl _, fun row hrow => ?_⟩
      rw [← (simulates hrun).2] at hrow
      exact Audit.table_of_step (Audit.step_inv ha) row hrow

/-- **The tables of a platform only grow**, whatever it does. -/
theorem grows_of_run (hrun : (machine env encode calls start).Run t s) :
    (Machine.visited t s).Pairwise fun v w => Grows v.database w.database :=
  Machine.Run.pairwise (R := fun v w : Platform ι π => Grows v.database w.database)
    (fun v => .refl v.database) (fun _ _ _ => .trans) (fun _ _ _ _ hr hs => grows_step hr hs) hrun

omit [DecidableEq π] in
/-- What a request has seen it has seen in the order of the run. -/
theorem states_past_sublist (t : List (Platform ι π × Label ι π)) (i : ι) :
    (past t i).states.Sublist (t.map fun p => p.1.database) := by
  refine (Program.states_done_sublist i (t.filterMap turnOf)).trans ?_
  induction t with
  | nil => exact .slnil
  | cons p t ih =>
      obtain ⟨v, l⟩ := p
      cases l with
      | turn j fault => exact ih.cons_cons _
      | promote l => exact ih.cons _

/-- **An admin has one `created_at`**, in whatever states of a run it is found. -/
theorem createdAt_eq (hrun : (machine env encode calls start).Run t s) {p q : Platform ι π × Label ι π}
    (hp : p ∈ t) (hq : q ∈ t) {a b : PlatformAdmin} (ha : a ∈ p.1.database.admins)
    (hb : b ∈ q.1.database.admins) (hid : a.id = b.id) : a.createdAt = b.createdAt := by
  let Same (v w : Database) : Prop := ∀ a ∈ v.admins, ∀ b ∈ w.admins, a.id = b.id →
    a.createdAt = b.createdAt
  have hsymm : Std.Symm Same := ⟨fun v w h a ha b hb hid => (h b hb a ha hid.symm).symm⟩
  have hrefl : ∀ v, Same v v := fun v a ha b hb hid =>
    congrArg PlatformAdmin.createdAt (Table.eq_of_key ha hb hid)
  have hgrows : ∀ v w : Database, Grows v w → Same v w := by
    intro v w h a ha b hb hid
    obtain ⟨a', ha', hpermanent⟩ := h.admins a ha
    obtain ⟨hid', hcreatedAt⟩ := Prod.mk.inj hpermanent
    rw [← hcreatedAt]
    exact hrefl w a' ha' b hb (hid'.trans hid)
  have hvisited := grows_of_run hrun
  rw [Machine.visited, List.pairwise_append] at hvisited
  have hpairwise : (t.map fun p => p.1.database).Pairwise Same :=
    List.pairwise_map.mpr ((List.pairwise_map.mp hvisited.1).imp fun h => hgrows _ _ h)
  have hall := List.Pairwise.forall_of_forall (fun v _ => hrefl v) hpairwise
  exact hall (List.mem_map_of_mem hp) (List.mem_map_of_mem hq) a ha b hb hid

end Platform

/-! ## A file captures its table -/

namespace Exports
open ExportService

/-- The rows of a file, by the states the stream has seen: of the two tables that are exported,
oldest admins and newest entries first. -/
inductive Captured (env : Env) (filters : Json) (seen : List Database) :
    ExportSpec → List ExportRow → Prop
  | users {admins : List PlatformAdmin} :
      Keyset.Captures (fun a b => userKey a < userKey b) PlatformAdmin.id
        (platformAdminMatches env (usersFiltersFromDict filters).1
          (usersFiltersFromDict filters).2) (fun s : Database => s.admins.rows) seen admins →
      Captured env filters seen usersExportSpec (admins.map .user)
  | audit {entries : List Audit.AuditLog} :
      Keyset.Captures (fun a b => auditKey a < auditKey b) Audit.AuditLog.id
        (auditFiltersFromDict filters).matches Database.auditLogs seen entries →
      Captured env filters seen auditExportSpec (entries.map .audit)

variable {env : Env} {encode : EncodedToken → String} {req : Request} {past : Past}
  {call : Api.Call} {spec : ExportSpec} {filters : Json}

/-- The request generates the file of the export, in a session that may hold an admin: the
background task in a session of its own, a download in that of its caller. -/
inductive Generates (req : Request) (past : Past) : Api.Call → Uuid → Option PlatformAdmin → Prop
  | task {exportId queries} : Generates req past (.generateTask exportId queries) exportId none
  | download {credentials exportId queries caller} :
      Api.Authenticated req credentials past caller →
      Generates req past (.downloadExport credentials exportId queries) exportId (some caller)

/-- The admin that a session holds was found when its request was authenticated. -/
theorem Generates.found {exportId : Uuid} {session : Option PlatformAdmin}
    (h : Generates req past call exportId session) :
    ∀ caller ∈ session, past.Saw fun u => u.admins.find? caller.id = some caller := by
  cases h with
  | task => exact nofun
  | download hauthenticated =>
      rintro _ ⟨⟩
      exact hauthenticated.found

/-- A file is only written with the rows that were fetched since its export was loaded. -/
theorem fetched_of_lawful {path : String} {book : Workbook}
    (h : Api.Lawful env encode req past call (.writeFile path book)) :
    ∃ exportId session entry spec before rows, Generates req past call exportId session ∧
      before.Saw (fun u => u.exports.find? exportId = some entry) ∧
      exportSpecs.lookup entry.module = some spec ∧
      Fetched env session spec entry.filters before past rows ∧
      path = pathOf env spec entry ∧ book = workbook env req.now spec entry rows := by
  cases h with
  | downloadExport hgranted h =>
      cases h with
      | file howned _ hspec hrows =>
          exact ⟨_, _, _, _, _, _, .download (Api.Checked.authenticated hgranted), howned.2, hspec,
            hrows, rfl, rfl⟩
  | generateTask h =>
      cases h with
      | file hsaw hspec hrows => exact ⟨_, _, _, _, _, _, .task, hsaw, hspec, hrows, rfl, rfl⟩
  | _ =>
      rename_i h
      cases h

/-- The admins of a file that captures its table were in it. -/
theorem Captured.mem_admins {seen : List Database} {rows : List ExportRow}
    (h : Captured env filters seen spec rows) {row : PlatformAdmin} (hrow : .user row ∈ rows) :
    ∃ s ∈ seen, row ∈ s.admins := by
  cases h with
  | users hcaptures =>
      obtain ⟨admin, hin, ⟨⟩⟩ := List.mem_map.mp hrow
      exact (hcaptures.sound row hin).2
  | audit hcaptures =>
      obtain ⟨entry, -, ⟨⟩⟩ := List.mem_map.mp hrow

/-- **What was fetched is captured**, if the tables have only grown on the way. -/
theorem captured_of_stream {seen : List Database} {last : Database}
    {chunks : List (List ExportRow)} {module : String} {fuel : Nat}
    (hspec : exportSpecs.lookup module = some spec) (hlast : seen.getLast? = some last)
    (hsize : 1 ≤ env.settings.exportStreamChunkSize) (hgrows : seen.Pairwise Grows)
    (hkey : ∀ s ∈ seen, (s.auditLogs.map Audit.AuditLog.id).Nodup)
    (hstream : rowStreamByChunk env spec filters fuel (fun n => seen.getD n last) =
      .ok (some chunks)) :
    Captured env filters seen spec chunks.flatten := by
  rcases lookup_exportSpecs hspec with ⟨-, rfl⟩ | ⟨-, rfl⟩
  · rw [(rowStreamByChunk_eq env filters fuel _).1] at hstream
    obtain ⟨pages, hpages, rfl⟩ := Option.map_eq_some_iff.mp (Except.ok.inj hstream)
    rw [streamAuditLogsByChunk_eq] at hpages
    rw [← List.map_flatten]
    refine .audit (Keyset.captures hlast hkey (hgrows.imp fun h row hrow => ?_)
      id_eq_of_auditKey hsize hpages)
    exact ⟨row, h.logs row hrow, rfl, rfl⟩
  · rw [(rowStreamByChunk_eq env filters fuel _).2] at hstream
    obtain ⟨pages, hpages, rfl⟩ := Option.map_eq_some_iff.mp (Except.ok.inj hstream)
    rw [streamPlatformAdminsByChunk_eq] at hpages
    rw [← List.map_flatten]
    refine .users (Keyset.captures hlast ?_
      (hgrows.imp fun h row hrow => ?_) id_eq_of_userKey hsize hpages)
    · intro s _
      exact List.pairwise_map.mpr (s.admins.unique.imp fun hclash heq => hclash (Row.of_key heq))
    · obtain ⟨row', hrow', hpermanent⟩ := h.admins row hrow
      obtain ⟨hid, hcreatedAt⟩ := Prod.mk.inj hpermanent
      exact ⟨row', hrow', hid, congrArg toLex (Prod.ext hcreatedAt (congrArg Uuid.bits hid))⟩

/-- A stream that has ended has seen something. -/
theorem ne_nil_of_stream {seen : List Database} {chunks : List (List ExportRow)} {module : String}
    (hspec : exportSpecs.lookup module = some spec) {s : Database}
    (hstream : rowStreamByChunk env spec filters seen.length (fun n => seen.getD n s) =
      .ok (some chunks)) : seen ≠ [] := by
  rintro rfl
  rcases lookup_exportSpecs hspec with ⟨-, rfl⟩ | ⟨-, rfl⟩
  · rw [(rowStreamByChunk_eq env filters _ _).1] at hstream
    cases Except.ok.inj hstream
  · rw [(rowStreamByChunk_eq env filters _ _).2] at hstream
    cases Except.ok.inj hstream

end Exports

namespace Platform
open ExportService
variable {ι π : Type} [DecidableEq ι] [DecidableEq π] {env : Env}
  {encode : EncodedToken → String} {calls : ι → Request × Api.Call} {start : Database}
  {s : Platform ι π} {t : List (Platform ι π × Label ι π)}

/-- **The file of an export captures its table.** Whatever requests and promoters do while the
rows are fetched: what a request is about to write is the file of the export it is for, under
its path; its rows capture the table, of the states the request has queried since it loaded the
export. In a download, the caller's row comes as the session holds it, with the `created_at` that
the row has. `id` is the primary key of `audit_logs`. -/
theorem file_captures (hsize : 1 ≤ env.settings.exportStreamChunkSize)
    (hkey : ∀ p ∈ t, (p.1.database.auditLogs.map Audit.AuditLog.id).Nodup)
    (hrun : (machine env encode calls start).Run t s) {i : ι} {path : String} {book : Workbook}
    {β : Type} {answer : β} {k : Except Failure β → Db Unit}
    (hcall : s.requests i = .call (.commit (.writeFile path book) answer) k) :
    ∃ exportId session entry spec before fetched rows,
      Exports.Generates (calls i).1 (past t i) (calls i).2 exportId session ∧
      past t i = fetched ++ before ∧ fetched.Reads ∧
      before.Saw (fun u => u.exports.find? exportId = some entry) ∧
      exportSpecs.lookup entry.module = some spec ∧ path = pathOf env spec entry ∧
      book = workbook env (calls i).1.now spec entry (rows.map (inSession session)) ∧
      fetched ≠ [] ∧ Exports.Captured env entry.filters fetched.states spec rows ∧
      ∀ caller ∈ session, ∀ row, .user row ∈ rows → caller.id = row.id →
        caller.createdAt = row.createdAt := by
  have hlawful : Api.Lawful env encode (calls i).1 (past t i) (calls i).2 (.writeFile path book) :=
    Program.allowed_of_call keeps_of_start (turns_of_run hrun) hcall
  obtain ⟨exportId, session, entry, spec, before, _, hgenerates, hsaw, hspec,
    ⟨fetched, chunks, hpast, hreads, hstream, rfl⟩, hpath, hbook⟩ := Exports.fetched_of_lawful hlawful
  have hlength : fetched.states.length = fetched.length := by
    rw [Past.states, List.length_reverse, List.length_map]
  rw [← hlength] at hstream
  have hnil := Exports.ne_nil_of_stream hspec (hstream start)
  -- the states it fetched from, among those of the run
  have hsub : fetched.states.Sublist (t.map fun p => p.1.database) := by
    refine List.Sublist.trans ?_ (states_past_sublist t i)
    rw [hpast, Past.states, Past.states, List.map_append, List.reverse_append]
    exact List.sublist_append_right _ _
  have hgrows : fetched.states.Pairwise Grows := by
    refine List.Pairwise.sublist hsub ?_
    have hvisited := grows_of_run hrun
    rw [Machine.visited, List.pairwise_append] at hvisited
    have hbefore := List.pairwise_map.mp hvisited.1
    exact List.pairwise_map.mpr hbefore
  have hunique : ∀ u ∈ fetched.states, (u.auditLogs.map Audit.AuditLog.id).Nodup := by
    intro u hu
    obtain ⟨p, hp, rfl⟩ := List.mem_map.mp (hsub.subset hu)
    exact hkey p hp
  have hcaptured : Exports.Captured env entry.filters fetched.states spec chunks.flatten :=
    Exports.captured_of_stream hspec (List.getLast?_eq_some_getLast hnil) hsize hgrows hunique
      (hstream _)
  refine ⟨exportId, session, entry, spec, before, fetched, _, hgenerates, hpast, hreads, hsaw,
    hspec, hpath, hbook, ?_, hcaptured, ?_⟩
  · rintro rfl
    exact hnil rfl
  · intro caller hcaller row hrow hid
    obtain ⟨v, hv, hfind⟩ := hgenerates.found caller hcaller
    obtain ⟨w, hw, hin⟩ := hcaptured.mem_admins hrow
    have hv' := (states_past_sublist t i).subset (List.mem_reverse.mpr hv)
    obtain ⟨p, hp, rfl⟩ := List.mem_map.mp hv'
    obtain ⟨q, hq, rfl⟩ := List.mem_map.mp (hsub.subset hw)
    exact createdAt_eq hrun hp hq (Table.find?_eq_some.mp hfind).1 hin hid

/-! ## A file among renamings -/

open Administration (sampleRequest)
open Api (signedInState signedInToken)

def exportingState : Database :=
  { signedInState with exports := StatusMoves.sampleThreads.shared.exports }

/-- The admin of the sample downloads an export of users, and changes its own name meanwhile. -/
def exportingCalls (exports : Bool) : Request × Api.Call :=
  if exports then
    (sampleRequest 3,
      .downloadExport (some signedInToken) StatusMoves.sampleExport.id 4)
  else
    (sampleRequest 4,
      .users (some signedInToken)
        (.update (.ofNat 1) { name := some "renamed" }))

def exporting : Platform Bool Unit where
  database := exportingState
  requests exports :=
    (exportingCalls exports).2.serve Exports.singleRows (fun _ => "") (exportingCalls exports).1
  phase _ := .idle
  lock := none
  entries := []
  recorded := []

/-- The download is authenticated and has found the export, then the caller is renamed, then the
admins are fetched, one by one. -/
def exportingLabels : List (Label Bool Unit) :=
  List.replicate 4 (.turn true none) ++ List.replicate 4 (.turn false none) ++
    List.replicate 3 (.turn true none)

theorem initial_exporting :
    Initial Exports.singleRows (fun _ => "") exportingCalls exportingState exporting where
  database := rfl
  requests _ := rfl
  audit :=
    { prechain := fun _ he => (List.not_mem_nil he).elim
      idle := fun _ => rfl
      unlocked := rfl
      quiet := fun _ => rfl
      recorded := rfl
      distinct := List.nodup_nil }
  table := rfl

/-- The names in a file of admins. -/
def usernames (book : Workbook) : List String :=
  book.rows.filterMap fun row =>
    match row with
    | .user row => some row.username
    | .audit _ => none

theorem file_captures_exportingLabels :
    ∃ t s, (machine Exports.singleRows (fun _ => "") exportingCalls exportingState).Run t s ∧
      t.map Prod.snd = exportingLabels ∧
      s.database.admins.rows.map PlatformAdmin.username = ["renamed", "admin2"] ∧
      ∃ path book, usernames book = ["admin1", "admin2"] ∧
        ∃ exportId session entry spec before fetched rows,
          Exports.Generates (exportingCalls true).1 (past t true) (exportingCalls true).2 exportId
            session ∧
          past t true = fetched ++ before ∧ fetched.Reads ∧
          before.Saw (fun u => u.exports.find? exportId = some entry) ∧
          exportSpecs.lookup entry.module = some spec ∧
          path = pathOf Exports.singleRows spec entry ∧
          book = workbook Exports.singleRows (exportingCalls true).1.now spec entry
            (rows.map (inSession session)) ∧
          fetched ≠ [] ∧
          Exports.Captured Exports.singleRows entry.filters fetched.states spec rows ∧
          ∀ caller ∈ session, ∀ row, .user row ∈ rows → caller.id = row.id →
            caller.createdAt = row.createdAt := by
  have hexec : (machine Exports.singleRows (fun _ => "") exportingCalls exportingState).exec
      exportingLabels exporting = some _ := rfl
  have hrun := Machine.Run.of_exec (.start initial_exporting) hexec
  have hlogs : (((machine Exports.singleRows (fun _ => "") exportingCalls exportingState).trace
      exportingLabels exporting).all fun p => p.1.database.auditLogs.isEmpty) = true := rfl
  refine ⟨_, _, hrun, Machine.map_snd_trace hexec, rfl, _, _, ?_,
    file_captures le_rfl (fun p hp => ?_) hrun (i := true) rfl⟩
  · rfl
  · have hnil := List.isEmpty_iff.mp (List.all_eq_true.mp hlogs p hp)
    rw [hnil]
    exact List.nodup_nil

end Platform
end AdminPlatform
