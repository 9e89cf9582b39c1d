import AdminPlatform.Audit.Accountability
import AdminPlatform.Audit.Conservation
import AdminPlatform.Conduct.Retention

/-! # The platform as a whole

Requests to all routes and any number of promoters work on one database, one statement at a
time, in any order; any statement of a request may fail, and any promoter may crash.

Seen from the audit tables this is the machine of `Audit.Interleaving`, and a request that
records an event is one of its recorders (`simulates`). Seen from a request, promoters are
more of the interference it is served under (`turns_of_run`). Both views together make the trail:
the chain verifies, no event that was recorded is missing, and every sealed entry says what one
of the requests has done, and for whom (`trail`). -/

namespace AdminPlatform
open AdminPlatform.Lib

/-- The requests and the promoters of one database. -/
structure Platform (ι π : Type) where
  database : Database
  requests : ι → Db Unit
  phase : π → Audit.Phase
  lock : Option π
  /-- The rows of `audit_logs`, with the intents they were forged from. -/
  entries : List Audit.Entry
  /-- Every intent ever committed. -/
  recorded : List Audit.AuditIntent

/-- The statements of a promoter, and its crash. -/
def Audit.Label.promotes {π κ : Type*} : Audit.Label π κ → Bool
  | .insertIntent _ _ | .commitIntent _ | .abortIntent _ => false
  | _ => true

namespace Platform
variable {ι π : Type}

inductive Label (ι π : Type)
  | turn (i : ι) (fault : Option Failure)
  | promote (l : Audit.Label π ι)

def threads (s : Platform ι π) : Program.Threads Sql Failure Database ι :=
  ⟨s.database, s.requests⟩

/-- The audit tables and the promoters. A request records in one statement, so it is never seen
in the middle of it. -/
def audit (s : Platform ι π) : Audit.State π ι where
  outbox := s.database.auditIntents.rows
  logs := s.entries
  phase := s.phase
  lock := s.lock
  writing _ := none
  recorded := s.recorded

/-- What a promoter leaves. -/
def put (s : Platform ι π) (a : Audit.State π ι) : Platform ι π :=
  { s with
    database :=
      { s.database with
        auditIntents := s.database.auditIntents.delete (fun intent => intent ∉ a.outbox)
        auditLogs := a.table }
    phase := a.phase
    lock := a.lock
    entries := a.logs }

/-- The intents that are in the outbox of `s'` and not yet in that of `s`. -/
def queued (s s' : Database) : List Audit.AuditIntent :=
  s'.auditIntents.rows.drop s.auditIntents.rows.length

variable [DecidableEq ι] [DecidableEq π]

/-- One statement of a request or of a promoter. -/
def step : Label ι π → Platform ι π → Option (Platform ι π)
  | .turn i fault, s =>
      match Program.faultyTurn exec (i, fault) s.threads with
      | none => none
      | some u =>
          -- `uuid4` never repeats an id
          if ∀ intent ∈ queued s.database u.shared, intent.id ∉ s.recorded.map (fun i => i.id) then
            some
              { s with
                database := u.shared
                requests := u.thread
                recorded := s.recorded ++ queued s.database u.shared }
          else none
  | .promote l, s => if l.promotes then (Audit.step l s.audit).map s.put else none

/-- The requests come to the database `start`, and no promoter is at work yet. -/
structure Initial (env : Env) (encode : EncodedToken → String) (calls : ι → Request × Api.Call)
    (start : Database) (s : Platform ι π) : Prop where
  database : s.database = start
  requests : ∀ i, s.requests i = (calls i).2.serve env encode (calls i).1
  audit : Audit.Initial s.audit
  table : s.audit.table = s.database.auditLogs

def machine (env : Env) (encode : EncodedToken → String) (calls : ι → Request × Api.Call)
    (start : Database) : Machine (Platform ι π) (Label ι π) where
  init := Initial env encode calls start
  step := step

/-- A step of a request, as a turn. -/
def turnOf : Platform ι π × Label ι π →
    Option (Program.Threads Sql Failure Database ι × (ι × Option Failure))
  | (s, .turn i fault) => some (s.threads, (i, fault))
  | (_, .promote _) => none

/-- What the request `i` has done in a run. -/
def past (t : List (Platform ι π × Label ι π)) (i : ι) : Past :=
  Program.done exec i (t.filterMap turnOf)

omit [DecidableEq ι] [DecidableEq π] in
theorem Initial.mem_recorded {env : Env} {encode : EncodedToken → String}
    {calls : ι → Request × Api.Call} {start : Database} {s : Platform ι π}
    (h : Initial env encode calls start s) {intent : Audit.AuditIntent} :
    intent ∈ s.recorded ↔ intent ∈ start.auditIntents := by
  have hrecorded : s.recorded = s.database.auditIntents.rows := h.audit.recorded
  rw [hrecorded, h.database, Table.mem_rows]

/-! ## One step -/

section Step
variable {env : Env} {encode : EncodedToken → String} {calls : ι → Request × Api.Call}
  {start : Database} {s s' : Platform ι π} {t : List (Platform ι π × Label ι π)}

theorem turn_inv {i : ι} {fault : Option Failure} (h : step (.turn i fault) s = some s') :
    ∃ u, Program.faultyTurn exec (i, fault) s.threads = some u ∧
      (∀ intent ∈ queued s.database u.shared, intent.id ∉ s.recorded.map (fun i => i.id)) ∧
      s' =
        { s with
          database := u.shared
          requests := u.thread
          recorded := s.recorded ++ queued s.database u.shared } := by
  rw [step] at h
  split at h
  · cases h
  · rename_i u hturn
    split at h
    · rename_i hfresh
      exact ⟨u, hturn, hfresh, (Option.some.inj h).symm⟩
    · cases h

theorem promote_inv {l : Audit.Label π ι} (h : step (.promote l) s = some s') :
    l.promotes = true ∧ ∃ a, Audit.step l s.audit = some a ∧ s' = s.put a := by
  rw [step] at h
  split at h
  · rename_i hl
    obtain ⟨a, ha, rfl⟩ := Option.map_eq_some_iff.mp h
    exact ⟨hl, a, ha, rfl⟩
  · cases h

/-- **The requests of the platform take turns**, whatever promoters do in between. -/
theorem turns_of_run (hrun : (machine env encode calls start).Run t s) :
    Program.Turns exec (fun p => ∀ i, p i = (calls i).2.serve env encode (calls i).1)
      (t.filterMap turnOf) s.requests := by
  induction hrun with
  | start h0 => exact .start h0.requests
  | @step t s l s' _ hs ih =>
      rw [List.filterMap_append]
      cases l with
      | turn i fault =>
          obtain ⟨u, hturn, -, rfl⟩ := turn_inv hs
          exact .turn ih hturn
      | promote l =>
          obtain ⟨-, a, -, rfl⟩ := promote_inv hs
          rw [show [(s, Label.promote l)].filterMap turnOf = [] from rfl, List.append_nil]
          exact ih

omit [DecidableEq ι] in
/-- What a request commits is lawful, after its past. -/
theorem keeps_of_start (p : ι → Db Unit)
    (h : ∀ i, p i = (calls i).2.serve env encode (calls i).1) (i : ι) :
    Program.Keeps exec (Api.policy env encode (calls i).1 (calls i).2).guarantee
      (fun _ _ => True) (p i) [] := by
  rw [h i]
  exact Api.keeps_serve env encode (calls i).1 (calls i).2

/-- What a turn does to the database: nothing, or a write that is lawful. -/
theorem write_of_turn (hrun : (machine env encode calls start).Run t s) {i : ι}
    {fault : Option Failure} {u : Program.Threads Sql Failure Database ι}
    (hturn : Program.faultyTurn exec (i, fault) s.threads = some u) :
    u.shared = s.database ∨ ∃ w, w.apply s.database = .ok u.shared ∧
      Api.Lawful env encode (calls i).1 (past t i) (calls i).2 w ∧
      (past (t ++ [(s, .turn i fault)]) i).WroteAfter (past t i) w := by
  rcases Program.shared_of_turn keeps_of_start (turns_of_run hrun) hturn with
    hsame | ⟨β, c, hallowed, h, hdone⟩
  · exact .inl hsame
  · cases c with
    | query q => exact .inl h
    | commit w answer =>
        rw [exec] at h hdone
        split at h
        · rename_i v happly
          obtain rfl : u.shared = v := h
          rw [happly] at hdone
          refine .inr ⟨w, happly, hallowed, β, answer, s.database, ?_⟩
          unfold past
          rw [List.filterMap_append, ← hdone answer rfl]
          exact List.suffix_refl _
        · exact .inl h

/-- A turn leaves the audit tables, or it queues an intent, which the request has then recorded. -/
theorem audit_of_turn (hrun : (machine env encode calls start).Run t s) {i : ι}
    {fault : Option Failure} {u : Program.Threads Sql Failure Database ι}
    (hturn : Program.faultyTurn exec (i, fault) s.threads = some u) :
    u.shared.auditLogs = s.database.auditLogs ∧
      (u.shared.auditIntents.rows = s.database.auditIntents.rows ∨
        ∃ intent, u.shared.auditIntents.rows = s.database.auditIntents.rows ++ [intent] ∧
          Api.Recorded (calls i).1 (calls i).2 (past (t ++ [(s, .turn i fault)]) i) intent) := by
  rcases write_of_turn hrun hturn with hsame | ⟨w, happly, hlawful, hwrote⟩
  · rw [hsame]
    exact ⟨rfl, .inl rfl⟩
  · refine ⟨(Api.retains_of_lawful hlawful happly).logs, ?_⟩
    rcases (framed_apply happly).auditIntents with hkept | ⟨intent, rfl⟩
    · exact .inl (congrArg Table.rows hkept)
    · obtain ⟨outbox, hinsert, hv⟩ := apply_insertIntent happly
      refine .inr ⟨intent, ?_, _, hwrote, Api.accountable_of_lawful hlawful⟩
      rw [hv]
      exact Table.rows_insert hinsert

/-- So at most one intent is queued by a turn. -/
theorem queued_of_turn (hrun : (machine env encode calls start).Run t s) {i : ι}
    {fault : Option Failure} {u : Program.Threads Sql Failure Database ι}
    (hturn : Program.faultyTurn exec (i, fault) s.threads = some u) :
    u.shared.auditIntents.rows = s.database.auditIntents.rows ++ queued s.database u.shared ∧
      (queued s.database u.shared = [] ∨ ∃ intent, queued s.database u.shared = [intent] ∧
        Api.Recorded (calls i).1 (calls i).2 (past (t ++ [(s, .turn i fault)]) i) intent) := by
  rcases (audit_of_turn hrun hturn).2 with hrows | ⟨intent, hrows, hrecorded⟩
  · have hnone : queued s.database u.shared = [] := by rw [queued, hrows, List.drop_length]
    exact ⟨by rw [hnone, hrows, List.append_nil], .inl hnone⟩
  · have hone : queued s.database u.shared = [intent] := by rw [queued, hrows, List.drop_left]
    exact ⟨by rw [hone, hrows], .inr ⟨intent, hone, hrecorded⟩⟩

/-! ## The audit tables -/

/-- A promoter leaves the recorders and only takes intents out of the outbox. -/
theorem frame_promotes {l : Audit.Label π ι} {a a' : Audit.State π ι} (hl : l.promotes = true)
    (hstep : Audit.Step l a a') : a'.writing = a.writing ∧ a'.recorded = a.recorded ∧
      ∃ keeps : Audit.AuditIntent → Bool, a'.outbox = a.outbox.filter keeps := by
  have hall : a.outbox = a.outbox.filter fun _ => true := by simp
  cases hstep with
  | commit hp => exact ⟨rfl, rfl, _, rfl⟩
  | insertIntent hc => cases hl
  | commitIntent hc hfresh => cases hl
  | abortIntent hc => cases hl
  | _ => exact ⟨rfl, rfl, _, hall⟩

/-- What a promoter does to its view is done to the tables. -/
theorem audit_put {l : Audit.Label π ι} {a : Audit.State π ι} (hl : l.promotes = true)
    (hstep : Audit.Step l s.audit a) : (s.put a).audit = a := by
  obtain ⟨hwriting, hrecorded, keeps, houtbox⟩ := frame_promotes hl hstep
  have hrows : (s.put a).audit.outbox = a.outbox := by
    show s.database.auditIntents.rows.filter (fun i => !decide (i ∉ a.outbox)) = a.outbox
    have hview : s.audit.outbox = s.database.auditIntents.rows := rfl
    rw [houtbox, hview]
    refine List.filter_congr fun i hi => ?_
    simp [hi]
  calc (s.put a).audit
      = { a with
          outbox := (s.put a).audit.outbox
          writing := s.audit.writing
          recorded := s.audit.recorded } := rfl
    _ = a := by rw [hrows, ← hwriting, ← hrecorded]

/-- A turn is, for the audit tables, nothing or a recorder that queues an intent. -/
theorem reachable_turn {a : Audit.State π ι} (hreachable : (Audit.machine π ι).Reachable a)
    (hwriting : a.writing = fun _ => none) (i : ι) {intent : Audit.AuditIntent}
    (hfresh : intent.id ∉ a.recorded.map (fun i => i.id)) :
    (Audit.machine π ι).Reachable
      { a with outbox := a.outbox ++ [intent], recorded := a.recorded ++ [intent] } := by
  obtain ⟨t, hrun⟩ := hreachable
  have hidle : a.writing i = none := congrFun hwriting i
  have hinsert : (Audit.machine π ι).step (.insertIntent i intent) a =
      some (a.write i (some intent)) := by
    simp only [Audit.machine, Audit.step, hidle]
  have hcommit : (Audit.machine π ι).step (.commitIntent i) (a.write i (some intent)) =
      some ((a.write i (some intent)).record i intent) := by
    simp [Audit.machine, Audit.step, Audit.State.write, hfresh]
  have hback : (a.write i (some intent)).record i intent =
      { a with outbox := a.outbox ++ [intent], recorded := a.recorded ++ [intent] } := by
    have hnone : Function.update a.writing i none = a.writing := by
      rw [hwriting]
      funext j
      simp [Function.update_apply]
    simp [Audit.State.record, Audit.State.write, hnone]
  exact ⟨_, hback ▸ (hrun.step hinsert).step hcommit⟩

/-- **The platform simulates the audit machine.** Its audit tables and promoters are in a state
that concurrent promoters and recorders reach. -/
theorem simulates (hrun : (machine env encode calls start).Run t s) :
    (Audit.machine π ι).Reachable s.audit ∧ s.audit.table = s.database.auditLogs := by
  induction hrun with
  | start h0 => exact ⟨⟨[], .start h0.audit⟩, h0.table⟩
  | @step t s l s' hr hs ih =>
      obtain ⟨hreachable, htable⟩ := ih
      cases l with
      | turn i fault =>
          obtain ⟨u, hturn, hfresh, rfl⟩ := turn_inv hs
          refine ⟨?_, htable.trans (audit_of_turn hr hturn).1.symm⟩
          obtain ⟨hrows, hnew⟩ := queued_of_turn hr hturn
          have haudit : ({ s with
              database := u.shared
              requests := u.thread
              recorded := s.recorded ++ queued s.database u.shared } : Platform ι π).audit =
              { s.audit with
                outbox := s.audit.outbox ++ queued s.database u.shared
                recorded := s.audit.recorded ++ queued s.database u.shared } := by
            simp only [audit, hrows]
          rw [haudit]
          rcases hnew with hnone | ⟨intent, hone, -⟩
          · rw [hnone, List.append_nil, List.append_nil]
            exact hreachable
          · rw [hone] at hfresh ⊢
            exact reachable_turn hreachable rfl i (hfresh intent (by simp))
      | promote l =>
          obtain ⟨hl, a, hstep, rfl⟩ := promote_inv hs
          have hput : (s.put a).audit = a := audit_put hl (Audit.step_inv hstep)
          obtain ⟨t', hrun'⟩ := hreachable
          exact ⟨⟨_, hput ▸ hrun'.step hstep⟩, congrArg Audit.State.table hput⟩

/-! ## The trail -/

/-- A request has recorded the intent, and it is accountable for it. -/
def Accounted (calls : ι → Request × Api.Call) (t : List (Platform ι π × Label ι π))
    (intent : Audit.AuditIntent) : Prop :=
  ∃ i, Api.Recorded (calls i).1 (calls i).2 (past t i) intent

omit [DecidableEq π] in
theorem past_suffix (p : Platform ι π × Label ι π) (i : ι) : past t i <:+ past (t ++ [p]) i := by
  unfold past
  rw [List.filterMap_append]
  cases hp : turnOf p with
  | none =>
      have hnone : [p].filterMap turnOf = [] := by simp [hp]
      simp [hnone]
  | some q =>
      rw [show [p].filterMap turnOf = [q] by simp [hp]]
      exact Program.done_suffix q

omit [DecidableEq π] in
theorem Accounted.mono {intent : Audit.AuditIntent} (h : Accounted calls t intent)
    (p : Platform ι π × Label ι π) : Accounted calls (t ++ [p]) intent := by
  obtain ⟨i, hrecorded⟩ := h
  exact ⟨i, hrecorded.mono (past_suffix p i)⟩

/-- **Every recorded intent is accounted for.** -/
theorem accounted_of_recorded (hrun : (machine env encode calls start).Run t s) :
    ∀ intent ∈ s.recorded, intent ∈ start.auditIntents ∨ Accounted calls t intent := by
  induction hrun with
  | start h0 =>
      exact fun intent hmem => .inl (h0.mem_recorded.mp hmem)
  | @step t s l s' hr hs ih =>
      cases l with
      | turn i fault =>
          obtain ⟨u, hturn, -, rfl⟩ := turn_inv hs
          intro intent hmem
          rcases List.mem_append.mp hmem with hold | hnew
          · exact (ih intent hold).imp id fun h => h.mono _
          · rcases (queued_of_turn hr hturn).2 with hnone | ⟨queued, hone, hrecorded⟩
            · rw [hnone] at hnew
              cases hnew
            · rw [hone] at hnew
              obtain rfl := List.mem_singleton.mp hnew
              exact .inr ⟨i, hrecorded⟩
      | promote l =>
          obtain ⟨hl, a, hstep, rfl⟩ := promote_inv hs
          exact fun intent hmem => (ih intent hmem).imp id fun h => h.mono _

/-- **Every intent that was committed is recorded.** -/
theorem recorded_of_wrote (hrun : (machine env encode calls start).Run t s) :
    (∀ intent ∈ start.auditIntents, intent ∈ s.recorded) ∧
      ∀ i intent, (past t i).Wrote (.insertIntent intent) → intent ∈ s.recorded := by
  induction hrun with
  | start h0 =>
      refine ⟨fun intent hmem => h0.mem_recorded.mpr hmem, ?_⟩
      rintro i intent ⟨_, _, _, hwrote⟩
      cases hwrote
  | @step t s l s' hr hs ih =>
      cases l with
      | turn j fault =>
          obtain ⟨u, hturn, -, rfl⟩ := turn_inv hs
          refine ⟨fun intent hmem => List.mem_append_left _ (ih.1 intent hmem), ?_⟩
          rintro i intent ⟨β, answer, v, hwrote⟩
          have hpast : past (t ++ [(s, .turn j fault)]) i =
              (Program.doneBy exec i (s.threads, (j, fault))).toList ++ past t i := by
            unfold past
            rw [List.filterMap_append]
            exact Program.done_append _
          rw [hpast] at hwrote
          rcases List.mem_append.mp hwrote with hnew | hold
          · obtain ⟨rfl, hok, hshared⟩ :=
              Program.shared_of_doneBy (Option.mem_toList.mp hnew) hturn
            refine List.mem_append_right _ ?_
            rw [exec] at hok hshared
            split at hshared
            · rename_i v happly
              obtain rfl : u.shared = v := hshared
              obtain ⟨outbox, hinsert, hv⟩ := apply_insertIntent happly
              have hrows : u.shared.auditIntents.rows = s.database.auditIntents.rows ++ [intent] := by
                rw [hv]
                exact Table.rows_insert hinsert
              rw [queued, hrows, List.drop_left]
              exact List.mem_singleton_self _
            · rename_i happly
              rw [happly] at hok
              cases hok
          · exact List.mem_append_left _ (ih.2 i intent ⟨β, answer, v, hold⟩)
      | promote l =>
          obtain ⟨hl, a, hstep, rfl⟩ := promote_inv hs
          have hpast : ∀ i, past (t ++ [(s, .promote l)]) i = past t i := by
            intro i
            unfold past
            rw [List.filterMap_append]
            exact congrArg (Program.done exec i) (List.append_nil _)
          exact ⟨ih.1, fun i intent hwrote => ih.2 i intent (hpast i ▸ hwrote)⟩

/-- **The audit trail, end to end.** Whatever requests and promoters do in between each other,
wherever statements fail and promoters crash: the chain verifies; an intent that was queued at
the start, or that a request has committed, is still queued or has a sealed entry with its
content; and every sealed entry has the content of an intent that was queued at the start or
that one of the requests is accountable for. -/
theorem trail (hrun : (machine env encode calls start).Run t s) :
    (∀ visit, Audit.VisitOrder s.database.auditLogs visit →
      Audit.verify visit = ((Audit.sealedRows s.database.auditLogs).length, [])) ∧
    (∀ intent, intent ∈ start.auditIntents ∨
        (∃ i, (past t i).Wrote (.insertIntent intent)) →
      intent ∈ s.database.auditIntents ∨
        ∃ row ∈ Audit.sealedRows s.database.auditLogs, row.content = intent.content) ∧
    ∀ row ∈ Audit.sealedRows s.database.auditLogs, ∃ intent, row.content = intent.content ∧
      (intent ∈ start.auditIntents ∨ Accounted calls t intent) := by
  obtain ⟨hreachable, htable⟩ := simulates hrun
  have hbook := Audit.bookkeeping_reachable hreachable
  have hconserved := Audit.conserved_reachable hreachable
  rw [← htable]
  refine ⟨fun visit hvisit => ?_, fun intent hintent => ?_, fun row hrow => ?_⟩
  · exact (Audit.chaining_reachable hreachable).committed.verify_eq hvisit
  · obtain ⟨hqueued, hwrote⟩ := recorded_of_wrote hrun
    have hrecorded : intent ∈ s.recorded := hintent.elim (hqueued intent) fun ⟨i, h⟩ => hwrote i intent h
    refine (hconserved.kept intent hrecorded).imp id ?_
    rintro ⟨e, he, hsource⟩
    rcases hconserved.logs e he with ⟨hnone, -⟩ | ⟨⟨i, hsame, hcontent⟩, hsealed⟩
    · cases hnone.symm.trans hsource
    · obtain rfl := Option.some.inj (hsame.symm.trans hsource)
      exact ⟨e.row, List.mem_filter.mpr ⟨List.mem_map_of_mem he, hsealed⟩, hcontent⟩
  · obtain ⟨hmem, hsealed⟩ := List.mem_filter.mp hrow
    obtain ⟨e, he, rfl⟩ := List.mem_map.mp hmem
    rcases hconserved.logs e he with ⟨-, hnone⟩ | ⟨⟨intent, hsource, hcontent⟩, -⟩
    · rw [hnone] at hsealed
      cases hsealed
    · exact ⟨intent, hcontent,
        accounted_of_recorded hrun intent (hbook.source_recorded e he intent hsource)⟩

end Step

/-! ## A run -/

open Api (signedInState signedInCalls signedInThreads)

/-- The admin of the sample renames the other one, and one promoter is there. -/
def sample : Platform Bool Unit where
  database := signedInState
  requests := signedInThreads.thread
  phase _ := .idle
  lock := none
  entries := []
  recorded := []

/-- The rename is served and recorded; in between, the login fails at its first statement. Then
the intent is promoted. -/
def sampleLabels : List (Label Bool Unit) :=
  [.turn true none, .turn true none, .turn false (some .value), .turn true none, .turn true none,
    .turn true none, .turn true none, .promote (.select () .stable), .turn true none,
    .promote (.lock () id), .promote (.readTip ()), .promote (.readHash ()),
    .promote (.flush ()), .promote (.commit ())]

theorem initial_sample :
    Initial Administration.sampleEnv (fun _ => "") signedInCalls signedInState sample where
  database := rfl
  requests _ := rfl
  audit :=
    { prechain := fun _ he => (List.not_mem_nil he).elim
      idle := fun _ => rfl
      unlocked := rfl
      quiet := fun _ => rfl
      recorded := rfl
      distinct := List.nodup_nil }
  table := rfl

theorem trail_sampleLabels :
    ∃ t s, (machine Administration.sampleEnv (fun _ => "") signedInCalls signedInState).Run t s ∧
      t.map Prod.snd = sampleLabels ∧
      ((∀ visit, Audit.VisitOrder s.database.auditLogs visit →
        Audit.verify visit = ((Audit.sealedRows s.database.auditLogs).length, [])) ∧
      (∀ intent, intent ∈ signedInState.auditIntents ∨
          (∃ i, (past t i).Wrote (.insertIntent intent)) →
        intent ∈ s.database.auditIntents ∨
          ∃ row ∈ Audit.sealedRows s.database.auditLogs, row.content = intent.content) ∧
      ∀ row ∈ Audit.sealedRows s.database.auditLogs, ∃ intent, row.content = intent.content ∧
        (intent ∈ signedInState.auditIntents ∨ Accounted signedInCalls t intent)) ∧
      (Audit.sealedRows s.database.auditLogs).length = 1 := by
  have hlength : ((machine Administration.sampleEnv (fun _ => "") signedInCalls signedInState).exec
      sampleLabels sample).map (fun s => (Audit.sealedRows s.database.auditLogs).length) =
        some 1 := by decide +kernel
  obtain ⟨s, hexec, hsealed⟩ := Option.map_eq_some_iff.mp hlength
  have hrun := Machine.Run.of_exec (.start initial_sample) hexec
  exact ⟨_, s, hrun, Machine.map_snd_trace hexec, trail hrun, hsealed⟩

end Platform
end AdminPlatform
