import AdminPlatform.Audit.Promotion
import AdminPlatform.Lib.Machine
import Mathlib.Logic.Function.Basic

/-! # Concurrent promoters, statement by statement

Any number of executions of `promote_audit_intents` (indexed by `ι`) and of
`create_audit_intent` (indexed by `κ`) take turns, one SQL statement at a time. Every
execution may crash before any of its statements, which rolls its transaction back.

What PostgreSQL and SQLAlchemy contribute:
* READ COMMITTED: a statement sees the committed rows and its own transaction's rows;
* `pg_advisory_xact_lock` is exclusive and held until the transaction ends;
* autoflush: an entry added to the session is inserted before the next query runs, so a
  query sees it, and an insert that the columns refuse ends the execution (`crash`);
* deleting a row that is gone already affects nothing and raises nothing;
* `uuid4` never repeats an id. -/

namespace AdminPlatform.Audit
open AdminPlatform.Lib

/-- A row of `audit_logs` with the intent it was forged from (`none` before the chain).
The source is bookkeeping: no statement reads it. -/
structure Entry where
  source : Option AuditIntent
  row : AuditLog

/-- The entry built for an intent of the batch. -/
def Entry.forge (newId : Uuid → Uuid) (intent : AuditIntent) : Entry :=
  { source := some intent, row := intent.toEntry (newId intent.id) }

/-- Where an execution of `promote_audit_intents` stands. -/
inductive Phase
  | idle
  /-- The batch is read; next, the advisory lock. -/
  | selected (batch : List AuditIntent)
  /-- The lock is held, the entries of `added` are sealed and added to the session; next,
  `max(seq)` for the first entry of `todo`, or the flush of the final commit. -/
  | chaining (batch : List AuditIntent) (todo added : List Entry)
  /-- `max(seq)` is read for `entry`; next, the hash of the tip. -/
  | tipRead (batch : List AuditIntent) (entry : Entry) (todo added : List Entry) (tip : Int)
  /-- The last `INSERT` and the `DELETE`s are done; next, `COMMIT`. -/
  | flushed (batch : List AuditIntent) (added : List Entry)

namespace Phase

/-- The rows the transaction has added. -/
def added : Phase → List Entry
  | .chaining _ _ added | .tipRead _ _ _ added _ | .flushed _ added => added
  | _ => []

/-- Past the statement that takes the lock. -/
def Locked : Phase → Prop
  | .chaining .. | .tipRead .. | .flushed .. => True
  | _ => False

theorem added_of_not_locked {ph : Phase} (h : ¬ ph.Locked) : ph.added = [] := by
  cases ph with
  | idle => rfl
  | selected batch => rfl
  | chaining batch todo added => exact absurd trivial h
  | tipRead batch entry todo added tip => exact absurd trivial h
  | flushed batch added => exact absurd trivial h

end Phase

structure State (ι κ : Type*) where
  /-- The committed rows of `audit_intents`. -/
  outbox : List AuditIntent
  /-- The committed rows of `audit_logs`. -/
  logs : List Entry
  phase : ι → Phase
  lock : Option ι
  /-- The uncommitted insert of each `create_audit_intent`. -/
  writing : κ → Option AuditIntent
  /-- Every intent ever committed. -/
  recorded : List AuditIntent

inductive Label (ι κ : Type*)
  | select (p : ι) (order : SelectOrder)
  | lock (p : ι) (newId : Uuid → Uuid)
  | readTip (p : ι)
  | readHash (p : ι)
  | flush (p : ι)
  | commit (p : ι)
  | crash (p : ι)
  | insertIntent (c : κ) (intent : AuditIntent)
  | commitIntent (c : κ)
  | abortIntent (c : κ)

def FitsAll (entries : List Entry) : Prop := ∀ e ∈ entries, Fits e.row.toAuditFields

instance (entries : List Entry) : Decidable (FitsAll entries) := by
  unfold FitsAll; infer_instance

namespace State
variable {ι κ : Type*}

/-- The committed `audit_logs`. -/
def table (s : State ι κ) : List AuditLog := s.logs.map Entry.row

/-- The `audit_logs` that a query of `p`'s transaction sees. -/
def visible (s : State ι κ) (p : ι) : List AuditLog :=
  s.table ++ (s.phase p).added.map Entry.row

/-- A promoter without the lock sees the committed table. -/
theorem visible_eq_table {s : State ι κ} {p : ι} (h : ¬ (s.phase p).Locked) :
    s.visible p = s.table := by
  simp [visible, Phase.added_of_not_locked h]

section Promoters
variable [DecidableEq ι]

def goto (s : State ι κ) (p : ι) (ph : Phase) : State ι κ :=
  { s with phase := Function.update s.phase p ph }

def unlock (s : State ι κ) (p : ι) : State ι κ :=
  { s with lock := if s.lock = some p then none else s.lock }

/-- The commit's effect: the added rows appear and the batch leaves the outbox. -/
def promote (s : State ι κ) (p : ι) (batch : List AuditIntent) (added : List Entry) :
    State ι κ :=
  { (s.goto p .idle).unlock p with
    outbox := deleteBatch batch s.outbox
    logs := s.logs ++ added }

@[simp] theorem phase_goto_self (s : State ι κ) (p : ι) (ph : Phase) :
    (s.goto p ph).phase p = ph := by
  simp [goto]

theorem phase_goto_of_ne (s : State ι κ) {p q : ι} (ph : Phase) (h : q ≠ p) :
    (s.goto p ph).phase q = s.phase q := by
  simp [goto, Function.update_of_ne h]

theorem goto_goto (s : State ι κ) (p : ι) (a b : Phase) : (s.goto p a).goto p b = s.goto p b := by
  simp [goto]

theorem visible_goto_self (s : State ι κ) (p : ι) (ph : Phase) :
    (s.goto p ph).visible p = s.table ++ ph.added.map Entry.row := by
  simp [visible, goto, table]

theorem visible_goto_of_ne (s : State ι κ) {p q : ι} (ph : Phase) (h : q ≠ p) :
    (s.goto p ph).visible q = s.visible q := by
  simp [visible, goto, table, Function.update_of_ne h]

end Promoters

section Recorders
variable [DecidableEq κ]

def write (s : State ι κ) (c : κ) (intent : Option AuditIntent) : State ι κ :=
  { s with writing := Function.update s.writing c intent }

def record (s : State ι κ) (c : κ) (intent : AuditIntent) : State ι κ :=
  { s.write c none with
    outbox := s.outbox ++ [intent]
    recorded := s.recorded ++ [intent] }

end Recorders

end State

section Steps
variable {ι κ : Type*} [DecidableEq ι] [DecidableEq κ]

/-- One statement. -/
def step : Label ι κ → State ι κ → Option (State ι κ)
  | .select p order, s =>
      match s.phase p with
      | .idle =>
          let batch := order.batch s.outbox
          -- an empty outbox returns 0, with nothing more to do
          some (if batch = [] then s else s.goto p (.selected batch))
      | _ => none
  | .lock p newId, s =>
      match s.phase p, s.lock with
      | .selected batch, none =>
          some { s.goto p (.chaining batch (batch.map (Entry.forge newId)) []) with
            lock := some p }
      | _, _ => none
  | .readTip p, s =>
      match s.phase p with
      | .chaining batch (entry :: todo) added =>
          if FitsAll added then
            some (s.goto p (.tipRead batch entry todo added (tipSeq (s.visible p))))
          else none
      | _ => none
  | .readHash p, s =>
      match s.phase p with
      | .tipRead batch entry todo added tip =>
          let row := entry.row.seal tip (tipHash (s.visible p) tip)
          some (s.goto p (.chaining batch todo (added ++ [{ entry with row := row }])))
      | _ => none
  | .flush p, s =>
      match s.phase p with
      | .chaining batch [] added =>
          if FitsAll added then some (s.goto p (.flushed batch added)) else none
      | _ => none
  | .commit p, s =>
      match s.phase p with
      | .flushed batch added => some (s.promote p batch added)
      | _ => none
  | .crash p, s =>
      match s.phase p with
      | .idle => none
      | _ => some ((s.goto p .idle).unlock p)
  | .insertIntent c intent, s =>
      match s.writing c with
      | none => some (s.write c (some intent))
      | some _ => none
  | .commitIntent c, s =>
      match s.writing c with
      | some intent =>
          if intent.id ∈ s.recorded.map (fun i => i.id) then none
          else some (s.record c intent)
      | none => none
  | .abortIntent c, s =>
      match s.writing c with
      | some _ => some (s.write c none)
      | none => none

/-- What a statement does, one constructor for each way it can succeed. -/
inductive Step : Label ι κ → State ι κ → State ι κ → Prop
  | selectNone {s : State ι κ} {p order} :
      s.phase p = .idle → order.batch s.outbox = [] → Step (.select p order) s s
  | select {s : State ι κ} {p order} :
      s.phase p = .idle → order.batch s.outbox ≠ [] →
        Step (.select p order) s (s.goto p (.selected (order.batch s.outbox)))
  | lock {s : State ι κ} {p newId batch} :
      s.phase p = .selected batch → s.lock = none →
        Step (.lock p newId) s
          { s.goto p (.chaining batch (batch.map (Entry.forge newId)) []) with lock := some p }
  | readTip {s : State ι κ} {p batch entry todo added} :
      s.phase p = .chaining batch (entry :: todo) added → FitsAll added →
        Step (.readTip p) s (s.goto p (.tipRead batch entry todo added (tipSeq (s.visible p))))
  | readHash {s : State ι κ} {p batch entry todo added tip} :
      s.phase p = .tipRead batch entry todo added tip →
        Step (.readHash p) s (s.goto p (.chaining batch todo
          (added ++ [{ entry with row := entry.row.seal tip (tipHash (s.visible p) tip) }])))
  | flush {s : State ι κ} {p batch added} :
      s.phase p = .chaining batch [] added → FitsAll added →
        Step (.flush p) s (s.goto p (.flushed batch added))
  | commit {s : State ι κ} {p batch added} :
      s.phase p = .flushed batch added → Step (.commit p) s (s.promote p batch added)
  | crash {s : State ι κ} {p} :
      s.phase p ≠ .idle → Step (.crash p) s ((s.goto p .idle).unlock p)
  | insertIntent {s : State ι κ} {c intent} :
      s.writing c = none → Step (.insertIntent c intent) s (s.write c (some intent))
  | commitIntent {s : State ι κ} {c intent} :
      s.writing c = some intent → intent.id ∉ s.recorded.map (fun i => i.id) →
        Step (.commitIntent c) s (s.record c intent)
  | abortIntent {s : State ι κ} {c intent} :
      s.writing c = some intent → Step (.abortIntent c) s (s.write c none)

/-- **Inversion of a step**, from which every invariant below is derived. -/
theorem step_inv {l : Label ι κ} {s s' : State ι κ} (h : step l s = some s') : Step l s s' := by
  -- one case per label: the guards of the step become the premises of the constructor
  cases l with
  | select p order =>
      simp only [step] at h
      split at h
      · rename_i hp
        obtain rfl := Option.some.inj h
        split
        · exact .selectNone hp ‹_›
        · exact .select hp ‹_›
      · cases h
  | lock p newId =>
      simp only [step] at h
      split at h
      · obtain rfl := Option.some.inj h
        exact .lock ‹_› ‹_›
      · cases h
  | readTip p =>
      simp only [step] at h
      split at h
      · split at h
        · obtain rfl := Option.some.inj h
          exact .readTip ‹_› ‹_›
        · cases h
      · cases h
  | readHash p =>
      simp only [step] at h
      split at h
      · obtain rfl := Option.some.inj h
        exact .readHash ‹_›
      · cases h
  | flush p =>
      simp only [step] at h
      split at h
      · split at h
        · obtain rfl := Option.some.inj h
          exact .flush ‹_› ‹_›
        · cases h
      · cases h
  | commit p =>
      simp only [step] at h
      split at h
      · obtain rfl := Option.some.inj h
        exact .commit ‹_›
      · cases h
  | crash p =>
      simp only [step] at h
      split at h
      · cases h
      · obtain rfl := Option.some.inj h
        exact .crash ‹_›
  | insertIntent c intent =>
      simp only [step] at h
      split at h
      · obtain rfl := Option.some.inj h
        exact .insertIntent ‹_›
      · cases h
  | commitIntent c =>
      simp only [step] at h
      split at h
      · split at h
        · cases h
        · obtain rfl := Option.some.inj h
          exact .commitIntent ‹_› ‹_›
      · cases h
  | abortIntent c =>
      simp only [step] at h
      split at h
      · obtain rfl := Option.some.inj h
        exact .abortIntent ‹_›
      · cases h

/-- Initially `audit_logs` holds rows from before the chain at most, and nobody is inside
a transaction. The outbox holds any intents. -/
structure Initial (s : State ι κ) : Prop where
  prechain : ∀ e ∈ s.logs, e.source = none ∧ e.row.seq = none ∧ e.row.entryHash = none
  idle : ∀ p, s.phase p = .idle
  unlocked : s.lock = none
  quiet : ∀ c, s.writing c = none
  recorded : s.recorded = s.outbox
  distinct : (s.outbox.map (fun i => i.id)).Nodup

/-- The promoters and recorders of one database. -/
def machine (ι κ : Type*) [DecidableEq ι] [DecidableEq κ] : Machine (State ι κ) (Label ι κ) where
  init := Initial
  step := step

/-! ## A promoter alone

Undisturbed, the statements of one execution have the effect of `promoteBatch`. -/

/-- The statements of one execution whose batch has `n` intents. -/
def statements (p : ι) (o : SelectOrder) (newId : Uuid → Uuid) (n : Nat) : List (Label ι κ) :=
  [.select p o, .lock p newId] ++ ((List.replicate n [.readTip p, .readHash p]).flatten ++
    [.flush p, .commit p])

/-- The loop of `_chain_entries`, by induction on the entries it has left. -/
theorem exec_chain {s : State ι κ} {p : ι} {batch : List AuditIntent} {todo added : List Entry}
    (hp : s.phase p = .chaining batch todo added) (hadded : FitsAll added)
    (htodo : FitsAll todo) :
    ∃ all, (machine ι κ).exec (List.replicate todo.length [.readTip p, .readHash p]).flatten s =
        some (s.goto p (.chaining batch [] all)) ∧
      s.table ++ all.map Entry.row =
        chainEntries (s.table ++ added.map Entry.row) (todo.map Entry.row) ∧ FitsAll all := by
  induction todo generalizing s added with
  | nil =>
      refine ⟨added, ?_, rfl, hadded⟩
      have hself : s.goto p (.chaining batch [] added) = s := by
        rw [← hp, State.goto, Function.update_eq_self]
      rw [hself]
      rfl
  | cons entry todo ih =>
      set rows := s.table ++ added.map Entry.row with hrows
      set row := entry.row.seal (tipSeq rows) (tipHash rows (tipSeq rows)) with hrow
      set sealed : Entry := { entry with row := row } with hsealed
      have hvisible : s.visible p = rows := by rw [State.visible, hp, Phase.added]
      have hread : step (.readTip p) s =
          some (s.goto p (.tipRead batch entry todo added (tipSeq rows))) := by
        simp only [step, hp, if_pos hadded, hvisible]
      have hhash : step (.readHash p) (s.goto p (.tipRead batch entry todo added (tipSeq rows))) =
          some (s.goto p (.chaining batch todo (added ++ [sealed]))) := by
        simp only [step, State.phase_goto_self, State.visible_goto_self, Phase.added, State.goto_goto,
          ← hrows, ← hrow, ← hsealed]
      have hfits : FitsAll (added ++ [sealed]) := by
        intro e he
        rcases List.mem_append.mp he with he | he
        · exact hadded e he
        · obtain rfl := List.mem_singleton.mp he
          exact htodo entry (by simp)
      obtain ⟨all, hexec, hchain, hall⟩ := ih (s := s.goto p (.chaining batch todo
        (added ++ [sealed]))) (State.phase_goto_self _ _ _) hfits
          (fun e he => htodo e (List.mem_cons_of_mem _ he))
      refine ⟨all, ?_, ?_, hall⟩
      · rw [List.length_cons, List.replicate_succ, List.flatten_cons]
        simp only [List.cons_append, List.nil_append, Machine.exec, machine, hread, hhash,
          Option.bind_some]
        rw [State.goto_goto] at hexec
        exact hexec
      · have htable : (s.goto p (.chaining batch todo (added ++ [sealed]))).table = s.table := rfl
        rw [htable, List.map_append, ← List.append_assoc, ← hrows] at hchain
        rw [hchain]
        rfl

/-- **Alone, an execution has the effect of `promoteBatch`.** -/
theorem exec_alone {s : State ι κ} {p : ι} (hidle : s.phase p = .idle) (hlock : s.lock = none)
    (o : SelectOrder) (newId : Uuid → Uuid) (hne : s.outbox ≠ [])
    (hfits : ∀ i ∈ o.batch s.outbox, Fits i.payload) :
    ∃ s', (machine ι κ).exec (statements p o newId (o.batch s.outbox).length) s = some s' ∧
      ({ outbox := s'.outbox, logs := s'.table } : AuditTables) =
        (promoteBatch o newId { outbox := s.outbox, logs := s.table }).2 ∧
      s'.phase = s.phase ∧ s'.lock = none := by
  set batch := o.batch s.outbox with hbatch
  have hbatchNe : batch ≠ [] := mt o.batch_eq_nil.mp hne
  set todo := batch.map (Entry.forge newId) with htodo
  set locked : State ι κ := { s.goto p (.chaining batch todo []) with lock := some p } with hlocked
  have hselect : step (.select p o) s = some (s.goto p (.selected batch)) := by
    simp only [step, hidle, ← hbatch, if_neg hbatchNe]
  have htake : step (.lock p newId) (s.goto p (.selected batch)) = some locked := by
    simp only [step, State.phase_goto_self, show (s.goto p (.selected batch)).lock = none from hlock,
      State.goto_goto, ← htodo, hlocked]
  have hphase : locked.phase p = .chaining batch todo [] :=
    State.phase_goto_self s p (.chaining batch todo [])
  have hall : FitsAll todo := by
    intro e he
    obtain ⟨i, hi, rfl⟩ := List.mem_map.mp he
    exact hfits i hi
  obtain ⟨all, hchain, hrows, hfitsAll⟩ := exec_chain hphase (fun e he => by cases he) hall
  have hrest : (machine ι κ).exec [.flush p, .commit p]
      (locked.goto p (.chaining batch [] all)) =
        some ((locked.goto p (.flushed batch all)).promote p batch all) := by
    simp only [Machine.exec, machine, step, State.phase_goto_self, if_pos hfitsAll,
      State.goto_goto,
      Option.bind_some]
  refine ⟨(locked.goto p (.flushed batch all)).promote p batch all, ?_, ?_, ?_, ?_⟩
  · have hlength : todo.length = batch.length := by rw [htodo, List.length_map]
    rw [statements, List.cons_append, List.cons_append, List.nil_append]
    simp only [Machine.exec]
    rw [show (machine ι κ).step (.select p o) s = _ from hselect, Option.bind_some,
      show (machine ι κ).step (.lock p newId) _ = _ from htake, Option.bind_some,
      Machine.exec_append, ← hlength, hchain, Option.bind_some]
    exact hrest
  · have htable : locked.table = s.table := rfl
    rw [htable, List.map_nil, List.append_nil] at hrows
    rw [promoteBatch_ok o newId _ hne hfits]
    simp only [State.promote, State.table, State.unlock, State.goto, List.map_append, hlocked,
      AuditTables.mk.injEq]
    refine ⟨rfl, ?_⟩
    rw [State.table] at hrows
    rw [hrows, htodo, List.map_map]
    rfl
  · simp [State.promote, State.unlock, State.goto, hlocked, ← hidle]
  · simp [State.promote, State.unlock, State.goto, hlocked]

/-! ## A concrete start

Two queued intents and one row from before the chain, for the runs that witness the
theorems about this machine. -/

/-- A row written before the chain existed. -/
def samplePrechain : Entry :=
  { source := none, row := (sampleIntent 0).toEntry (.ofNat 100) }

def sampleStart : State Bool Unit :=
  { outbox := [sampleIntent 1, sampleIntent 2], logs := [samplePrechain]
    phase := fun _ => .idle, lock := none, writing := fun _ => none
    recorded := [sampleIntent 1, sampleIntent 2] }

theorem sampleStart_initial : Initial sampleStart where
  prechain := by
    intro e he
    obtain rfl := List.mem_singleton.mp he
    exact ⟨rfl, rfl, rfl⟩
  idle _ := rfl
  unlocked := rfl
  quiet _ := rfl
  recorded := rfl
  distinct := by decide

end Steps
end AdminPlatform.Audit
