import AdminPlatform.Audit.Promotion

/-! # The background forwarder

The loop body of `_audit_forwarder` (`app/main.py`), composed with the session holder it
runs under (`app/database/session.py`, `app/database/database.py`).

The session is a context variable that only `db_session` sets, and `lifespan` starts the
forwarder outside of it, so `get_session` raises in every pass and the loop logs and goes
on. `forwarder_drains_iff` says that a session in the context is all that is missing. -/

namespace AdminPlatform.Audit
open AdminPlatform.Lib

/-! ## The session holder -/

/-- An `AsyncSession`, by name. -/
abbrev Session := Nat

/-- The context variable `current_session` as a task sees it. -/
structure TaskContext where
  currentSession : Option Session

/-- The context in which the application's lifespan creates the forwarder task: the
variable has its default. -/
def lifespanContext : TaskContext := { currentSession := none }

/-- The context inside `async with db_session()`. -/
def dbSession (_ctx : TaskContext) (session : Session) : TaskContext :=
  { currentSession := some session }

def getSession (ctx : TaskContext) : Except PassError Session :=
  match ctx.currentSession with
  | none => .error .noSession
  | some session => .ok session

/-! ## The loop -/

/-- `promote_audit_intents`, which asks for the session first. -/
def promoteAuditIntents (ctx : TaskContext) (o : SelectOrder) (newId : Uuid → Uuid)
    (t : AuditTables) : Except PassError Nat × AuditTables :=
  match getSession ctx with
  | .error e => (.error e, t)
  | .ok _ => promoteBatch o newId t

/-- The choices the environment makes in one pass. -/
structure Pass where
  order : SelectOrder
  newId : Uuid → Uuid

/-- The loop body: an exception is logged and swallowed. -/
def forwarderPass (ctx : TaskContext) (t : AuditTables) (pass : Pass) : AuditTables :=
  match promoteAuditIntents ctx pass.order pass.newId t with
  | (.ok _, t') => t'
  | (.error _, t') => t'

/-- As many executions of the loop body as there are passes. -/
def forwarder (ctx : TaskContext) (passes : List Pass) (t : AuditTables) : AuditTables :=
  passes.foldl (forwarderPass ctx) t

/-! ## Draining -/

/-- A later row: a higher `seq`, and not an earlier timestamp. -/
def Later (a b : AuditLog) : Prop :=
  (∃ m n : Int, a.seq = some m ∧ b.seq = some n ∧ m < n) ∧ a.createdAt ≤ b.createdAt

/-- The outbox is empty and its intents are appended as rows, one each, oldest first. -/
structure Drained (before after : AuditTables) : Prop where
  outbox : after.outbox = []
  appended : ∃ new, after.logs = before.logs ++ new ∧
    (new.map AuditLog.content).Perm (before.outbox.map AuditIntent.content) ∧
    new.Pairwise Later

/-- Where the loop stands: `done` are the intents promoted so far, in order. -/
structure Progress (before now : AuditTables) (done : List AuditIntent)
    (new : List AuditLog) : Prop where
  intents : (done ++ now.outbox).Perm before.outbox
  logs : now.logs = before.logs ++ new
  contents : new.map AuditLog.content = done.map AuditIntent.content
  seqs : new.map (fun row => row.seq) =
    (List.range done.length).map (fun i : Nat => some (tipSeq before.logs + 1 + i))
  tip : tipSeq now.logs = tipSeq before.logs + done.length
  sorted : done.Pairwise (fun i j => i.createdAt ≤ j.createdAt)
  older : ∀ i ∈ done, ∀ j ∈ now.outbox, i.createdAt ≤ j.createdAt

theorem Progress.start (t : AuditTables) : Progress t t [] [] where
  intents := List.Perm.refl _
  logs := (List.append_nil _).symm
  contents := rfl
  seqs := rfl
  tip := by simp
  sorted := List.Pairwise.nil
  older := fun _ hi => absurd hi List.not_mem_nil

/-- Deleting a batch leaves the intents that were not selected. -/
theorem deleteBatch_perm (o : SelectOrder) {outbox : List AuditIntent}
    (hids : (outbox.map (fun i => i.id)).Nodup) :
    (deleteBatch (o.batch outbox) outbox).Perm ((o.order outbox).drop promoteBatchSize) := by
  have hperm := o.perm outbox
  have hsplit : o.order outbox = o.batch outbox ++ (o.order outbox).drop promoteBatchSize :=
    (List.take_append_drop _ _).symm
  have hnodup : ((o.order outbox).map (fun i => i.id)).Nodup :=
    (hperm.map _).nodup_iff.mpr hids
  rw [hsplit, List.map_append, List.nodup_append] at hnodup
  have hbatch : (o.batch outbox).filter
      (fun i => i.id ∉ (o.batch outbox).map (fun j => j.id)) = [] := by
    refine List.filter_eq_nil_iff.mpr fun i hi => ?_
    simpa using ⟨i, hi, rfl⟩
  have hrest : ((o.order outbox).drop promoteBatchSize).filter
      (fun i => i.id ∉ (o.batch outbox).map (fun j => j.id)) =
        (o.order outbox).drop promoteBatchSize := by
    refine List.filter_eq_self.mpr fun i hi => ?_
    simp only [decide_eq_true_eq]
    exact fun hmem => hnodup.2.2 _ hmem _ (List.mem_map_of_mem hi) rfl
  have hfilter := (hperm.filter (fun i => i.id ∉ (o.batch outbox).map (fun j => j.id))).symm
  rw [hsplit, List.filter_append, hbatch, hrest, List.nil_append] at hfilter
  exact hfilter

/-- **One pass with a session makes progress**: the oldest 200 intents are promoted. -/
theorem Progress.pass {before now : AuditTables} {done : List AuditIntent} {new : List AuditLog}
    (h : Progress before now done new) (pass : Pass)
    (hids : (before.outbox.map (fun i => i.id)).Nodup)
    (hfits : ∀ i ∈ before.outbox, Fits i.payload) {ctx : TaskContext} {session : Session}
    (hctx : ctx.currentSession = some session) :
    ∃ done' new', Progress before (forwarderPass ctx now pass) done' new' ∧
      (forwarderPass ctx now pass).outbox.length = now.outbox.length - promoteBatchSize := by
  have hpass : forwarderPass ctx now pass = (promoteBatch pass.order pass.newId now).2 := by
    simp only [forwarderPass, promoteAuditIntents, getSession, hctx]
    split <;> simp_all
  -- an empty outbox is left as it is
  by_cases hempty : now.outbox = []
  · refine ⟨done, new, ?_, ?_⟩
    · rwa [hpass, promoteBatch_nil _ _ _ hempty]
    · rw [hpass, promoteBatch_nil _ _ _ hempty, hempty]
      rfl
  · set batch := pass.order.batch now.outbox with hbatch
    have hsub : ∀ i ∈ now.outbox, i ∈ before.outbox := fun i hi =>
      h.intents.mem_iff.mp (List.mem_append_right _ hi)
    have hbatchFits : ∀ i ∈ batch, Fits i.payload := fun i hi =>
      hfits i (hsub i (pass.order.mem_of_mem_batch hi))
    have hnowIds : (now.outbox.map (fun i => i.id)).Nodup := by
      have hall := (h.intents.map (fun i => i.id)).nodup_iff.mpr hids
      rw [List.map_append] at hall
      exact (List.nodup_append.mp hall).2.1
    -- the oldest 200, and what stays in the outbox
    have hsplit : pass.order.order now.outbox =
        batch ++ (pass.order.order now.outbox).drop promoteBatchSize :=
      (List.take_append_drop _ _).symm
    have hsorted := pass.order.sorted now.outbox
    rw [hsplit, List.pairwise_append] at hsorted
    obtain ⟨hbatchSorted, -, hcross⟩ := hsorted
    have hrest := deleteBatch_perm pass.order hnowIds
    obtain ⟨rows, hchain, hcontents, hseqs, htip⟩ := chainEntries_spec now.logs
      (batch.map (fun i => i.toEntry (pass.newId i.id)))
    rw [hpass, promoteBatch_ok _ _ _ hempty hbatchFits, ← hbatch]
    refine ⟨done ++ batch, new ++ rows, ⟨?_, ?_, ?_, ?_, ?_, ?_, ?_⟩, ?_⟩
    -- what was there is the batch and what is left
    · have hnow : (batch ++ deleteBatch batch now.outbox).Perm now.outbox :=
        ((hrest.append_left batch).trans (hsplit ▸ List.Perm.refl _)).trans
          (pass.order.perm now.outbox)
      rw [List.append_assoc]
      exact (hnow.append_left done).trans h.intents
    · rw [hchain, h.logs, List.append_assoc]
    · rw [List.map_append, List.map_append, h.contents, hcontents, List.map_map]
      rfl
    · rw [List.map_append, h.seqs, hseqs, h.tip, List.length_append, List.range_add,
        List.map_append, List.map_map, List.length_map]
      congr 1
      refine List.map_congr_left fun i _ => ?_
      simp only [Function.comp_apply, Nat.cast_add]
      congr 1
      omega
    · rw [hchain, htip, h.tip, List.length_append, List.length_map]
      omega
    · exact List.pairwise_append.mpr ⟨h.sorted, hbatchSorted, fun i hi j hj =>
        h.older i hi j (pass.order.mem_of_mem_batch hj)⟩
    · intro i hi j hj
      rcases List.mem_append.mp hi with hi | hi
      · exact h.older i hi j (mem_deleteBatch.mp hj).1
      · exact hcross i hi j (hrest.mem_iff.mp hj)
    · rw [hrest.length_eq, List.length_drop, (pass.order.perm now.outbox).length_eq]

/-- Any number of passes with a session. -/
theorem Progress.passes {before now : AuditTables} {done : List AuditIntent}
    {new : List AuditLog} (h : Progress before now done new) (passes : List Pass)
    (hids : (before.outbox.map (fun i => i.id)).Nodup)
    (hfits : ∀ i ∈ before.outbox, Fits i.payload) {ctx : TaskContext} {session : Session}
    (hctx : ctx.currentSession = some session) :
    ∃ done' new', Progress before (forwarder ctx passes now) done' new' ∧
      (forwarder ctx passes now).outbox.length =
        now.outbox.length - passes.length * promoteBatchSize := by
  induction passes generalizing now done new with
  | nil => exact ⟨done, new, h, by simp [forwarder]⟩
  | cons pass passes ih =>
      obtain ⟨done', new', hpass, hlen⟩ := h.pass pass hids hfits hctx
      obtain ⟨done'', new'', hrest, hlen'⟩ := ih hpass
      refine ⟨done'', new'', hrest, ?_⟩
      rw [forwarder, List.foldl_cons, ← forwarder, hlen', hlen, List.length_cons, Nat.succ_mul]
      omega

/-- An outbox that progress has emptied is drained. -/
theorem Progress.drained {before now : AuditTables} {done : List AuditIntent}
    {new : List AuditLog} (h : Progress before now done new) (hempty : now.outbox = []) :
    Drained before now := by
  refine ⟨hempty, new, h.logs, ?_, ?_⟩
  · rw [h.contents]
    have hdone := h.intents
    rw [hempty, List.append_nil] at hdone
    exact hdone.map _
  · have hcreated : (new.map AuditLog.content).Pairwise (fun a b => a.2 ≤ b.2) := by
      rw [h.contents, List.pairwise_map]
      exact h.sorted
    have hseq : (new.map (fun row => row.seq)).Pairwise
        (fun a b => ∃ m n : Int, a = some m ∧ b = some n ∧ m < n) := by
      rw [h.seqs, List.pairwise_map]
      refine List.pairwise_lt_range.imp fun hij => ⟨_, _, rfl, rfl, ?_⟩
      omega
    exact ((List.pairwise_map.mp hseq).and (List.pairwise_map.mp hcreated)).imp fun h => h

/-- Without a session every pass fails before it reads anything. -/
theorem forwarder_noSession {ctx : TaskContext} (hctx : ctx.currentSession = none)
    (passes : List Pass) (t : AuditTables) : forwarder ctx passes t = t := by
  induction passes generalizing t with
  | nil => rfl
  | cons pass passes ih =>
      have hpass : forwarderPass ctx t pass = t := by
        simp [forwarderPass, promoteAuditIntents, getSession, hctx]
      rw [forwarder, List.foldl_cons, hpass, ← forwarder, ih]

section Draining
variable {t : AuditTables} {passes : List Pass}

/-- With a session, enough passes drain any outbox that fits. -/
theorem drained_of_session (hids : (t.outbox.map (fun i => i.id)).Nodup)
    (hfits : ∀ i ∈ t.outbox, Fits i.payload)
    (hpasses : passes.length = (t.outbox.length + promoteBatchSize - 1) / promoteBatchSize)
    {ctx : TaskContext} {session : Session} (hctx : ctx.currentSession = some session) :
    Drained t (forwarder ctx passes t) := by
  obtain ⟨done, new, h, hlen⟩ := (Progress.start t).passes passes hids hfits hctx
  refine h.drained (List.length_eq_zero_iff.mp ?_)
  rw [hlen, hpasses, promoteBatchSize]
  omega

/-- Without one, no number of passes drains an outbox that is not empty. -/
theorem drained_iff_of_noSession {ctx : TaskContext} (hctx : ctx.currentSession = none) :
    Drained t (forwarder ctx passes t) ↔ t.outbox = [] := by
  rw [forwarder_noSession hctx]
  exact ⟨fun h => h.outbox, fun h => (Progress.start t).drained h⟩

/-- **When the forwarder drains the outbox.** For an outbox of `n` intents that fit, and
whatever order each pass reads it in: in the context that `lifespan` starts the forwarder
in, `⌈n / 200⌉` executions of the loop body drain it if and only if it is empty already,
while inside `db_session` they always would. -/
theorem forwarder_drains_iff (hids : (t.outbox.map (fun i => i.id)).Nodup)
    (hfits : ∀ i ∈ t.outbox, Fits i.payload)
    (hpasses : passes.length = (t.outbox.length + promoteBatchSize - 1) / promoteBatchSize) :
    (Drained t (forwarder lifespanContext passes t) ↔ t.outbox = []) ∧
      ∀ session, Drained t (forwarder (dbSession lifespanContext session) passes t) :=
  ⟨drained_iff_of_noSession rfl, fun _ => drained_of_session hids hfits hpasses rfl⟩

end Draining

/-- One intent more than a batch holds. -/
def fullOutbox : AuditTables :=
  { outbox := (List.range (promoteBatchSize + 1)).map sampleIntent, logs := [] }

/-- One pass leaves an intent, and the second one takes it. -/
theorem forwarder_drains_fullOutbox :
    Drained fullOutbox (forwarder (dbSession lifespanContext 0)
      [{ order := .stable, newId := id }, { order := .stable, newId := id }] fullOutbox) := by
  have hids : (fullOutbox.outbox.map fun i => i.id).Nodup := by decide +kernel
  have hfits : ∀ i ∈ fullOutbox.outbox, Fits i.payload := by
    intro i hi
    obtain ⟨n, -, rfl⟩ := List.mem_map.mp hi
    exact (by decide +kernel : Fits sampleFields)
  exact (forwarder_drains_iff hids hfits (by decide +kernel)).2 0

/-- The forwarder that the application starts never promotes a queued intent. -/
theorem forwarder_stuck :
    Fits (sampleIntent 1).payload ∧ ∀ passes : List Pass,
      ¬ Drained { outbox := [sampleIntent 1], logs := [] }
        (forwarder lifespanContext passes { outbox := [sampleIntent 1], logs := [] }) := by
  refine ⟨by decide +kernel, fun passes h => ?_⟩
  have hctx : lifespanContext.currentSession = none := rfl
  cases (drained_iff_of_noSession hctx).mp h

end AdminPlatform.Audit
