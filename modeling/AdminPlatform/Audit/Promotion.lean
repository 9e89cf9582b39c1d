import AdminPlatform.Audit.Sealing
import AdminPlatform.Lib.Instant
import AdminPlatform.Models.Enums

/-! # Promoting queued intents

`promote_audit_intents` (`app/repositories/audit_repository.py`) as one execution that
nothing else interferes with: select the oldest batch, seal an entry for each intent, delete
the batch, commit. The batch is all or nothing: an entry that does not fit the columns of
`audit_logs` makes its `INSERT` fail and the transaction roll back.

The statements of concurrent executions are in `Audit.Interleaving`. -/

namespace AdminPlatform.Audit
open AdminPlatform.Lib

/-! ## Column bounds -/

/-- The text columns of `audit_logs` accept these fields. The two hash columns hold digests
and the JSON columns any text, so neither bounds a row. -/
def Fits (f : AuditFields) : Prop :=
  NullableVarChar emailMaxLength f.actor ∧
    NullableVarChar actorTypeMaxLength f.actorType ∧
    VarChar actionMaxLength f.action ∧
    NullableVarChar resourceTypeMaxLength f.resourceType ∧
    NullableVarChar resourceIdMaxLength f.resourceId ∧
    NullableVarChar urlMaxLength f.url ∧
    NullableVarChar requestIdMaxLength f.requestId ∧
    NullableVarChar ipAddressMaxLength f.ipAddress ∧
    NullableVarChar userAgentMaxLength f.userAgent

instance (f : AuditFields) : Decidable (Fits f) := by unfold Fits; infer_instance

/-! ## The batch -/

def promoteBatchSize : Nat := 200

/-- How the database answers `ORDER BY created_at`: sorted, ties in an order of its own. -/
structure SelectOrder where
  order : List AuditIntent → List AuditIntent
  perm : ∀ outbox, (order outbox).Perm outbox
  sorted : ∀ outbox, (order outbox).Pairwise (fun i j => i.createdAt ≤ j.createdAt)

/-- `SELECT … ORDER BY created_at LIMIT 200`. -/
def SelectOrder.batch (o : SelectOrder) (outbox : List AuditIntent) : List AuditIntent :=
  (o.order outbox).take promoteBatchSize

/-- Ties in the order of the table. -/
def SelectOrder.stable : SelectOrder where
  order outbox := outbox.insertionSort (fun i j => i.createdAt ≤ j.createdAt)
  perm outbox := List.perm_insertionSort _ outbox
  sorted outbox := by
    have : IsTrans AuditIntent (fun i j => i.createdAt ≤ j.createdAt) :=
      ⟨fun _ _ _ => le_trans⟩
    have : Std.Total (fun i j : AuditIntent => i.createdAt ≤ j.createdAt) :=
      ⟨fun _ _ => le_total _ _⟩
    exact List.pairwise_insertionSort _ outbox

theorem SelectOrder.mem_of_mem_batch (o : SelectOrder) {outbox : List AuditIntent}
    {i : AuditIntent} (h : i ∈ o.batch outbox) : i ∈ outbox :=
  (o.perm outbox).mem_iff.mp (List.mem_of_mem_take h)

theorem SelectOrder.nodup_batch (o : SelectOrder) {outbox : List AuditIntent}
    (h : outbox.Nodup) : (o.batch outbox).Nodup :=
  ((o.perm outbox).nodup_iff.mpr h).sublist (List.take_sublist _ _)

theorem SelectOrder.batch_eq_nil (o : SelectOrder) {outbox : List AuditIntent} :
    o.batch outbox = [] ↔ outbox = [] := by
  constructor
  · intro h
    have hlen := (o.perm outbox).length_eq
    rw [SelectOrder.batch, List.take_eq_nil_iff] at h
    rcases h with h | h
    · cases h
    · rw [h] at hlen
      exact List.length_eq_zero_iff.mp hlen.symm
  · rintro rfl
    have hnil : o.order [] = [] := (o.perm []).eq_nil
    rw [SelectOrder.batch, hnil]
    rfl

/-- `DELETE` each intent of a batch, by id. -/
def deleteBatch (batch outbox : List AuditIntent) : List AuditIntent :=
  outbox.filter (fun i => i.id ∉ batch.map (fun j => j.id))

theorem mem_deleteBatch {batch outbox : List AuditIntent} {i : AuditIntent} :
    i ∈ deleteBatch batch outbox ↔ i ∈ outbox ∧ ∀ j ∈ batch, j.id ≠ i.id := by
  simp [deleteBatch]

/-! ## One pass -/

structure AuditTables where
  outbox : List AuditIntent
  logs : List AuditLog

/-- What ends a pass with an exception. -/
inductive PassError
  /-- `get_session` without a request-scoped session. -/
  | noSession
  /-- A value too long for its column, or one PostgreSQL cannot store. -/
  | dataError
  deriving DecidableEq, Repr

/-- `_chain_entries`: each entry is sealed on the tip that the ones before it made. -/
def chainEntries (logs entries : List AuditLog) : List AuditLog :=
  entries.foldl
    (fun logs entry => logs ++ [entry.seal (tipSeq logs) (tipHash logs (tipSeq logs))]) logs

theorem chainEntries_concat (logs entries : List AuditLog) (entry : AuditLog) :
    chainEntries logs (entries ++ [entry]) =
      chainEntries logs entries ++
        [entry.seal (tipSeq (chainEntries logs entries))
          (tipHash (chainEntries logs entries) (tipSeq (chainEntries logs entries)))] := by
  simp [chainEntries]

/-- A pass with a session: the count, or the error of the transaction. -/
def promoteBatch (o : SelectOrder) (newId : Uuid → Uuid) (t : AuditTables) :
    Except PassError Nat × AuditTables :=
  let intents := o.batch t.outbox
  if intents = [] then (.ok 0, t)
  else
    let entries := intents.map (fun intent => intent.toEntry (newId intent.id))
    if ∀ entry ∈ entries, Fits entry.toAuditFields then
      (.ok entries.length,
        { outbox := deleteBatch intents t.outbox, logs := chainEntries t.logs entries })
    else (.error .dataError, t)

/-- What promotion keeps of an intent in its row: the fields and the timestamp. -/
def AuditIntent.content (i : AuditIntent) : AuditFields × Datetime := (i.payload, i.createdAt)

def AuditLog.content (row : AuditLog) : AuditFields × Datetime :=
  (row.toAuditFields, row.createdAt)

/-- The entries `_chain_entries` appends: one for each given, in order, with the content it
had and consecutive sequence numbers above the tip. -/
theorem chainEntries_spec (logs entries : List AuditLog) :
    ∃ new, chainEntries logs entries = logs ++ new ∧
      new.map AuditLog.content = entries.map AuditLog.content ∧
      new.map (fun row => row.seq) =
        (List.range entries.length).map (fun i : Nat => some (tipSeq logs + 1 + i)) ∧
      tipSeq (logs ++ new) = tipSeq logs + entries.length := by
  induction entries using List.reverseRecOn with
  | nil => exact ⟨[], by simp [chainEntries]⟩
  | append_singleton entries entry ih =>
      obtain ⟨new, hchain, hcontents, hseqs, htip⟩ := ih
      set row := entry.seal (tipSeq (logs ++ new)) (tipHash (logs ++ new) (tipSeq (logs ++ new)))
        with hrow
      have hcontent : row.content = entry.content := rfl
      have hseq : row.seq = some (tipSeq logs + 1 + entries.length) := by
        rw [hrow, (seal_fields _ _ _).2.2.1, htip]
        congr 1
        omega
      refine ⟨new ++ [row], ?_, ?_, ?_, ?_⟩
      · rw [chainEntries_concat, hchain, List.append_assoc]
      · rw [List.map_append, List.map_append, hcontents, List.map_singleton,
          List.map_singleton, hcontent]
      · rw [List.map_append, hseqs, List.length_append, List.length_singleton,
          List.range_succ, List.map_append]
        simp [hseq]
      · rw [← List.append_assoc, hrow, tipSeq_seal, htip, List.length_append]
        simp
        omega

/-! ## What a pass does -/

variable (o : SelectOrder) (newId : Uuid → Uuid) (t : AuditTables)

theorem fits_entries (intents : List AuditIntent) :
    (∀ entry ∈ intents.map (fun i => i.toEntry (newId i.id)), Fits entry.toAuditFields) ↔
      ∀ i ∈ intents, Fits i.payload := by
  simp [AuditIntent.toEntry]

theorem promoteBatch_nil (h : t.outbox = []) : promoteBatch o newId t = (.ok 0, t) := by
  simp only [promoteBatch, if_pos (o.batch_eq_nil.mpr h)]

/-- A batch that fits is promoted as a whole. -/
theorem promoteBatch_ok (hne : t.outbox ≠ []) (hfits : ∀ i ∈ o.batch t.outbox, Fits i.payload) :
    promoteBatch o newId t =
      (.ok (o.batch t.outbox).length,
        { outbox := deleteBatch (o.batch t.outbox) t.outbox
          logs := chainEntries t.logs
            ((o.batch t.outbox).map (fun i => i.toEntry (newId i.id))) }) := by
  have hbatch : o.batch t.outbox ≠ [] := fun hnil => hne (o.batch_eq_nil.mp hnil)
  simp only [promoteBatch, if_neg hbatch, if_pos ((fits_entries newId _).mpr hfits),
    List.length_map]

/-- A batch with one row that does not fit is rolled back as a whole. -/
theorem promoteBatch_error {i : AuditIntent} (hi : i ∈ o.batch t.outbox)
    (hnot : ¬ Fits i.payload) : promoteBatch o newId t = (.error .dataError, t) := by
  have hbatch : o.batch t.outbox ≠ [] := List.ne_nil_of_mem hi
  have hall : ¬ ∀ i ∈ o.batch t.outbox, Fits i.payload := fun hall => hnot (hall i hi)
  simp only [promoteBatch, if_neg hbatch, if_neg (mt (fits_entries newId _).mp hall)]

theorem deleteBatch_shrinks {batch outbox : List AuditIntent} {i : AuditIntent}
    (hbatch : i ∈ batch) (hi : i ∈ outbox) :
    (deleteBatch batch outbox).length < outbox.length := by
  have hne : deleteBatch batch outbox ≠ outbox := by
    intro heq
    rw [← heq] at hi
    exact (mem_deleteBatch.mp hi).2 i hbatch rfl
  exact lt_of_le_of_ne (List.length_filter_le _ _)
    fun hlen => hne (List.filter_sublist.eq_of_length hlen)

/-! ## A concrete intent -/

/-- 2026-07-01 09:30:00.000250. -/
def sampleTime : Datetime := Instant.datetime (Instant.seconds 1782898200 + 250)

def sampleFields : AuditFields :=
  { actor := some "root@example.com", actorType := some "admin", action := "user.delete"
    resourceType := some "user", resourceId := some "u-1", details := .null
    url := some "/api/v1/users/u-1", payload := .null
    response := .obj [("code", .str "S_200_USR_DELETED")], requestId := some "r-1"
    ipAddress := some "10.0.0.1", userAgent := none }

def sampleIntent (n : Nat) : AuditIntent :=
  { id := .ofNat n, payload := sampleFields, createdAt := sampleTime }

end AdminPlatform.Audit
