import AdminPlatform.Audit.Intake
import AdminPlatform.Repositories

/-! # Requests and their audit events

What a request brings with it, and `record` (`app/services/audit_service.py`), which queues
an event as an intent. Recording is best-effort: whatever the write raises is swallowed, so
`record` always returns, and all it can have changed is the outbox (`run_record`). -/

namespace AdminPlatform
open AdminPlatform.Lib

/-- One request as it is served: the clock, its method and path, the audit actor and the HTTP
facts attached to it, and what `uuid4` and `gensalt` draw for it. -/
structure Request where
  now : Instant
  method : String
  path : String
  actor : Option Audit.AuditActor := none
  metadata : Option Audit.RequestMetadata := none
  newId : Uuid
  intentId : Uuid
  refreshJti : Uuid
  accessJti : Uuid
  salt : String

namespace AuditService

/-- Durably queue the event as a pending intent (best-effort on failure). -/
def record (req : Request) (event : Audit.AuditEvent) : Db Unit :=
  tryCatch
    (do
      let _ ← AuditRepository.createAuditIntent
        { id := req.intentId
          payload := Audit.record event req.actor req.metadata
          createdAt := Instant.datetime req.now }
      return ())
    (fun _ => pure ())

/-- The event of an action on a resource, by its text id, with details. -/
def event (action : AuditAction) (resourceType : Option AuditResourceType)
    (resourceId : Option String) (details : Json) : Audit.AuditEvent where
  action := action.value
  resourceType := resourceType.map AuditResourceType.value
  resourceId := resourceId
  details := details
  payload := .null
  response := .null

theorem run_createAuditIntent (intent : Audit.AuditIntent) (s : Database) :
    ∃ r outbox, (AuditRepository.createAuditIntent intent).run s =
      (r, { s with auditIntents := outbox }) := by
  rcases hrun : (AuditRepository.createAuditIntent intent).run s with ⟨r, s'⟩
  rcases Db.run_commit_bind_inv hrun with ⟨-, rfl⟩ | ⟨u, hu, hrest⟩
  · exact ⟨r, s'.auditIntents, rfl⟩
  · obtain ⟨outbox, -, rfl⟩ := apply_insertIntent hu
    have hstate := Db.run_refresh_state Database.auditIntents intent.id
      { s with auditIntents := outbox }
    rw [hrest] at hstate
    exact ⟨r, outbox, by rw [← hstate]⟩

/-- **Recording never fails**, and touches nothing but the outbox. -/
theorem run_record (req : Request) (e : Audit.AuditEvent) (s : Database) :
    ∃ outbox, (record req e).run s = (.ok (), { s with auditIntents := outbox }) := by
  obtain ⟨r, outbox, hrun⟩ := run_createAuditIntent
    { id := req.intentId
      payload := Audit.record e req.actor req.metadata
      createdAt := Instant.datetime req.now } s
  refine ⟨outbox, ?_⟩
  cases r with
  | ok _ => exact Db.run_tryCatch_ok _ (Db.run_bind_ok _ hrun)
  | error _ => exact Db.run_tryCatch_error _ (Db.run_bind_error _ hrun)

/-- After recording, a request goes on. -/
theorem run_record_bind_inv {α : Type} {req : Request} {e : Audit.AuditEvent}
    {f : Unit → Db α} {s s' : Database} {r : Except Failure α}
    (h : (record req e >>= f).run s = (r, s')) :
    ∃ outbox, (f ()).run { s with auditIntents := outbox } = (r, s') := by
  obtain ⟨outbox, hrecord⟩ := run_record req e s
  rw [Db.run_bind_ok f hrecord] at h
  exact ⟨outbox, h⟩

theorem writes_record {W : Write → Prop} (hW : ∀ intent, W (.insertIntent intent))
    (req : Request) (e : Audit.AuditEvent) : (record req e).Writes W := by
  refine Db.Writes.tryCatch ?_ fun _ => Db.writes_pure ()
  exact (Db.writes_save (hW _) _ _).bind fun _ => Db.writes_pure ()

/-- Recording raises nothing. -/
theorem raises_record {E : AppError → Prop} (req : Request) (e : Audit.AuditEvent) :
    (record req e).Raises E :=
  Program.raising_tryCatch _ fun _ => Program.raising_pure ()

end AuditService
end AdminPlatform
