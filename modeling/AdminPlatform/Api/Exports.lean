import AdminPlatform.Api.Deps
import AdminPlatform.Services.Export

/-! # The export routes

`app/api/v1/exports.py`. All three require the read permission of the audit screen, and pass
on the email of the current admin. -/

namespace AdminPlatform
open AdminPlatform.Lib

namespace Api

def createExport (env : Env) (req : Request) (credentials : Option EncodedToken)
    (data : ExportCreate) : Db Export :=
  guarded req credentials .auditRead fun req admin =>
    ExportService.createExport env req admin.email data

def getExport (req : Request) (credentials : Option EncodedToken) (exportId : Uuid) : Db Export :=
  guarded req credentials .auditRead fun _ admin =>
    ExportService.getExportStatus exportId admin.email

def downloadExport (env : Env) (req : Request) (credentials : Option EncodedToken)
    (exportId : Uuid) : Db FileResponse :=
  guarded req credentials .auditRead fun req admin =>
    ExportService.downloadExport env req exportId admin.email

section Run
variable {env : Env} {req : Request} {credentials : Option EncodedToken} {s s' : Database}

/-- **All that the route to create an export does**: it ends in an error and leaves a record
at most, or the export of the admin who calls is there. -/
theorem run_createExport_inv {data : ExportCreate} {r : Except Failure Export}
    (h : (createExport env req credentials data).run s = (r, s')) :
    (∃ e outbox, r = .error e ∧ s' = { s with auditIntents := outbox }) ∨
      ∃ payload admin entry exports outbox, CallsAs s req.now credentials payload admin ∧
        PermissionName.auditRead.value ∈ RbacService.permissions s admin.id ∧
        s.exports.insert entry = some exports ∧ entry.filePath = none ∧
        ExportService.origin entry = (data.module.value, admin.email) ∧ r = .ok entry ∧
        s' = { s with exports := exports, auditIntents := outbox } := by
  rcases run_guarded_inv h with ⟨⟨e, rfl⟩, rfl⟩ |
    ⟨payload, admin, hcalls, ⟨-, rfl, outbox, rfl⟩ | ⟨hgranted, hserved⟩⟩
  · exact .inl ⟨e, s'.auditIntents, rfl, rfl⟩
  · exact .inl ⟨_, outbox, rfl, rfl⟩
  · rcases ExportService.run_createExport_inv hserved with ⟨⟨e, rfl⟩, rfl⟩ |
      ⟨entry, exports, outbox, hinsert, hnew, horigin, -, rfl, rfl⟩
    · exact .inl ⟨e, s'.auditIntents, rfl, rfl⟩
    · exact .inr ⟨payload, admin, entry, exports, outbox, hcalls, hgranted, hinsert,
        hnew.filePath, horigin, rfl, rfl⟩

/-- Asking for the status of an export changes nothing but the record of a denial. -/
theorem run_getExport_state (req : Request) (credentials : Option EncodedToken) (exportId : Uuid)
    (s : Database) :
    ∃ outbox, ((getExport req credentials exportId).run s).2 =
      { s with auditIntents := outbox } := by
  rcases hrun : (getExport req credentials exportId).run s with ⟨r, s'⟩
  rcases run_guarded_inv hrun with ⟨-, rfl⟩ |
    ⟨payload, admin, -, ⟨-, -, outbox, rfl⟩ | ⟨-, hserved⟩⟩
  · exact ⟨s'.auditIntents, rfl⟩
  · exact ⟨outbox, rfl⟩
  · rcases ExportService.run_ownedExport exportId admin.email s with ⟨e, howned, -⟩ |
      ⟨entry, howned, -⟩
    · rw [ExportService.getExportStatus, howned] at hserved
      obtain ⟨-, rfl⟩ := Prod.mk.inj hserved
      exact ⟨s.auditIntents, rfl⟩
    · rw [ExportService.getExportStatus, howned] at hserved
      obtain ⟨-, rfl⟩ := Prod.mk.inj hserved
      exact ⟨s.auditIntents, rfl⟩

/-- **All that the download route does**: it keeps every export's origin, and what it serves
is an export of the admin who calls. -/
theorem run_downloadExport_inv {exportId : Uuid} {r : Except Failure FileResponse}
    (h : (downloadExport env req credentials exportId).run s = (r, s')) :
    ExportService.Maintained s s' ∧
      ((∃ e, r = .error e) ∨
        ∃ payload admin entry, CallsAs s req.now credentials payload admin ∧
          PermissionName.auditRead.value ∈ RbacService.permissions s admin.id ∧
          ExportService.Owns s exportId admin.email entry) := by
  rcases run_guarded_inv h with ⟨hr, rfl⟩ |
    ⟨payload, admin, hcalls, ⟨-, rfl, outbox, rfl⟩ | ⟨hgranted, hserved⟩⟩
  · exact ⟨.refl s', .inl hr⟩
  · exact ⟨⟨⟨s.exports, s.files, outbox, rfl⟩, fun _ => rfl⟩, .inl ⟨_, rfl⟩⟩
  · rcases ExportService.run_downloadExport_inv hserved with ⟨e, rfl, rfl, -⟩ |
      ⟨entry, howns, -, hmaintained⟩
    · exact ⟨.refl s', .inl ⟨_, rfl⟩⟩
    · exact ⟨hmaintained, .inr ⟨payload, admin, entry, hcalls, hgranted, howns⟩⟩

end Run
end Api
end AdminPlatform
