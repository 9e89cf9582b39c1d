import AdminPlatform.Access.Seeded
import AdminPlatform.Lists.Queries

/-! # What an export selects

A list endpoint resolves its filters and queries at once. The filters of an export are dumped
to JSON, stored with it, and read again when its rows are counted and streamed, by code of
their own; the conditions on Platform Admins are written twice as well.

Both come to the same: reading dumped filters gives what the endpoint resolves
(`auditFiltersFromDict_dump`, `usersFiltersFromDict_dump`), and the conditions agree
(`platformAdminMatches_eq`), so the export has the rows of the list and its count
(`export_selects_listed`). -/

namespace AdminPlatform.Lists
open AdminPlatform.Lib AdminPlatform.Lib.Paging ExportService

/-! ## Filters that were dumped and read again -/

/-- An enumeration read by the values of its members: each member is found, and none of them
is stored as `All`. -/
structure Enumeration {α : Type} (members : List α) (value : α → String) : Prop where
  find : ∀ a, members.find? (fun b => value b = value a) = some a
  sentinel : ∀ a, value a ≠ "All"

section Enumeration
variable {α : Type} {members : List α} {value : α → String}

theorem resolveFilter_eq (h : Enumeration members value) (filter : Option α) :
    resolveFilter members value filter = filter := by
  cases filter with
  | none => rfl
  | some a => exact h.find a

/-- **A filter is read as it was dumped.** -/
theorem resolveStored_filterText (h : Enumeration members value) (filter : Option α) :
    resolveStored members value (some (filterText value filter)) = filter := by
  cases filter with
  | none => rfl
  | some a =>
      show (if value a = "All" then none else members.find? fun b => value b = value a) = some a
      rw [if_neg (h.sentinel a), h.find a]

end Enumeration

theorem enumeration_auditActions : Enumeration auditActions AuditAction.value where
  find a := by cases a <;> decide
  sentinel a := by cases a <;> decide

theorem enumeration_auditResourceTypes :
    Enumeration auditResourceTypes AuditResourceType.value where
  find a := by cases a <;> decide
  sentinel a := by cases a <;> decide

theorem enumeration_actorTypes : Enumeration actorTypes ActorType.value where
  find a := by cases a <;> decide
  sentinel a := by cases a <;> decide

theorem enumeration_statuses : Enumeration statuses Status.value where
  find a := by cases a <;> decide
  sentinel a := by cases a <;> decide

/-- **Audit filters read again** are what the endpoint resolves, without dates. -/
theorem auditFiltersFromDict_dump (params : AuditExportFilters) :
    auditFiltersFromDict (ExportFilters.audit params).dump =
      resolveAuditFilters params none none := by
  rcases params with ⟨actor, action, resourceType, actorType⟩
  have haction := resolveStored_filterText enumeration_auditActions action
  have hresource := resolveStored_filterText enumeration_auditResourceTypes resourceType
  have hactor := resolveStored_filterText enumeration_actorTypes actorType
  rw [resolveAuditFilters, resolveFilter_eq enumeration_auditActions,
    resolveFilter_eq enumeration_auditResourceTypes, resolveFilter_eq enumeration_actorTypes]
  cases actor <;>
    simp [auditFiltersFromDict, ExportFilters.dump, noFilters, Json.get?, Json.ofOption, haction,
      hresource, hactor]

/-- **Users filters read again** are what the endpoint resolves, an empty search text for
none. -/
theorem usersFiltersFromDict_dump (params : UsersExportFilters) :
    usersFiltersFromDict (ExportFilters.users params).dump =
      (params.search.filter (· ≠ ""), (resolveUserFilters params none none).status) := by
  rcases params with ⟨search, status⟩
  have hstatus := resolveStored_filterText enumeration_statuses status
  rw [resolveUserFilters, resolveFilter_eq enumeration_statuses]
  cases search with
  | none =>
      simp [usersFiltersFromDict, ExportFilters.dump, noFilters, Json.get?, Json.ofOption, hstatus]
  | some text =>
      by_cases htext : text = "" <;>
        simp [usersFiltersFromDict, ExportFilters.dump, noFilters, Json.get?, Json.ofOption,
          hstatus, htext, Option.filter_some]

/-! ## The rows -/

/-- **The conditions on Platform Admins**, as they are written for the export, are those of
the list. -/
theorem platformAdminMatches_eq (env : Env) (params : UsersExportFilters) (s : Database) :
    s.admins.select (platformAdminMatches env (params.search.filter (· ≠ ""))
      (resolveUserFilters params none none).status) =
      UserRepository.matching env (resolveUserFilters params none none) s := by
  unfold UserRepository.matching
  refine congrArg s.admins.select (funext fun row => ?_)
  rcases params with ⟨_ | text, status⟩
  · simp [platformAdminMatches, searchFilter, statusFilter, resolveUserFilters]
  · by_cases htext : text = "" <;>
      simp [platformAdminMatches, searchFilter, statusFilter, resolveUserFilters, htext,
        Option.filter_some]

/-- The list endpoint of the module, asked with the parameters of its export filters; the
rows as an export has them. -/
def listEndpoint (env : Env) (logs : OrderBy (Descending AuditRepository.listKey))
    (admins : OrderBy (Ascending PlatformAdmin.createdAt)) (page limit : Nat) :
    ExportFilters → Db (List ExportRow × Nat)
  | .audit params => do
      let (rows, total) ← listAuditLogsEndpoint logs params none none page limit
      return (rows.map .audit, total)
  | .users params => do
      let (rows, total) ← listUsersEndpoint env admins params none none page limit
      return (rows.map .user, total)

theorem map_slice {α β : Type} (f : α → β) (page limit : Nat) (rows : List α) :
    (slice page limit rows).map f = slice page limit (rows.map f) := by
  rw [slice, slice, List.map_take, List.map_drop]

/-- **The stored filters select what the list shows**: the endpoint answers a page of the rows
of the export, in an order of its own, and their number. -/
theorem run_listEndpoint (env : Env) {filters : ExportFilters} {spec : ExportSpec}
    (hspec : exportSpecs.lookup filters.module.value = some spec)
    (logs : OrderBy (Descending AuditRepository.listKey))
    (admins : OrderBy (Ascending PlatformAdmin.createdAt)) (s : Database) :
    ∃ listed, listed.Perm (selected env spec filters.dump s) ∧ ∀ page limit,
      (listEndpoint env logs admins page limit filters).run s =
        (.ok (slice page limit listed, (selected env spec filters.dump s).length), s) := by
  cases filters with
  | audit params =>
      obtain rfl : auditExportSpec = spec := Option.some.inj hspec
      -- the decoded filters are the resolved ones; the two sides differ in the order only
      refine ⟨(logs.pick (AuditRepository.matching (resolveAuditFilters params none none) s)).map
        .audit, ?_, fun page limit => ?_⟩
      · rw [selected_audit, auditFiltersFromDict_dump]
        exact ((logs.perm _).trans (List.perm_insertionSort _ _).symm).map _
      · rw [selected_audit, auditFiltersFromDict_dump, ← map_slice, List.length_map,
          List.length_insertionSort]
        rfl
  | users params =>
      obtain rfl : usersExportSpec = spec := Option.some.inj hspec
      refine ⟨(admins.pick (UserRepository.matching env (resolveUserFilters params none none)
        s)).map .user, ?_, fun page limit => ?_⟩
      · rw [selected_users, usersFiltersFromDict_dump, platformAdminMatches_eq]
        exact ((admins.perm _).trans (List.perm_insertionSort _ _).symm).map _
      · rw [selected_users, usersFiltersFromDict_dump, platformAdminMatches_eq, ← map_slice,
          List.length_map, List.length_insertionSort]
        rfl

/-- **An export selects what the list shows.** The filters of a request that is accepted are
stored with the export. On any state of the tables they stream rows and count them, and the
list endpoint of the module, asked with the parameters of the request, shows these very rows
page by page, under the same total. -/
theorem export_selects_listed {env : Env} {req : Request} {adminEmail : String}
    {data : ExportCreate} {s s' : Database} {entry : Export}
    (h : (createExport env req adminEmail data).run s = (.ok entry, s')) :
    s'.exports.find? entry.id = some entry ∧
      ∃ spec, exportSpecs.lookup entry.module = some spec ∧ ∀ u : Database, ∃ rows,
        (rowStream env spec entry.filters).run u = (.ok rows, u) ∧
        (countRows env spec entry.filters).run u = (.ok rows.length, u) ∧
        ∀ logs admins, ∃ listed, listed.Perm rows ∧ ∀ page limit,
          (listEndpoint env logs admins page limit data.requested).run u =
            (.ok (slice page limit listed, rows.length), u) := by
  rcases run_createExport_inv h with ⟨⟨_, ⟨⟩⟩, -⟩ |
    ⟨entry', exports, outbox, hinsert, -, horigin, hretains, hentry, rfl⟩
  obtain rfl := Except.ok.inj hentry
  have hmodule : entry.module = data.requested.module.value := by
    rw [hretains.module]
    exact (Prod.mk.inj horigin).1
  obtain ⟨spec, hspec⟩ : ∃ spec, exportSpecs.lookup data.requested.module.value = some spec := by
    cases data.requested.module with
    | audit => exact ⟨_, rfl⟩
    | users => exact ⟨_, rfl⟩
  refine ⟨?_, spec, hmodule ▸ hspec, fun u => ⟨selected env spec entry.filters u, ?_, ?_, ?_⟩⟩
  · simp [Table.find?_insert hinsert]
  · exact run_rowStream hspec _ u
  · exact run_countRows hspec _ u
  · intro logs admins
    rw [hretains.filters]
    exact run_listEndpoint env hspec logs admins u

open Administration (sampleEnv sampleRequest sampleState)

/-- An export of the active admins. -/
def sampleExport : ExportCreate where
  module := .users
  reason := "review"
  filters := some (.users { search := some "admin", status := some .active })

/-- The first page of the list is a page of its rows. -/
theorem export_selects_listed_sampleExport :
    ∃ (entry : Export) (s' : Database) (spec : ExportSpec) (rows : List ExportRow),
      exportSpecs.lookup entry.module = some spec ∧
      s'.exports.find? entry.id = some entry ∧
      (rowStream sampleEnv spec entry.filters).run sampleState = (.ok rows, sampleState) ∧
      ∀ logs admins, ∃ listed, listed.Perm rows ∧
        (listEndpoint sampleEnv logs admins 1 2 sampleExport.requested).run sampleState =
          (.ok (slice 1 2 listed, rows.length), sampleState) := by
  rcases hrun : (createExport sampleEnv (sampleRequest 1) "admin1@example.com" sampleExport).run
    sampleState with ⟨e | entry, s'⟩
  · have hok : (((createExport sampleEnv (sampleRequest 1) "admin1@example.com"
        sampleExport).run sampleState).1.toOption).isSome = true := by decide +kernel
    rw [hrun] at hok
    cases hok
  · obtain ⟨hstored, spec, hspec, hselects⟩ := export_selects_listed hrun
    obtain ⟨rows, hrows, -, hlisted⟩ := hselects sampleState
    refine ⟨entry, s', spec, rows, hspec, hstored, hrows, fun logs admins => ?_⟩
    obtain ⟨listed, hperm, hpage⟩ := hlisted logs admins
    exact ⟨listed, hperm, hpage 1 2⟩

end AdminPlatform.Lists
