import AdminPlatform.Exports.Streaming
import AdminPlatform.Lists.Queries

/-! # Pages of the lists

The pages of a list, one request each, on a table that does not change. The lists of audit
logs, users and roles are ordered by the creation time alone, the list of screens by the sort
order and the creation time. Rows may tie on these, where the streams of the exports go on to
order by the id.

The pages together show every matching row once, in whatever order the database answers rows
that tie, if and only if no two such rows stand on two sides of a page boundary
(`pages_partition_iff`). -/

namespace AdminPlatform.Lists
open AdminPlatform.Lib AdminPlatform.Lib.Paging

/-! ## Reading all pages -/

/-- The rows of the first pages. -/
def readPages {α : Type} (list : Nat → Db (List α × Nat)) : Nat → Db (List α)
  | 0 => return []
  | n + 1 => do
      let shown ← readPages list n
      let (rows, _) ← list (n + 1)
      return shown ++ rows

/-- The rows of all pages; the first page tells how many there are. -/
def allPages {α : Type} (list : Nat → Db (List α × Nat)) (limit : Nat) : Db (List α) := do
  let (_, total) ← list 1
  readPages list (totalPages total limit)

/-- The pages of a list operation together hold each of the rows once and nothing else,
whatever order the database picks for each page. -/
def Partitions {α : Type} {le : α → α → Prop} (list : OrderBy le → Nat → Nat → Db (List α × Nat))
    (rows : List α) (limit : Nat) (s : Database) : Prop :=
  ∀ orders : Nat → OrderBy le, ∃ shown,
    (allPages (fun page => list (orders page) page limit) limit).run s = (.ok shown, s) ∧
      shown.Perm rows

section Pages
variable {α : Type} {le : α → α → Prop} {matching : Database → List α} {limit : Nat}
  {s : Database}

theorem run_readPages (orders : Nat → OrderBy le) (n : Nat) :
    (readPages (fun page => paginated matching (orders page) page limit) n).run s =
      (.ok ((List.range n).flatMap fun i =>
        slice (i + 1) limit ((orders (i + 1)).pick (matching s))), s) := by
  induction n with
  | zero => rfl
  | succ n ih =>
      rw [readPages, Db.run_bind_ok _ ih, Db.run_bind_ok _ (run_paginated ..), List.range_succ,
        List.flatMap_append, List.flatMap_singleton]
      rfl

theorem run_allPages (orders : Nat → OrderBy le) :
    (allPages (fun page => paginated matching (orders page) page limit) limit).run s =
      (.ok (pages orders limit (matching s)), s) := by
  rw [allPages, Db.run_bind_ok _ (run_paginated ..)]
  exact run_readPages orders _

/-- **The pages of one operation.** -/
theorem partitions_iff [DecidableRel le] [Std.Total le] [IsTrans α le]
    (hnodup : (matching s).Nodup) (hlimit : 1 ≤ limit) :
    Partitions (fun order : OrderBy le => paginated matching order) (matching s) limit s ↔
      Untied le limit (matching s) := by
  rw [← pages_perm_iff hnodup hlimit]
  refine forall_congr' fun orders => ?_
  rw [run_allPages orders]
  constructor
  · rintro ⟨shown, hrun, hperm⟩
    obtain ⟨hshown, -⟩ := Prod.mk.inj hrun
    exact Except.ok.inj hshown ▸ hperm
  · exact fun hperm => ⟨_, rfl, hperm⟩

end Pages

/-- The rows of a table that are selected are each selected once. -/
theorem nodup_select {α : Type} [Row α] (t : Table α) (p : α → Bool) : (t.select p).Nodup := by
  refine List.Pairwise.filter p (t.unique.imp ?_)
  rintro a _ hclash rfl
  exact hclash (Row.of_key rfl)

/-- **The pages of a list partition its rows** if and only if no two rows that tie on the
columns of its `ORDER BY` stand on two sides of a page boundary. -/
theorem pages_partition_iff (env : Env) {s : Database}
    (hids : (s.auditLogs.map Audit.AuditLog.id).Nodup) {limit : Nat} (hlimit : 1 ≤ limit) :
    (∀ filters, Partitions (fun order => AuditRepository.listAuditLogs order filters)
        (AuditRepository.matching filters s) limit s ↔
      Untied (Descending AuditRepository.listKey) limit (AuditRepository.matching filters s)) ∧
    (∀ filters, Partitions (fun order => UserRepository.listUsers env order filters)
        (UserRepository.matching env filters s) limit s ↔
      Untied (Ascending PlatformAdmin.createdAt) limit (UserRepository.matching env filters s)) ∧
    (∀ search status,
      Partitions (fun order => RoleRepository.listRoles env order search status)
        (RoleRepository.matching env search status s) limit s ↔
      Untied (Ascending Role.createdAt) limit (RoleRepository.matching env search status s)) ∧
    ∀ search status,
      Partitions (fun order => ScreenRepository.listScreens env order search status)
        (ScreenRepository.matching env search status s) limit s ↔
      Untied (Ascending ScreenRepository.listKey) limit
        (ScreenRepository.matching env search status s) := by
  refine ⟨fun filters => ?_, fun filters => ?_, fun search status => ?_, fun search status => ?_⟩
  · exact partitions_iff (hids.of_map.filter _) hlimit
  · exact partitions_iff (nodup_select _ _) hlimit
  · exact partitions_iff (nodup_select _ _) hlimit
  · exact partitions_iff (nodup_select _ _) hlimit

/-! ## Ties -/

open Administration (sampleEnv sampleState)

/-- Two logs of one time, two of a later one, and one from before. -/
def pagedLogs : Database :=
  { Database.empty with
    auditLogs :=
      [Exports.sampleLog 2, Exports.sampleLog 1,
        { Exports.sampleLog 4 with createdAt := Instant.datetime (Instant.seconds 1782898300) },
        { Exports.sampleLog 3 with createdAt := Instant.datetime (Instant.seconds 1782898300) },
        { Exports.sampleLog 5 with createdAt := Instant.datetime (Instant.seconds 1782898000) }] }

/-- On pages of two, the logs of one time are on one page. -/
theorem pages_partition_pagedLogs :
    Partitions (fun order => AuditRepository.listAuditLogs order {})
      (AuditRepository.matching {} pagedLogs) 2 pagedLogs := by
  have hids : (pagedLogs.auditLogs.map Audit.AuditLog.id).Nodup := by decide
  obtain ⟨haudit, -⟩ := pages_partition_iff sampleEnv hids (show 1 ≤ 2 by decide)
  refine (haudit {}).mpr ?_
  -- the two page boundaries, and from the third on there are no rows
  have hboundary : ∀ k < 3, 0 < k →
      ∀ a ∈ ((AuditRepository.matching {} pagedLogs).insertionSort
        (Descending AuditRepository.listKey))[k * 2 - 1]?,
      ∀ b ∈ ((AuditRepository.matching {} pagedLogs).insertionSort
        (Descending AuditRepository.listKey))[k * 2]?,
      ¬ Descending AuditRepository.listKey b a := by decide +kernel
  intro k hk a ha b hb
  have hlength : (AuditRepository.matching {} pagedLogs).length = 5 := by decide
  obtain ⟨hlt, -⟩ := List.getElem?_eq_some_iff.mp hb
  rw [List.length_insertionSort, hlength] at hlt
  exact hboundary k (by omega) hk a ha b hb

/-- Ties one way for page 1, and the other way from then on. -/
def sampleOrders (page : Nat) : OrderBy (Ascending PlatformAdmin.createdAt) :=
  if page = 1 then .stable _ else .reversed _

/-- **Two admins of one creation time.** On pages of one row, the database may answer the first
of them for page 1 and for page 2. -/
theorem not_partitions_users :
    ¬ Partitions (fun order => UserRepository.listUsers sampleEnv order {})
      (UserRepository.matching sampleEnv {} sampleState) 1 sampleState := by
  intro h
  obtain ⟨shown, hrun, hperm⟩ := h sampleOrders
  obtain ⟨hshown, -⟩ := Prod.mk.inj ((run_allPages sampleOrders).symm.trans hrun)
  obtain rfl := Except.ok.inj hshown
  have htwice : (pages sampleOrders 1 (UserRepository.matching sampleEnv {} sampleState)).map
      PlatformAdmin.id = [.ofNat 1, .ofNat 1] := by decide +kernel
  have hboth : (UserRepository.matching sampleEnv {} sampleState).map PlatformAdmin.id =
      [.ofNat 1, .ofNat 2] := by decide +kernel
  have hids := hperm.map PlatformAdmin.id
  rw [htwice, hboth] at hids
  exact absurd (hids.mem_iff.mpr (List.mem_cons_of_mem _ List.mem_cons_self))
    (show Uuid.ofNat 2 ∉ [Uuid.ofNat 1, Uuid.ofNat 1] by decide)

end AdminPlatform.Lists
