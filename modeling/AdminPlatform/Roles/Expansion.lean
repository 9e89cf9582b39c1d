import AdminPlatform.Lists.Queries
import AdminPlatform.Services.Rbac

/-! # The permissions a role shows

`_expand_permissions` sorts the permission strings of its rows by a key that tells them apart,
so what it answers does not depend on the order of the rows (`expandPermissions_perm`). Its
strings are those that the effective permissions of an admin are built of
(`mem_expandPermissions`). The rows of a role are one for each of its screens that is active
(`mem_permissionRows`). -/

namespace AdminPlatform
open AdminPlatform.Lib AdminPlatform.Lib.Paging

namespace RoleService

/-! ## Expanding rows -/

/-- The entries of a row, before they are sorted. -/
def entries : PermissionRow → List (Nat × String × String)
  | (code, sortOrder, read, write) =>
      (if read || write then [(sortOrder, code, "R")] else []) ++
        (if write then [(sortOrder, code, "W")] else [])

/-- The permission string of an entry. -/
def entryText (entry : Nat × String × String) : String := s!"{entry.2.1}.{entry.2.2}"

theorem expandPermissions_eq (rows : List PermissionRow) :
    expandPermissions rows =
      ((rows.flatMap entries).insertionSort fun a b => permissionKey a ≤ permissionKey b).map
        entryText := rfl

theorem screenCodeKey_code (code : String) : (screenCodeKey code).2.2 = code := by
  unfold screenCodeKey
  split <;> rfl

/-- The sort key tells entries apart. -/
theorem permissionKey_injective : Function.Injective permissionKey := by
  rintro ⟨sortOrder, code, operation⟩ ⟨sortOrder', code', operation'⟩ h
  obtain ⟨hsort, h⟩ := Prod.mk.inj (toLex.injective h)
  obtain ⟨-, h⟩ := Prod.mk.inj (toLex.injective h)
  obtain ⟨-, h⟩ := Prod.mk.inj (toLex.injective h)
  obtain ⟨hcode, hoperation⟩ := Prod.mk.inj (toLex.injective h)
  rw [screenCodeKey_code, screenCodeKey_code] at hcode
  exact Prod.ext hsort (Prod.ext hcode hoperation)

/-- What is sorted by a key that tells entries apart is determined by what there is. -/
theorem insertionSort_permissionKey {xs ys : List (Nat × String × String)} (h : xs.Perm ys) :
    (xs.insertionSort fun a b => permissionKey a ≤ permissionKey b) =
      ys.insertionSort fun a b => permissionKey a ≤ permissionKey b := by
  have : Std.Antisymm fun a b : Nat × String × String => permissionKey a ≤ permissionKey b :=
    ⟨fun _ _ hab hba => permissionKey_injective (le_antisymm hab hba)⟩
  have : Std.Total fun a b : Nat × String × String => permissionKey a ≤ permissionKey b :=
    ⟨fun a b => le_total (permissionKey a) (permissionKey b)⟩
  have : IsTrans _ fun a b : Nat × String × String => permissionKey a ≤ permissionKey b :=
    ⟨fun _ _ _ => le_trans⟩
  have hperm := (List.perm_insertionSort (fun a b => permissionKey a ≤ permissionKey b) xs).trans
    (h.trans (List.perm_insertionSort (fun a b => permissionKey a ≤ permissionKey b) ys).symm)
  exact hperm.eq_of_pairwise' (List.pairwise_insertionSort _ xs) (List.pairwise_insertionSort _ ys)

/-- **The order of the rows does not matter.** -/
theorem expandPermissions_perm {rows rows' : List PermissionRow} (h : rows.Perm rows') :
    expandPermissions rows = expandPermissions rows' := by
  rw [expandPermissions_eq, expandPermissions_eq,
    insertionSort_permissionKey (h.flatMap_right entries)]

/-- A row expands to the strings that its permission gives an admin. -/
theorem map_entries (row : PermissionRow) :
    (entries row).map entryText = RbacService.expandRow (row.1, row.2.2.1, row.2.2.2) := by
  have hread : ∀ code : String, entryText (row.2.1, code, "R") = code ++ ".R" := by
    intro code
    show code ++ "." ++ "R" = _
    rw [String.append_assoc]
    rfl
  have hwrite : ∀ code : String, entryText (row.2.1, code, "W") = code ++ ".W" := by
    intro code
    show code ++ "." ++ "W" = _
    rw [String.append_assoc]
    rfl
  rcases row with ⟨code, sortOrder, _ | _, _ | _⟩ <;>
    simp [entries, RbacService.expandRow, hread, hwrite]

/-- **The strings of the rows** are those an admin's permissions expand to. -/
theorem mem_expandPermissions {rows : List PermissionRow} {p : String} :
    p ∈ expandPermissions rows ↔
      ∃ row ∈ rows, p ∈ RbacService.expandRow (row.1, row.2.2.1, row.2.2.2) := by
  simp only [expandPermissions_eq, ← map_entries, List.mem_map, List.mem_insertionSort,
    List.mem_flatMap]
  constructor
  · rintro ⟨entry, ⟨row, hrow, hentry⟩, htext⟩
    exact ⟨row, hrow, entry, hentry, htext⟩
  · rintro ⟨row, hrow, entry, hentry, htext⟩
    exact ⟨entry, ⟨row, hrow, hentry⟩, htext⟩

theorem read_inj {a b : String} : a ++ ".R" = b ++ ".R" ↔ a = b := by simp

theorem write_inj {a b : String} : a ++ ".W" = b ++ ".W" ↔ a = b := by simp

theorem read_ne_write {a b : String} : a ++ ".R" ≠ b ++ ".W" := by
  intro h
  have hlast := congrArg (fun s : String => s.toList.getLast?) h
  simp at hlast

theorem expandRow_eq {code p : String} {write : Bool} :
    p ∈ RbacService.expandRow (code, true, write) ↔
      p = code ++ ".R" ∨ (write = true ∧ p = code ++ ".W") := by
  cases write <;> simp [RbacService.expandRow]

/-- Rows of different screens expand to strings without repetition. -/
theorem nodup_expandPermissions {rows : List PermissionRow} (h : (rows.map Prod.fst).Nodup) :
    (expandPermissions rows).Nodup := by
  have hperm := (List.perm_insertionSort (fun a b => permissionKey a ≤ permissionKey b)
    (rows.flatMap entries)).map entryText
  rw [expandPermissions_eq, hperm.nodup_iff, List.map_flatMap]
  simp only [map_entries]
  -- a text ends in its operation, so two rows share one only if they share the code
  have hcode : ∀ (row : PermissionRow) (p : String),
      p ∈ RbacService.expandRow (row.1, row.2.2.1, row.2.2.2) →
        p = row.1 ++ ".R" ∨ p = row.1 ++ ".W" := by
    rintro ⟨code, sortOrder, _ | _, _ | _⟩ p hp <;> simp_all [RbacService.expandRow]
  refine List.nodup_flatMap.mpr ⟨fun row _ => ?_, (List.pairwise_map.mp h).imp fun hdiff p hp hq => ?_⟩
  · rcases row with ⟨code, sortOrder, _ | _, _ | _⟩ <;> simp [RbacService.expandRow]
  · rcases hcode _ p hp with rfl | rfl <;> rcases hcode _ _ hq with heq | heq
    · exact hdiff (read_inj.mp heq)
    · exact read_ne_write heq
    · exact read_ne_write heq.symm
    · exact hdiff (write_inj.mp heq)

end RoleService

namespace RoleRepository
variable {s : Database} {roleId : Uuid}

/-! ## The rows of a role -/

/-- **A row of a role** is that of a permission on an active screen. -/
theorem mem_permissionRows {row : PermissionRow} :
    row ∈ permissionRows s roleId ↔
      ∃ screen ∈ s.screens, screen.status = .active ∧
        ∃ grant, s.roleScreens.find? (roleId, screen.code) = some grant ∧
          row = (screen.code, screen.sortOrder, grant.read, grant.write) := by
  simp only [permissionRows, List.mem_insertionSort, List.mem_filterMap, Table.mem_select,
    decide_eq_true_eq, Option.map_eq_some_iff]
  constructor
  · rintro ⟨screen, ⟨hscreen, hactive⟩, grant, hgrant, rfl⟩
    exact ⟨screen, hscreen, hactive, grant, hgrant, rfl⟩
  · rintro ⟨screen, hscreen, hactive, grant, hgrant, rfl⟩
    exact ⟨screen, ⟨hscreen, hactive⟩, grant, hgrant, rfl⟩

/-- A role has one row for a screen. -/
theorem nodup_permissionRows : ((permissionRows s roleId).map Prod.fst).Nodup := by
  have hperm := (List.perm_insertionSort
    (fun a b : PermissionRow => toLex (a.2.1, a.1) ≤ toLex (b.2.1, b.1))
    ((s.screens.select fun screen => screen.status = .active).filterMap fun screen =>
      (s.roleScreens.find? (roleId, screen.code)).map fun row =>
        (screen.code, screen.sortOrder, row.read, row.write))).map Prod.fst
  refine hperm.nodup_iff.mpr ?_
  rw [List.map_filterMap]
  refine List.Pairwise.filterMap _ ?_ (s.screens.unique.filter _)
  rintro a b hclash code hcode code' hcode' rfl
  simp only [Option.map_map, Option.map_eq_some_iff] at hcode hcode'
  obtain ⟨_, -, rfl⟩ := hcode
  obtain ⟨_, -, hsame⟩ := hcode'
  exact hclash (.inr hsame.symm)

end RoleRepository
end AdminPlatform
