import AdminPlatform.Roles.Shown

/-! # The grants of a role

A request names permissions as strings. They are folded into one entry for each screen code,
which becomes the row of the role for that screen; the rows the role had before go. Whatever
the order of the strings and however often each is given, there is one row for every code they
name (`Normal`, `normalizePermissions_eq`), so what a request leaves depends on which strings
it gives only (`run_createRole_granted`, `run_updateRole_granted`). -/

namespace AdminPlatform.RoleService
open AdminPlatform.Lib AdminPlatform.Lib.Paging

/-! ## Permission strings -/

/-- `[A-Za-z0-9]`. -/
def isAlphanumeric (c : Char) : Bool :=
  ('A' ≤ c && c ≤ 'Z') || ('a' ≤ c && c ≤ 'z') || ('0' ≤ c && c ≤ '9')

/-- `[A-Za-z0-9]+(-[A-Za-z0-9]+)*`: groups of alphanumerics with a hyphen between two. -/
def isSlug (cs : List Char) : Bool :=
  (cs.splitOn '-').all fun group => group ≠ [] && group.all isAlphanumeric

/-- `validate_permission_format`: a slug screen code, a dot, and `R` or `W`. -/
def validatePermissionFormat (value : String) : Bool :=
  match value.toList.reverse with
  | operation :: '.' :: code => (operation = 'R' || operation = 'W') && isSlug code.reverse
  | _ => false

/-- A permission string as requests may give it. -/
structure PermissionStr where
  value : String
  min_length : 3 ≤ value.length
  max_length : value.length ≤ 52
  format : validatePermissionFormat value = true

/-- A string that reads or writes a screen. -/
def IsPermission (p : String) : Prop := ∃ code, p = code ++ ".R" ∨ p = code ++ ".W"

/-- The strings name a screen. -/
def Names (given : List String) (code : String) : Prop :=
  code ++ ".R" ∈ given ∨ code ++ ".W" ∈ given

instance (given : List String) (code : String) : Decidable (Names given code) := by
  unfold Names; infer_instance

theorem PermissionStr.isPermission (p : PermissionStr) : IsPermission p.value := by
  have hformat := p.format
  unfold validatePermissionFormat at hformat
  split at hformat
  · rename_i operation code hrev
    obtain ⟨hoperation, -⟩ := Bool.and_eq_true_iff.mp hformat
    have hchars := congrArg List.reverse hrev
    rw [List.reverse_reverse] at hchars
    have hvalue := congrArg String.ofList hchars
    rw [String.ofList_toList] at hvalue
    refine ⟨String.ofList code.reverse, ?_⟩
    rcases Bool.or_eq_true_iff.mp hoperation with h | h
    · obtain rfl := of_decide_eq_true h
      exact .inl (by simp [hvalue])
    · obtain rfl := of_decide_eq_true h
      exact .inr (by simp [hvalue])
  · cases hformat

theorem rsplit_read (code : String) : rsplit (code ++ ".R") = some (code, "R") := by
  simp [rsplit]

theorem rsplit_write (code : String) : rsplit (code ++ ".W") = some (code, "W") := by
  simp [rsplit]

/-! ## One entry for each code -/

section Entries
variable {code : String} {entry : Bool × Bool} {byCode : List (String × Bool × Bool)}

theorem mem_setEntry (hnodup : (byCode.map Prod.fst).Nodup) {c : String} {e : Bool × Bool} :
    (c, e) ∈ setEntry code entry byCode ↔ (c = code ∧ e = entry) ∨ (c ≠ code ∧ (c, e) ∈ byCode) := by
  induction byCode with
  | nil => simp [setEntry]
  | cons head byCode ih =>
      obtain ⟨c₀, e₀⟩ := head
      obtain ⟨hnew, hrest⟩ := List.nodup_cons.mp hnodup
      rw [setEntry]
      split
      · rename_i hhead
        subst hhead
        -- the code is the head's, and no other entry has it
        have hother : (c, e) ∈ byCode → c ≠ c₀ := by
          rintro hmem rfl
          exact hnew (List.mem_map.mpr ⟨_, hmem, rfl⟩)
        rw [List.mem_cons, List.mem_cons, Prod.mk.injEq, Prod.mk.injEq]
        constructor
        · rintro (h | h)
          · exact .inl h
          · exact .inr ⟨hother h, .inr h⟩
        · rintro (h | ⟨hne, h | h⟩)
          · exact .inl h
          · exact absurd (Prod.mk.inj h).1 hne
          · exact .inr h
      · rename_i hhead
        rw [List.mem_cons, List.mem_cons, ih hrest, Prod.mk.injEq]
        constructor
        · rintro (⟨rfl, rfl⟩ | h | ⟨hne, h⟩)
          · exact .inr ⟨hhead, .inl ⟨rfl, rfl⟩⟩
          · exact .inl h
          · exact .inr ⟨hne, .inr h⟩
        · rintro (h | ⟨hne, h | h⟩)
          · exact .inr (.inl h)
          · exact .inl h
          · exact .inr (.inr ⟨hne, h⟩)

theorem nodup_setEntry (hnodup : (byCode.map Prod.fst).Nodup) :
    ((setEntry code entry byCode).map Prod.fst).Nodup := by
  induction byCode with
  | nil => simp [setEntry]
  | cons head byCode ih =>
      obtain ⟨c₀, e₀⟩ := head
      obtain ⟨hnew, hrest⟩ := List.nodup_cons.mp hnodup
      rw [setEntry]
      split
      · rename_i hhead
        exact hhead ▸ hnodup
      · rename_i hhead
        refine List.nodup_cons.mpr ⟨fun hmem => ?_, ih hrest⟩
        obtain ⟨⟨c, e⟩, hce, hc⟩ := List.mem_map.mp hmem
        obtain rfl : c = c₀ := hc
        rcases (mem_setEntry hrest).mp hce with ⟨heq, -⟩ | ⟨-, hold⟩
        · exact hhead heq
        · exact hnew (List.mem_map.mpr ⟨_, hold, rfl⟩)

/-- The entries of the strings given so far: one for each code they name, read, and written if
they write it. -/
structure Normal (given : List String) (byCode : List (String × Bool × Bool)) : Prop where
  nodup : (byCode.map Prod.fst).Nodup
  mem : ∀ code entry, (code, entry) ∈ byCode ↔
    Names given code ∧ entry = (true, decide (code ++ ".W" ∈ given))

/-- What is written of a code so far. -/
theorem Normal.written {given : List String} (h : Normal given byCode) (code : String) :
    ((byCode.lookup code).getD (false, false)).2 = decide (code ++ ".W" ∈ given) := by
  cases hlookup : byCode.lookup code with
  | none =>
      have hunnamed : ¬ Names given code := by
        intro hnames
        have hin := (h.mem code _).mpr ⟨hnames, rfl⟩
        exact absurd (List.lookup_eq_none_iff.mp hlookup _ hin) (by simp)
      exact (decide_eq_false fun hwrite => hunnamed (.inr hwrite)).symm
  | some entry =>
      obtain ⟨before, after, hsplit, -⟩ := List.lookup_eq_some_iff.mp hlookup
      have hin : (code, entry) ∈ byCode := hsplit ▸ List.mem_append_right _ List.mem_cons_self
      rw [((h.mem code entry).mp hin).2]
      rfl

/-- One more string keeps the entries normal. -/
theorem Normal.addPermission {given : List String} (h : Normal given byCode) {p : String}
    (hp : IsPermission p) :
    ∃ byCode', addPermission byCode p = some byCode' ∧ Normal (given ++ [p]) byCode' := by
  obtain ⟨code, rfl | rfl⟩ := hp
  -- a read keeps the write flag that the code has by now
  · refine ⟨setEntry code (true, decide (code ++ ".W" ∈ given)) byCode, ?_, nodup_setEntry h.nodup,
      fun c e => ?_⟩
    · simp [RoleService.addPermission, rsplit_read, h.written]
    · have hwrite : c ++ ".W" ∈ given ++ [code ++ ".R"] ↔ c ++ ".W" ∈ given := by
        simp [read_ne_write.symm]
      have hnames : Names (given ++ [code ++ ".R"]) c ↔ Names given c ∨ c = code := by
        rw [Names, hwrite, List.mem_append, List.mem_singleton, read_inj, Names]
        tauto
      have hwritten : decide (c ++ ".W" ∈ given ++ [code ++ ".R"]) =
          decide (c ++ ".W" ∈ given) := by
        rw [decide_eq_decide]
        exact hwrite
      rw [mem_setEntry h.nodup, h.mem, hnames, hwritten]
      by_cases hc : c = code
      · subst hc
        simp
      · simp [hc]
  -- a write implies the read
  · refine ⟨setEntry code (true, true) byCode, ?_, nodup_setEntry h.nodup, fun c e => ?_⟩
    · simp [RoleService.addPermission, rsplit_write]
    · have hwrite : c ++ ".W" ∈ given ++ [code ++ ".W"] ↔ c ++ ".W" ∈ given ∨ c = code := by
        rw [List.mem_append, List.mem_singleton, write_inj]
      have hnames : Names (given ++ [code ++ ".W"]) c ↔ Names given c ∨ c = code := by
        rw [Names, hwrite, List.mem_append, List.mem_singleton, Names]
        simp only [read_ne_write, or_false]
        tauto
      have hwritten : decide (c ++ ".W" ∈ given ++ [code ++ ".W"]) =
          (decide (c ++ ".W" ∈ given) || decide (c = code)) := by
        rw [← Bool.decide_or, decide_eq_decide]
        exact hwrite
      rw [mem_setEntry h.nodup, h.mem, hnames, hwritten]
      by_cases hc : c = code
      · subst hc
        simp
      · simp [hc]

end Entries

/-- **The strings are folded into normal entries.** -/
theorem normalizePermissions_eq {given : List String} (hgiven : ∀ p ∈ given, IsPermission p) :
    ∃ byCode, normalizePermissions given = some byCode ∧ Normal given byCode := by
  unfold normalizePermissions
  induction given using List.reverseRecOn with
  | nil => exact ⟨[], rfl, List.nodup_nil, fun code entry => by simp [Names]⟩
  | append_singleton given p ih =>
      obtain ⟨byCode, hfold, hnormal⟩ := ih fun q hq => hgiven q (List.mem_append_left _ hq)
      obtain ⟨byCode', hadd, hnormal'⟩ :=
        hnormal.addPermission (hgiven p (List.mem_append_right _ List.mem_cons_self))
      refine ⟨byCode', ?_, hnormal'⟩
      rw [List.foldlM_append, hfold]
      simp [hadd]

/-! ## The rows of the entries -/

/-- The row of a role for a screen that the strings name. -/
def grantRow (req : Request) (roleId : Uuid) (given : List String) (code : String) :
    RoleScreen where
  roleId := roleId
  screenCode := code
  read := true
  write := code ++ ".W" ∈ given
  createdAt := req.now

section Rows
variable {req : Request} {roleId : Uuid} {given : List String}
  {byCode : List (String × Bool × Bool)} {s : Database}

theorem Normal.mem_codes (h : Normal given byCode) {code : String} :
    code ∈ byCode.map Prod.fst ↔ Names given code := by
  rw [List.mem_map]
  constructor
  · rintro ⟨⟨c, e⟩, hce, rfl⟩
    exact ((h.mem _ _).mp hce).1
  · intro hnames
    exact ⟨_, (h.mem code _).mpr ⟨hnames, rfl⟩, rfl⟩

/-- **One row for every code that is named.** -/
theorem Normal.mem_permissionRows (h : Normal given byCode) {row : RoleScreen} :
    row ∈ permissionRows req roleId byCode ↔
      ∃ code, Names given code ∧ row = grantRow req roleId given code := by
  rw [permissionRows, List.mem_map]
  constructor
  · rintro ⟨⟨code, entry⟩, hin, rfl⟩
    obtain ⟨hnames, rfl⟩ := (h.mem code entry).mp hin
    exact ⟨code, hnames, rfl⟩
  · rintro ⟨code, hnames, rfl⟩
    exact ⟨_, (h.mem code _).mpr ⟨hnames, rfl⟩, rfl⟩

theorem Normal.pairwise_permissionRows (h : Normal given byCode) :
    (permissionRows req roleId byCode).Pairwise (fun a b => ¬ Row.Clash a b) := by
  refine List.pairwise_map.mpr ((List.pairwise_map.mp h.nodup).imp ?_)
  intro a b hne hclash
  exact hne (Prod.mk.inj hclash).2

theorem run_normalized (h : normalizePermissions given = some byCode) (s : Database) :
    (normalized given).run s = (.ok byCode, s) := by
  rw [normalized, h]
  rfl

theorem run_validateScreenCodes
    (hactive : ∀ code ∈ byCode.map Prod.fst, code ∈ ScreenRepository.activeCodes s) :
    (validateScreenCodes byCode).run s = (.ok (), s) := by
  rcases validateScreenCodes_isCheck byCode s with ⟨⟨code, hcode, hnot⟩, -⟩ | ⟨-, hrun⟩
  · exact absurd (hactive code hcode) hnot
  · exact hrun

/-- A code that is not that of an active screen is refused with a validation error. -/
theorem run_validateScreenCodes_refused {code : String} (hcode : code ∈ byCode.map Prod.fst)
    (hinactive : code ∉ ScreenRepository.activeCodes s) :
    ∃ fields, (validateScreenCodes byCode).run s = (.error (.app (.validation fields)), s) := by
  have hne : byCode ≠ [] := by
    rintro rfl
    cases hcode
  have hinvalid : (byCode.map Prod.fst).filter (· ∉ ScreenRepository.activeCodes s) ≠ [] := by
    refine List.ne_nil_of_mem (a := code) (List.mem_filter.mpr ⟨hcode, ?_⟩)
    exact decide_eq_true hinactive
  rw [validateScreenCodes, when, if_pos (decide_eq_true hne), ScreenRepository.activeScreenCodes,
    Db.run_query_bind]
  dsimp only
  rw [when, if_pos (decide_eq_true hinvalid)]
  exact ⟨_, rfl⟩

/-- The screen of an active code. -/
theorem isSome_screenByCode {code : String} (h : code ∈ ScreenRepository.activeCodes s) :
    (s.screenByCode code).isSome := by
  obtain ⟨screen, hscreen, hcode⟩ := List.mem_map.mp h
  rw [Database.screenByCode_eq_some.mpr ⟨(Table.mem_select.mp hscreen).1, hcode⟩]
  rfl

end Rows

/-! ## Requests that give permissions -/

section Requests
variable {req : Request} {given : List String} {s : Database}

theorem run_getRole {roleId : Uuid} {role : Role} (hfind : s.roles.find? roleId = some role) :
    (getRole roleId).run s = (.ok role, s) := by
  rw [getRole, RoleRepository.getRole, Db.run_query_bind, hfind]
  rfl

/-- The rows an update gives. -/
theorem run_updateRows {roleId : Uuid} {byCode : List (String × Bool × Bool)}
    (hnormalize : normalizePermissions given = some byCode) (hnormal : Normal given byCode)
    (hactive : ∀ code, Names given code → code ∈ ScreenRepository.activeCodes s) :
    (updateRows req roleId (some given)).run s =
      (.ok (some (permissionRows req roleId byCode)), s) := by
  have hvalid : (validateScreenCodes byCode).run s = (.ok (), s) :=
    run_validateScreenCodes fun code hcode => hactive code (hnormal.mem_codes.mp hcode)
  rw [updateRows, Db.run_bind_ok _ (run_normalized hnormalize s), Db.run_bind_ok _ hvalid]
  rfl

/-- The checks of an update before its permissions are looked at. -/
theorem run_updateRole_checks {roleId : Uuid} {data : RoleUpdate} {role : Role}
    (hname : role.name ≠ superAdminRoleName)
    (hfree : ∀ name ∈ data.name, ∀ existing, s.roleByName name = some existing →
      existing.id = roleId) :
    (when (touchesProtected role data) (raise .protectedResource)).run s = (.ok (), s) ∧
      (data.name.forM fun name => ensureNameAvailable name (some roleId)).run s =
        (.ok (), s) := by
  constructor
  · have hallowed : touchesProtected role data = false := by simp [touchesProtected, hname]
    rw [hallowed]
    rfl
  · rcases Db.IsCheck.forM data.name
      (fun name => ensureNameAvailable_isCheck name (some roleId) s) with
      ⟨⟨name, hin, existing, hexisting, hother⟩, -⟩ | ⟨-, hrun⟩
    · exact absurd (congrArg some (hfree name hin existing hexisting)).symm hother
    · exact hrun

/-- Writing a role back with rows for active screens. -/
theorem exists_applyUpdateRole {role current : Role} {rows : List RoleScreen}
    (hfind : s.roles.find? role.id = some role) (hid : current.id = role.id)
    (hfree : ∀ existing, s.roleByName current.name = some existing → existing.id = role.id)
    (hrows : rows.Pairwise (fun a b => ¬ Row.Clash a b))
    (hown : ∀ row ∈ rows, row.roleId = role.id ∧
      row.screenCode ∈ ScreenRepository.activeCodes s) :
    ∃ u, (Write.updateRole role current (some rows)).apply s = .ok u := by
  obtain ⟨roles, hroles⟩ : ∃ t, s.roles.flush role current = .ok t := by
    refine Table.exists_flush hfind hid fun other hother hne hclash => ?_
    rcases hclash with h | h
    · exact hne (h.symm.trans hid)
    · have hbyName := Database.roleByName_eq_some.mpr ⟨hother, h.symm⟩
      exact hne (hfree other hbyName)
  obtain ⟨t, ht⟩ : ∃ t : Table RoleScreen, Database.insertRoleScreens
      { s with roles := roles, roleScreens := s.roleScreens.delete fun row => row.roleId = role.id }
      rows = .ok { s with roles := roles, roleScreens := t } := by
    refine Database.exists_insertRoleScreens (fun row hrow => ⟨?_, ?_⟩) hrows ?_
    · show (roles.find? row.roleId).isSome
      rw [(hown row hrow).1, Table.find?_flush_loaded hroles hfind hid]
      simp
    · exact isSome_screenByCode (hown row hrow).2
    · intro old hold row hrow hclash
      -- the old rows of the role are deleted first, so none of them is in the way
      obtain ⟨-, hother⟩ := Table.mem_delete.mp hold
      obtain ⟨hsame, -⟩ := Prod.mk.inj hclash
      exact of_decide_eq_false hother (hsame.trans (hown row hrow).1)
  exact ⟨_, bind_eq_ok.mpr ⟨roles, hroles, ht⟩⟩

/-- The name that a role has after an update is still that of this role only. -/
theorem id_eq_of_assignUpdate_name {roleId : Uuid} {data : RoleUpdate} {role : Role}
    (hfind : s.roles.find? roleId = some role)
    (hfree : ∀ name ∈ data.name, ∀ existing, s.roleByName name = some existing →
      existing.id = roleId) :
    ∀ existing, s.roleByName (assignUpdate data role).name = some existing →
      existing.id = roleId := by
  intro existing hexisting
  obtain ⟨hmem, hid⟩ := Table.find?_eq_some.mp hfind
  cases hdataName : data.name with
  | none =>
      -- the name stays, so the role found under it is the role itself
      have hsame : (assignUpdate data role).name = role.name := by
        simp [assignUpdate, hdataName]
      rw [hsame, Database.roleByName_eq_some.mpr ⟨hmem, rfl⟩] at hexisting
      obtain rfl := Option.some.inj hexisting
      exact hid
  | some name =>
      refine hfree name hdataName existing ?_
      simpa [assignUpdate, hdataName] using hexisting

/-- **An update that gives permissions**: the rows of the role are those of the codes it
names, and the other roles keep theirs. -/
theorem run_updateRole_granted {roleId : Uuid} {data : RoleUpdate} {role : Role}
    (hfind : s.roles.find? roleId = some role) (hname : role.name ≠ superAdminRoleName)
    (hfree : ∀ name ∈ data.name, ∀ existing, s.roleByName name = some existing →
      existing.id = roleId)
    (hdata : data.permissions = some given) (hgiven : ∀ p ∈ given, IsPermission p)
    (hactive : ∀ code, Names given code → code ∈ ScreenRepository.activeCodes s) :
    ∃ read roles outbox, ∃ roleScreens : Table RoleScreen,
      (updateRole req roleId data).run s =
        (.ok read,
          { s with roles := roles, roleScreens := roleScreens, auditIntents := outbox }) ∧
      s.roles.flush role (assignUpdate data role) = .ok roles ∧
      ∀ x, x ∈ roleScreens ↔ (x ∈ s.roleScreens ∧ x.roleId ≠ roleId) ∨
        ∃ code, Names given code ∧ x = grantRow req roleId given code := by
  obtain rfl : role.id = roleId := (Table.find?_eq_some.mp hfind).2
  obtain ⟨byCode, hnormalize, hnormal⟩ := normalizePermissions_eq hgiven
  obtain ⟨hallowed, hnames⟩ := run_updateRole_checks hname hfree
  have hrows : (updateRows req role.id (some given)).run s =
      (.ok (some (permissionRows req role.id byCode)), s) :=
    run_updateRows hnormalize hnormal hactive
  obtain ⟨u, hu⟩ : ∃ u, (Write.updateRole role (assignUpdate data role)
      (some (permissionRows req role.id byCode))).apply s = .ok u := by
    refine exists_applyUpdateRole hfind rfl (id_eq_of_assignUpdate_name hfind hfree)
      hnormal.pairwise_permissionRows ?_
    intro row hrow
    obtain ⟨code, hnamed, rfl⟩ := hnormal.mem_permissionRows.mp hrow
    exact ⟨rfl, hactive code hnamed⟩
  obtain ⟨roles, roleScreens, hflush, -, hmem, rfl⟩ := apply_updateRole hu
  have hupdate : (RoleRepository.updateRole role (assignUpdate data)
      (some (permissionRows req role.id byCode))).run s =
        (.ok (assignUpdate data role), { s with roles := roles, roleScreens := roleScreens }) := by
    refine Db.run_save_ok hu ?_
    simpa using Table.find?_flush_loaded hflush hfind rfl role.id
  obtain ⟨expanded, hexpanded⟩ := run_expandedPermissions role.id (some given)
    { s with roles := roles, roleScreens := roleScreens }
  obtain ⟨outbox, hrecord⟩ := AuditService.run_record req
    (AuditService.event .roleUpdate (some .role) (some role.id.str) (updateDetails data expanded))
    { s with roles := roles, roleScreens := roleScreens }
  let left : Database :=
    { s with roles := roles, roleScreens := roleScreens, auditIntents := outbox }
  refine ⟨toRead (assignUpdate data role) (RoleRepository.permissionRows left role.id), roles, outbox,
    roleScreens, ?_, hflush, fun x => ?_⟩
  · rw [updateRole, Db.run_bind_ok _ (run_getRole hfind), Db.run_bind_ok _ hallowed,
      Db.run_bind_ok _ hnames, hdata, Db.run_bind_ok _ hrows, Db.run_bind_ok _ hupdate,
      Db.run_bind_ok _ hexpanded, Db.run_bind_ok _ hrecord]
    rfl
  · rw [hmem _ rfl, hnormal.mem_permissionRows]

theorem run_ensureNameAvailable {name : String} (hname : s.roleByName name = none) :
    (ensureNameAvailable name).run s = (.ok (), s) := by
  rcases ensureNameAvailable_isCheck name none s with ⟨⟨existing, hin, -⟩, -⟩ | ⟨-, hrun⟩
  · rw [hname] at hin
    cases hin
  · exact hrun

/-- Adding a role with rows for active screens, under an id and a name of its own. -/
theorem exists_applyInsertRole {role : Role} {rows : List RoleScreen}
    (hnew : s.roles.find? role.id = none) (hname : s.roleByName role.name = none)
    (hfresh : ∀ row ∈ s.roleScreens, row.roleId ≠ role.id)
    (hrows : rows.Pairwise (fun a b => ¬ Row.Clash a b))
    (hown : ∀ row ∈ rows, row.roleId = role.id ∧
      row.screenCode ∈ ScreenRepository.activeCodes s) :
    ∃ u, (Write.insertRole role rows).apply s = .ok u := by
  obtain ⟨roles, hroles⟩ : ∃ t, s.roles.insert role = some t := by
    cases hinsert : s.roles.insert role with
    | some t => exact ⟨t, rfl⟩
    | none =>
        obtain ⟨other, hother, hid | hsame⟩ := Table.insert_eq_none.mp hinsert
        · exact absurd hid (Table.find?_eq_none.mp hnew other hother)
        · rw [Database.roleByName_eq_some.mpr ⟨hother, hsame⟩] at hname
          cases hname
  obtain ⟨t, ht⟩ : ∃ t : Table RoleScreen, Database.insertRoleScreens { s with roles := roles }
      rows = .ok { s with roles := roles, roleScreens := t } := by
    refine Database.exists_insertRoleScreens (fun row hrow => ⟨?_, ?_⟩) hrows ?_
    · show (roles.find? row.roleId).isSome
      rw [(hown row hrow).1, Table.find?_insert hroles]
      simp
    · exact isSome_screenByCode (hown row hrow).2
    · intro old hold row hrow hclash
      obtain ⟨hsame, -⟩ := Prod.mk.inj hclash
      exact hfresh old hold (hsame.trans (hown row hrow).1)
  exact ⟨_, bind_eq_ok.mpr ⟨roles, orIntegrity_eq_ok.mpr hroles, ht⟩⟩

/-- **Creating a role that gives permissions.** -/
theorem run_createRole_granted {data : RoleCreate} (hname : s.roleByName data.name = none)
    (hfresh : ∀ row ∈ s.roleScreens, row.roleId ≠ req.newId)
    (hnew : s.roles.find? req.newId = none)
    (hdata : data.permissions = given) (hgiven : ∀ p ∈ given, IsPermission p)
    (hactive : ∀ code, Names given code → code ∈ ScreenRepository.activeCodes s) :
    ∃ read roles outbox, ∃ roleScreens : Table RoleScreen,
      (createRole req data).run s =
        (.ok read,
          { s with roles := roles, roleScreens := roleScreens, auditIntents := outbox }) ∧
      s.roles.insert (newRole req data) = some roles ∧
      ∀ x, x ∈ roleScreens ↔ x ∈ s.roleScreens ∨
        ∃ code, Names given code ∧ x = grantRow req req.newId given code := by
  obtain ⟨byCode, hnormalize, hnormal⟩ := normalizePermissions_eq hgiven
  have hfree := run_ensureNameAvailable hname
  have hvalid : (validateScreenCodes byCode).run s = (.ok (), s) :=
    run_validateScreenCodes fun code hcode => hactive code (hnormal.mem_codes.mp hcode)
  obtain ⟨u, hu⟩ : ∃ u, (Write.insertRole (newRole req data)
      (permissionRows req req.newId byCode)).apply s = .ok u := by
    refine exists_applyInsertRole hnew hname hfresh hnormal.pairwise_permissionRows ?_
    intro row hrow
    obtain ⟨code, hnamed, rfl⟩ := hnormal.mem_permissionRows.mp hrow
    exact ⟨rfl, hactive code hnamed⟩
  obtain ⟨roles, roleScreens, hinsert, hmem, rfl⟩ := apply_insertRole hu
  have hcreate : (RoleRepository.createRole (newRole req data)
      (permissionRows req req.newId byCode)).run s =
        (.ok (newRole req data), { s with roles := roles, roleScreens := roleScreens }) := by
    refine Db.run_save_ok hu ?_
    simp [Table.find?_insert hinsert]
  let rows := RoleRepository.permissionRows
    { s with roles := roles, roleScreens := roleScreens } req.newId
  obtain ⟨outbox, hrecord⟩ := AuditService.run_record req
    (AuditService.event .roleCreate (some .role) (some req.newId.str)
      (.obj [("name", .str data.name), ("permissions", jsonStrings (expandPermissions rows))]))
    { s with roles := roles, roleScreens := roleScreens }
  refine ⟨toRead (newRole req data) rows, roles, outbox, roleScreens, ?_, hinsert, fun x => ?_⟩
  · rw [createRole, Db.run_bind_ok _ hfree, hdata, Db.run_bind_ok _ (run_normalized hnormalize s),
      Db.run_bind_ok _ hvalid, Db.run_bind_ok _ hcreate, RoleRepository.permissionsForRole,
      Db.run_query_bind]
    exact Db.run_bind_ok _ hrecord
  · rw [hmem, hnormal.mem_permissionRows]

/-! ## Requests that name an inactive screen -/

/-- **An update that names an inactive screen** is refused, and changes nothing. -/
theorem run_updateRole_inactive {roleId : Uuid} {data : RoleUpdate} {role : Role}
    (hfind : s.roles.find? roleId = some role) (hname : role.name ≠ superAdminRoleName)
    (hfree : ∀ name ∈ data.name, ∀ existing, s.roleByName name = some existing →
      existing.id = roleId)
    (hdata : data.permissions = some given) (hgiven : ∀ p ∈ given, IsPermission p)
    {code : String} (hnamed : Names given code)
    (hinactive : code ∉ ScreenRepository.activeCodes s) :
    ∃ fields, (updateRole req roleId data).run s = (.error (.app (.validation fields)), s) := by
  obtain ⟨byCode, hnormalize, hnormal⟩ := normalizePermissions_eq hgiven
  obtain ⟨hallowed, hnames⟩ := run_updateRole_checks hname hfree
  obtain ⟨fields, hrefused⟩ :=
    run_validateScreenCodes_refused (hnormal.mem_codes.mpr hnamed) hinactive
  have hrows : (updateRows req roleId (some given)).run s =
      (.error (.app (.validation fields)), s) := by
    rw [updateRows, Db.run_bind_ok _ (run_normalized hnormalize s), Db.run_bind_error _ hrefused]
  refine ⟨fields, ?_⟩
  rw [updateRole, Db.run_bind_ok _ (run_getRole hfind), Db.run_bind_ok _ hallowed,
    Db.run_bind_ok _ hnames, hdata, Db.run_bind_error _ hrows]

/-- **A role that would name an inactive screen** is not created. -/
theorem run_createRole_inactive {data : RoleCreate} (hname : s.roleByName data.name = none)
    (hdata : data.permissions = given) (hgiven : ∀ p ∈ given, IsPermission p)
    {code : String} (hnamed : Names given code)
    (hinactive : code ∉ ScreenRepository.activeCodes s) :
    ∃ fields, (createRole req data).run s = (.error (.app (.validation fields)), s) := by
  obtain ⟨byCode, hnormalize, hnormal⟩ := normalizePermissions_eq hgiven
  obtain ⟨fields, hrefused⟩ :=
    run_validateScreenCodes_refused (hnormal.mem_codes.mpr hnamed) hinactive
  refine ⟨fields, ?_⟩
  rw [createRole, Db.run_bind_ok _ (run_ensureNameAvailable hname), hdata,
    Db.run_bind_ok _ (run_normalized hnormalize s), Db.run_bind_error _ hrefused]

end Requests

end AdminPlatform.RoleService
