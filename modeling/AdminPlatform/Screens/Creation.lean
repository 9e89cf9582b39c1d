import AdminPlatform.Access.Seeded
import AdminPlatform.Lib.Rely
import AdminPlatform.Screens.Codes
import AdminPlatform.Services.Role
import AdminPlatform.Services.Screen

/-! # Creating a screen without a code

The columns of a screen hold texts up to a length and without the character NUL; a commit that
writes another text is refused (`execSized`). From a database whose codes are those requests
may give, and whose permissions are on screens that exist, requests that take turns and may
fail at any statement lead to such databases only (`sound_of_reachable`). In all of them the
generated code is new, and creating a screen without a code succeeds exactly when there is no
super_admin, whose permission would be refused, that code fits and the name can be stored
(`createScreen_iff`). -/

namespace AdminPlatform.Screens
open AdminPlatform.Lib AdminPlatform.Schemas ScreenRepository

/-! ## Columns -/

/-- What a commit writes to the columns of a screen fits them. -/
def FitsScreens : Write → Prop
  | .insertScreen screen _ =>
      VarChar screenCodeMaxLength screen.code ∧ VarChar nameMaxLength screen.name
  | .updateScreen _ current => VarChar nameMaxLength current.name
  | _ => True

instance : (w : Write) → Decidable (FitsScreens w)
  | .insertScreen screen _ =>
      inferInstanceAs
        (Decidable (VarChar screenCodeMaxLength screen.code ∧ VarChar nameMaxLength screen.name))
  | .updateScreen _ current => inferInstanceAs (Decidable (VarChar nameMaxLength current.name))
  | .insertAdmin _ | .updateAdmin _ _ | .insertAdminRole _ | .insertRole _ _ | .updateRole _ _ _
  | .insertOtp _ | .updateOtp _ _ | .deleteOtp _ | .insertHistory _ | .trimHistory _ _
  | .insertExport _ | .updateExport _ _ | .insertIntent _ | .writeFile _ _ => isTrue trivial

/-- What a statement does: a commit is refused if a text does not fit its column. -/
def execSized : Semantics Sql Failure Database
  | _, .query q, s => exec (.query q) s
  | _, .commit w answer, s =>
      if FitsScreens w then exec (.commit w answer) s else (.error (.database .dataError), s)

theorem execSized_of_allowed {β : Type} (c : Sql β) (s : Database)
    (h : Db.Allowed FitsScreens c) : execSized c s = exec c s := by
  cases c with
  | query q => rfl
  | commit w answer => exact if_pos h

theorem run_execSized {α : Type} {p : Db α} (hp : p.Writes FitsScreens) (s : Database) :
    Program.run execSized p s = p.run s :=
  Program.run_congr execSized_of_allowed hp s

/-! ## Requests -/

/-- What the schema of a request to create a screen checks. -/
structure ValidCreate (data : ScreenCreate) : Prop where
  name_min : 1 ≤ data.name.length
  name_max : data.name.length ≤ nameMaxLength
  code : ∀ code ∈ data.code, ScreenCodeStr code
  sort_order : data.sortOrder ≤ 9999

/-- Commits that leave the tables of roles, screens and permissions as they are. -/
def OtherTables : Write → Prop
  | .insertRole _ _ | .updateRole _ _ _ | .insertScreen _ _ | .updateScreen _ _ => False
  | _ => True

/-- A request to the role or the screen service, or to one that writes other tables only. -/
inductive Serves (req : Request) : Db Unit → Prop
  | role (op : RoleService.Op) : Serves req (op.perform req)
  | createScreen {data} : ValidCreate data →
      Serves req ((ScreenService.Op.create data).perform req)
  | updateScreen {screenId data} : Serves req ((ScreenService.Op.update screenId data).perform req)
  | deleteScreen {screenId} : Serves req ((ScreenService.Op.delete screenId).perform req)
  | other {p : Db Unit} : p.Writes OtherTables → Serves req p

/-- Any number of requests take turns, and may fail at any statement. -/
def machine (ι : Type) [DecidableEq ι] (seeded : Database) :
    Machine (Program.Threads Sql Failure Database ι) (ι × Option Failure) :=
  Program.faultyInterleave execSized fun t =>
    t.shared = seeded ∧ ∀ i, ∃ req, Serves req (t.thread i)

/-! ## What all of them keep -/

/-- The codes are those requests may give, and permissions are on screens that exist. -/
structure Sound (s : Database) : Prop where
  codes : ∀ screen ∈ s.screens, ScreenCodeStr screen.code
  parents : ∀ row ∈ s.roleScreens, ∃ screen ∈ s.screens, screen.code = row.screenCode

/-- The commits that requests make: a new code is a slug, and a code stays. -/
def Kept : Write → Prop
  | .insertScreen screen _ =>
      1 ≤ screen.code.length ∧ RoleService.isSlug screen.code.toList = true
  | .updateScreen loaded current => current.code = loaded.code
  | _ => True

section Keeps
variable {s s' : Database}

theorem parents_of_insertRoleScreens {rows : List RoleScreen}
    (h : s.insertRoleScreens rows = .ok s')
    (hold : ∀ row ∈ s.roleScreens, ∃ screen ∈ s.screens, screen.code = row.screenCode) :
    s'.screens = s.screens ∧
      ∀ row ∈ s'.roleScreens, ∃ screen ∈ s'.screens, screen.code = row.screenCode := by
  have hparents := Database.hasParents_of_insertRoleScreens h
  obtain ⟨t, ht, rfl⟩ := Database.insertRoleScreens_ok h
  refine ⟨rfl, fun row hrow => ?_⟩
  rcases (ht row).mp hrow with hrow | hrow
  · exact hold row hrow
  · obtain ⟨screen, hscreen⟩ := Option.isSome_iff_exists.mp (hparents row hrow).2
    exact ⟨screen, Database.screenByCode_eq_some.mp hscreen⟩

/-- Whatever is flushed into a screen, its code stays if the object kept it. -/
theorem codes_of_flush {t t' : Table Screen} {loaded current : Screen}
    (hcode : current.code = loaded.code) (h : t.flush loaded current = .ok t') (code : String) :
    (∃ screen ∈ t', screen.code = code) ↔ ∃ screen ∈ t, screen.code = code := by
  rcases Table.flush_inv h with ⟨-, rfl⟩ | ⟨stored, hstored, hmem⟩
  · rfl
  · obtain ⟨hin, hkey⟩ := Table.find?_eq_some.mp hstored
    have hmerged : (Entity.merge loaded current stored).code = stored.code := by
      show column loaded.code current.code stored.code = stored.code
      rw [hcode, column_same]
    constructor
    · rintro ⟨screen, hscreen, rfl⟩
      rcases (hmem screen).mp hscreen with rfl | ⟨hold, -⟩
      · exact ⟨stored, hin, hmerged.symm⟩
      · exact ⟨screen, hold, rfl⟩
    · rintro ⟨screen, hscreen, rfl⟩
      by_cases hsame : Row.key screen = Row.key loaded
      · obtain rfl := Table.eq_of_key hscreen hin (hsame.trans hkey.symm)
        exact ⟨_, (hmem _).mpr (.inl rfl), hmerged⟩
      · exact ⟨screen, (hmem screen).mpr (.inr ⟨hscreen, hsame⟩), rfl⟩

theorem Sound.insertScreen {screen : Screen} {row : Option RoleScreen} (h : Sound s)
    (hkept : Kept (.insertScreen screen row)) (hfits : FitsScreens (.insertScreen screen row))
    (happly : (Write.insertScreen screen row).apply s = .ok s') : Sound s' := by
  obtain ⟨u, hrows, happly⟩ := bind_eq_ok.mp happly
  obtain ⟨hsame, hparents⟩ := parents_of_insertRoleScreens hrows h.parents
  obtain ⟨screens, hscreens, happly⟩ := bind_eq_ok.mp happly
  obtain rfl := Except.ok.inj happly
  have hmem := fun x => Table.mem_insert (orIntegrity_eq_ok.mp hscreens) (x := x)
  constructor
  · intro x hx
    rcases (hmem x).mp hx with hx | rfl
    · rw [hsame] at hx
      exact h.codes x hx
    · exact ⟨hkept.1, hfits.1.1, hkept.2⟩
  · intro row hrow
    obtain ⟨screen, hscreen, hcode⟩ := hparents row hrow
    exact ⟨screen, (hmem screen).mpr (.inl hscreen), hcode⟩

theorem Sound.updateScreen {loaded current : Screen} (h : Sound s)
    (hkept : Kept (.updateScreen loaded current))
    (happly : (Write.updateScreen loaded current).apply s = .ok s') : Sound s' := by
  obtain ⟨t, ht, rfl⟩ := apply_updateScreen happly
  have hcodes := codes_of_flush hkept ht
  constructor
  · intro screen hscreen
    obtain ⟨old, hold, hcode⟩ := (hcodes screen.code).mp ⟨screen, hscreen, rfl⟩
    exact hcode ▸ h.codes old hold
  · intro row hrow
    exact (hcodes row.screenCode).mpr (h.parents row hrow)

theorem Sound.insertRole {role : Role} {rows : List RoleScreen} (h : Sound s)
    (happly : (Write.insertRole role rows).apply s = .ok s') : Sound s' := by
  obtain ⟨roles, -, hinsert⟩ := bind_eq_ok.mp happly
  obtain ⟨hsame, hparents⟩ := parents_of_insertRoleScreens (s := { s with roles := roles })
    hinsert h.parents
  refine ⟨fun x hx => ?_, hparents⟩
  rw [hsame] at hx
  exact h.codes x hx

theorem Sound.updateRole {loaded current : Role} {rows : Option (List RoleScreen)} (h : Sound s)
    (happly : (Write.updateRole loaded current rows).apply s = .ok s') : Sound s' := by
  obtain ⟨roles, -, hrest⟩ := bind_eq_ok.mp happly
  cases rows with
  | none =>
      obtain rfl := Except.ok.inj hrest
      exact ⟨h.codes, h.parents⟩
  | some rows =>
      -- the rows of the role go before the new ones come
      have hothers : ∀ row ∈ s.roleScreens.delete (fun row => row.roleId = loaded.id),
          ∃ screen ∈ s.screens, screen.code = row.screenCode :=
        fun row hrow => h.parents row (Table.mem_delete.mp hrow).1
      obtain ⟨hsame, hparents⟩ := parents_of_insertRoleScreens
        (s := { s with
          roles := roles
          roleScreens := s.roleScreens.delete (fun row => row.roleId = loaded.id) })
        hrest hothers
      refine ⟨fun x hx => ?_, hparents⟩
      rw [hsame] at hx
      exact h.codes x hx

/-- Other tables do not matter. -/
theorem Sound.congr (h : Sound s) (hscreens : s'.screens = s.screens)
    (hroleScreens : s'.roleScreens = s.roleScreens) : Sound s' := by
  constructor
  · rw [hscreens]
    exact h.codes
  · rw [hscreens, hroleScreens]
    exact h.parents

/-- A commit to another table leaves these. -/
theorem apply_otherTables {w : Write} (hw : OtherTables w) (happly : w.apply s = .ok s') :
    s'.screens = s.screens ∧ s'.roleScreens = s.roleScreens := by
  have hadded : ∀ {γ : Type} {x : Except DbError γ} {f : γ → Database},
      (x >>= fun t => Except.ok (f t)) = .ok s' →
      (∀ t, (f t).screens = s.screens ∧ (f t).roleScreens = s.roleScreens) →
      s'.screens = s.screens ∧ s'.roleScreens = s.roleScreens := by
    intro γ x f hx hf
    obtain ⟨t, -, ht⟩ := bind_eq_ok.mp hx
    obtain rfl := Except.ok.inj ht
    exact hf t
  cases w with
  | insertRole role rows => exact hw.elim
  | updateRole loaded current rows => exact hw.elim
  | insertScreen screen row => exact hw.elim
  | updateScreen loaded current => exact hw.elim
  | insertAdmin admin => exact hadded happly fun _ => ⟨rfl, rfl⟩
  | updateAdmin loaded current => exact hadded happly fun _ => ⟨rfl, rfl⟩
  | insertAdminRole assignment =>
      rw [Write.apply] at happly
      split at happly
      · exact hadded happly fun _ => ⟨rfl, rfl⟩
      · cases happly
  | insertOtp otp => exact hadded happly fun _ => ⟨rfl, rfl⟩
  | updateOtp loaded current => exact hadded happly fun _ => ⟨rfl, rfl⟩
  | deleteOtp email =>
      obtain rfl := Except.ok.inj happly
      exact ⟨rfl, rfl⟩
  | insertHistory entry =>
      rw [Write.apply] at happly
      split at happly
      · exact hadded happly fun _ => ⟨rfl, rfl⟩
      · cases happly
  | trimHistory adminId keep =>
      obtain rfl := Except.ok.inj happly
      exact ⟨rfl, rfl⟩
  | insertExport entry => exact hadded happly fun _ => ⟨rfl, rfl⟩
  | updateExport loaded current => exact hadded happly fun _ => ⟨rfl, rfl⟩
  | insertIntent intent => exact hadded happly fun _ => ⟨rfl, rfl⟩
  | writeFile path file =>
      obtain rfl := Except.ok.inj happly
      exact ⟨rfl, rfl⟩

/-- **What the commits of requests keep.** -/
theorem Sound.apply {w : Write} (h : Sound s) (hkept : Kept w) (hfits : FitsScreens w)
    (happly : w.apply s = .ok s') : Sound s' := by
  cases w with
  | insertRole role rows => exact h.insertRole happly
  | updateRole loaded current rows => exact h.updateRole happly
  | insertScreen screen row => exact h.insertScreen hkept hfits happly
  | updateScreen loaded current => exact h.updateScreen hkept happly
  | _ =>
      obtain ⟨hscreens, hroleScreens⟩ := apply_otherTables (by trivial) happly
      exact h.congr hscreens hroleScreens

/-- One statement of a request. -/
theorem Sound.statement {β : Type} {c : Sql β} (h : Sound s) (hkept : Db.Allowed Kept c) :
    Sound (execSized c s).2 := by
  cases c with
  | query q => exact h
  | commit w answer =>
      rw [execSized]
      split
      · rename_i hfits
        rw [exec]
        cases happly : w.apply s with
        | ok u => exact h.apply hkept hfits happly
        | error e => exact h
      · exact h

end Keeps

/-! ## What the requests commit -/

section Commits
variable {req : Request} {W : Write → Prop}

theorem writes_normalized (given : List String) : (RoleService.normalized given).Writes W := by
  unfold RoleService.normalized
  split
  · exact Db.writes_pure _
  · exact Db.writes_throw _

theorem writes_updateRows (roleId : Uuid) (permissions : Option (List String)) :
    (RoleService.updateRows req roleId permissions).Writes W := by
  cases permissions with
  | none => exact Db.writes_pure _
  | some given =>
      exact (writes_normalized given).bind fun byCode =>
        (RoleService.writes_validateScreenCodes byCode).bind fun _ => Db.writes_pure _

theorem writes_expandedPermissions (roleId : Uuid) (permissions : Option (List String)) :
    (RoleService.expandedPermissions roleId permissions).Writes W := by
  cases permissions
  · exact Db.writes_pure _
  · exact (Db.writes_query _).bind fun _ => Db.writes_pure _

/-- The role service commits roles with their permissions, and intents. -/
theorem writes_rolePerform (op : RoleService.Op) : (op.perform req).Writes Kept := by
  have hrecord := fun e => AuditService.writes_record (W := Kept) (fun _ => trivial) req e
  cases op with
  | create data =>
      refine Db.Writes.drop ?_
      refine (RoleService.writes_ensureNameAvailable _ _).bind fun _ => ?_
      refine (writes_normalized _).bind fun byCode => ?_
      refine (RoleService.writes_validateScreenCodes byCode).bind fun _ => ?_
      refine (Db.writes_save (w := .insertRole _ _) trivial _ _).bind fun _ => ?_
      exact (Db.writes_query _).bind fun _ => (hrecord _).bind fun _ => Db.writes_pure _
  | update roleId data =>
      refine Db.Writes.drop ?_
      refine (RoleService.writes_getRole roleId).bind fun role => ?_
      refine ((Db.writes_throw _).when _).bind fun _ => ?_
      refine Db.Writes.bind ?_ fun _ => (writes_updateRows roleId _).bind fun rows => ?_
      · cases data.name
        · exact Db.writes_pure _
        · exact RoleService.writes_ensureNameAvailable _ _
      refine (Db.writes_save (w := .updateRole _ _ _) trivial _ _).bind fun _ => ?_
      refine (writes_expandedPermissions roleId _).bind fun _ => (hrecord _).bind fun _ => ?_
      exact (Db.writes_query _).bind fun _ => Db.writes_pure _
  | delete roleId =>
      refine (RoleService.writes_getRole roleId).bind fun role => ?_
      refine ((Db.writes_throw _).when _).bind fun _ => ?_
      exact (Db.writes_commit (w := .updateRole _ _ _) trivial).bind fun _ => hrecord _

theorem writes_updateScreen (screenId : Uuid) (data : ScreenUpdate) :
    ((ScreenService.Op.update screenId data).perform req).Writes Kept := by
  refine Db.Writes.drop ((ScreenService.writes_getScreen screenId).bind fun screen => ?_)
  have hkept : Kept (.updateScreen screen (ScreenService.assignUpdate data screen)) := rfl
  refine ((Db.writes_throw _).when _).bind fun _ => ?_
  refine (Db.writes_save hkept _ _).bind fun _ => ?_
  exact (AuditService.writes_record (fun _ => trivial) req _).bind fun _ => Db.writes_pure _

theorem writes_deleteScreen (screenId : Uuid) :
    ((ScreenService.Op.delete screenId).perform req).Writes Kept := by
  refine (ScreenService.writes_getScreen screenId).bind fun screen => ?_
  have hkept : Kept (.updateScreen screen { screen with status := .inactive }) := rfl
  refine ((Db.writes_throw _).when _).bind fun _ => ?_
  refine (Db.writes_commit hkept).bind fun _ => ?_
  exact AuditService.writes_record (fun _ => trivial) req _

/-- Creating a screen, after its code is chosen. -/
def createWith (req : Request) (data : ScreenCreate) (code : String) : Db Screen := do
  ScreenService.ensureCodeAvailable code
  let superAdmin ← RoleRepository.getRoleByName superAdminRoleName
  let screen ← ScreenRepository.createScreen req.now (ScreenService.newScreen req data code)
    (superAdmin.map Role.id)
  AuditService.record req
    (AuditService.event .screenCreate (some .screen) (some screen.code)
      (.obj [("code", .str screen.code), ("name", .str screen.name)]))
  return screen

theorem createScreen_eq (data : ScreenCreate) :
    ScreenService.createScreen req data = ScreenService.chooseCode data >>= createWith req data :=
  rfl

theorem writes_createWith {data : ScreenCreate} {code : String}
    (hinsert : ∀ row, W (.insertScreen (ScreenService.newScreen req data code) row))
    (hintent : ∀ intent, W (.insertIntent intent)) : (createWith req data code).Writes W := by
  refine ((Db.writes_query _).bind fun _ => (Db.writes_throw _).when _).bind fun _ => ?_
  refine (Db.writes_query _).bind fun superAdmin => ?_
  refine (Db.writes_save (hinsert _) _ _).bind fun _ => ?_
  exact (AuditService.writes_record hintent req _).bind fun _ => Db.writes_pure _

end Commits

/-! ## Every state requests lead to -/

/-- Others keep the database sound; a request issues the commits that do. -/
def interference : Program.Interference Sql Database where
  inv := Sound
  rely _ _ := True
  refl _ := trivial
  trans _ _ := trivial
  allows c _ := Db.Allowed Kept c

section Requests
variable {s : Database} {req : Request}

theorem under_of_writes {p : Db Unit} (hp : p.Writes Kept) :
    Program.Under interference execSized (fun _ _ => True) p s :=
  Program.under_of_within hp fun _ _ hkept => hkept

/-- The code that is chosen is a slug, whatever others commit in between. -/
theorem under_chooseCode {data : ScreenCreate} (hdata : ValidCreate data) :
    Program.Under interference execSized
      (fun code _ => 1 ≤ code.length ∧ RoleService.isSlug code.toList = true)
      (ScreenService.chooseCode data) s := by
  have hnext : Program.Under interference execSized
      (fun code _ => 1 ≤ code.length ∧ RoleService.isSlug code.toList = true)
      nextScreenCode s := by
    refine Program.under_issue fun u _ _ => ⟨trivial, fun code u' hanswer _ _ _ _ => ?_⟩
    have hcode : code = nextCode (u.screens.rows.map Screen.code) := by
      have hrun := run_nextScreenCode u
      rw [nextScreenCode, Db.run_query] at hrun
      exact (Except.ok.inj (Prod.mk.inj hanswer).1).symm.trans
        (Except.ok.inj (Prod.mk.inj hrun).1)
    rw [hcode]
    exact ⟨length_numbered_pos _, isSlug_numbered _⟩
  unfold ScreenService.chooseCode
  split
  · rename_i code hcode
    split
    · exact hnext
    · have haccepted := hdata.code code hcode
      exact fun _ _ _ => ⟨haccepted.min_length, haccepted.format⟩
  · exact hnext

theorem Serves.under {p : Db Unit} (h : Serves req p) :
    Program.Under interference execSized (fun _ _ => True) p s := by
  cases h with
  | role op => exact under_of_writes (writes_rolePerform op)
  | @createScreen data hdata =>
      have hcreate : Program.Under interference execSized (fun _ _ => True)
          (ScreenService.createScreen req data) s := by
        rw [createScreen_eq]
        refine (under_chooseCode hdata).bind fun code u _ _ hslug => ?_
        exact Program.under_of_within (writes_createWith (fun _ => hslug) fun _ => trivial)
          fun _ _ hkept => hkept
      exact hcreate.bind fun _ _ _ _ _ _ _ _ => trivial
  | updateScreen => exact under_of_writes (writes_updateScreen _ _)
  | deleteScreen => exact under_of_writes (writes_deleteScreen _)
  | other hp =>
      refine Program.under_of_within hp fun c u hother => ?_
      cases c with
      | query q => trivial
      | commit w answer => cases w <;> first | exact hother.elim | trivial

end Requests

/-! ## Creating a screen alone -/

section Alone
variable {s : Database} {req : Request} {data : ScreenCreate} {code : String}

/-- A screen with a new id and code can be inserted, without a permission row. -/
theorem exists_insertScreen (hid : ∀ screen ∈ s.screens, screen.id ≠ req.newId)
    (hfresh : ∀ screen ∈ s.screens, screen.code ≠ code) :
    ∃ s', (Write.insertScreen (ScreenService.newScreen req data code) none).apply s = .ok s' ∧
      s'.screens.find? req.newId = some (ScreenService.newScreen req data code) := by
  obtain ⟨screens, hscreens⟩ : ∃ screens,
      s.screens.insert (ScreenService.newScreen req data code) = some screens := by
    refine Option.ne_none_iff_exists'.mp fun hnone => ?_
    obtain ⟨screen, hscreen, hclash⟩ := Table.insert_eq_none.mp hnone
    rcases hclash with hsame | hsame
    · exact hid screen hscreen hsame
    · exact hfresh screen hscreen hsame
  have hnew : ScreenService.newScreen req data code ∈ screens :=
    (Table.mem_insert hscreens).mpr (.inr rfl)
  exact ⟨_, apply_insertScreen_none.mpr ⟨screens, hscreens, rfl⟩,
    Table.find?_eq_some.mpr ⟨hnew, rfl⟩⟩

theorem run_ensureCodeAvailable (hfresh : ∀ screen ∈ s.screens, screen.code ≠ code) :
    (ScreenService.ensureCodeAvailable code).run s = (.ok (), s) := by
  have hnone : s.screenByCode code = none := by
    refine Option.eq_none_iff_forall_ne_some.mpr fun screen hscreen => ?_
    obtain ⟨hin, hcode⟩ := Database.screenByCode_eq_some.mp hscreen
    exact hfresh screen hin hcode
  rw [ScreenService.ensureCodeAvailable, getScreenByCode, Db.run_query_bind, hnone]
  rfl

/-- A text that does not fit is refused. -/
theorem run_createWith_of_not_fits (hfresh : ∀ screen ∈ s.screens, screen.code ≠ code)
    (hfits : ¬ (VarChar screenCodeMaxLength code ∧ VarChar nameMaxLength data.name)) :
    Program.run execSized (createWith req data code) s = (.error (.database .dataError), s) := by
  have hcheck : Program.run execSized (ScreenService.ensureCodeAvailable code) s =
      (.ok (), s) := by
    have hreads : (ScreenService.ensureCodeAvailable code).Writes FitsScreens :=
      (Db.writes_query _).bind fun _ => (Db.writes_throw _).when _
    rw [run_execSized hreads]
    exact run_ensureCodeAvailable hfresh
  have hrefused : ∀ row, Program.run execSized
      (commit (.insertScreen (ScreenService.newScreen req data code) row)) s =
        (.error (.database .dataError), s) := by
    intro row
    rw [commit, Program.run_issue]
    exact if_neg hfits
  have hsave := Program.run_bind_error
    (f := fun _ => refresh Database.screens (ScreenService.newScreen req data code).id)
    (hrefused (((s.roleByName superAdminRoleName).map Role.id).map
      (bootstrapPermission req.now (ScreenService.newScreen req data code))))
  have hcreate := Program.run_bind_error (f := fun screen => do
    AuditService.record req
      (AuditService.event .screenCreate (some .screen) (some screen.code)
        (.obj [("code", .str screen.code), ("name", .str screen.name)]))
    return screen) hsave
  rw [createWith, Program.run_bind_ok hcheck]
  exact hcreate

/-- **With a new code**, creating a screen succeeds exactly if there is no super_admin and the
texts fit their columns. -/
theorem createWith_iff (hid : ∀ screen ∈ s.screens, screen.id ≠ req.newId)
    (hfresh : ∀ screen ∈ s.screens, screen.code ≠ code) :
    (∃ screen s', Program.run execSized (createWith req data code) s = (.ok screen, s') ∧
        screen ∈ s'.screens) ↔
      s.roleByName superAdminRoleName = none ∧
        VarChar screenCodeMaxLength code ∧ VarChar nameMaxLength data.name := by
  by_cases hfits : VarChar screenCodeMaxLength code ∧ VarChar nameMaxLength data.name
  swap
  · have hrefused := @run_createWith_of_not_fits s req data code hfresh hfits
    refine iff_of_false ?_ (fun h => hfits h.2)
    rintro ⟨screen, s', hrun, -⟩
    cases (Prod.mk.inj (hrefused.symm.trans hrun)).1
  have hwrites : (createWith req data code).Writes FitsScreens :=
    writes_createWith (fun _ => hfits) fun _ => trivial
  rw [run_execSized hwrites, createWith, Db.run_bind_ok _ (run_ensureCodeAvailable hfresh),
    RoleRepository.getRoleByName, Db.run_query_bind]
  constructor
  · rintro ⟨screen, s', hrun, -⟩
    rcases run_createScreen_bind_inv hrun with ⟨⟨e, herror⟩, -⟩ | ⟨hnone, -⟩
    · cases herror
    · exact ⟨Option.map_eq_none_iff.mp hnone, hfits⟩
  · rintro ⟨hnone, -⟩
    obtain ⟨u, hinsert, hfind⟩ := @exists_insertScreen s req data code hid hfresh
    obtain ⟨outbox, hrecord⟩ := AuditService.run_record req
      (AuditService.event .screenCreate (some .screen) (some code)
        (.obj [("code", .str code), ("name", .str data.name)])) u
    refine ⟨ScreenService.newScreen req data code, { u with auditIntents := outbox }, ?_,
      (Table.find?_eq_some.mp hfind).1⟩
    rw [hnone]
    exact (Db.run_bind_ok _ (Db.run_save_ok hinsert hfind)).trans (Db.run_bind_ok _ hrecord)

end Alone

section Reachable
variable {ι : Type} [DecidableEq ι] {seeded : Database}
  {t : Program.Threads Sql Failure Database ι}

/-- **Requests keep the database sound.** -/
theorem sound_of_reachable (hseeded : Sound seeded) (ht : (machine ι seeded).Reachable t) :
    Sound t.shared := by
  have hall : t.Sound interference execSized := by
    refine Machine.Reachable.invariant ?_ ?_ ht
    · rintro u ⟨rfl, hserves⟩
      exact ⟨hseeded, fun i => (hserves i).elim fun _ h => h.under⟩
    · intro u l u' hu hturn
      obtain ⟨hshared, hkeeps⟩ := hu.turn_inv hturn
      refine hkeeps ?_ trivial
      rcases hshared with hsame | ⟨β, c, k, -, -, hkept, hnext⟩
      · rw [hsame]
        exact hu.inv
      · rw [hnext]
        exact hu.inv.statement hkept
  exact hall.inv

/-- The codes of the screens. -/
def screenCodes (s : Database) : List String := s.screens.rows.map Screen.code

theorem mem_screenCodes {s : Database} {code : String} :
    code ∈ screenCodes s ↔ ∃ screen ∈ s.screens, screen.code = code := List.mem_map

/-- What `next_screen_code` is to answer: a code that no screen has, that a request may give,
and whose number is larger than that of every code. -/
structure GoodCode (s : Database) (code : String) : Prop where
  fresh : code ∉ screenCodes s
  accepted : ScreenCodeStr code
  larger : ∃ m, numericSuffix code = some m ∧
    ∀ other ∈ screenCodes s, ∀ n, numericSuffix other = some n → n < m

/-- Creating a screen alone succeeds, and the screen is there. -/
def Creates (req : Request) (data : ScreenCreate) (s : Database) : Prop :=
  ∃ screen s', Program.run execSized (ScreenService.createScreen req data) s = (.ok screen, s') ∧
    screen ∈ s'.screens

/-- **The generated code** is good unless the last code is taken. -/
theorem nextScreenCode_iff {s : Database} (hcodes : ∀ screen ∈ s.screens, ScreenCodeStr screen.code) :
    (∃ code, nextScreenCode.run s = (.ok code, s) ∧ GoodCode s code) ↔
      lastCode ∉ screenCodes s := by
  have haccepted : ∀ code ∈ screenCodes s, ScreenCodeStr code := by
    intro code hcode
    obtain ⟨screen, hscreen, rfl⟩ := mem_screenCodes.mp hcode
    exact hcodes screen hscreen
  rw [← fits_nextCode_iff haccepted, run_nextScreenCode]
  constructor
  · rintro ⟨code, hcode, hgood⟩
    obtain rfl := Except.ok.inj (Prod.mk.inj hcode).1
    exact hgood.accepted
  · intro hfits
    refine ⟨_, rfl, nextCode_fresh _, hfits, _, numericSuffix_numbered _, ?_⟩
    exact fun other hother n hn => Nat.lt_succ_of_le (le_maxSuffix hother hn)

/-- **Without a code** a request succeeds unless there is a super_admin, the last code is taken
or its name holds a NUL. -/
theorem creates_iff {s : Database} (hs : Sound s) {req : Request} {data : ScreenCreate}
    (hdata : ValidCreate data) (hcode : data.code = none)
    (hid : ∀ screen ∈ s.screens, screen.id ≠ req.newId) :
    Creates req data s ↔ s.roleByName superAdminRoleName = none ∧
      lastCode ∉ screenCodes s ∧ Char.ofNat 0 ∉ data.name.toList := by
  have haccepted : ∀ code ∈ screenCodes s, ScreenCodeStr code := by
    intro code hcode
    obtain ⟨screen, hscreen, rfl⟩ := mem_screenCodes.mp hcode
    exact hs.codes screen hscreen
  have hfresh : ∀ screen ∈ s.screens, screen.code ≠ nextCode (screenCodes s) :=
    fun screen hscreen hsame => nextCode_fresh _ (mem_screenCodes.mpr ⟨screen, hscreen, hsame⟩)
  have hchosen : Program.run execSized (ScreenService.chooseCode data) s =
      (.ok (nextCode (screenCodes s)), s) := by
    rw [run_execSized (ScreenService.writes_chooseCode data), ScreenService.chooseCode, hcode]
    exact run_nextScreenCode s
  unfold Creates
  rw [createScreen_eq, Program.run_bind_ok hchosen, createWith_iff hid hfresh,
    ← fits_nextCode_iff haccepted]
  refine and_congr_right fun _ => ⟨?_, ?_⟩
  · rintro ⟨hcolumn, hname⟩
    exact ⟨⟨length_numbered_pos _, hcolumn.1, isSlug_numbered _⟩, hname.2⟩
  · rintro ⟨hgood, hname⟩
    refine ⟨⟨hgood.max_length, fun hnul => ?_⟩, hdata.name_max, hname⟩
    -- a numbered code is made of `S` and digits
    rw [nextCode, toList_numbered] at hnul
    rcases List.mem_cons.mp hnul with h | h
    · exact absurd h (by decide)
    · exact absurd (Decimal.isDigits_toDigits _ _ h) (by decide)

/-- **Generated codes are good** exactly where no screen has the last code, **and screens are
created with them** exactly where there is also no super_admin and the name can be stored. -/
theorem createScreen_iff (hseeded : Sound seeded) (ht : (machine ι seeded).Reachable t) :
    (∀ s : Database, (∀ screen ∈ s.screens, ScreenCodeStr screen.code) →
        ((∃ code, nextScreenCode.run s = (.ok code, s) ∧ GoodCode s code) ↔
          lastCode ∉ screenCodes s)) ∧
      ∀ req data, ValidCreate data → data.code = none →
        (∀ screen ∈ t.shared.screens, screen.id ≠ req.newId) →
        (Creates req data t.shared ↔ t.shared.roleByName superAdminRoleName = none ∧
          lastCode ∉ screenCodes t.shared ∧ Char.ofNat 0 ∉ data.name.toList) :=
  ⟨fun _ hcodes => nextScreenCode_iff hcodes, fun _ _ hdata hcode hid =>
    creates_iff (sound_of_reachable hseeded ht) hdata hcode hid⟩

end Reachable

/-! ## A super_admin, and the last code -/

open Administration (catalogScreen sampleRequest sampleState)

/-- A screen for reports, with no code given. -/
def reports : ScreenCreate where
  name := "Reports"

theorem validCreate_reports : ValidCreate reports := ⟨by decide, by decide, nofun, by decide⟩

/-- A database that is not seeded yet, with a code that has leading zeros and one that has no
number. -/
def unseededState : Database :=
  { Database.empty with
    screens := ⟨[catalogScreen 7 "S007" "Seven", catalogScreen 8 "ops" "Operations"],
      by decide⟩ }

/-- Before the catalog is seeded the screen is created. -/
theorem createScreen_iff_unseededState : Creates (sampleRequest 1) reports unseededState := by
  have hsound : Sound unseededState := ⟨by decide, nofun⟩
  have hreachable : (machine Unit unseededState).Reachable
      ⟨unseededState, fun _ => (pure () : Db Unit)⟩ :=
    ⟨[], .start ⟨rfl, fun _ => ⟨sampleRequest 1, .other (Db.writes_pure ())⟩⟩⟩
  refine ((createScreen_iff hsound hreachable).2 _ _ validCreate_reports rfl ?_).mpr
    ⟨rfl, ?_, ?_⟩
  · decide
  · decide
  · decide

/-- A database with one screen, which has the last code. -/
def lastState : Database :=
  { Database.empty with
    screens := ⟨[catalogScreen 7 lastCode "Last"], List.pairwise_singleton _ _⟩ }

/-- **On a seeded database** the generated code is good, and the screen is not created; **where
the last code is taken**, the generated one is too long and no screen is created either. -/
theorem not_creates_seeded :
    (Sound sampleState ∧ ¬ Creates (sampleRequest 1) reports sampleState) ∧
    Sound lastState ∧
    (¬ ∃ code, nextScreenCode.run lastState = (.ok code, lastState) ∧ GoodCode lastState code) ∧
    ¬ Creates (sampleRequest 1) reports lastState := by
  have hseeded : Sound sampleState := ⟨by decide, by decide⟩
  have hnew : ∀ screen ∈ sampleState.screens, screen.id ≠ (sampleRequest 1).newId := by decide
  have hcodes : ∀ screen ∈ lastState.screens, ScreenCodeStr screen.code := by decide
  have htaken : lastCode ∈ screenCodes lastState := List.mem_singleton_self _
  have hsound : Sound lastState := ⟨hcodes, nofun⟩
  have hid : ∀ screen ∈ lastState.screens, screen.id ≠ (sampleRequest 1).newId := by decide
  refine ⟨⟨hseeded, fun hcreates => ?_⟩, hsound, fun hgood => ?_, fun hcreates => ?_⟩
  · have hnone := ((creates_iff hseeded validCreate_reports rfl hnew).mp hcreates).1
    revert hnone
    decide
  · exact (nextScreenCode_iff hcodes).mp hgood htaken
  · exact ((creates_iff hsound validCreate_reports rfl hid).mp hcreates).2.1 htaken

end AdminPlatform.Screens
