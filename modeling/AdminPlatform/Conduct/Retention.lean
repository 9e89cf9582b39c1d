import AdminPlatform.Access.Mediation
import AdminPlatform.Lib.Stays

/-! # What requests leave in place

No request takes a row out of the platform's own tables: users, roles and screens are set
inactive, exports expire. `Retains` says so of two states, and of the columns that are never
changed; among requests that take turns, and fail anywhere, it holds between every state and
those after it, and foreign keys stay in order (`requests_retain`). -/

namespace AdminPlatform
open AdminPlatform.Lib

/-- What no request changes of an admin. -/
def PlatformAdmin.permanent (admin : PlatformAdmin) : Uuid × Instant := (admin.id, admin.createdAt)

def Role.permanent (role : Role) : Uuid × Instant := (role.id, role.createdAt)

def Screen.permanent (screen : Screen) : Uuid × String × Instant :=
  (screen.id, screen.code, screen.createdAt)

/-- Of an export, what was requested, by whom and when. -/
def Export.permanent (entry : Export) :
    (Uuid × String × String × String) × (String × Json × String × Instant) :=
  ((entry.id, entry.module, entry.reason, entry.fileFormat),
    (entry.classification, entry.filters, entry.createdBy, entry.createdAt))

/-- Nothing that was there before is missing. -/
structure Retains (s s' : Database) : Prop where
  admins : Table.Stays PlatformAdmin.permanent s.admins s'.admins
  assignments : ∀ x ∈ s.adminRoles, x ∈ s'.adminRoles
  roles : Table.Stays Role.permanent s.roles s'.roles
  screens : Table.Stays Screen.permanent s.screens s'.screens
  exports : Table.Stays Export.permanent s.exports s'.exports
  intents : ∀ x ∈ s.auditIntents, x ∈ s'.auditIntents
  logs : s'.auditLogs = s.auditLogs

/-- The foreign keys of the tables. -/
structure Consistent (s : Database) : Prop where
  grants : ∀ row ∈ s.roleScreens, s.HasParents row
  assignments : ∀ x ∈ s.adminRoles,
    (s.admins.find? x.platformAdminId).isSome ∧ (s.roles.find? x.roleId).isSome
  history : ∀ entry ∈ s.passwordHistory, (s.admins.find? entry.platformAdminId).isSome

section Retains
variable {s s' s'' : Database}

theorem Retains.refl (s : Database) : Retains s s :=
  ⟨.refl _, fun _ hx => hx, .refl _, .refl _, .refl _, fun _ hx => hx, rfl⟩

theorem Retains.trans (h : Retains s s') (h' : Retains s' s'') : Retains s s'' where
  admins := h.admins.trans h'.admins
  assignments x hx := h'.assignments x (h.assignments x hx)
  roles := h.roles.trans h'.roles
  screens := h.screens.trans h'.screens
  exports := h.exports.trans h'.exports
  intents x hx := h'.intents x (h.intents x hx)
  logs := h'.logs.trans h.logs

/-! ## Parents stay -/

theorem Retains.admin (h : Retains s s') {id : Uuid} (hid : (s.admins.find? id).isSome) :
    (s'.admins.find? id).isSome :=
  h.admins.isSome_find? (fun _ _ heq => (Prod.mk.inj heq).1) hid

theorem Retains.role (h : Retains s s') {id : Uuid} (hid : (s.roles.find? id).isSome) :
    (s'.roles.find? id).isSome :=
  h.roles.isSome_find? (fun _ _ heq => (Prod.mk.inj heq).1) hid

theorem Retains.screen (h : Retains s s') {code : String} (hcode : (s.screenByCode code).isSome) :
    (s'.screenByCode code).isSome := by
  obtain ⟨screen, hscreen⟩ := Option.isSome_iff_exists.mp hcode
  obtain ⟨hmem, rfl⟩ := Database.screenByCode_eq_some.mp hscreen
  obtain ⟨screen', hmem', heq⟩ := h.screens screen hmem
  have hcode' : screen'.code = screen.code := (Prod.mk.inj (Prod.mk.inj heq).2).1
  exact Option.isSome_iff_exists.mpr
    ⟨screen', Database.screenByCode_eq_some.mpr ⟨hmem', hcode'⟩⟩

theorem Retains.hasParents (h : Retains s s') {row : RoleScreen} (hrow : s.HasParents row) :
    s'.HasParents row :=
  ⟨h.role hrow.1, h.screen hrow.2⟩

end Retains

/-! ## One write -/

namespace Api
variable {env : Env} {encode : EncodedToken → String} {req : Request} {past : Past} {call : Call}

theorem permanent_admin {loaded current : PlatformAdmin}
    (h : Lawful env encode req past call (.updateAdmin loaded current)) (stored : PlatformAdmin) :
    (Entity.merge loaded current stored).permanent = stored.permanent := by
  have hcreated : current.createdAt = loaded.createdAt := (guarded_of_lawful h).account.2
  show (stored.id, column loaded.createdAt current.createdAt stored.createdAt) = _
  rw [hcreated, column_same]
  rfl

theorem permanent_role {loaded current : Role} {rows : Option (List RoleScreen)}
    (h : Lawful env encode req past call (.updateRole loaded current rows)) (stored : Role) :
    (Entity.merge loaded current stored).permanent = stored.permanent := by
  have hcreated : current.createdAt = loaded.createdAt := by
    cases h with
    | roles _ h => cases h <;> rfl
    | _ =>
        rename_i h
        cases h
  show (stored.id, column loaded.createdAt current.createdAt stored.createdAt) = _
  rw [hcreated, column_same]
  rfl

theorem permanent_screen {loaded current : Screen}
    (h : Lawful env encode req past call (.updateScreen loaded current)) (stored : Screen) :
    (Entity.merge loaded current stored).permanent = stored.permanent := by
  have hsame : current.code = loaded.code ∧ current.createdAt = loaded.createdAt := by
    cases h with
    | screens _ h => cases h <;> exact ⟨rfl, rfl⟩
    | _ =>
        rename_i h
        cases h
  show (stored.id, column loaded.code current.code stored.code,
    column loaded.createdAt current.createdAt stored.createdAt) = _
  rw [hsame.1, hsame.2, column_same, column_same]
  rfl

theorem permanent_export {loaded current : Export}
    (h : Lawful env encode req past call (.updateExport loaded current)) (stored : Export) :
    (Entity.merge loaded current stored).permanent = stored.permanent := by
  have hsame : (current.module = loaded.module ∧ current.reason = loaded.reason ∧
      current.fileFormat = loaded.fileFormat) ∧ current.classification = loaded.classification ∧
      current.filters = loaded.filters ∧ current.createdBy = loaded.createdBy ∧
      current.createdAt = loaded.createdAt := by
    cases h with
    | downloadExport _ h => cases h <;> exact ⟨⟨rfl, rfl, rfl⟩, rfl, rfl, rfl, rfl⟩
    | generateTask h => cases h <;> exact ⟨⟨rfl, rfl, rfl⟩, rfl, rfl, rfl, rfl⟩
    | _ =>
        rename_i h
        cases h
  obtain ⟨⟨hmodule, hreason, hformat⟩, hclassification, hfilters, hby, hat⟩ := hsame
  simp only [Export.permanent, Entity.merge, hmodule, hreason, hformat, hclassification, hfilters,
    hby, hat, column_same]

/-- **A lawful write retains what is there.** -/
theorem retains_of_lawful {w : Write} {s s' : Database} (h : Lawful env encode req past call w)
    (happly : w.apply s = .ok s') : Retains s s' := by
  have hrefl := Retains.refl s
  cases w with
  | insertAdmin =>
      obtain ⟨_, hinsert, rfl⟩ := apply_insertAdmin happly
      exact { hrefl with admins := Table.stays_insert hinsert }
  | updateAdmin =>
      obtain ⟨_, hflush, rfl⟩ := apply_updateAdmin happly
      exact { hrefl with admins := Table.stays_flush hflush (permanent_admin h) }
  | insertAdminRole =>
      obtain ⟨_, _, _, hinsert, rfl⟩ := apply_insertAdminRole happly
      exact { hrefl with assignments := fun x hx => (Table.mem_insert hinsert).mpr (.inl hx) }
  | insertRole =>
      obtain ⟨_, _, hinsert, _, rfl⟩ := apply_insertRole happly
      exact { hrefl with roles := Table.stays_insert hinsert }
  | updateRole =>
      obtain ⟨_, _, hflush, _, _, rfl⟩ := apply_updateRole happly
      exact { hrefl with roles := Table.stays_flush hflush (permanent_role h) }
  | insertScreen =>
      obtain ⟨_, _, hinsert, _, rfl⟩ := apply_insertScreen happly
      exact { hrefl with screens := Table.stays_insert hinsert }
  | updateScreen =>
      obtain ⟨_, hflush, rfl⟩ := apply_updateScreen happly
      exact { hrefl with screens := Table.stays_flush hflush (permanent_screen h) }
  | insertExport =>
      obtain ⟨_, hinsert, rfl⟩ := apply_insertExport happly
      exact { hrefl with exports := Table.stays_insert hinsert }
  | updateExport =>
      obtain ⟨_, hflush, rfl⟩ := apply_updateExport happly
      exact { hrefl with exports := Table.stays_flush hflush (permanent_export h) }
  | insertIntent =>
      obtain ⟨_, hinsert, rfl⟩ := apply_insertIntent happly
      exact { hrefl with intents := fun x hx => (Table.mem_insert hinsert).mpr (.inl hx) }
  | insertOtp => obtain ⟨_, _, rfl⟩ := apply_insertOtp happly; exact { hrefl with }
  | updateOtp => obtain ⟨_, _, rfl⟩ := apply_updateOtp happly; exact { hrefl with }
  | deleteOtp => obtain rfl := Except.ok.inj happly; exact { hrefl with }
  | insertHistory => obtain ⟨_, _, rfl⟩ := apply_insertHistory happly; exact { hrefl with }
  | trimHistory => obtain rfl := Except.ok.inj happly; exact { hrefl with }
  | writeFile => obtain rfl := Except.ok.inj happly; exact { hrefl with }

end Api

/-! ## Foreign keys -/

section Apply
variable {w : Write} {s s' : Database}

/-- A permission row that a write adds has its parents. -/
theorem roleScreens_apply (hretains : Retains s s') (h : w.apply s = .ok s') {row : RoleScreen}
    (hrow : row ∈ s'.roleScreens) : row ∈ s.roleScreens ∨ s'.HasParents row := by
  have hadded : ∀ {u : Database} {rows}, u.insertRoleScreens rows = .ok s' →
      row ∈ u.roleScreens ∨ s'.HasParents row := by
    intro u rows h
    have hparents := Database.hasParents_of_insertRoleScreens h
    obtain ⟨t, ht, rfl⟩ := Database.insertRoleScreens_ok h
    exact ((ht row).mp hrow).imp id (hparents row)
  rcases (framed_apply h).roleScreens with hsame | ⟨role, rows, rfl⟩ |
    ⟨loaded, current, rows, rfl⟩ | ⟨screen, permission, rfl⟩
  · exact .inl (hsame ▸ hrow)
  · obtain ⟨_, -, h⟩ := bind_eq_ok.mp h
    exact (hadded h :)
  · obtain ⟨_, -, h⟩ := bind_eq_ok.mp h
    -- what is left of the rows of the role was there before
    exact (hadded h).imp (fun hothers => (Table.mem_delete.mp hothers).1) id
  · -- the row is flushed before the screen, so its parents are those of `s`
    obtain ⟨u, hrows, h⟩ := bind_eq_ok.mp h
    obtain ⟨_, -, h⟩ := bind_eq_ok.mp h
    obtain rfl := Except.ok.inj h
    have hparents := Database.hasParents_of_insertRoleScreens hrows
    obtain ⟨t, ht, rfl⟩ := Database.insertRoleScreens_ok hrows
    exact ((ht row).mp hrow).imp id fun hnew => hretains.hasParents (hparents row hnew)

theorem adminRoles_apply (h : w.apply s = .ok s') {x : PlatformAdminRole}
    (hx : x ∈ s'.adminRoles) : x ∈ s.adminRoles ∨
      ((s.admins.find? x.platformAdminId).isSome ∧ (s.roles.find? x.roleId).isSome) := by
  rcases (framed_apply h).adminRoles with hsame | ⟨assignment, rfl⟩
  · exact .inl (hsame ▸ hx)
  · obtain ⟨_, hadmin, hrole, hinsert, rfl⟩ := apply_insertAdminRole h
    rcases (Table.mem_insert hinsert).mp hx with hold | rfl
    · exact .inl hold
    · exact .inr ⟨hadmin, hrole⟩

theorem passwordHistory_apply (h : w.apply s = .ok s') {entry : PasswordHistory}
    (hentry : entry ∈ s'.passwordHistory) : entry ∈ s.passwordHistory ∨
      (s.admins.find? entry.platformAdminId).isSome := by
  rcases (framed_apply h).passwordHistory with hsame | ⟨added, rfl⟩ | ⟨adminId, keep, rfl⟩
  · exact .inl (hsame ▸ hentry)
  · rw [Write.apply] at h
    split at h
    · rename_i hadmin
      obtain ⟨t, hinsert, h⟩ := bind_eq_ok.mp h
      obtain rfl := Except.ok.inj h
      rcases (Table.mem_insert (orIntegrity_eq_ok.mp hinsert)).mp hentry with hold | rfl
      · exact .inl hold
      · exact .inr hadmin
    · cases h
  · obtain rfl := Except.ok.inj h
    exact .inl (Table.mem_delete.mp hentry).1

/-- Foreign keys stay in order: what is added has its parents, and parents stay. -/
theorem Consistent.apply (hs : Consistent s) (hretains : Retains s s') (h : w.apply s = .ok s') :
    Consistent s' where
  grants row hrow := by
    rcases roleScreens_apply hretains h hrow with hold | hparents
    · exact hretains.hasParents (hs.grants row hold)
    · exact hparents
  assignments x hx := by
    have hparents := (adminRoles_apply h hx).elim (hs.assignments x) id
    exact ⟨hretains.admin hparents.1, hretains.role hparents.2⟩
  history entry hentry :=
    hretains.admin ((passwordHistory_apply h hentry).elim (hs.history entry) id)

end Apply

/-! ## Runs -/

namespace Api

/-- **Requests retain what there is.** Whatever requests take turns, and wherever they fail:
every state retains the rows of those before, and foreign keys that were in order at the start
are in order throughout. -/
theorem requests_retain {env : Env} {encode : EncodedToken → String} {ι : Type} [DecidableEq ι]
    {calls : ι → Request × Call} {start : Database}
    {t : List (Program.Threads Sql Failure Database ι × (ι × Option Failure))}
    {u : Program.Threads Sql Failure Database ι}
    (hrun : (machine env encode calls start).Run t u) :
    ((Machine.visited t u).Pairwise fun v w => Retains v.shared w.shared) ∧
      (Consistent start → ∀ v ∈ Machine.visited t u, Consistent v.shared) := by
  constructor
  · refine Program.Run.pairwise .refl (fun _ _ _ => .trans) hrun keeps_of_init ?_
    intro i past β c s hallowed
    cases c with
    | query q => exact .refl s
    | commit w answer =>
        rw [exec]
        split
        · rename_i s' happly
          exact retains_of_lawful hallowed happly
        · exact .refl s
  · intro hstart
    refine invariant_of_lawful hstart (fun req past call w s s' _ hlawful hs happly => ?_) hrun
    exact hs.apply (retains_of_lawful hlawful happly) happly

theorem requests_retain_recordedTurns :
    ∃ t u, (machine Administration.sampleEnv (fun _ => "") signedInCalls signedInState).Run t u ∧
      t.map Prod.snd = recordedTurns ∧ u.shared.auditIntents.rows.length = 2 ∧
      ((Machine.visited t u).Pairwise fun v w => Retains v.shared w.shared) ∧
      ∀ v ∈ Machine.visited t u, Consistent v.shared := by
  have hstart : Consistent signedInState := by
    refine ⟨?_, by decide, by decide⟩
    intro row hrow
    revert row
    decide
  have hexec : (machine Administration.sampleEnv (fun _ => "") signedInCalls signedInState).exec
      recordedTurns signedInThreads = some _ := rfl
  have hrun := Machine.Run.of_exec (.start initial_signedInThreads) hexec
  obtain ⟨hretains, hconsistent⟩ := requests_retain hrun
  exact ⟨_, _, hrun, Machine.map_snd_trace hexec, by decide +kernel, hretains,
    hconsistent hstart⟩

end Api
end AdminPlatform
