import AdminPlatform.Services.Audit

/-! # The screen service

`app/services/screen_service.py`: screens and their codes. The four screens of the admin
interface itself are protected: they stay active. A new screen gets its permission row for
super_admin in the same commit. -/

namespace AdminPlatform
open AdminPlatform.Lib

structure ScreenCreate where
  name : String
  code : Option String := none
  sortOrder : Nat := 0
  status : Status := .active

/-- Partial update: the code is immutable. -/
structure ScreenUpdate where
  name : Option String := none
  sortOrder : Option Nat := none
  status : Option Status := none

namespace ScreenService

def protectedScreenCodes : List String := ["S1", "S2", "S3", "S4"]

def ensureCodeAvailable (code : String) : Db Unit := do
  let existing ← ScreenRepository.getScreenByCode code
  when existing.isSome (raise .screenCodeExists)

/-- `data.code if data.code else await next_screen_code()`. -/
def chooseCode (data : ScreenCreate) : Db String :=
  match data.code with
  | some code => if code = "" then ScreenRepository.nextScreenCode else return code
  | none => ScreenRepository.nextScreenCode

/-- The row a request to create a screen builds. -/
def newScreen (req : Request) (data : ScreenCreate) (code : String) : Screen where
  id := req.newId
  code := code
  name := data.name
  sortOrder := data.sortOrder
  status := data.status
  createdAt := req.now

def createScreen (req : Request) (data : ScreenCreate) : Db Screen := do
  let code ← chooseCode data
  ensureCodeAvailable code
  let superAdmin ← RoleRepository.getRoleByName superAdminRoleName
  let screen ← ScreenRepository.createScreen req.now (newScreen req data code)
    (superAdmin.map Role.id)
  AuditService.record req
    (AuditService.event .screenCreate (some .screen) (some screen.code)
      (.obj [("code", .str screen.code), ("name", .str screen.name)]))
  return screen

def getScreen (screenId : Uuid) : Db Screen := do
  match ← ScreenRepository.getScreen screenId with
  | some screen => return screen
  | none => raise .screenNotFound

def assignUpdate (data : ScreenUpdate) (screen : Screen) : Screen :=
  { screen with
    name := data.name.getD screen.name
    sortOrder := data.sortOrder.getD screen.sortOrder
    status := data.status.getD screen.status }

/-- The provided fields, as the audit details show them. -/
def updateDetails (data : ScreenUpdate) : Json :=
  .obj ((data.name.map fun name => ("name", Json.str name)).toList ++
    (data.sortOrder.map fun order => ("sort_order", Json.int order)).toList ++
    (data.status.map fun status => ("status", Json.str status.value)).toList)

def updateScreen (req : Request) (screenId : Uuid) (data : ScreenUpdate) : Db Screen := do
  let screen ← getScreen screenId
  when (screen.code ∈ protectedScreenCodes ∧ data.status = some .inactive)
    (raise .protectedResource)
  let screen ← ScreenRepository.updateScreen screen (assignUpdate data)
  AuditService.record req
    (AuditService.event .screenUpdate (some .screen) (some screen.code) (updateDetails data))
  return screen

def deleteScreen (req : Request) (screenId : Uuid) : Db Unit := do
  let screen ← getScreen screenId
  when (screen.code ∈ protectedScreenCodes) (raise .protectedResource)
  ScreenRepository.deleteScreen screen
  AuditService.record req
    (AuditService.event .screenDelete (some .screen) (some screen.code) .null)

/-! ## What the operations do -/

/-- A request to the screen service. -/
inductive Op
  | create (data : ScreenCreate)
  | update (screenId : Uuid) (data : ScreenUpdate)
  | delete (screenId : Uuid)

def Op.perform (req : Request) : Op → Db Unit
  | .create data => drop (createScreen req data)
  | .update screenId data => drop (updateScreen req screenId data)
  | .delete screenId => deleteScreen req screenId

/-- The state a request that succeeds leaves. A screen is created only where there is no
super_admin: its bootstrap permission refers to a screen that is not there yet when it is
flushed. -/
inductive Op.Effect (req : Request) (s : Database) : Op → Database → Prop
  | create {data code} {screens : Table Screen} {outbox} :
      s.roleByName superAdminRoleName = none →
      s.screens.insert (newScreen req data code) = some screens →
      Effect req s (.create data) { s with screens := screens, auditIntents := outbox }
  | update {screenId data screen screens outbox} :
      s.screens.find? screenId = some screen →
      (screen.code ∈ protectedScreenCodes → data.status ≠ some .inactive) →
      s.screens.flush screen (assignUpdate data screen) = .ok screens →
      Effect req s (.update screenId data) { s with screens := screens, auditIntents := outbox }
  | delete {screenId screen screens outbox} :
      s.screens.find? screenId = some screen →
      screen.code ∉ protectedScreenCodes →
      s.screens.flush screen { screen with status := .inactive } = .ok screens →
      Effect req s (.delete screenId) { s with screens := screens, auditIntents := outbox }

section Run
variable {s s' : Database}

theorem getScreen_reads (screenId : Uuid) (s : Database) :
    (getScreen screenId).Reads s (fun screen => s.screens.find? screenId = some screen) := by
  unfold getScreen ScreenRepository.getScreen Db.Reads Db.Refused
  rw [Db.run_query_bind]
  cases s.screens.find? screenId <;> simp

theorem chooseCode_reads (data : ScreenCreate) (s : Database) :
    (chooseCode data).Reads s (fun _ => True) := by
  unfold chooseCode
  split
  · split
    · exact .query trivial
    · exact .pure trivial
  · exact .query trivial

theorem run_createScreen_inv {req : Request} {data : ScreenCreate} {r : Except Failure Screen}
    (h : (createScreen req data).run s = (r, s')) :
    ((∃ e, r = .error e) ∧ s' = s) ∨
      ((∃ screen, r = .ok screen ∧ screen ∈ s'.screens) ∧ Op.Effect req s (.create data) s') := by
  rcases (chooseCode_reads data s).bind_inv h with hrefused | ⟨code, -, h⟩
  · exact .inl hrefused
  rcases (Db.isCheck_raise _ _ s).query_bind.bind_inv h with hrefused | ⟨-, h⟩
  · exact .inl hrefused
  rw [RoleRepository.getRoleByName, Db.run_query_bind] at h
  rcases run_createScreen_bind_inv h with hrefused | ⟨hnone, screens, hinsert, h⟩
  · exact .inl hrefused
  obtain ⟨outbox, h⟩ := AuditService.run_record_bind_inv h
  obtain ⟨rfl, rfl⟩ := Prod.mk.inj h
  refine .inr ⟨⟨_, rfl, (Table.mem_insert hinsert).mpr (.inr rfl)⟩, .create ?_ hinsert⟩
  exact Option.map_eq_none_iff.mp hnone

theorem run_updateScreen_inv {req : Request} {screenId : Uuid} {data : ScreenUpdate}
    {r : Except Failure Screen} (h : (updateScreen req screenId data).run s = (r, s')) :
    ((∃ e, r = .error e) ∧ s' = s) ∨
      ((∃ screen, r = .ok screen) ∧ Op.Effect req s (.update screenId data) s') := by
  rcases (getScreen_reads screenId s).bind_inv h with hrefused | ⟨screen, hfind, h⟩
  · exact .inl hrefused
  have hid : screen.id = screenId := (Table.find?_eq_some.mp hfind).2
  rcases (Db.isCheck_raise _ _ s).bind_inv h with hrefused | ⟨hallowed, h⟩
  · exact .inl hrefused
  rcases run_updateScreen_bind_inv h (hid ▸ hfind) rfl with hrefused | ⟨screens, hflush, h⟩
  · exact .inl hrefused
  obtain ⟨outbox, h⟩ := AuditService.run_record_bind_inv h
  obtain ⟨rfl, rfl⟩ := Prod.mk.inj h
  exact .inr ⟨⟨_, rfl⟩, .update hfind (by simpa using hallowed) hflush⟩

theorem run_deleteScreen_inv {req : Request} {screenId : Uuid} {r : Except Failure Unit}
    (h : (deleteScreen req screenId).run s = (r, s')) :
    ((∃ e, r = .error e) ∧ s' = s) ∨ (r = .ok () ∧ Op.Effect req s (.delete screenId) s') := by
  rcases (getScreen_reads screenId s).bind_inv h with hrefused | ⟨screen, hfind, h⟩
  · exact .inl hrefused
  rcases (Db.isCheck_raise _ _ s).bind_inv h with hrefused | ⟨hallowed, h⟩
  · exact .inl hrefused
  rcases Db.run_commit_bind_inv h with hrefused | ⟨u, hu, h⟩
  · exact .inl hrefused
  obtain ⟨screens, hflush, rfl⟩ := apply_updateScreen hu
  obtain ⟨outbox, hrecord⟩ := AuditService.run_record req
    (AuditService.event .screenDelete (some .screen) (some screen.code) .null)
    { s with screens := screens }
  rw [hrecord] at h
  obtain ⟨rfl, rfl⟩ := Prod.mk.inj h
  exact .inr ⟨rfl, .delete hfind (by simpa using hallowed) hflush⟩

/-- **Inversion of a screen operation**: it is refused and changes nothing, or has its
effect. -/
theorem Op.perform_inv {req : Request} {op : Op} {r : Except Failure Unit}
    (h : (op.perform req).run s = (r, s')) :
    ((∃ e, r = .error e) ∧ s' = s) ∨ (r = .ok () ∧ op.Effect req s s') := by
  cases op with
  | create data =>
      obtain ⟨r, hrun, rfl⟩ := Db.run_drop_inv h
      rcases run_createScreen_inv hrun with ⟨⟨e, rfl⟩, rfl⟩ | ⟨⟨screen, rfl, -⟩, heffect⟩
      · exact .inl ⟨⟨e, rfl⟩, rfl⟩
      · exact .inr ⟨rfl, heffect⟩
  | update screenId data =>
      obtain ⟨r, hrun, rfl⟩ := Db.run_drop_inv h
      rcases run_updateScreen_inv hrun with ⟨⟨e, rfl⟩, rfl⟩ | ⟨⟨screen, rfl⟩, heffect⟩
      · exact .inl ⟨⟨e, rfl⟩, rfl⟩
      · exact .inr ⟨rfl, heffect⟩
  | delete screenId => exact run_deleteScreen_inv h

end Run
/-! ## Requests that only read -/

section Reading
variable {W : Write → Prop}

theorem writes_chooseCode (data : ScreenCreate) : (chooseCode data).Writes W := by
  unfold chooseCode
  split
  · split
    · exact Db.writes_query _
    · exact Db.writes_pure _
  · exact Db.writes_query _

theorem writes_getScreen (screenId : Uuid) : (getScreen screenId).Writes W := by
  refine (Db.writes_query _).bind fun screen => ?_
  cases screen
  · exact Db.writes_throw _
  · exact Db.writes_pure _

end Reading

end ScreenService
end AdminPlatform
