import AdminPlatform.Access.Effects
import AdminPlatform.Exports.Runs

/-! # Whose an export link is

An export notes the email of the admin who created it, and its link is checked against the
email of the admin who calls. Emails can be changed and used again, so the check speaks of
the creator exactly as long as creators keep their emails: `singleUser_iff`. When one does not,
the link leaves its creator and can pass to somebody else: `link_passes_on`. -/

namespace AdminPlatform
open AdminPlatform.Lib

namespace Exports

/-! ## Single-user links -/

/-- The request ended with `PermissionDeniedError`. -/
def denied {α : Type} : Except Failure α → Bool
  | .error (.app .permissionDenied) => true
  | _ => false

def succeeded {α : Type} : Except Failure α → Bool
  | .ok _ => true
  | .error _ => false

theorem succeeded_iff {α : Type} {r : Except Failure α} :
    succeeded r = true ↔ ∃ a, r = .ok a := by
  cases r <;> simp [succeeded]

theorem denied_eq_false {α : Type} {r : Except Failure α}
    (h : r ≠ .error (.app .permissionDenied)) : denied r = false := by
  unfold denied
  split
  · exact absurd rfl h
  · rfl

/-- Every export is its creator's alone, whatever admins there are and however they call. -/
structure SingleUser (st : State) : Prop where
  created : ∀ entry ∈ st.db.exports, ∃ owner, (entry.id, owner) ∈ st.creators
  /-- Only the creator succeeds. -/
  only : ∀ exportId owner, (exportId, owner) ∈ st.creators → ∀ admin ∈ st.db.admins,
    (succeeded ((ExportService.getExportStatus exportId admin.email).run st.db).1 ∨
      ∃ env req, succeeded ((ExportService.downloadExport env req exportId admin.email).run
        st.db).1) →
    admin.id = owner
  /-- The creator is never denied. -/
  never : ∀ exportId owner, (exportId, owner) ∈ st.creators → ∀ admin ∈ st.db.admins,
    admin.id = owner →
    denied ((ExportService.getExportStatus exportId admin.email).run st.db).1 = false ∧
      ∀ env req,
        denied ((ExportService.downloadExport env req exportId admin.email).run st.db).1 = false

/-! ## Keeping emails -/

/-- The user operation names another email for an admin. -/
def GivesEmail (s : Database) (owner : Uuid) : UserService.Op → Prop
  | .update userId data => userId = owner ∧ ∃ email ∈ data.email,
      ∃ row, s.admins.find? owner = some row ∧ row.email ≠ email
  | .replace userId data => userId = owner ∧
      ∃ row, s.admins.find? owner = some row ∧ row.email ≠ data.email
  | _ => False

/-- The request goes through and gives the admin another email. -/
def Renames (env : Env) (req : Request) (s : Database) (owner : Uuid) : Call → Prop
  | .access call => ∃ op, Sessions.Makes env req s call op ∧ GivesEmail s owner op
  | _ => False

/-- The request gives no admin who has created an export another email. -/
def KeepsEmails (env : Env) (st : State) (l : Request × Call) : Prop :=
  ∀ exportId owner, (exportId, owner) ∈ st.creators → ¬ Renames env l.1 st.db owner l.2

/-- An admin there was is still there, with the email. -/
def EmailKept (owner : Uuid) (admins admins' : Table PlatformAdmin) : Prop :=
  ∀ row, admins.find? owner = some row →
    ∃ row', admins'.find? owner = some row' ∧ row'.email = row.email

section Emails
variable {env : Env} {req : Request} {s s' : Database} {admins admins' : Table PlatformAdmin}
  {owner : Uuid}

theorem EmailKept.refl (owner : Uuid) (admins : Table PlatformAdmin) :
    EmailKept owner admins admins := fun row hrow => ⟨row, hrow, rfl⟩

theorem emailKept_insert {row : PlatformAdmin} (h : admins.insert row = some admins') :
    EmailKept owner admins admins' := by
  intro old hold
  obtain ⟨hin, hid⟩ := Table.find?_eq_some.mp hold
  exact ⟨old, Table.find?_eq_some.mpr ⟨(Table.mem_insert h).mpr (.inl hin), hid⟩, rfl⟩

theorem emailKept_flush {user current : PlatformAdmin}
    (hfind : admins.find? user.id = some user) (hflush : admins.flush user current = .ok admins')
    (hid : current.id = user.id) (hemail : user.id = owner → current.email = user.email) :
    EmailKept owner admins admins' := by
  intro row hrow
  have hafter := Table.find?_flush_loaded hflush hfind hid owner
  rw [key_platformAdmin] at hafter
  by_cases howner : owner = user.id
  · obtain rfl : row = user := by
      rw [howner, hfind] at hrow
      exact (Option.some.inj hrow).symm
    rw [if_pos howner] at hafter
    exact ⟨current, hafter, hemail howner.symm⟩
  · rw [if_neg howner] at hafter
    exact ⟨row, hafter.trans hrow, rfl⟩

theorem emailKept_user {op : UserService.Op} (h : op.Effect env req s s')
    (hkeeps : ¬ GivesEmail s owner op) : EmailKept owner s.admins s'.admins := by
  cases h with
  | create hinsert hkept hassigned => exact emailKept_insert hinsert
  | @update userId data user admins outbox hfind hguard hflush =>
      obtain ⟨hin, rfl⟩ := Table.find?_eq_some.mp hfind
      refine emailKept_flush hfind hflush rfl fun howner => ?_
      by_contra hne
      cases hdata : data.email with
      | none => exact hne (by simp [UserService.assignUpdate, hdata])
      | some email =>
          have hgiven : (UserService.assignUpdate data user).email = email := by
            simp [UserService.assignUpdate, hdata]
          rw [hgiven] at hne
          exact hkeeps ⟨howner, email, hdata, user, howner ▸ hfind, Ne.symm hne⟩
  | @replace userId data user admins outbox hfind hflush =>
      obtain ⟨hin, rfl⟩ := Table.find?_eq_some.mp hfind
      refine emailKept_flush hfind hflush rfl fun howner => ?_
      by_contra hne
      exact hkeeps ⟨howner, user, howner ▸ hfind, Ne.symm hne⟩
  | @delete userId user admins outbox hfind hguard hflush =>
      obtain rfl : user.id = userId := (Table.find?_eq_some.mp hfind).2
      exact emailKept_flush hfind hflush rfl fun _ => rfl

/-- An operation that goes through gives the email it names. -/
theorem renamed_of_effect {op : UserService.Op} (h : op.Effect env req s s')
    (hgives : GivesEmail s owner op) :
    ∃ row row', s.admins.find? owner = some row ∧ s'.admins.find? owner = some row' ∧
      row'.email ≠ row.email := by
  cases h with
  | create => exact absurd hgives id
  | delete => exact absurd hgives id
  | @update userId data user admins outbox hfind hguard hflush =>
      obtain ⟨rfl, email, hdata, row, hrow, hne⟩ := hgives
      obtain rfl := Option.some.inj (hfind.symm.trans hrow)
      obtain rfl : user.id = userId := (Table.find?_eq_some.mp hfind).2
      have hgiven : (UserService.assignUpdate data user).email = email := by
        simp [UserService.assignUpdate, show data.email = some email from hdata]
      refine ⟨user, UserService.assignUpdate data user, hfind,
        (Table.find?_flush_loaded hflush hfind rfl user.id).trans (if_pos rfl), ?_⟩
      · rw [hgiven]
        exact hne.symm
  | @replace userId data user admins outbox hfind hflush =>
      obtain ⟨rfl, row, hrow, hne⟩ := hgives
      obtain rfl := Option.some.inj (hfind.symm.trans hrow)
      obtain rfl : user.id = userId := (Table.find?_eq_some.mp hfind).2
      exact ⟨user, UserService.assignReplace env req data user, hfind,
        (Table.find?_flush_loaded hflush hfind rfl user.id).trans (if_pos rfl), hne.symm⟩

/-- A request leaves exports and files alone, and the emails of all admins but those it
renames. -/
structure Frame (renames : Uuid → Prop) (s s' : Database) : Prop where
  exports : s'.exports = s.exports
  files : s'.files = s.files
  email : ∀ owner, ¬ renames owner → EmailKept owner s.admins s'.admins

variable {renames : Uuid → Prop}

theorem Frame.of_eq (hadmins : s'.admins = s.admins) (hexports : s'.exports = s.exports)
    (hfiles : s'.files = s.files) : Frame renames s s' :=
  ⟨hexports, hfiles, fun owner _ => hadmins ▸ .refl owner s.admins⟩

/-- An admin is written back, with the email as before. -/
theorem Frame.of_flush {user current : PlatformAdmin}
    (hfind : s.admins.find? user.id = some user)
    (hflush : s.admins.flush user current = .ok s'.admins) (hid : current.id = user.id)
    (hemail : current.email = user.email) (hexports : s'.exports = s.exports)
    (hfiles : s'.files = s.files) : Frame renames s s' :=
  ⟨hexports, hfiles, fun _ _ => emailKept_flush hfind hflush hid fun _ => hemail⟩

theorem frame_user {op : UserService.Op} {req' : Request} (h : op.Effect env req' s s')
    (hrenames : ∀ owner, GivesEmail s owner op → renames owner) : Frame renames s s' := by
  refine ⟨?_, ?_, fun owner hkeeps => emailKept_user h fun hgives =>
    hkeeps (hrenames owner hgives)⟩
  · cases h <;> rfl
  · cases h <;> rfl

/-- **What a request to the auth or the user service leaves** of exports and emails. -/
theorem frame_serve (call : Sessions.Call) :
    Frame (fun owner => Renames env req s owner (.access call)) s (call.serve env req s).2 := by
  have heffect := Sessions.effect_serve env req s call
  rcases hserve : call.serve env req s with ⟨r, s'⟩
  rw [hserve] at heffect
  cases heffect with
  | refused => exact .of_eq rfl rfl rfl
  | denied => exact .of_eq rfl rfl rfl
  | session _ hfind hflush hsame => exact .of_flush hfind hflush hsame.id hsame.email rfl rfl
  | unknown => exact .of_eq rfl rfl rfl
  | requested => exact .of_eq rfl rfl rfl
  | verified => exact .of_eq rfl rfl rfl
  | reset hadmin _ _ _ _ _ hflush =>
      exact .of_flush (AuthService.find?_of_adminByEmail hadmin) hflush rfl rfl rfl rfl
  | user hop => exact frame_user hop fun _ hgives => ⟨_, .service hop.unopposed, hgives⟩
  | userRoute hcalls hgranted hop =>
      exact frame_user hop fun _ hgives => ⟨_, .route hcalls hgranted hop.unopposed, hgives⟩

theorem frame_role (op : RoleService.Op) : Frame renames s ((op.perform req).run s).2 := by
  rcases hrun : (op.perform req).run s with ⟨r, u⟩
  rcases RoleService.Op.perform_inv hrun with ⟨-, rfl⟩ | ⟨-, heffect⟩
  · exact .of_eq rfl rfl rfl
  · cases heffect <;> exact .of_eq rfl rfl rfl

theorem frame_screen (op : ScreenService.Op) :
    Frame renames s ((op.perform req).run s).2 := by
  rcases hrun : (op.perform req).run s with ⟨r, u⟩
  rcases ScreenService.Op.perform_inv hrun with ⟨-, rfl⟩ | ⟨-, heffect⟩
  · exact .of_eq rfl rfl rfl
  · cases heffect <;> exact .of_eq rfl rfl rfl

end Emails

/-! ## What is kept -/

/-- Every export has a creator, who has the email the export was created by. -/
structure Invariant (admins : Table PlatformAdmin) (exports : Table Export)
    (creators : List (Uuid × Uuid)) : Prop where
  created : ∀ entry ∈ exports, ∃ owner, (entry.id, owner) ∈ creators
  owned : ∀ exportId owner, (exportId, owner) ∈ creators → ∃ entry row,
    exports.find? exportId = some entry ∧ admins.find? owner = some row ∧
      row.email = entry.createdBy

section Step
variable {env : Env} {admins : Table PlatformAdmin} {exports : Table Export}
  {creators : List (Uuid × Uuid)}

theorem Invariant.emailKept (h : Invariant admins exports creators)
    {admins' : Table PlatformAdmin}
    (hkept : ∀ exportId owner, (exportId, owner) ∈ creators → EmailKept owner admins admins') :
    Invariant admins' exports creators where
  created := h.created
  owned exportId owner hin := by
    obtain ⟨entry, row, hentry, hrow, hemail⟩ := h.owned exportId owner hin
    obtain ⟨row', hrow', hsame⟩ := hkept exportId owner hin row hrow
    exact ⟨entry, row', hentry, hrow', hsame.trans hemail⟩

/-- Generating and serving files. -/
theorem Invariant.maintained (h : Invariant admins exports creators) {exports' : Table Export}
    (horigin : ∀ id, (exports'.find? id).map ExportService.origin =
      (exports.find? id).map ExportService.origin) :
    Invariant admins exports' creators := by
  constructor
  · intro entry hentry
    have hfind : exports'.find? entry.id = some entry := Table.find?_eq_some.mpr ⟨hentry, rfl⟩
    have hsame := (horigin entry.id).symm
    rw [hfind, Option.map_some, Option.map_eq_some_iff] at hsame
    obtain ⟨old, hold, -⟩ := hsame
    obtain ⟨hin, hid⟩ := Table.find?_eq_some.mp hold
    obtain ⟨owner, howner⟩ := h.created old hin
    rw [key_export] at hid
    exact ⟨owner, hid ▸ howner⟩
  · intro exportId owner hin
    obtain ⟨old, row, hold, hrow, hemail⟩ := h.owned exportId owner hin
    have hsame := horigin exportId
    rw [hold, Option.map_some, Option.map_eq_some_iff] at hsame
    obtain ⟨entry, hentry, horigin⟩ := hsame
    exact ⟨entry, row, hentry, hrow, hemail.trans (Prod.mk.inj horigin).2.symm⟩

/-- A new export, created by the email its creator has. -/
theorem Invariant.insert (h : Invariant admins exports creators) {entry : Export}
    {exports' : Table Export} {admin : PlatformAdmin} (hinsert : exports.insert entry = some exports')
    (hadmin : admins.find? admin.id = some admin) (howner : entry.createdBy = admin.email) :
    Invariant admins exports' ((entry.id, admin.id) :: creators) := by
  constructor
  · intro x hx
    rcases (Table.mem_insert hinsert).mp hx with hold | rfl
    · obtain ⟨owner, hin⟩ := h.created x hold
      exact ⟨owner, List.mem_cons_of_mem _ hin⟩
    · exact ⟨admin.id, List.mem_cons_self⟩
  · intro exportId owner hin
    rcases List.mem_cons.mp hin with heq | hin
    · obtain ⟨rfl, rfl⟩ := Prod.mk.inj heq
      exact ⟨entry, admin, by simp [Table.find?_insert hinsert], hadmin, howner.symm⟩
    · obtain ⟨old, row, hold, hrow, hemail⟩ := h.owned exportId owner hin
      obtain ⟨holdin, hid⟩ := Table.find?_eq_some.mp hold
      exact ⟨old, row, Table.find?_eq_some.mpr ⟨(Table.mem_insert hinsert).mpr (.inl holdin), hid⟩,
        hrow, hemail⟩

variable {st : State}

theorem Invariant.frame (h : Invariant st.db.admins st.db.exports st.creators)
    {l : Request × Call} (hkeeps : KeepsEmails env st l) {s' : Database}
    (hframe : Frame (fun owner => Renames env l.1 st.db owner l.2) st.db s') :
    Invariant s'.admins s'.exports st.creators := by
  rw [hframe.exports]
  exact h.emailKept fun exportId owner hin => hframe.email owner (hkeeps exportId owner hin)

/-- **One request keeps the invariant**, unless it gives the creator of an export another
email. -/
theorem Invariant.step (h : Invariant st.db.admins st.db.exports st.creators)
    {l : Request × Call} (hkeeps : KeepsEmails env st l) :
    Invariant (next env l.1 st l.2).db.admins (next env l.1 st l.2).db.exports
      (next env l.1 st l.2).creators := by
  obtain ⟨req, call⟩ := l
  cases call with
  | access call => exact h.frame hkeeps (frame_serve call)
  | role op => exact h.frame hkeeps (frame_role op)
  | screen op => exact h.frame hkeeps (frame_screen op)
  | status credentials exportId =>
      obtain ⟨outbox, hstate⟩ := Api.run_getExport_state req credentials exportId st.db
      have hframe : Frame (fun owner => Renames env req st.db owner (.status credentials exportId))
          st.db ((Api.getExport req credentials exportId).run st.db).2 := by
        rw [hstate]
        exact .of_eq rfl rfl rfl
      exact h.frame hkeeps hframe
  | create credentials data =>
      rcases hrun : (Api.createExport env req credentials data).run st.db with ⟨r, u⟩
      rcases Api.run_createExport_inv hrun with ⟨e, outbox, rfl, rfl⟩ |
        ⟨payload, admin, entry, exports, outbox, hcalls, -, hinsert, -, horigin, rfl, rfl⟩
      · simp only [next, hrun]
        exact h
      · simp only [next, hrun, caller_of_callsAs hcalls]
        exact h.insert hinsert hcalls.accepted.found (Prod.mk.inj horigin).2
  | download credentials exportId =>
      rcases hrun : (Api.downloadExport env req credentials exportId).run st.db with ⟨r, u⟩
      obtain ⟨hmaintained, -⟩ := Api.run_downloadExport_inv hrun
      obtain ⟨exports, files, outbox, rfl⟩ := hmaintained.rest
      simp only [next, hrun]
      exact h.maintained hmaintained.origin
  | generate exportId =>
      have hmaintained := ExportService.maintained_generateTask env req.now exportId st.db
      obtain ⟨exports, files, outbox, hstate⟩ := hmaintained.rest
      have horigin := hmaintained.origin
      simp only [next]
      rw [hstate] at horigin ⊢
      exact h.maintained horigin

end Step

/-! ## The result -/

/-- No export has been created yet. -/
def NoExports (st : State) : Prop := st.creators = [] ∧ ∀ entry, entry ∉ st.db.exports

/-- Where creators have the emails their exports were created by, links are single-user. -/
theorem Invariant.singleUser {st : State}
    (h : Invariant st.db.admins st.db.exports st.creators) : SingleUser st := by
  -- the email check speaks of the creator
  have howner : ∀ exportId owner, (exportId, owner) ∈ st.creators → ∀ admin ∈ st.db.admins,
      ∀ entry, st.db.exports.find? exportId = some entry →
        (entry.createdBy = admin.email ↔ admin.id = owner) := by
    intro exportId owner hin admin hadmin entry hentry
    obtain ⟨own, row, hown, hrow, hemail⟩ := h.owned exportId owner hin
    obtain rfl : own = entry := Option.some.inj (hown.symm.trans hentry)
    obtain ⟨hrowin, rfl⟩ := Table.find?_eq_some.mp hrow
    constructor
    · intro heq
      rw [Table.eq_of_clash hadmin hrowin (.inr (.inl (heq.symm.trans hemail.symm)))]
      rfl
    · intro heq
      rw [Table.eq_of_key hadmin hrowin heq]
      exact hemail.symm
  refine ⟨h.created, ?_, ?_⟩
  · rintro exportId owner hin admin hadmin (hstatus | ⟨env, req, hdownload⟩)
    · rcases ExportService.run_ownedExport exportId admin.email st.db with ⟨e, hrun, -⟩ |
        ⟨entry, hrun, hfind, hcreatedBy⟩
      · rw [ExportService.getExportStatus, hrun] at hstatus
        cases hstatus
      · exact (howner exportId owner hin admin hadmin entry hfind).mp hcreatedBy
    · rcases hrun : (ExportService.downloadExport env req exportId admin.email).run st.db
        with ⟨r, s'⟩
      rcases ExportService.run_downloadExport_inv hrun with ⟨e, rfl, -, -⟩ |
        ⟨entry, ⟨hfind, hcreatedBy⟩, -, -⟩
      · rw [hrun] at hdownload
        cases hdownload
      · exact (howner exportId owner hin admin hadmin entry hfind).mp hcreatedBy
  · intro exportId owner hin admin hadmin hid
    have hpass : ∀ e : AppError, (e = .permissionDenied ↔ ∃ entry,
        st.db.exports.find? exportId = some entry ∧ entry.createdBy ≠ admin.email) →
        e ≠ .permissionDenied := by
      intro e he heq
      obtain ⟨entry, hfind, hne⟩ := he.mp heq
      exact hne ((howner exportId owner hin admin hadmin entry hfind).mpr hid)
    constructor
    · rcases ExportService.run_ownedExport exportId admin.email st.db with ⟨e, hrun, he⟩ |
        ⟨entry, hrun, -⟩
      · rw [ExportService.getExportStatus, hrun]
        exact denied_eq_false (by simpa using hpass e he)
      · rw [ExportService.getExportStatus, hrun]
        rfl
    · intro env req
      rcases hrun : (ExportService.downloadExport env req exportId admin.email).run st.db
        with ⟨r, s'⟩
      rcases ExportService.run_downloadExport_inv hrun with ⟨e, rfl, -, he⟩ | ⟨entry, -, hr, -⟩
      · exact denied_eq_false (by simpa using hpass e he)
      · exact denied_eq_false hr

/-- A creator who has got another email is denied. -/
theorem Invariant.not_singleUser {env : Env} {st : State}
    (h : Invariant st.db.admins st.db.exports st.creators) {l : Request × Call}
    {exportId owner : Uuid} (hin : (exportId, owner) ∈ st.creators)
    (hrenames : Renames env l.1 st.db owner l.2) : ¬ SingleUser (next env l.1 st l.2) := by
  obtain ⟨req, call⟩ := l
  cases call with
  | access call =>
      obtain ⟨op, hmakes, hgives⟩ := hrenames
      obtain ⟨req', s', hserve, heffect⟩ := Sessions.serve_of_makes hmakes
      obtain ⟨row, row', hrow, hrow', hne⟩ := renamed_of_effect heffect hgives
      obtain ⟨entry, old, hentry, hold, hemail⟩ := h.owned exportId owner hin
      obtain rfl := Option.some.inj (hrow.symm.trans hold)
      have hexports : s'.exports = st.db.exports := by cases heffect <;> rfl
      have hnext : next env req st (.access call) = { st with db := s' } := by
        rw [next, hserve]
      intro hsingle
      rw [hnext] at hsingle
      obtain ⟨hmem, hid⟩ := Table.find?_eq_some.mp hrow'
      obtain ⟨hpasses, -⟩ := hsingle.never exportId owner hin row' hmem hid
      have hforeign : entry.createdBy ≠ row'.email := fun heq => hne (heq.symm.trans hemail.symm)
      have hentry' : s'.exports.find? exportId = some entry := hexports ▸ hentry
      rcases ExportService.run_ownedExport exportId row'.email s' with ⟨e, hrun, he⟩ |
        ⟨x, -, hfind, hcreatedBy⟩
      · rw [ExportService.getExportStatus, hrun, he.mpr ⟨entry, hentry', hforeign⟩] at hpasses
        cases hpasses
      · obtain rfl := Option.some.inj (hentry'.symm.trans hfind)
        exact hforeign hcreatedBy
  | _ => exact absurd hrenames id

/-- **When links are single-user.** In every run, every export is its creator's alone in every
state exactly if no request gives an admin who has created an export another email. -/
theorem singleUser_iff {env : Env} {t : List (State × (Request × Call))} {st : State}
    (h : (machine env NoExports).Run t st) :
    (∀ u ∈ Machine.visited t st, SingleUser u) ↔ ∀ p ∈ t, KeepsEmails env p.1 p.2 := by
  refine h.always_iff_while (J := fun u => Invariant u.db.admins u.db.exports u.creators)
    ?_ (fun u hu => hu.singleUser) (fun u l u' hu hl hnext => ?_) fun u l u' hu hnext hsingle => ?_
  · rintro u ⟨hcreators, hexports⟩
    rw [hcreators]
    exact ⟨fun entry hentry => absurd hentry (hexports entry), fun _ _ hin => by cases hin⟩
  · obtain rfl := Option.some.inj hnext
    exact hu.step hl
  · obtain rfl := Option.some.inj hnext
    exact fun exportId owner hin hrenames => hu.not_singleUser hin hrenames hsingle

/-! ## A link that passes on -/

open Administration (sampleEnv sampleState sampleRequest)

/-- The access token of the login below. -/
def sampleToken : EncodedToken :=
  .signed
    { userId := some (.ofNat 101), jti := (Uuid.ofNat 402).str, exp := 1202, type := "access"
      extra := some
        { rjti := (Uuid.ofNat 302).str, rexp := 604802
          email := "admin3@example.com", username := "admin3", roles := ["super_admin"]
          permissions := ["S1.R", "S1.W", "S2.R", "S3.R", "S3.W", "S4.R", "S4.W"] } }

/-- An admin is created, logs in, creates an export of a module and downloads it. -/
def createdCalls (module : ExportModule) : List (Request × Call) :=
  [(sampleRequest 1, .access (.user (.create
      { name := "admin3", email := "admin3@example.com", password := "Secret-1" }))),
    (sampleRequest 2, .access (.login { email := "admin3@example.com", password := "Secret-1" })),
    (sampleRequest 3, .create (some sampleToken) { module := module, reason := "review" }),
    (sampleRequest 4, .generate (.ofNat 103)),
    (sampleRequest 5, .download (some sampleToken) (.ofNat 103))]

/-- The admin is then given another email, and the admin with id 2 the one that is free. -/
def renamedCalls : List (Request × Call) :=
  [(sampleRequest 6, .access (.user (.update (.ofNat 101) { email := "renamed@example.com" }))),
    (sampleRequest 7, .access (.user (.update (.ofNat 2) { email := "admin3@example.com" })))]

theorem noExports_sampleState : NoExports ⟨sampleState, []⟩ :=
  ⟨rfl, fun _ hentry => by cases hentry⟩

/-- Requests that would give the creator another email, from nobody and with one that is taken,
and one that gives another admin one. -/
def refusedCalls : List (Request × Call) :=
  [(sampleRequest 6, .access (.userRoute none (.update (.ofNat 101)
      { email := "renamed@example.com" }))),
    (sampleRequest 7, .access (.user (.update (.ofNat 101) { email := "admin1@example.com" }))),
    (sampleRequest 8, .access (.user (.update (.ofNat 2) { email := "renamed@example.com" })))]

/-- A request after which the creators have the emails they had. -/
theorem keepsEmails_of_kept {env : Env} {st : State} {l : Request × Call}
    (h : ∀ created ∈ st.creators, EmailKept created.2 st.db.admins
      (next env l.1 st l.2).db.admins) : KeepsEmails env st l := by
  rintro exportId owner hin hrenames
  obtain ⟨req, call⟩ := l
  cases call with
  | access call =>
      obtain ⟨op, hmakes, hgives⟩ := hrenames
      obtain ⟨req', s', hserve, heffect⟩ := Sessions.serve_of_makes hmakes
      obtain ⟨row, row', hrow, hrow', hne⟩ := renamed_of_effect heffect hgives
      have hkept := h (exportId, owner) hin row hrow
      rw [next, hserve] at hkept
      obtain ⟨row'', hrow'', hsame⟩ := hkept
      obtain rfl := Option.some.inj (hrow'.symm.trans hrow'')
      exact hne hsame
  | _ => exact hrenames

theorem singleUser_iff_refusedCalls :
    ∃ t st, (machine sampleEnv NoExports).Run t st ∧
      t.map Prod.snd = createdCalls .audit ++ refusedCalls ∧
      st.creators = [(.ofNat 103, .ofNat 101)] ∧
      st.db.admins.rows.map PlatformAdmin.email =
        ["admin1@example.com", "renamed@example.com", "admin3@example.com"] ∧
      ∀ u ∈ Machine.visited t st, SingleUser u := by
  have hlast : ((machine sampleEnv NoExports).exec (createdCalls .audit ++ refusedCalls)
      ⟨sampleState, []⟩).map (fun st => (st.creators, st.db.admins.rows.map PlatformAdmin.email)) =
        some ([(.ofNat 103, .ofNat 101)],
          ["admin1@example.com", "renamed@example.com", "admin3@example.com"]) := by decide +kernel
  obtain ⟨st, hexec, hst⟩ := Option.map_eq_some_iff.mp hlast
  obtain ⟨hcreators, hemails⟩ := Prod.mk.inj hst
  have hrun := Machine.Run.of_exec (.start noExports_sampleState) hexec
  have hkept : ∀ p ∈ Machine.trace (machine sampleEnv NoExports) (createdCalls .audit ++ refusedCalls)
      ⟨sampleState, []⟩, ∀ created ∈ p.1.creators,
        ((next sampleEnv p.2.1 p.1 p.2.2).db.admins.find? created.2).map PlatformAdmin.email =
          (p.1.db.admins.find? created.2).map PlatformAdmin.email := by decide +kernel
  refine ⟨_, st, hrun, Machine.map_snd_trace hexec, hcreators, hemails,
    (singleUser_iff hrun).mpr fun p hp => keepsEmails_of_kept fun created hcreated row hrow => ?_⟩
  have hsame := hkept p hp created hcreated
  rw [hrow, Option.map_some, Option.map_eq_some_iff] at hsame
  exact hsame

/-- **The link passes on.** Its creator is denied, and the admin who was given the free email
is served the file. -/
theorem link_passes_on :
    ∃ st, (machine sampleEnv NoExports).Reachable st ∧
      denied ((ExportService.getExportStatus (.ofNat 103) "renamed@example.com").run st.db).1 =
        true ∧ ¬ SingleUser st := by
  have hlink : ((machine sampleEnv NoExports).exec (createdCalls .audit ++ renamedCalls)
      ⟨sampleState, []⟩).map (fun st =>
        (st.creators, st.db.admins.rows.map fun admin => (admin.id, admin.email),
          succeeded ((ExportService.downloadExport sampleEnv (sampleRequest 8) (.ofNat 103)
            "admin3@example.com").run st.db).1,
          denied ((ExportService.getExportStatus (.ofNat 103) "renamed@example.com").run
            st.db).1)) =
      some ([(.ofNat 103, .ofNat 101)],
        [(.ofNat 1, "admin1@example.com"), (.ofNat 2, "admin3@example.com"),
          (.ofNat 101, "renamed@example.com")], true, true) := by decide +kernel
  obtain ⟨st, hexec, hst⟩ := Option.map_eq_some_iff.mp hlink
  obtain ⟨hcreators, hadmins, hserved, hdenied⟩ := by simpa only [Prod.mk.injEq] using hst
  refine ⟨st, Machine.reachable_of_exec noExports_sampleState hexec, hdenied, fun hsingle => ?_⟩
  -- the second admin has the email now, and the link serves that admin
  have hin : (Uuid.ofNat 2, "admin3@example.com") ∈
      st.db.admins.rows.map fun admin => (admin.id, admin.email) := by rw [hadmins]; simp
  obtain ⟨admin, hadmin, heq⟩ := List.mem_map.mp hin
  obtain ⟨hid, hemail⟩ := Prod.mk.inj heq
  have howner := hsingle.only (.ofNat 103) (.ofNat 101) (by simp [hcreators]) admin hadmin
    (.inr ⟨sampleEnv, sampleRequest 8, by rw [hemail]; exact hserved⟩)
  rw [hid] at howner
  exact absurd howner (by decide)

end Exports
end AdminPlatform
