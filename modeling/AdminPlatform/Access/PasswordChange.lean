import AdminPlatform.Access.Effects

/-! # Password changes and the sessions before them

Two operations give an admin another password: the reset of the auth service, which also
clears the pointer to the session, and the replacement of the user service, which keeps it.
So a replacement revokes the tokens issued so far only where no session was live.

`passwordChange_revokes` says so of whole runs: as long as no replacement changes the
password under a live session, no token outlives a change of its admin's password; and every
replacement that does leaves a token that is accepted. -/

namespace AdminPlatform
open AdminPlatform.Lib

namespace Sessions

/-! ## Which requests change a password -/

/-- After the request the admin has another hashed password. -/
def ChangesPassword (env : Env) (l : Request × Call) (st : State) (admin : Uuid) : Prop :=
  ∃ user user', st.db.admins.find? admin = some user ∧
    (next env l.1 l.2 st).db.admins.find? admin = some user' ∧
    user'.hashedPassword ≠ user.hashedPassword

/-- A replacement with another password, which nothing stands against: its email and username
are free, and through the route the caller may write users. -/
inductive Replaces (env : Env) (req : Request) (s : Database) : Call → PlatformAdmin → Prop
  | service {user data} : s.admins.find? user.id = some user → UserService.Free s user.id data →
      env.bcrypt.hashPassword req.salt data.password ≠ user.hashedPassword →
      Replaces env req s (.user (.replace user.id data)) user
  | route {credentials payload caller user data} :
      Api.CallsAs s req.now credentials payload caller →
      PermissionName.usersWrite.value ∈ RbacService.permissions s caller.id →
      s.admins.find? user.id = some user → UserService.Free s user.id data →
      env.bcrypt.hashPassword req.salt data.password ≠ user.hashedPassword →
      Replaces env req s (.userRoute credentials (.replace user.id data)) user

/-- Every admin who is there before and after has the same hashed password. -/
def KeepsPasswords (admins admins' : Table PlatformAdmin) : Prop :=
  ∀ id user user', admins.find? id = some user → admins'.find? id = some user' →
    user'.hashedPassword = user.hashedPassword

section Change
variable {env : Env} {req : Request} {s s' : Database} {admins : Table PlatformAdmin}

theorem keepsPasswords_refl (admins : Table PlatformAdmin) : KeepsPasswords admins admins := by
  intro id user user' hbefore hafter
  rw [Option.some.inj (hbefore.symm.trans hafter)]

theorem keepsPasswords_flush {admin current : PlatformAdmin}
    (hfind : s.admins.find? admin.id = some admin)
    (hflush : s.admins.flush admin current = .ok admins) (hid : current.id = admin.id)
    (hhash : current.hashedPassword = admin.hashedPassword) :
    KeepsPasswords s.admins admins := by
  intro id user user' hbefore hafter
  rw [Table.find?_flush_loaded hflush hfind hid] at hafter
  split at hafter
  · rename_i hk
    subst hk
    rw [← Option.some.inj hafter, hhash, Option.some.inj (hfind.symm.trans hbefore)]
  · rw [Option.some.inj (hbefore.symm.trans hafter)]

theorem keepsPasswords_insert {row : PlatformAdmin} (hinsert : s.admins.insert row = some admins) :
    KeepsPasswords s.admins admins := by
  intro id user user' hbefore hafter
  rw [Table.find?_insert hinsert] at hafter
  split at hafter
  · rename_i hk
    obtain ⟨hin, hid⟩ := Table.find?_eq_some.mp hbefore
    exact absurd (Row.of_key (hid.trans hk.symm)) (Table.not_clash_of_insert hinsert hin)
  · rw [Option.some.inj (hbefore.symm.trans hafter)]

/-- Of the operations of the user service only a replacement changes a password. -/
theorem keepsPasswords_user {op : UserService.Op} (h : op.Effect env req s s') :
    KeepsPasswords s.admins s'.admins ∨
      ∃ userId data user, op = .replace userId data ∧ s.admins.find? userId = some user ∧
        s.admins.flush user (UserService.assignReplace env req data user) = .ok s'.admins := by
  cases h with
  | create hinsert => exact .inl (keepsPasswords_insert hinsert)
  | @update userId data user admins outbox hfind hguard hflush =>
      obtain rfl : user.id = userId := (Table.find?_eq_some.mp hfind).2
      exact .inl (keepsPasswords_flush hfind hflush rfl rfl)
  | @delete userId user admins outbox hfind hguard hflush =>
      obtain rfl : user.id = userId := (Table.find?_eq_some.mp hfind).2
      exact .inl (keepsPasswords_flush hfind hflush rfl rfl)
  | @replace userId data user admins outbox hfind hflush =>
      exact .inr ⟨userId, data, user, rfl, hfind, hflush⟩

/-- What a replacement that changes an admin's password has to be. -/
theorem replaced_of_changed {userId id : Uuid} {data : UserReplace}
    {replaced user user' : PlatformAdmin} (hfind : s.admins.find? userId = some replaced)
    (hflush : s.admins.flush replaced (UserService.assignReplace env req data replaced) = .ok admins)
    (hbefore : s.admins.find? id = some user) (hafter : admins.find? id = some user')
    (hchanged : user'.hashedPassword ≠ user.hashedPassword) :
    user.id = userId ∧ UserService.Free s user.id data ∧
      env.bcrypt.hashPassword req.salt data.password ≠ user.hashedPassword := by
  obtain rfl : replaced.id = userId := (Table.find?_eq_some.mp hfind).2
  rw [Table.find?_flush_loaded hflush hfind rfl] at hafter
  split at hafter
  · rename_i hk
    subst hk
    obtain rfl : replaced = user := Option.some.inj (hfind.symm.trans hbefore)
    obtain rfl := Option.some.inj hafter
    refine ⟨rfl, fun other hother hne => ?_, hchanged⟩
    have hclash := Table.not_clash_of_flush hflush hfind rfl hother hne
    exact ⟨fun h => hclash (.inr (.inl h.symm)), fun h => hclash (.inr (.inr h.symm))⟩
  · rw [Option.some.inj (hbefore.symm.trans hafter)] at hchanged
    exact absurd rfl hchanged

/-- An operation of the user service changes an admin's password by replacing the admin. -/
theorem replace_of_effect {op : UserService.Op} {adminId : Uuid} {user user' : PlatformAdmin}
    (h : op.Effect env req s s') (hbefore : s.admins.find? adminId = some user)
    (hafter : s'.admins.find? adminId = some user')
    (hchanged : user'.hashedPassword ≠ user.hashedPassword) :
    ∃ data, op = .replace user.id data ∧ UserService.Free s user.id data ∧
      env.bcrypt.hashPassword req.salt data.password ≠ user.hashedPassword := by
  rcases keepsPasswords_user h with hkeeps | ⟨userId, data, replaced, rfl, hfind, hflush⟩
  · exact absurd (hkeeps _ _ _ hbefore hafter) hchanged
  · obtain ⟨rfl, hfree, hhash⟩ := replaced_of_changed hfind hflush hbefore hafter hchanged
    exact ⟨data, rfl, hfree, hhash⟩

/-- **Which requests change an admin's password**: a reset, which ends the session, or a
replacement, which tells nothing of sessions. -/
theorem changed_inv {call : Call} {adminId : Uuid} {user user' : PlatformAdmin}
    (hbefore : s.admins.find? adminId = some user)
    (hafter : (call.serve env req s).2.admins.find? adminId = some user')
    (hchanged : user'.hashedPassword ≠ user.hashedPassword) :
    outcome s call (call.serve env req s).1 = some (.ended adminId) ∨
      (outcome s call (call.serve env req s).1 = none ∧ Replaces env req s call user) := by
  have hself : s.admins.find? user.id = some user :=
    Table.find?_eq_some.mpr ⟨(Table.find?_eq_some.mp hbefore).1, rfl⟩
  have hkept : ¬ KeepsPasswords s.admins (call.serve env req s).2.admins :=
    fun hkeeps => hchanged (hkeeps _ _ _ hbefore hafter)
  have heffect := effect_serve env req s call
  generalize (call.serve env req s).1 = r at heffect ⊢
  generalize (call.serve env req s).2 = s' at heffect hafter hkept
  cases heffect with
  | refused => exact absurd (keepsPasswords_refl _) hkept
  | denied => exact absurd (keepsPasswords_refl _) hkept
  | unknown => exact absurd (keepsPasswords_refl _) hkept
  | requested => exact absurd (keepsPasswords_refl _) hkept
  | verified => exact absurd (keepsPasswords_refl _) hkept
  | session hcall hfind hflush hsame =>
      exact absurd (keepsPasswords_flush hfind hflush hsame.id hsame.hashedPassword) hkept
  | @reset payload admin row admins added hadmin hrow hverified hlive hnew hinsert hflush =>
      rw [Table.find?_flush_loaded hflush (AuthService.find?_of_adminByEmail hadmin) rfl] at hafter
      split at hafter
      · rename_i hk
        left
        show (s.adminByEmail payload.email).map _ = _
        rw [hadmin, Option.map_some, hk]
        rfl
      · exact absurd (keepsPasswords_refl _ _ _ _ hbefore hafter) hchanged
  | user hop =>
      obtain ⟨data, rfl, hfree, hhash⟩ := replace_of_effect hop hbefore hafter hchanged
      exact .inr ⟨rfl, .service hself hfree hhash⟩
  | userRoute hcalls hgranted hop =>
      obtain ⟨data, rfl, hfree, hhash⟩ := replace_of_effect hop hbefore hafter hchanged
      exact .inr ⟨rfl, .route hcalls hgranted hself hfree hhash⟩

theorem Replaces.found {call : Call} {user : PlatformAdmin} (h : Replaces env req s call user) :
    s.admins.find? user.id = some user := by
  cases h <;> assumption

/-- **A replacement that nothing stands against is made**, and leaves the session alone. -/
theorem serve_of_replaces {call : Call} {user : PlatformAdmin} (h : Replaces env req s call user) :
    ∃ user' admins outbox, s.admins.flush user user' = .ok admins ∧ user'.id = user.id ∧
      user'.hashedPassword ≠ user.hashedPassword ∧ user'.status = user.status ∧
      user'.currentRefreshJti = user.currentRefreshJti ∧
      call.serve env req s = (.ok none, { s with admins := admins, auditIntents := outbox }) ∧
      call.event s none = none := by
  have hperform : ∀ (req' : Request) (data : UserReplace),
      s.admins.find? user.id = some user → UserService.Free s user.id data →
      ∃ admins outbox, s.admins.flush user (UserService.assignReplace env req' data user) =
          .ok admins ∧
        (UserService.Op.perform env req' (.replace user.id data)).run s =
          (.ok (), { s with admins := admins, auditIntents := outbox }) := by
    intro req' data hfind hfree
    obtain ⟨admins, outbox, hflush, hrun⟩ := UserService.run_replaceUser_ok env req' hfind hfree
    exact ⟨admins, outbox, hflush, Db.run_bind_ok _ hrun⟩
  cases h with
  | @service _ data hfind hfree hhash =>
      obtain ⟨admins, outbox, hflush, hrun⟩ := hperform req data hfind hfree
      exact ⟨_, admins, outbox, hflush, rfl, hhash, rfl, rfl, by rw [Call.serve, hrun]; rfl, rfl⟩
  | @route credentials payload caller _ data hcalls hgranted hfind hfree hhash =>
      obtain ⟨admins, outbox, hflush, hrun⟩ :=
        hperform (Api.actingAs req caller) data hfind hfree
      refine ⟨_, admins, outbox, hflush, rfl, hhash, rfl, rfl, ?_, rfl⟩
      rw [Call.serve, Api.run_guarded_ok hcalls hgranted, hrun]
      rfl

end Change

/-! ## Tokens of sessions that are over -/

/-- A session was issued to the admin and is not the live one. -/
def Over (history : List Event) (admin : Uuid) (tokens : TokenResponse) : Prop :=
  .issued admin tokens ∈ history ∧ live history admin ≠ some tokens

/-- No token issued to the admin in this history is accepted. -/
def Revoked (history : List Event) (admin : Uuid) (s : Database) : Prop :=
  ∀ tokens, .issued admin tokens ∈ history → ∀ payload, .signed payload ∈ pair tokens →
    ∃ e, (AuthService.getAdminFromPayload payload).run s = (.error e, s)

section Over
variable {env : Env} {st st' : State} {admins admins' : Table PlatformAdmin}
  {history : List Event} {admin : Uuid} {tokens : TokenResponse}

/-- **A session that is over stays over**: what is issued afterwards is another session. -/
theorem Over.change (h : Over history admin tokens) {fresh : String}
    {e : Option Event} (hchange : Change admins fresh e admins')
    (hfresh : ∀ e ∈ history, e.jti ≠ some fresh) : Over (e.toList ++ history) admin tokens := by
  obtain ⟨hissued, hlive⟩ := h
  refine ⟨List.mem_append_right _ hissued, ?_⟩
  cases hchange with
  | same => exact hlive
  | kept => exact hlive
  | inserted => exact hlive
  | @issued user current new _ hfind hflush hid hactive hpointer hjti hwell =>
      show (if user.id = admin then some new else live history admin) ≠ some tokens
      split
      · rintro ⟨⟩
        exact hfresh _ hissued hjti
      · exact hlive
  | @ended user current _ hfind hflush hid hpointer =>
      show (if user.id = admin then none else live history admin) ≠ some tokens
      split
      · exact nofun
      · exact hlive

/-- Payloads at time 0 have not expired. -/
theorem decodeToken_zero (payload : TokenPayload) : decodeToken 0 (.signed payload) = some payload :=
  decodeToken_eq_some.mpr ⟨rfl, by simp [TokenPayload.expired, Instant.timestamp]⟩

theorem unforged_of_issued {payload : TokenPayload} (he : .issued admin tokens ∈ history)
    (hmem : .signed payload ∈ pair tokens) : unforged history (.signed payload) = true := by
  refine List.any_eq_true.mpr ⟨_, he, ?_⟩
  rw [Event.tokens, Option.any_some, decide_eq_true hmem]

/-- The tokens of a session that is over are rejected. -/
theorem Over.rejected (h : Over st.history admin tokens) (hI : Invariant st.db.admins st.history)
    {payload : TokenPayload} (hmem : .signed payload ∈ pair tokens) :
    ∃ e, (AuthService.getAdminFromPayload payload).run st.db = (.error e, st.db) := by
  obtain ⟨hissued, hlive⟩ := h
  rcases AuthService.getAdminFromPayload_reads payload st.db with hrefused | ⟨a, hrun, haccepts⟩
  · exact hrefused
  · exfalso
    obtain ⟨-, -, other, hother, hmem'⟩ :=
      (accepts_iff hI (decodeToken_zero payload) (unforged_of_issued hissued hmem)).mp haccepts
    have hissued' := mem_of_live hother
    obtain ⟨-, -, hjti, hsome⟩ := (hI.wellFormed _ _ hissued).of_mem_pair hmem
    obtain ⟨-, -, hjti', -⟩ := (hI.wellFormed _ _ hissued').of_mem_pair hmem'
    obtain ⟨j, hj⟩ := Option.isSome_iff_exists.mp hsome
    obtain ⟨rfl, rfl⟩ := Event.issued.inj
      (hI.eq_of_jti hissued' hissued ((hjti'.symm.trans hjti).trans hj) hj)
    exact hlive hother

/-- The refresh token of a live session is accepted. -/
theorem accepted_of_live (hI : Invariant st.db.admins st.history) {row : PlatformAdmin}
    (hrow : row ∈ st.db.admins) (hlive : live st.history row.id = some tokens) :
    ∃ payload, .signed payload ∈ pair tokens ∧
      (AuthService.getAdminFromPayload payload).run st.db = (.ok row, st.db) := by
  have hissued := mem_of_live hlive
  obtain ⟨access, refresh, haccess, hrefresh, -⟩ := (hI.wellFormed _ _ hissued).signed
  have hmem : .signed refresh ∈ pair tokens := by simp [pair, hrefresh]
  refine ⟨refresh, hmem, AuthService.run_getAdminFromPayload_iff.mpr ?_⟩
  have hdecode := decodeToken_zero refresh
  exact (accepts_iff hI hdecode (unforged_of_issued hissued hmem)).mpr
    ⟨hrow, by rw [hdecode]; rfl, tokens, hlive, hmem⟩

/-! ## One request -/

/-- A request that may only change the passwords of admins without a session. -/
def SparesSessions (env : Env) (l : Request × Call) (st : State) : Prop :=
  ∀ user, Replaces env l.1 st.db l.2 user → live st.history user.id = none

theorem step_inv {l : Request × Call} (hstep : (machine env).step l st = some st') :
    st' = next env l.1 l.2 st ∧ ∀ e ∈ st.history, e.jti ≠ some l.1.refreshJti.str := by
  simp only [machine, Option.ite_none_right_eq_some, Option.some.injEq] at hstep
  obtain ⟨hadmissible, rfl⟩ := hstep
  obtain ⟨hfresh, -⟩ := (Bool.and_eq_true _ _).mp hadmissible
  exact ⟨rfl, fun e he => by simpa using List.all_eq_true.mp hfresh e he⟩

theorem Over.step (h : Over st.history admin tokens) {l : Request × Call} (hstep : (machine env).step l st = some st') :
    Over st'.history admin tokens := by
  obtain ⟨rfl, hfresh⟩ := step_inv hstep
  rw [next_eq]
  exact h.change (change_serve l.2) hfresh

/-- A password change ends the admin's sessions, if it spares those it must not end. -/
theorem over_of_changesPassword {l : Request × Call}
    (hstep : (machine env).step l st = some st') (hok : SparesSessions env l st)
    (hchanges : ChangesPassword env l st admin) (he : .issued admin tokens ∈ st.history) :
    Over st'.history admin tokens := by
  obtain ⟨rfl, -⟩ := step_inv hstep
  obtain ⟨user, user', hbefore, hafter, hchanged⟩ := hchanges
  rw [next_eq] at hafter ⊢
  refine ⟨List.mem_append_right _ he, ?_⟩
  show live (_ ++ st.history) admin ≠ some tokens
  rcases changed_inv hbefore hafter hchanged with hended | ⟨hnone, hreplaces⟩
  · rw [hended]
    simp [live]
  · obtain rfl : user.id = admin := (Table.find?_eq_some.mp hbefore).2
    rw [hnone, Option.toList_none, List.nil_append, hok user hreplaces]
    intro hlive
    cases hlive

/-- **A replacement under a live session** changes the password and revokes nothing. -/
theorem not_revoked_of_replaces (hI : Invariant st.db.admins st.history) {l : Request × Call}
    (hstep : (machine env).step l st = some st') {user : PlatformAdmin}
    (hreplaces : Replaces env l.1 st.db l.2 user) (hlive : live st.history user.id ≠ none) :
    ChangesPassword env l st user.id ∧ ¬ Revoked st.history user.id st'.db := by
  have hI' := hI.step hstep
  obtain ⟨rfl, -⟩ := step_inv hstep
  obtain ⟨user', admins, outbox, hflush, hid, hhash, -, -, hserve, hevent⟩ :=
    serve_of_replaces hreplaces
  have hfind := hreplaces.found
  have hnext : next env l.1 l.2 st =
      ⟨{ st.db with admins := admins, auditIntents := outbox }, st.history⟩ := by
    rw [next, hserve]
    simp only [hevent, Option.toList_none, List.nil_append]
  have hafter : admins.find? user.id = some user' := by
    rw [Table.find?_flush_loaded hflush hfind hid]
    exact if_pos rfl
  refine ⟨⟨user, user', hfind, by rw [hnext]; exact hafter, hhash⟩, fun hrevoked => ?_⟩
  obtain ⟨tokens, htokens⟩ := Option.ne_none_iff_exists'.mp hlive
  rw [hnext] at hI' hrevoked
  have hlive' : live st.history user'.id = some tokens := by rw [hid, htokens]
  obtain ⟨payload, hmem, hrun⟩ :=
    accepted_of_live hI' (Table.find?_eq_some.mp hafter).1 hlive'
  obtain ⟨e, herror⟩ := hrevoked tokens (mem_of_live htokens) payload hmem
  rw [hrun] at herror
  cases herror

/-! ## Runs -/

/-- Every password change on the way has revoked the tokens issued before it, for good. -/
def ChangesRevoke (env : Env) (t : List (State × (Request × Call))) (s : State) : Prop :=
  ∀ p ∈ t, ∀ admin, ChangesPassword env p.2 p.1 admin → Revoked p.1.history admin s.db

/-- **When password changes revoke.** In a run whose replacements change no password under a
live session, the tokens issued to an admin before a password change are rejected ever after;
and each replacement under a live session changes the password and leaves a token accepted. -/
theorem passwordChange_revokes {t : List (State × (Request × Call))} {s : State}
    (h : (machine env).Run t s) :
    ((∀ p ∈ t, SparesSessions env p.2 p.1) → ChangesRevoke env t s) ∧
    ∀ p ∈ t, ∀ user, Replaces env p.2.1 p.1.db p.2.2 user → live p.1.history user.id ≠ none →
      ChangesPassword env p.2 p.1 user.id ∧
        ¬ Revoked p.1.history user.id (next env p.2.1 p.2.2 p.1).db := by
  constructor
  · intro hok p hp admin hchanges tokens hissued payload hmem
    have hI := Invariant.of_reachable ⟨t, h⟩
    suffices hover : Over s.history admin tokens from hover.rejected hI hmem
    clear hI
    induction h with
    | start => cases hp
    | @step t st l st' hrun hstep ih =>
        have hlast : SparesSessions env l st := hok (st, l) (by simp)
        rcases List.mem_append.mp hp with hp | hp
        · exact (ih (fun q hq => hok q (List.mem_append_left _ hq)) hp).step hstep
        · obtain rfl := List.mem_singleton.mp hp
          exact over_of_changesPassword hstep hlast hchanges hissued
  · intro p hp user hreplaces hlive
    obtain ⟨hreachable, st', hstep⟩ := h.step_of_mem hp
    obtain ⟨rfl, -⟩ := step_inv hstep
    exact not_revoked_of_replaces (Invariant.of_reachable hreachable) hstep hreplaces hlive

end Over

open Administration (sampleEnv sampleState sampleRequest)

/-- An admin is created and logs in. -/
def loginCalls : List (Request × Call) :=
  [(sampleRequest 1, .user (.create
      { name := "admin3", email := "admin3@example.com", password := "Secret-1" })),
    (sampleRequest 2, .login { email := "admin3@example.com", password := "Secret-1" })]

/-- The password is then reset. -/
def resetCalls : List (Request × Call) :=
  loginCalls ++
    [(sampleRequest 3, .generateOtp "admin3@example.com"),
      (sampleRequest 4, .verifyOtp { email := "admin3@example.com", otp := "12345" }),
      (sampleRequest 5, .updatePassword
        { email := "admin3@example.com", newPassword := "Secret-2" })]

theorem init_sampleState : (machine sampleEnv).init ⟨sampleState, []⟩ :=
  ⟨rfl, show ∀ admin ∈ sampleState.admins, admin.currentRefreshJti = none by decide⟩

theorem passwordChange_revokes_resetCalls :
    ∃ t s, (machine sampleEnv).Run t s ∧ t.map Prod.snd = resetCalls ∧
      (s.db.admins.find? (.ofNat 101)).map PlatformAdmin.hashedPassword = some "salt$Secret-2" ∧
      ChangesRevoke sampleEnv t s := by
  have hreset : ((machine sampleEnv).exec resetCalls ⟨sampleState, []⟩).map
      (fun s => (s.db.admins.find? (.ofNat 101)).map PlatformAdmin.hashedPassword) =
        some (some "salt$Secret-2") := by decide +kernel
  obtain ⟨s, hexec, hs⟩ := Option.map_eq_some_iff.mp hreset
  have hrun := Machine.Run.of_exec (.start init_sampleState) hexec
  have hlabels := Machine.map_snd_trace hexec
  refine ⟨_, s, hrun, hlabels, hs, (passwordChange_revokes hrun).1 fun p hp user hreplaces => ?_⟩
  have hcall : p.2 ∈ resetCalls := hlabels ▸ List.mem_map_of_mem hp
  generalize p.2 = l at hcall hreplaces
  exfalso
  simp only [resetCalls, loginCalls, List.cons_append, List.nil_append, List.mem_cons,
    List.not_mem_nil, or_false] at hcall
  rcases hcall with rfl | rfl | rfl | rfl | rfl <;> cases hreplaces

/-- Another password for the admin who is logged in. -/
def sampleReplacement : UserReplace where
  name := "admin3"
  email := "admin3@example.com"
  password := "Secret-2"

/-- **A replacement keeps the session**: the admin has another password afterwards, and the
tokens issued under the old one are accepted. -/
theorem replacement_keeps_session :
    ∃ st st' l admin, (machine sampleEnv).Reachable st ∧
      (machine sampleEnv).step l st = some st' ∧ ChangesPassword sampleEnv l st admin ∧
      ¬ Revoked st.history admin st'.db := by
  let l : Request × Call := (sampleRequest 3, .user (.replace (.ofNat 101) sampleReplacement))
  have hfacts : ((machine sampleEnv).exec loginCalls ⟨sampleState, []⟩).any (fun st =>
      admissible l st && (st.db.admins.find? (.ofNat 101)).any fun user =>
        (decide (user.id = .ofNat 101) && st.db.admins.rows.all fun other =>
          other.id = .ofNat 101 || (other.email ≠ sampleReplacement.email &&
            other.username ≠ sampleReplacement.name)) &&
        decide (sampleEnv.bcrypt.hashPassword "salt" sampleReplacement.password ≠
          user.hashedPassword) && (live st.history user.id).isSome) = true := by decide +kernel
  obtain ⟨st, hexec, hst⟩ := (Option.any_eq_true _ _).mp hfacts
  obtain ⟨hadmissible, huser⟩ := (Bool.and_eq_true _ _).mp hst
  obtain ⟨user, hfind, hprops⟩ := (Option.any_eq_true _ _).mp huser
  simp only [Bool.and_eq_true, decide_eq_true_eq, List.all_eq_true, Bool.or_eq_true] at hprops
  obtain ⟨⟨⟨hid, hfree⟩, hhash⟩, hlive⟩ := hprops
  have hreachable := Machine.reachable_of_exec init_sampleState hexec
  have hstep : (machine sampleEnv).step l st = some (next sampleEnv l.1 l.2 st) := by
    simp only [machine, hadmissible, if_true]
  have hreplaces : Replaces sampleEnv l.1 st.db l.2 user := by
    rw [← hid] at hfind
    show Replaces sampleEnv _ st.db (.user (.replace (.ofNat 101) sampleReplacement)) user
    rw [← hid]
    refine .service hfind (fun other hother hne => ?_) hhash
    rcases hfree other hother with hsame | hother
    · exact absurd (hsame.trans hid.symm) hne
    · exact hother
  have hnone : live st.history user.id ≠ none := Option.isSome_iff_ne_none.mp hlive
  obtain ⟨hchanges, hnot⟩ :=
    not_revoked_of_replaces (Invariant.of_reachable hreachable) hstep hreplaces hnone
  exact ⟨st, _, l, user.id, hreachable, hstep, hchanges, hnot⟩

end Sessions
end AdminPlatform
