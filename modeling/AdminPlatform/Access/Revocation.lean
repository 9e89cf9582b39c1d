import AdminPlatform.Access.LastAdmin
import AdminPlatform.Api.Deps

/-! # Revocation, under concurrent refreshes

Any number of refreshes and one request that revokes the session of an admin (a logout, a
password reset, a deactivation), interleaved statement by statement. A refresh checks the
pointer to the session, queries permissions and roles, and then writes the pointer, whatever
it has become; a revocation clears the same column.

As long as no refresh writes a pointer that has been cleared, the admin has no session once
the revocation is done (`revocation_survives`). A refresh that writes it late brings the
session back (`revoked_session_returns`). -/

namespace AdminPlatform
open AdminPlatform.Lib

namespace Revocation

/-! ## Requests that take turns -/

/-- A request that revokes the session of an admin. -/
inductive Revoker
  /-- Logout through its route. -/
  | logout (req : Request) (token : EncodedToken)
  | updatePassword (req : Request) (payload : UpdatePasswordRequest)
  | deactivation (d : LastAdmin.Deactivation)

def Revoker.program (env : Env) : Revoker → Db Unit
  | .logout req token => Api.logout req (some token)
  | .updatePassword req payload => drop (AuthService.updatePassword env req payload)
  | .deactivation d => d.program

/-- The admin a deactivation is about. -/
def userId : LastAdmin.Deactivation → Uuid
  | .update _ userId _ _ => userId
  | .delete _ userId => userId

/-- A refresh and the token it presents. -/
structure Refresh where
  req : Request
  token : EncodedToken

variable {n : Nat}

/-- Thread `none` revokes, the others refresh. -/
abbrev State (n : Nat) := Program.Threads Sql Failure Database (Option (Fin n))

def threads (env : Env) (revoker : Revoker) (refreshes : Fin n → Refresh) (s : Database) :
    State n where
  shared := s
  thread
    | none => revoker.program env
    | some i => drop (AuthService.refresh env (refreshes i).req (refreshes i).token)

/-- The given threads, taking turns. -/
def machine (start : State n) : Machine (State n) (Option (Fin n)) :=
  Program.interleave exec fun t => t = start

/-! ## The condition -/

/-- A pointer is written only where there is one. -/
def pointed (s : Database) : Write → Bool
  | .updateAdmin loaded current =>
      current.currentRefreshJti.isNone ||
        (s.admins.find? loaded.id).all fun row => row.currentRefreshJti.isSome
  | _ => true

/-- If the statement a thread issues next writes a pointer, the row still has one. -/
def Pointed (t : State n) (i : Option (Fin n)) : Prop :=
  (match t.thread i with
    | .call (.commit w _) _ => pointed t.shared w
    | _ => true) = true

instance (t : State n) (i : Option (Fin n)) : Decidable (Pointed t i) :=
  inferInstanceAs (Decidable (_ = true))

/-- The request is about the account; the token of a logout is of its current session. -/
def Revoker.Targets (account : PlatformAdmin) (s : Database) : Revoker → Prop
  | .logout req token =>
      ∃ payload admin, Api.CallsAs s req.now (some token) payload admin ∧ admin.id = account.id
  | .updatePassword _ payload => payload.email = account.email
  | .deactivation d => userId d = account.id

/-- No refresh writes a pointer that has been cleared, and a logout is checked while the
session it is to end is the current one. -/
def Clean (env : Env) (revoker : Revoker) (account : PlatformAdmin) (t : State n)
    (i : Option (Fin n)) : Prop :=
  Pointed t i ∧
    (i = none → t.thread none = revoker.program env → revoker.Targets account t.shared)

/-! ## What the requests write -/

/-- A write of a new pointer. -/
def SetsPointer (w : Write) : Prop :=
  ∃ loaded current, w = .updateAdmin loaded current ∧ current.email = loaded.email ∧
    current.status = loaded.status ∧ current.currentRefreshJti.isSome

/-- A write that leaves the admins alone. -/
def KeepsAdmins (w : Write) : Prop := ∀ s s', w.apply s = .ok s' → s'.admins = s.admins

/-- Only such writes are left. -/
abbrev Quiet {α : Type} (p : Db α) : Prop := p.Writes KeepsAdmins

theorem keepsAdmins_insertIntent (intent : Audit.AuditIntent) :
    KeepsAdmins (.insertIntent intent) := by
  intro s s' h
  obtain ⟨t, -, rfl⟩ := apply_insertIntent h
  rfl

theorem keepsAdmins_insertHistory (entry : PasswordHistory) :
    KeepsAdmins (.insertHistory entry) := by
  intro s s' h
  obtain ⟨t, -, rfl⟩ := apply_insertHistory h
  rfl

theorem keepsAdmins_trimHistory (adminId : Uuid) (keep : List Uuid) :
    KeepsAdmins (.trimHistory adminId keep) := by
  intro s s' h
  rw [← Except.ok.inj h]

theorem keepsAdmins_deleteOtp (email : String) : KeepsAdmins (.deleteOtp email) := by
  intro s s' h
  rw [← Except.ok.inj h]

theorem quiet_record (req : Request) (e : Audit.AuditEvent) : Quiet (AuditService.record req e) :=
  AuditService.writes_record keepsAdmins_insertIntent req e

theorem writes_requireCurrentSession {W : Write → Prop} (admin : PlatformAdmin)
    (payload : TokenPayload) : (AuthService.requireCurrentSession admin payload).Writes W :=
  ((Db.writes_throw _).when _).bind fun _ => (Db.writes_throw _).when _

theorem writes_getAdminFromPayload {W : Write → Prop} (payload : TokenPayload) :
    (AuthService.getAdminFromPayload payload).Writes W := by
  unfold AuthService.getAdminFromPayload
  split
  · exact Db.writes_throw _
  · refine Db.Writes.bind ?_ fun admin =>
      (writes_requireCurrentSession admin payload).bind fun _ => Db.writes_pure _
    refine (Db.writes_query _).bind fun found => ?_
    cases found
    · exact Db.writes_throw _
    · exact ((Db.writes_throw _).when _).bind fun _ => Db.writes_pure _

/-- **All a refresh writes** is a new pointer. -/
theorem writes_refresh (env : Env) (r : Refresh) :
    (drop (AuthService.refresh env r.req r.token)).Writes SetsPointer := by
  refine Db.Writes.drop ?_
  unfold AuthService.refresh
  split
  · exact Db.writes_throw _
  · refine ((Db.writes_throw _).when _).bind fun _ => ?_
    refine (writes_getAdminFromPayload _).bind fun admin => ?_
    refine Db.Writes.bind ((Db.writes_query _).bind fun _ => Db.writes_pure _) fun permissions => ?_
    have hdecoded : ∀ {α : Type} (o : Option α), (AuthService.orJwtError o).Writes SetsPointer := by
      intro α o
      cases o
      · exact Db.writes_throw _
      · exact Db.writes_pure _
    refine Db.Writes.bind ?_ fun issued => ?_
    · refine Db.Writes.bind ((Db.writes_query _).bind fun _ => Db.writes_pure _) fun roles => ?_
      exact (hdecoded _).bind fun payload => (hdecoded _).bind fun token => Db.writes_pure _
    · exact (Db.writes_save ⟨_, _, rfl, rfl, rfl, rfl⟩ _ _).bind fun _ => Db.writes_pure _

/-! ## What the writes do to the account -/

/-- The account is active and has a session, under its email. -/
def HasSession (account : PlatformAdmin) (s : Database) : Prop :=
  ∃ row, s.admins.find? account.id = some row ∧ row.email = account.email ∧
    row.status = .active ∧ row.currentRefreshJti.isSome

/-- The account has no session. -/
def Revoked (account : PlatformAdmin) (s : Database) : Prop :=
  ∃ row, s.admins.find? account.id = some row ∧ row.currentRefreshJti = none

/-- A write that clears the pointer of the account, as it was read with a session. -/
structure Clears (account loaded current : PlatformAdmin) : Prop where
  id : loaded.id = account.id
  loaded : loaded.currentRefreshJti.isSome
  current : current.currentRefreshJti = none

section Writes
variable {account : PlatformAdmin} {s s' : Database} {w : Write}

/-- What an update leaves of the account's row. -/
theorem find?_updateAdmin {loaded current row : PlatformAdmin}
    (happly : (Write.updateAdmin loaded current).apply s = .ok s')
    (hrow : s.admins.find? account.id = some row) :
    s'.admins.find? account.id = some row ∨
      loaded.id = account.id ∧
        s'.admins.find? account.id = some (Entity.merge loaded current row) := by
  obtain ⟨t, ht, rfl⟩ := apply_updateAdmin happly
  rcases Table.flush_inv ht with ⟨-, rfl⟩ | ⟨stored, hstored, hmem⟩
  · exact .inl hrow
  · obtain ⟨hin, hid⟩ := Table.find?_eq_some.mp hrow
    by_cases hsame : loaded.id = account.id
    · have hstored' : s.admins.find? account.id = some stored := hsame ▸ hstored
      obtain rfl := Option.some.inj (hstored'.symm.trans hrow)
      exact .inr ⟨hsame, Table.find?_eq_some.mpr ⟨(hmem _).mpr (.inl rfl), hid⟩⟩
    · have hne : row.id ≠ loaded.id := fun h => hsame (h.symm.trans hid)
      exact .inl (Table.find?_eq_some.mpr ⟨(hmem _).mpr (.inr ⟨hin, hne⟩), hid⟩)

theorem HasSession.of_admins (h : HasSession account s) (heq : s'.admins = s.admins) :
    HasSession account s' := by
  rwa [HasSession, heq]

theorem Revoked.of_admins (h : Revoked account s) (heq : s'.admins = s.admins) :
    Revoked account s' := by
  rwa [Revoked, heq]

/-- A new pointer in place of another. -/
theorem HasSession.setsPointer (h : HasSession account s) (hw : SetsPointer w)
    (happly : w.apply s = .ok s') : HasSession account s' := by
  obtain ⟨loaded, current, rfl, hemail, hstatus, hpointer⟩ := hw
  obtain ⟨row, hrow, hrowEmail, hactive, hsession⟩ := h
  rcases find?_updateAdmin happly hrow with hsame | ⟨-, hmerged⟩
  · exact ⟨row, hsame, hrowEmail, hactive, hsession⟩
  · refine ⟨_, hmerged, ?_, ?_, ?_⟩
    · show column loaded.email current.email row.email = account.email
      rw [hemail, column_same, hrowEmail]
    · show column loaded.status current.status row.status = .active
      rw [hstatus, column_same, hactive]
    · show (column loaded.currentRefreshJti current.currentRefreshJti
        row.currentRefreshJti).isSome
      unfold column
      split
      · exact hsession
      · exact hpointer

/-- A new pointer where there is one does not come to a revoked account. -/
theorem Revoked.setsPointer (h : Revoked account s) (hw : SetsPointer w)
    (hpointed : pointed s w = true) (happly : w.apply s = .ok s') : Revoked account s' := by
  obtain ⟨loaded, current, rfl, -, -, hpointer⟩ := hw
  obtain ⟨row, hrow, hnone⟩ := h
  rcases find?_updateAdmin happly hrow with hsame | ⟨hid, -⟩
  · exact ⟨row, hsame, hnone⟩
  · rw [pointed, hid, hrow, Option.all_some, hnone, Option.isNone_eq_false_iff.mpr hpointer] at hpointed
    cases hpointed

/-- **Clearing the pointer** revokes the session, whatever the pointer has become. -/
theorem HasSession.clears {loaded current : PlatformAdmin} (h : HasSession account s)
    (hw : Clears account loaded current)
    (happly : (Write.updateAdmin loaded current).apply s = .ok s') : Revoked account s' := by
  obtain ⟨row, hrow, -, -, hsession⟩ := h
  have hchanged : current.currentRefreshJti ≠ loaded.currentRefreshJti := by
    intro heq
    have hloaded := hw.loaded
    rw [← heq, hw.current] at hloaded
    cases hloaded
  obtain ⟨t, ht, rfl⟩ := apply_updateAdmin happly
  rcases Table.flush_inv ht with ⟨heq, -⟩ | ⟨stored, hstored, hmem⟩
  · exact absurd (congrArg _ heq) hchanged
  · have hid : stored.id = account.id := (Table.find?_eq_some.mp hstored).2.trans hw.id
    refine ⟨_, Table.find?_eq_some.mpr ⟨(hmem _).mpr (.inl rfl), hid⟩, ?_⟩
    show column loaded.currentRefreshJti current.currentRefreshJti stored.currentRefreshJti = none
    rw [column_changed _ hchanged, hw.current]

end Writes

/-! ## Programs that are bound to revoke -/

/-- On states in which the account has a session, the program clears its pointer before it
returns, and writes no admin afterwards; `mayFail` says whether it may raise instead. -/
inductive Ends (account : PlatformAdmin) (mayFail : Prop) {α : Type} : Db α → Prop
  | throw {e : Failure} (h : mayFail) : Ends account mayFail (.throw e)
  | query {β : Type} {q : Database → β} {k : Except Failure β → Db α}
      (h : ∀ s, HasSession account s → Ends account mayFail (k (.ok (q s)))) :
      Ends account mayFail (.call (.query q) k)
  | pass {β : Type} {w : Write} {answer : β} {k : Except Failure β → Db α}
      (hw : KeepsAdmins w) (h : ∀ r, Ends account mayFail (k r)) :
      Ends account mayFail (.call (.commit w answer) k)
  | clear {β : Type} {loaded current : PlatformAdmin} {answer : β} {k : Except Failure β → Db α}
      (hw : Clears account loaded current) (hrest : Quiet (k (.ok answer)))
      (hrefused : ∀ e, Ends account mayFail (k (.error e))) :
      Ends account mayFail (.call (.commit (.updateAdmin loaded current) answer) k)
  /-- No other admin has the email and the username, so the write is not refused. -/
  | clearSure {β : Type} {loaded current : PlatformAdmin} {answer : β}
      {k : Except Failure β → Db α} (hw : Clears account loaded current)
      (hrest : Quiet (k (.ok answer))) (hemail : current.email = loaded.email)
      (husername : current.username = loaded.username) :
      Ends account mayFail (.call (.commit (.updateAdmin loaded current) answer) k)

section Ends
variable {account admin : PlatformAdmin} {mayFail : Prop} {α β : Type}

theorem Ends.query_bind {q : Database → α} {f : α → Db β}
    (h : ∀ s, HasSession account s → Ends account mayFail (f (q s))) :
    Ends account mayFail (AdminPlatform.query q >>= f) := .query h

/-- What comes before may raise, but writes no admin. -/
theorem Ends.quiet_bind {p : Db α} {f : α → Db β} (hp : Quiet p)
    (hf : ∀ a, Ends account True (f a)) : Ends account True (p >>= f) := by
  induction p with
  | pure a => exact hf a
  | throw e => exact .throw trivial
  | call c k ih =>
      cases c with
      | query q => exact .query fun s _ => ih _ (hp.2 _)
      | commit w answer => exact .pass hp.1 fun r => ih r (hp.2 r)

/-- What comes after writes no admin. -/
theorem Ends.bind {p : Db α} {f : α → Db β} (hp : Ends account mayFail p)
    (hf : ∀ a, Quiet (f a)) : Ends account mayFail (p >>= f) := by
  show Ends account mayFail (Program.bind p f)
  induction hp with
  | throw h => exact .throw h
  | query _ ih => exact .query ih
  | pass hw _ ih => exact .pass hw ih
  | clear hw hrest _ ih => exact .clear hw (Db.Writes.bind hrest hf) ih
  | clearSure hw hrest hemail husername =>
      exact .clearSure hw (Db.Writes.bind hrest hf) hemail husername

theorem Ends.commit_bind {loaded current : PlatformAdmin} {f : Unit → Db β}
    (hw : Clears account loaded current) (hrest : Quiet (f ())) :
    Ends account True (commit (.updateAdmin loaded current) >>= f) :=
  .clear hw hrest fun _ => .throw trivial

theorem quiet_refresh {γ : Type} [Row γ] (table : Database → Table γ) (k : Row.Key γ) :
    Quiet (refresh table k) := Db.writes_refresh table k

/-- **A password reset** of the account revokes its session, unless it raises. -/
theorem ends_updatePassword (env : Env) (req : Request) {payload : UpdatePasswordRequest}
    (hemail : payload.email = account.email) :
    Ends account True (AuthService.updatePassword env req payload) := by
  unfold AuthService.updatePassword
  refine .query_bind fun s ⟨row, hrow, hrowEmail, hactive, hsession⟩ => ?_
  obtain ⟨hin, hid⟩ := Table.find?_eq_some.mp hrow
  have hfound : s.adminByEmail payload.email = some row :=
    Database.adminByEmail_eq_some.mpr ⟨hin, hrowEmail.trans hemail.symm⟩
  rw [hfound, Option.filter_some_pos (by simpa using hactive)]
  refine .quiet_bind (Db.writes_query _) fun otp => ?_
  refine .quiet_bind ((Db.writes_throw _).when _) fun _ => ?_
  refine .quiet_bind (Db.writes_query _) fun recent => ?_
  refine .quiet_bind ((Db.writes_throw _).when _) fun _ => ?_
  refine .quiet_bind (Db.writes_save (keepsAdmins_insertHistory _) _ _) fun entry => ?_
  refine .quiet_bind ?_ fun _ => ?_
  · refine (Db.writes_query _).bind fun rows => ?_
    dsimp only
    split
    · exact Db.writes_pure _
    · exact Db.writes_commit (keepsAdmins_trimHistory _ _)
  · refine .bind (.commit_bind ⟨hid, hsession, rfl⟩ (quiet_refresh _ _)) fun updated => ?_
    exact (Db.writes_commit (keepsAdmins_deleteOtp _)).bind fun _ => Db.writes_pure _

/-- Loading the admin answers the account's row. -/
theorem Ends.getUser_bind {f : PlatformAdmin → Db β}
    (h : ∀ row, row.id = account.id → row.status = .active → row.currentRefreshJti.isSome →
      Ends account mayFail (f row)) :
    Ends account mayFail (UserService.getUser account.id >>= f) := by
  rw [UserService.getUser, UserRepository.getUser, Program.bind_bind]
  refine .query_bind fun s ⟨row, hrow, _, hactive, hsession⟩ => ?_
  rw [hrow]
  exact h row (Table.find?_eq_some.mp hrow).2 hactive hsession

/-- **A deactivation** of the account revokes its session, unless it raises. -/
theorem ends_deactivation {d : LastAdmin.Deactivation} (hid : userId d = account.id) :
    Ends account True d.program := by
  have hguard : ∀ id, Quiet (UserService.guardLastActiveAdmin id) := fun id =>
    (Db.writes_query _).bind fun _ => (Db.writes_throw _).when _
  cases d with
  | update req userId name email =>
      obtain rfl : userId = account.id := hid
      refine .bind ?_ fun _ => Db.writes_pure _
      refine .getUser_bind fun row hrowId hactive hsession => ?_
      have hdeactivates : UserService.deactivates
          { name := name, email := email, status := some .inactive } row = true := by
        simp [UserService.deactivates, hactive]
      refine .quiet_bind ?_ fun _ => .quiet_bind ((hguard _).when _) fun _ => ?_
      · cases email with
        | none => exact Db.writes_pure _
        | some email =>
            refine (Db.writes_query _).bind fun found => ?_
            cases found
            · exact Db.writes_pure _
            · exact (Db.writes_throw _).when _
      · refine .bind (.commit_bind ⟨hrowId, hsession, ?_⟩ (quiet_refresh _ _)) fun updated => ?_
        · rw [UserService.assignUpdate, hdeactivates, if_pos rfl]
        · exact (quiet_record _ _).bind fun _ => Db.writes_pure _
  | delete req userId =>
      obtain rfl : userId = account.id := hid
      refine .getUser_bind fun row hrowId _ hsession => ?_
      refine .quiet_bind ((hguard _).when _) fun _ => ?_
      exact .commit_bind ⟨hrowId, hsession, rfl⟩ (quiet_record _ _)

/-- What a request does with the row behind its token, once it has read it. -/
def validated (payload : TokenPayload) : Option PlatformAdmin → Db PlatformAdmin
  | none => raise .authentication
  | some admin => do
      when (admin.status ≠ .active) (raise .accountInactive)
      AuthService.requireCurrentSession admin payload
      return admin

theorem validated_accepted {s : Database} {payload : TokenPayload}
    (haccepts : AuthService.Accepts s payload admin) : validated payload (some admin) = pure admin := by
  obtain ⟨-, -, hactive, hkind, hcurrent, hpresented⟩ := haccepts
  have hsession : AuthService.requireCurrentSession admin payload = pure () := by
    rw [AuthService.requireCurrentSession, hpresented]
    have hpointer : admin.currentRefreshJti ≠ none := Option.isSome_iff_ne_none.mp hcurrent
    simp [hpointer, hkind, when]
    rfl
  rw [validated, hactive, hsession]
  rfl

theorem getCurrentAdmin_eq {s : Database} {req : Request} {token : EncodedToken}
    {payload : TokenPayload} (hcalls : Api.CallsAs s req.now (some token) payload admin) :
    Api.getCurrentAdmin req (some token) =
      AdminPlatform.query (fun s => s.admins.find? admin.id) >>= validated payload := by
  obtain ⟨⟨_, ⟨⟩, hdecode⟩, haccess, haccepts⟩ := hcalls
  have hpayload : Api.accessTokenPayload req (some token) = pure payload := by
    rw [Api.accessTokenPayload, Option.bind_some, hdecode]
    simp [haccess, when]
    rfl
  rw [Api.getCurrentAdmin, hpayload]
  show AuthService.getAdminFromPayload payload = _
  rw [AuthService.getAdminFromPayload, haccepts.userId]
  dsimp only
  rw [AuthService.getAdminById, AuthRepository.getAdminById, Option.filter_none, Program.bind_bind]
  refine congrArg _ (funext fun found => ?_)
  cases found
  · rfl
  · rw [Program.bind_bind]
    rfl

/-- **A logout whose token is accepted** revokes the session: no constraint refuses to clear
the pointer. -/
theorem logout_query {s : Database} {req : Request} {token : EncodedToken}
    {payload : TokenPayload} (hcalls : Api.CallsAs s req.now (some token) payload admin)
    (hid : admin.id = account.id) :
    ∃ f, Api.logout req (some token) =
        AdminPlatform.query (fun s => s.admins.find? admin.id) >>= f ∧
      Ends account False (f (s.admins.find? admin.id)) := by
  obtain ⟨⟨_, ⟨⟩, hdecode⟩, haccess, haccepts⟩ := id hcalls
  have hheld : AuthRepository.getAdminById admin.id (some admin) = pure (some admin) := by
    simp [AuthRepository.getAdminById, Option.filter]
  rw [Api.logout, getCurrentAdmin_eq hcalls, Program.bind_bind]
  refine ⟨_, rfl, ?_⟩
  rw [haccepts.found, validated_accepted haccepts]
  show Ends account False (AuthService.logout req token (some admin) >>= _)
  refine .bind ?_ fun _ => quiet_record _ _
  rw [AuthService.logout, hdecode]
  simp only [haccess, ne_eq, not_true_eq_false, decide_false, AuthService.clearCurrentSession,
    haccepts.userId, hheld]
  show Ends account False (AuthRepository.saveAdmin admin _ >>= fun _ => pure ())
  refine .bind (.clearSure ⟨hid, haccepts.current, rfl⟩ (quiet_refresh _ _) rfl rfl) fun _ => ?_
  exact Db.writes_pure _

/-- **One turn of the revoking request**: the account keeps its session, or the request
revokes it and writes no admin afterwards. -/
theorem Ends.turn {t t' : State n} (hends : Ends account mayFail (t.thread none))
    (hsession : HasSession account t.shared) (hturn : Program.turn exec none t = some t') :
    ∃ rest, t'.thread = Function.update t.thread none rest ∧
      ((HasSession account t'.shared ∧ Ends account mayFail rest) ∨
        (Revoked account t'.shared ∧ Quiet rest)) := by
  obtain ⟨γ, c, k, hthread, hshared, hnext⟩ := Program.turn_inv hturn
  rw [hthread] at hends
  refine ⟨_, hnext, ?_⟩
  rw [hshared]
  cases hends with
  | query h => exact .inl ⟨hsession, h _ hsession⟩
  | @pass _ w answer _ hw h =>
      rw [exec]
      cases happly : w.apply t.shared with
      | error e => exact .inl ⟨hsession, h _⟩
      | ok s' => exact .inl ⟨hsession.of_admins (hw _ _ happly), h _⟩
  | @clear _ loaded current answer _ hw hrest hrefused =>
      rw [exec]
      cases happly : (Write.updateAdmin loaded current).apply t.shared with
      | error e => exact .inl ⟨hsession, hrefused _⟩
      | ok s' => exact .inr ⟨hsession.clears hw happly, hrest⟩
  | @clearSure _ loaded current answer _ hw hrest hemail husername =>
      obtain ⟨row, hrow, -⟩ := id hsession
      obtain ⟨admins, hflush⟩ := exists_flushAdmin (hw.id ▸ hrow) hemail husername
      have happly : (Write.updateAdmin loaded current).apply t.shared =
          .ok { t.shared with admins := admins } := by
        rw [Write.apply, hflush]
        rfl
      rw [exec, happly]
      exact .inr ⟨hsession.clears hw happly, hrest⟩

end Ends

/-! ## Runs -/

/-- Whether the request may be refused although it is about the account. -/
def Revoker.Fallible : Revoker → Prop
  | .logout .. => False
  | _ => True

/-- What a run keeps: the account has a session and the revoking request is bound to end it,
or it has none and no pointer will be written but by a refresh. -/
structure Sound (env : Env) (revoker : Revoker) (account : PlatformAdmin) (t : State n) :
    Prop where
  refreshes : ∀ i, Db.Writes SetsPointer (t.thread (some i))
  account :
    (HasSession account t.shared ∧
        (Ends account revoker.Fallible (t.thread none) ∨
          ¬ revoker.Fallible ∧ t.thread none = revoker.program env)) ∨
      (Revoked account t.shared ∧ Quiet (t.thread none))

section Runs
variable {env : Env} {revoker : Revoker} {account : PlatformAdmin}

theorem sound_threads {refreshes : Fin n → Refresh} {s : Database}
    (hsession : HasSession account s) (htargets : revoker.Targets account s) :
    Sound env revoker account (threads env revoker refreshes s) := by
  refine ⟨fun i => writes_refresh env _, .inl ⟨hsession, ?_⟩⟩
  cases revoker with
  | logout req token => exact .inr ⟨id, rfl⟩
  | updatePassword req payload =>
      exact .inl ((ends_updatePassword env req htargets).bind fun _ => Db.writes_pure _)
  | deactivation d => exact .inl (ends_deactivation htargets)

/-- A turn of a refresh. -/
theorem Sound.turn_refresh {t t' : State n} {i : Fin n} (h : Sound env revoker account t)
    (hpointed : Pointed t (some i)) (hturn : Program.turn exec (some i) t = some t') :
    Sound env revoker account t' := by
  obtain ⟨rest, hrest, hthread, hshared⟩ := (h.refreshes i).turn_inv hturn
  have hnone : t'.thread none = t.thread none := by
    rw [hthread, Function.update_of_ne (by simp)]
  refine ⟨fun j => ?_, ?_⟩
  · rw [hthread, Function.update_apply]
    split
    · exact hrest
    · exact h.refreshes j
  · rw [hnone]
    rcases hshared with hsame | ⟨γ, w, answer, k, hcommit, hw, happly⟩
    · rw [hsame]
      exact h.account
    · rcases h.account with ⟨hsession, hends⟩ | ⟨hrevoked, hquiet⟩
      · exact .inl ⟨hsession.setsPointer hw happly, hends⟩
      · rw [Pointed, hcommit] at hpointed
        exact .inr ⟨hrevoked.setsPointer hw hpointed happly, hquiet⟩

/-- A turn of the revoking request. -/
theorem Sound.turn_revoker {t t' : State n} (h : Sound env revoker account t)
    (htargets : t.thread none = revoker.program env → revoker.Targets account t.shared)
    (hturn : Program.turn exec none t = some t') : Sound env revoker account t' := by
  have hothers : ∀ rest, t'.thread = Function.update t.thread none rest →
      ∀ j, Db.Writes SetsPointer (t'.thread (some j)) := by
    intro rest hthread j
    rw [hthread, Function.update_of_ne (by simp)]
    exact h.refreshes j
  rcases h.account with ⟨hsession, hends | ⟨hsure, hstart⟩⟩ | ⟨hrevoked, hquiet⟩
  · obtain ⟨rest, hthread, hrest⟩ := hends.turn hsession hturn
    refine ⟨hothers rest hthread, ?_⟩
    rw [hthread, Function.update_self]
    exact hrest.imp_left fun ⟨hs, he⟩ => ⟨hs, .inl he⟩
  · cases revoker with
    | updatePassword req payload => exact absurd trivial hsure
    | deactivation d => exact absurd trivial hsure
    | logout req token =>
        obtain ⟨payload, admin, hcalls, hid⟩ := htargets hstart
        obtain ⟨f, hf, hends⟩ := logout_query hcalls hid
        obtain rfl := Option.some.inj ((Db.turn_query (hstart.trans hf)).symm.trans hturn)
        refine ⟨hothers _ rfl, .inl ⟨hsession, .inl ?_⟩⟩
        show Ends account False (Function.update t.thread none _ none)
        rw [Function.update_self]
        exact hends
  · obtain ⟨rest, hrest, hthread, hshared⟩ := hquiet.turn_inv hturn
    refine ⟨hothers rest hthread, .inr ⟨?_, ?_⟩⟩
    · rcases hshared with hsame | ⟨γ, w, answer, k, -, hw, happly⟩
      · rwa [hsame]
      · exact hrevoked.of_admins (hw _ _ happly)
    · rw [hthread, Function.update_self]
      exact hrest

/-- What holds throughout a run whose steps meet the condition. -/
theorem sound_of_run {refreshes : Fin n → Refresh} {s : Database} (hsession : HasSession account s)
    (htargets : revoker.Targets account s) {trace : List (State n × Option (Fin n))} {t : State n}
    (h : (machine (threads env revoker refreshes s)).Run trace t)
    (hclean : ∀ p ∈ trace, Clean env revoker account p.1 p.2) : Sound env revoker account t := by
  refine h.invariant_while (I := Sound env revoker account) ?_ ?_ hclean
  · rintro _ rfl
    exact sound_threads hsession htargets
  · intro u i u' hsound hok hturn
    cases i with
    | none => exact hsound.turn_revoker (hok.2 rfl) hturn
    | some i => exact hsound.turn_refresh hok.1 hturn

/-- A program bound to revoke that has ended has raised. -/
theorem Ends.not_returned {mayFail : Prop} {p : Db Unit} (h : Ends account mayFail p)
    (hended : p.Ended) : mayFail ∧ ¬ p.Returned := by
  cases h with
  | throw hmay => exact ⟨hmay, id⟩
  | query _ => exact absurd hended id
  | pass _ _ => exact absurd hended id
  | clear _ _ _ => exact absurd hended id
  | clearSure _ _ _ _ => exact absurd hended id

/-! ## What is left of the session -/

/-- No token of the account is accepted. -/
def Rejects (account : PlatformAdmin) (s : Database) : Prop :=
  ∀ payload : TokenPayload, payload.userId = some account.id →
    (AuthService.getAdminFromPayload payload).Refused s

/-- No token of the account is accepted, now or after an update of the admin. -/
def Survives (account : PlatformAdmin) (s : Database) : Prop :=
  Rejects account s ∧
    ∀ (req : Request) (data : UserUpdate) r s',
      (UserService.updateUser req account.id data).run s = (r, s') → Rejects account s'

theorem Revoked.rejects {s : Database} (h : Revoked account s) : Rejects account s := by
  intro payload huser
  rcases AuthService.getAdminFromPayload_reads payload s with hrefused | ⟨admin, -, haccepts⟩
  · exact hrefused
  · obtain ⟨row, hrow, hnone⟩ := h
    have hid : admin.id = account.id := Option.some.inj (haccepts.userId.symm.trans huser)
    have hfound := haccepts.found
    rw [hid, hrow] at hfound
    obtain rfl := Option.some.inj hfound
    have hcurrent := haccepts.current
    rw [hnone] at hcurrent
    cases hcurrent

theorem Revoked.survives {s : Database} (h : Revoked account s) : Survives account s := by
  refine ⟨h.rejects, fun req data r s' hrun => ?_⟩
  rcases UserService.run_updateUser_inv hrun with ⟨-, rfl⟩ |
    ⟨user, admins, outbox, hfind, -, hflush, -, rfl⟩
  · exact h.rejects
  · obtain ⟨row, hrow, hnone⟩ := h
    obtain rfl := Option.some.inj (hrow.symm.trans hfind)
    have hid : row.id = account.id := (Table.find?_eq_some.mp hrow).2
    have hloaded : s.admins.find? row.id = some row := hid ▸ hrow
    have hrevoked : Revoked account
        { s with admins := admins, auditIntents := outbox } := by
      refine ⟨UserService.assignUpdate data row, ?_, ?_⟩
      · have hfound := Table.find?_flush_loaded hflush hloaded rfl row.id
        simpa [← hid] using hfound
      · rw [UserService.assignUpdate, hnone, ite_self]
    exact hrevoked.rejects

/-- **Revocation survives concurrent refreshes** in every run in which no refresh writes a
pointer that has been cleared, and a logout is checked while the session it is to end is the
current one: once the revocation is done, no token of the account is accepted, whatever the
refreshes have issued. -/
theorem revocation_survives {refreshes : Fin n → Refresh} {s : Database}
    (hsession : HasSession account s) (htargets : revoker.Targets account s)
    {trace : List (State n × Option (Fin n))} {t : State n}
    (h : (machine (threads env revoker refreshes s)).Run trace t)
    (hclean : ∀ p ∈ trace, Clean env revoker account p.1 p.2) (hended : (t.thread none).Ended)
    (hreturned : revoker.Fallible → (t.thread none).Returned) : Survives account t.shared := by
  rcases (sound_of_run hsession htargets h hclean).account with
    ⟨-, hends | ⟨hsure, hstart⟩⟩ | ⟨hrevoked, -⟩
  · obtain ⟨hmay, hnot⟩ := hends.not_returned hended
    exact absurd (hreturned hmay) hnot
  · cases revoker with
    | updatePassword req payload => exact absurd trivial hsure
    | deactivation d => exact absurd trivial hsure
    | logout req token =>
        obtain ⟨payload, admin, hcalls, hid⟩ := htargets
        obtain ⟨f, hf, -⟩ := logout_query hcalls hid
        rw [hstart.trans hf] at hended
        exact absurd hended id
  · exact hrevoked.survives

end Runs

/-! ## A session that comes back -/

open Administration (sampleEnv sampleState sampleRequest)

/-- An admin has been created and has logged in. -/
def sampleSession : Database :=
  ((AuthService.login sampleEnv (sampleRequest 2)
    { email := "admin3@example.com", password := "Secret-1" }).run
      ((UserService.createUser sampleEnv (sampleRequest 1)
        { name := "admin3", email := "admin3@example.com", password := "Secret-1" }).run
          sampleState).2).2

def sampleAccount : PlatformAdmin := Administration.sampleAdmin 101 "admin3" "admin3@example.com"

/-- The access token of that login. -/
def sampleToken : EncodedToken :=
  .signed
    { userId := some (.ofNat 101), jti := (Uuid.ofNat 402).str, exp := 1202, type := "access"
      extra := some
        { rjti := (Uuid.ofNat 302).str, rexp := 604802
          email := "admin3@example.com", username := "admin3", roles := ["super_admin"]
          permissions := ["S1.R", "S1.W", "S2.R", "S3.R", "S3.W", "S4.R", "S4.W"] } }

/-- A refresh that presents the refresh token of that login. -/
def sampleRefresh (_ : Fin 1) : Refresh where
  req := sampleRequest 3
  token := .signed
    { userId := some (.ofNat 101), jti := (Uuid.ofNat 302).str, exp := 604802, type := "refresh"
      extra := none }

/-- The token the refresh issues. -/
def issuedPayload : TokenPayload where
  userId := some (.ofNat 101)
  jti := (Uuid.ofNat 303).str
  exp := 604803
  type := "refresh"
  extra := none

theorem hasSession_sampleSession : HasSession sampleAccount sampleSession := by
  have hrow : (sampleSession.admins.find? sampleAccount.id).map
      (fun row => (row.email, row.status, row.currentRefreshJti.isSome)) =
        some ("admin3@example.com", .active, true) := by decide +kernel
  obtain ⟨row, hfind, hcolumns⟩ := Option.map_eq_some_iff.mp hrow
  obtain ⟨hemail, hstatus, hpointer⟩ := by simpa only [Prod.mk.injEq] using hcolumns
  exact ⟨row, hfind, hemail, hstatus, hpointer⟩

/-- A deactivation of the admin against the refresh. -/
def sampleDeactivation : State 1 :=
  threads sampleEnv (.deactivation (.delete (sampleRequest 4) (.ofNat 101))) sampleRefresh
    sampleSession

/-- Both read, the refresh writes, and then the deactivation does. -/
def refreshFirst : List (Option (Fin 1)) :=
  [some 0, some 0, some 0, none, none, some 0, some 0, none, none, none]

theorem revocation_survives_refreshFirst :
    ∃ trace t, (machine sampleDeactivation).Run trace t ∧ trace.map Prod.snd = refreshFirst ∧
      Survives sampleAccount t.shared := by
  obtain ⟨t, hexec⟩ : ∃ t, (machine sampleDeactivation).exec refreshFirst sampleDeactivation =
      some t := Option.isSome_iff_exists.mp (by decide +kernel)
  have hended : ((machine sampleDeactivation).exec refreshFirst sampleDeactivation).map
      (fun t => decide ((t.thread none).Ended ∧ (t.thread none).Returned)) = some true := by
    decide +kernel
  rw [hexec] at hended
  obtain ⟨hended, hreturned⟩ := of_decide_eq_true (Option.some.inj hended)
  have hpointed : ∀ p ∈ (machine sampleDeactivation).trace refreshFirst sampleDeactivation,
      Pointed p.1 p.2 := by decide +kernel
  have hrun := Machine.Run.of_exec (.start rfl) hexec
  refine ⟨_, t, hrun, Machine.map_snd_trace hexec, ?_⟩
  have htargets : ∀ s,
      (Revoker.deactivation (.delete (sampleRequest 4) (.ofNat 101))).Targets sampleAccount s :=
    fun _ => rfl
  exact revocation_survives hasSession_sampleSession (htargets _) hrun
    (fun p hp => ⟨hpointed p hp, fun _ _ => htargets _⟩) hended fun _ => hreturned

/-- A logout of the session against the refresh. -/
def sampleLogout : State 1 :=
  threads sampleEnv (.logout (sampleRequest 4) sampleToken) sampleRefresh sampleSession

/-- The refresh reads, the logout reads and writes, and then the refresh writes. -/
def logoutFirst : List (Option (Fin 1)) :=
  [some 0, some 0, some 0, none, none, none, none, none, some 0, some 0]

theorem targets_sampleLogout :
    (Revoker.logout (sampleRequest 4) sampleToken).Targets sampleAccount sampleSession := by
  have hcaller : ((Api.getCurrentAdmin (sampleRequest 4) (some sampleToken)).run
      sampleSession).1.toOption.map PlatformAdmin.id = some sampleAccount.id := by decide +kernel
  rcases Api.getCurrentAdmin_reads (sampleRequest 4) (some sampleToken) sampleSession
    with ⟨e, hrun⟩ | ⟨admin, hrun, payload, hcalls⟩
  · rw [hrun] at hcaller
    cases hcaller
  · rw [hrun] at hcaller
    exact ⟨payload, admin, hcalls, Option.some.inj hcaller⟩

/-- **A revoked session returns**: the logout has succeeded, and the token of the refresh is
accepted. -/
theorem revoked_session_returns :
    HasSession sampleAccount sampleSession ∧
      (Revoker.logout (sampleRequest 4) sampleToken).Targets sampleAccount sampleSession ∧
      ∃ trace t, (machine sampleLogout).Run trace t ∧ (∀ i, (t.thread i).Ended) ∧
        (t.thread none).Returned ∧ ¬ Survives sampleAccount t.shared := by
  obtain ⟨t, hexec⟩ : ∃ t, (machine sampleLogout).exec logoutFirst sampleLogout = some t :=
    Option.isSome_iff_exists.mp (by decide +kernel)
  have hfacts : ((machine sampleLogout).exec logoutFirst sampleLogout).map
      (fun t => (decide ((t.thread none).Returned ∧ ∀ i, (t.thread (some i)).Ended),
        ((AuthService.getAdminFromPayload issuedPayload).run t.shared).1.toOption.isSome)) =
          some (true, true) := by decide +kernel
  rw [hexec] at hfacts
  obtain ⟨hended, haccepted⟩ := Prod.mk.inj (Option.some.inj hfacts)
  obtain ⟨hreturned, hended⟩ := of_decide_eq_true hended
  refine ⟨hasSession_sampleSession, targets_sampleLogout, _, t,
    Machine.Run.of_exec (.start rfl) hexec, fun i => ?_, hreturned, fun hsurvives => ?_⟩
  · cases i with
    | none => exact hreturned.ended
    | some i => exact hended i
  · obtain ⟨e, hrefused⟩ := hsurvives.1 issuedPayload rfl
    rw [hrefused] at haccepted
    cases haccepted

end Revocation
end AdminPlatform
