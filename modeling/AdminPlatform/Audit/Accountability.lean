import AdminPlatform.Access.Mediation

/-! # The trail says who did what, and only what was done

Requests to all routes take turns, and any statement may fail. Every intent that is in the
outbox of a state they reach, and was not there at the start, was recorded by one of the
requests; it names the admin that the token of that request was accepted for, or the email the
request claims where it bears no token; and an action that it reports as done was committed by
that request before (`outbox_accountable`). -/

namespace AdminPlatform
open AdminPlatform.Lib

namespace Api
variable {env : Env} {encode : EncodedToken → String} {req : Request} {past : Past}

/-! ## Who -/

/-- The token a request bears in order to be served. -/
def Call.bears : Call → Option (Option EncodedToken)
  | .logout credentials => some credentials
  | call => call.guard.map Prod.fst

/-- The email of a request before authentication. -/
def Call.claims : Call → Option String
  | .login credentials => some credentials.email
  | .generateOtp email => some email
  | .verifyOtp payload => some payload.email
  | .updatePassword payload => some payload.email
  | _ => none

/-- The audit actor of a request. -/
inductive Attributed (req : Request) (past : Past) : Call → Option Audit.AuditActor → Prop
  | caller {call credentials admin} : Call.bears call = some credentials →
      Authenticated req credentials past admin →
      Attributed req past call (some ⟨admin.email, ActorType.admin.value⟩)
  | claimed {call email} : Call.claims call = some email →
      Attributed req past call (some ⟨email, ActorType.admin.value⟩)
  /-- A refresh is recorded under no actor of its own. -/
  | refresh {token} : Attributed req past (.refresh token) req.actor

/-! ## What -/

/-- What the request has committed, or found, before it records an action on a resource. -/
def Evidence (req : Request) (call : Call) (past : Past) (resourceId : Option String) :
    AuditAction → Prop
  | .userCreate => ∃ admin, past.Wrote (.insertAdmin admin) ∧ resourceId = some admin.id.str
  | .userUpdate | .userReplace => ∃ loaded current, past.Wrote (.updateAdmin loaded current) ∧
      resourceId = some loaded.id.str
  | .userDelete => ∃ loaded current, past.Wrote (.updateAdmin loaded current) ∧
      current.status = .inactive ∧ resourceId = some loaded.id.str
  | .roleCreate => ∃ role rows, past.Wrote (.insertRole role rows) ∧
      resourceId = some role.id.str
  | .roleUpdate => ∃ loaded current rows, past.Wrote (.updateRole loaded current rows) ∧
      resourceId = some loaded.id.str
  | .roleDelete => ∃ loaded current rows, past.Wrote (.updateRole loaded current rows) ∧
      current.status = .inactive ∧ resourceId = some loaded.id.str
  | .screenCreate => ∃ screen row, past.Wrote (.insertScreen screen row)
  | .screenUpdate => ∃ loaded current, past.Wrote (.updateScreen loaded current)
  | .screenDelete => ∃ loaded current, past.Wrote (.updateScreen loaded current) ∧
      current.status = .inactive ∧ resourceId = some loaded.code
  | .loginSuccess => ∃ loaded current, past.Wrote (.updateAdmin loaded current) ∧
      current.currentRefreshJti = some req.refreshJti.str ∧ resourceId = some loaded.email
  | .refreshSuccess => ∃ loaded current, past.Wrote (.updateAdmin loaded current) ∧
      current.currentRefreshJti = some req.refreshJti.str
  | .logout => ∃ loaded current, past.Wrote (.updateAdmin loaded current) ∧
      current.currentRefreshJti = none ∧ resourceId = some loaded.email
  | .otpVerifySuccess => ∃ row : PasswordResetOtp,
      past.Wrote (.updateOtp row { row with verified := true }) ∧ resourceId = some row.email
  | .passwordResetSuccess => ∃ loaded current, past.Wrote (.updateAdmin loaded current) ∧
      past.Wrote (.deleteOtp loaded.email) ∧ resourceId = some loaded.email
  | .exportGenerated => ∃ entry, past.Wrote (.insertExport entry) ∧
      resourceId = some entry.id.str
  | .exportDownloaded => ∃ credentials exportId queries caller entry,
      call = .downloadExport credentials exportId queries ∧
      Authenticated req credentials past caller ∧
      ExportService.Owned exportId caller.email past entry ∧ resourceId = some exportId.str
  | .accessDenied => ∃ credentials required admin,
      call.guard = some (credentials, required) ∧ Denied req credentials required past admin
  | _ => True

/-- What an intent owes to the request that recorded it. -/
structure Accountable (req : Request) (call : Call) (past : Past) (intent : Audit.AuditIntent) :
    Prop where
  recorded : ∃ actor event, intent = AuditService.intent { req with actor := actor } event ∧
    Attributed req past call actor
  truthful : ∃ action : AuditAction, intent.payload.action = action.value ∧
    Evidence req call past intent.payload.resourceId action

/-- The request has recorded the intent, and was accountable for it by then. -/
def Recorded (req : Request) (call : Call) (past : Past) (intent : Audit.AuditIntent) : Prop :=
  ∃ before, past.WroteAfter before (.insertIntent intent) ∧ Accountable req call before intent

theorem Recorded.mono {call : Call} {later : Past} {intent : Audit.AuditIntent}
    (h : Recorded req call past intent) (hlater : past <:+ later) :
    Recorded req call later intent := by
  obtain ⟨before, hwrote, haccountable⟩ := h
  exact ⟨before, hwrote.mono hlater, haccountable⟩

section
variable {call : Call}

theorem guard_bears {credentials : Option EncodedToken} {required : PermissionName}
    (h : call.guard = some (credentials, required)) : call.bears = some credentials := by
  cases call with
  | logout _ => cases h
  | _ => simp only [Call.bears, h, Option.map_some]

/-- A request of who may write users. -/
theorem accountable_users {credentials : Option EncodedToken} {op : UserService.Op}
    {admin : PlatformAdmin} {intent : Audit.AuditIntent}
    (hgranted : Granted req credentials .usersWrite past admin)
    (h : UserService.Op.Lawful env (actingAs req admin) past op (.insertIntent intent)) :
    Accountable req (.users credentials op) past intent := by
  have hactor : Attributed req past (.users credentials op) (actingAs req admin).actor :=
    .caller rfl (Checked.authenticated hgranted)
  cases h with
  | created hwrote hid =>
      exact ⟨⟨_, _, rfl, hactor⟩, .userCreate, rfl, _, hwrote, congrArg (fun id => some (Uuid.str id)) hid⟩
  | updated hid hwrote => exact ⟨⟨_, _, rfl, hactor⟩, .userUpdate, rfl, _, _, hwrote, rfl⟩
  | replaced hid hwrote => exact ⟨⟨_, _, rfl, hactor⟩, .userReplace, rfl, _, _, hwrote, rfl⟩
  | deleted hid hwrote =>
      exact ⟨⟨_, _, rfl, hactor⟩, .userDelete, rfl, _, _, hwrote, rfl, by rw [hid]; rfl⟩

theorem accountable_roles {credentials : Option EncodedToken} {op : RoleService.Op}
    {admin : PlatformAdmin} {intent : Audit.AuditIntent}
    (hgranted : Granted req credentials .rolesWrite past admin)
    (h : RoleService.Op.Lawful (actingAs req admin) past op (.insertIntent intent)) :
    Accountable req (.roles credentials op) past intent := by
  have hactor : Attributed req past (.roles credentials op) (actingAs req admin).actor :=
    .caller rfl (Checked.authenticated hgranted)
  cases h with
  | created hwrote hid =>
      exact ⟨⟨_, _, rfl, hactor⟩, .roleCreate, rfl, _, _, hwrote, congrArg (fun id => some (Uuid.str id)) hid⟩
  | updated hid hwrote =>
      exact ⟨⟨_, _, rfl, hactor⟩, .roleUpdate, rfl, _, _, _, hwrote, by rw [hid]; rfl⟩
  | deleted hid hwrote =>
      exact ⟨⟨_, _, rfl, hactor⟩, .roleDelete, rfl, _, _, _, hwrote, rfl, by rw [hid]; rfl⟩

theorem accountable_screens {credentials : Option EncodedToken} {op : ScreenService.Op}
    {admin : PlatformAdmin} {intent : Audit.AuditIntent}
    (hgranted : Granted req credentials .screensWrite past admin)
    (h : ScreenService.Op.Lawful (actingAs req admin) past op (.insertIntent intent)) :
    Accountable req (.screens credentials op) past intent := by
  have hactor : Attributed req past (.screens credentials op) (actingAs req admin).actor :=
    .caller rfl (Checked.authenticated hgranted)
  cases h with
  | created hwrote hid => exact ⟨⟨_, _, rfl, hactor⟩, .screenCreate, rfl, _, _, hwrote⟩
  | updated hid hwrote _ => exact ⟨⟨_, _, rfl, hactor⟩, .screenUpdate, rfl, _, _, hwrote⟩
  | deleted hid hwrote =>
      exact ⟨⟨_, _, rfl, hactor⟩, .screenDelete, rfl, _, _, hwrote, rfl, rfl⟩

/-- The routes before authentication, and logout. -/
theorem accountable_auth {intent : Audit.AuditIntent}
    (h : Lawful env encode req past call (.insertIntent intent)) (hguard : call.guard = none) :
    Accountable req call past intent := by
  cases h with
  | @login credentials _ h =>
      have hactor : Attributed req past (.login credentials)
          (claimedActor req credentials.email .admin).actor := .claimed rfl
      cases h with
      | failed exc =>
          refine ⟨⟨_, _, rfl, hactor⟩, loginFailureAction exc, rfl, ?_⟩
          cases exc <;> trivial
      | succeeded hemail hwrote =>
          exact ⟨⟨_, _, rfl, hactor⟩, .loginSuccess, rfl, _, _, hwrote, rfl, by rw [hemail]; rfl⟩
  | refresh h =>
      cases h with
      | failed exc => exact ⟨⟨req.actor, _, rfl, .refresh⟩, .refreshFailure, rfl, trivial⟩
      | succeeded hwrote =>
          exact ⟨⟨req.actor, _, rfl, .refresh⟩, .refreshSuccess, rfl, _, _, hwrote, rfl⟩
  | @generateOtp email _ h =>
      have hactor : Attributed req past (.generateOtp email)
          (claimedActor req email .admin).actor := .claimed rfl
      cases h with
      | throttled => exact ⟨⟨_, _, rfl, hactor⟩, .otpThrottled, rfl, trivial⟩
      | answered => exact ⟨⟨_, _, rfl, hactor⟩, .otpRequested, rfl, trivial⟩
  | @verifyOtp payload _ h =>
      have hactor : Attributed req past (.verifyOtp payload)
          (claimedActor req payload.email .admin).actor := .claimed rfl
      cases h with
      | failed exc => exact ⟨⟨_, _, rfl, hactor⟩, .otpVerifyFailure, rfl, trivial⟩
      | succeeded hemail hwrote =>
          exact ⟨⟨_, _, rfl, hactor⟩, .otpVerifySuccess, rfl, _, hwrote, by rw [hemail]; rfl⟩
  | @updatePassword payload _ h =>
      have hactor : Attributed req past (.updatePassword payload)
          (claimedActor req payload.email .admin).actor := .claimed rfl
      cases h with
      | failed exc => exact ⟨⟨_, _, rfl, hactor⟩, .passwordResetFailure, rfl, trivial⟩
      | succeeded hemail hwrote hspent =>
          exact ⟨⟨_, _, rfl, hactor⟩, .passwordResetSuccess, rfl, _, _, hwrote,
            by rwa [hemail], by rw [hemail]; rfl⟩
  | logout h =>
      cases h with
      | recorded hauthenticated hwrote =>
          exact ⟨⟨_, _, rfl, .caller rfl hauthenticated⟩, .logout, rfl, _, _, hwrote, rfl, rfl⟩
  | denied hown _ => cases hown.symm.trans hguard
  | users => cases hguard
  | roles => cases hguard
  | screens => cases hguard
  | auditRead => cases hguard
  | createExport => cases hguard
  | downloadExport => cases hguard
  | generateTask h => cases h

/-- **A lawful intent is accountable.** -/
theorem accountable_of_lawful {intent : Audit.AuditIntent}
    (h : Lawful env encode req past call (.insertIntent intent)) :
    Accountable req call past intent := by
  cases hguard : call.guard with
  | none => exact accountable_auth h hguard
  | some _ =>
      cases h with
      | denied hown hdenied =>
          refine ⟨⟨_, _, rfl, .caller (guard_bears hown) hdenied.1.authenticated⟩, .accessDenied,
            rfl, _, _, _, hown, hdenied⟩
      | users hgranted hw => exact accountable_users hgranted hw
      | roles hgranted hw => exact accountable_roles hgranted hw
      | screens hgranted hw => exact accountable_screens hgranted hw
      | auditRead hgranted =>
          exact ⟨⟨_, _, rfl, .caller rfl (Checked.authenticated hgranted)⟩, .auditRead, rfl,
            trivial⟩
      | createExport hgranted hw =>
          cases hw with
          | created hwrote =>
              exact ⟨⟨_, _, rfl, .caller rfl (Checked.authenticated hgranted)⟩, .exportGenerated,
                rfl, _, hwrote, rfl⟩
      | downloadExport hgranted hw =>
          cases hw with
          | served howned _ hid _ =>
              have hcaller := Checked.authenticated hgranted
              exact ⟨⟨_, _, rfl, .caller rfl hcaller⟩, .exportDownloaded, rfl, _, _, _, _, _, rfl,
                hcaller, howned, by rw [← hid]; rfl⟩
      | _ => cases hguard

end

/-! ## The outbox of a run -/

/-- A commit adds no intent but the one it is of. -/
theorem mem_auditIntents_apply {w : Write} {s s' : Database} {intent : Audit.AuditIntent}
    (h : w.apply s = .ok s') (hmem : intent ∈ s'.auditIntents) :
    intent ∈ s.auditIntents ∨ w = .insertIntent intent := by
  rcases (framed_apply h).auditIntents with hsame | ⟨recorded, rfl⟩
  · exact .inl (hsame ▸ hmem)
  · obtain ⟨outbox, hinsert, rfl⟩ := apply_insertIntent h
    rcases (Table.mem_insert hinsert).mp hmem with hold | rfl
    · exact .inl hold
    · exact .inr rfl

/-- **The outbox is accountable.** Whatever requests take turns, and wherever they fail: every
intent in the outbox, unless it was there at the start, was recorded by one of the requests
under the identity it was served under, and reports nothing that the request had not done. -/
theorem outbox_accountable {ι : Type} [DecidableEq ι] {calls : ι → Request × Call}
    {start : Database} {t : List (Program.Threads Sql Failure Database ι × (ι × Option Failure))}
    {u : Program.Threads Sql Failure Database ι}
    (hrun : (machine env encode calls start).Run t u) :
    ∀ intent ∈ u.shared.auditIntents, intent ∈ start.auditIntents ∨
      ∃ i, Recorded (calls i).1 (calls i).2 (Program.done exec i t) intent := by
  refine Program.Run.traced hrun
    (K := fun s pasts => ∀ intent ∈ s.auditIntents, intent ∈ start.auditIntents ∨
      ∃ i, Recorded (calls i).1 (calls i).2 (pasts i) intent)
    (fun u hinit => ⟨?_, keeps_of_init u hinit⟩) ?_ ?_
  · intro intent hmem
    exact .inl (hinit.1 ▸ hmem)
  · intro s f g hgrows h intent hmem
    exact (h intent hmem).imp id fun ⟨i, hi⟩ => ⟨i, hi.mono (hgrows i)⟩
  · intro i f g β c s hallowed hdone hgrows h intent hmem
    have hold : intent ∈ s.auditIntents → intent ∈ start.auditIntents ∨
        ∃ i, Recorded (calls i).1 (calls i).2 (g i) intent :=
      fun hin => (h intent hin).imp id fun ⟨j, hj⟩ => ⟨j, hj.mono (hgrows j)⟩
    cases c with
    | query q => exact hold hmem
    | commit w answer =>
        rw [exec] at hmem hdone
        split at hmem
        · rename_i s' happly
          rcases mem_auditIntents_apply happly hmem with hin | rfl
          · exact hold hin
          · rw [happly] at hdone
            have hlast : ⟨.commit (.insertIntent intent) answer, s⟩ :: f i <:+ g i :=
              ⟨[], (hdone answer rfl).symm⟩
            exact .inr ⟨i, f i, ⟨β, answer, s, hlast⟩, accountable_of_lawful hallowed⟩
        · exact hold hmem

theorem outbox_accountable_recordedTurns :
    ∃ t u, (machine Administration.sampleEnv (fun _ => "") signedInCalls signedInState).Run t u ∧
      t.map Prod.snd = recordedTurns ∧ u.shared.auditIntents.rows.length = 2 ∧
      ∀ intent ∈ u.shared.auditIntents, intent ∈ signedInState.auditIntents ∨
        ∃ i, Recorded (signedInCalls i).1 (signedInCalls i).2 (Program.done exec i t) intent := by
  have hexec : (machine Administration.sampleEnv (fun _ => "") signedInCalls signedInState).exec
      recordedTurns signedInThreads = some _ := rfl
  have hrun := Machine.Run.of_exec (.start initial_signedInThreads) hexec
  exact ⟨_, _, hrun, Machine.map_snd_trace hexec, by decide +kernel, outbox_accountable hrun⟩

end Api
end AdminPlatform
