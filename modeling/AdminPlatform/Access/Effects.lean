import AdminPlatform.Access.Sessions

/-! # What the requests do

The inversions of the single operations, put together: `Effect` has one case for each way a
request to the auth or the user service can end, with all that it has done to the tables.
`effect_serve` is the only place where an operation is taken apart; the invariants of the
other modules go through the cases. -/

namespace AdminPlatform
open AdminPlatform.Lib

namespace Sessions

/-- The same account, in another state of its sessions and failures. -/
structure SameAccount (a b : PlatformAdmin) : Prop where
  id : b.id = a.id
  email : b.email = a.email
  hashedPassword : b.hashedPassword = a.hashedPassword
  status : b.status = a.status

def Call.isSession : Call → Bool
  | .login _ | .refresh _ | .logout _ => true
  | _ => false

/-- How a request to `s` ends: its result and the state it leaves. -/
inductive Effect (env : Env) (req : Request) (s : Database) :
    Call → Except Failure (Option TokenResponse) → Database → Prop
  | refused {call e} : Effect env req s call (.error e) s
  /-- The permission check leaves a record. -/
  | denied {credentials op e outbox} :
      Effect env req s (.userRoute credentials op) (.error e) { s with auditIntents := outbox }
  /-- An account is written back: a failure is counted, or a session begins or ends. -/
  | session {call r admin current admins outbox} : call.isSession = true →
      s.admins.find? admin.id = some admin → s.admins.flush admin current = .ok admins →
      SameAccount admin current →
      Effect env req s call r { s with admins := admins, auditIntents := outbox }
  /-- Nobody active has the email: the answer does not tell. -/
  | unknown {email} : (s.adminByEmail email).filter (fun a => a.status = .active) = none →
      Effect env req s (.generateOtp email) (.ok none) s
  | requested {email admin row otps} : s.adminByEmail email = some admin →
      admin.status = .active →
      AuthService.requestedOtp env req email (s.otps.find? email) = some row →
      AuthService.Stores otps s row →
      Effect env req s (.generateOtp email) (.ok none) { s with otps := otps }
  | verified {payload admin row otps} : s.adminByEmail payload.email = some admin →
      admin.status = .active → s.otps.find? payload.email = some row →
      req.now < row.expiresAt → AuthService.Stores otps s { row with verified := true } →
      Effect env req s (.verifyOtp payload) (.ok none) { s with otps := otps }
  | reset {payload admin row admins added} : s.adminByEmail payload.email = some admin →
      s.otps.find? payload.email = some row → row.verified = true → req.now < row.expiresAt →
      AuthService.reused env payload.newPassword admin
        (PasswordHistoryRepository.recent s admin.id env.settings.passwordHistoryDepth) = false →
      s.passwordHistory.insert ⟨req.newId, admin.id, admin.hashedPassword, req.now⟩ =
        some added →
      s.admins.flush admin (AuthService.resetPassword env req payload.newPassword admin) =
        .ok admins →
      Effect env req s (.updatePassword payload) (.ok none)
        { s with
          admins := admins
          passwordHistory := PasswordHistoryRepository.trimmed { s with passwordHistory := added }
            admin.id env.settings.passwordHistoryDepth
          otps := s.otps.delete (fun otp => otp.email = payload.email) }
  | user {op s'} : op.Effect env req s s' → Effect env req s (.user op) (.ok none) s'
  | userRoute {credentials op payload caller s'} :
      Api.CallsAs s req.now credentials payload caller →
      PermissionName.usersWrite.value ∈ RbacService.permissions s caller.id →
      op.Effect env (Api.actingAs req caller) s s' →
      Effect env req s (.userRoute credentials op) (.ok none) s'

section Serve
variable {env : Env} {req : Request} {s s' : Database}

theorem sameAccount_countFailure (admin : PlatformAdmin) :
    SameAccount admin (AuthService.countFailure env req (AuthService.liftLock admin)) := by
  unfold AuthService.countFailure AuthService.liftLock
  split <;> split <;> exact ⟨rfl, rfl, rfl, rfl⟩

theorem effect_login {credentials : LoginRequest} {r : Except Failure TokenResponse}
    (h : (AuthService.login env req credentials).run s = (r, s')) :
    Effect env req s (.login credentials) (r.map some) s' := by
  rcases AuthService.run_login_inv h with ⟨⟨e, rfl⟩, rfl⟩ | ⟨admin, hadmin, -, hcase⟩
  · exact .refused
  have hfind := AuthService.find?_of_adminByEmail hadmin
  rcases hcase with ⟨e, admins, -, hflush, rfl, rfl⟩ | ⟨admins, -, -, hflush, rfl, rfl⟩
  · exact .session rfl hfind hflush (sameAccount_countFailure admin)
  · exact .session rfl hfind hflush ⟨rfl, rfl, rfl, rfl⟩

theorem effect_refresh {refreshToken : EncodedToken} {r : Except Failure TokenResponse}
    (h : (AuthService.refresh env req refreshToken).run s = (r, s')) :
    Effect env req s (.refresh refreshToken) (r.map some) s' := by
  rcases AuthService.run_refresh_inv h with ⟨⟨e, rfl⟩, rfl⟩ |
    ⟨payload, admin, admins, -, -, haccepts, hflush, rfl, rfl⟩
  · exact .refused
  · exact .session rfl haccepts.found hflush ⟨rfl, rfl, rfl, rfl⟩

theorem effect_logout {credentials : Option EncodedToken} {r : Except Failure Unit}
    (h : (Api.logout req credentials).run s = (r, s')) :
    Effect env req s (.logout credentials) (r.map fun _ => none) s' := by
  rcases Api.run_logout_inv h with ⟨⟨e, rfl⟩, rfl⟩ |
    ⟨payload, admin, admins, outbox, hcalls, hflush, rfl, rfl⟩
  · exact .refused
  · exact .session rfl hcalls.accepted.found hflush ⟨rfl, rfl, rfl, rfl⟩

theorem effect_generateOtp {email : String} {r : Except Failure Unit}
    (h : (AuthService.generateOtp env req email).run s = (r, s')) :
    Effect env req s (.generateOtp email) (r.map fun _ => none) s' := by
  rcases AuthService.run_generateOtp_inv h with ⟨⟨e, rfl⟩, rfl⟩ | ⟨hnone, rfl, rfl⟩ |
    ⟨admin, row, otps, hadmin, hactive, hrow, hstores, rfl, rfl⟩
  · exact .refused
  · exact .unknown hnone
  · exact .requested hadmin hactive hrow hstores

theorem effect_verifyOtp {payload : VerifyOtpRequest} {r : Except Failure Unit}
    (h : (AuthService.verifyOtp req payload).run s = (r, s')) :
    Effect env req s (.verifyOtp payload) (r.map fun _ => none) s' := by
  rcases AuthService.run_verifyOtp_inv h with ⟨⟨e, rfl⟩, rfl⟩ |
    ⟨admin, row, otps, hadmin, hactive, -, hrow, hlive, hstores, rfl, rfl⟩
  · exact .refused
  · exact .verified hadmin hactive hrow hlive hstores

theorem effect_updatePassword {payload : UpdatePasswordRequest}
    {r : Except Failure PlatformAdmin}
    (h : (AuthService.updatePassword env req payload).run s = (r, s')) :
    Effect env req s (.updatePassword payload) (r.map fun _ => none) s' := by
  rcases AuthService.run_updatePassword_cases h with ⟨⟨e, rfl⟩, rfl⟩ |
    ⟨admin, row, admins, added, hadmin, -, hrow, hverified, hlive, hnew, hinsert, hflush, rfl, rfl⟩
  · exact .refused
  · exact .reset hadmin hrow hverified hlive hnew hinsert hflush

theorem effect_userOp {op : UserService.Op} {r : Except Failure Unit}
    (h : (op.perform env req).run s = (r, s')) :
    Effect env req s (.user op) (r.map fun _ => none) s' := by
  rcases UserService.Op.perform_inv h with ⟨⟨e, rfl⟩, rfl⟩ | ⟨rfl, heffect⟩
  · exact .refused
  · exact .user heffect

theorem effect_userRoute {credentials : Option EncodedToken} {op : UserService.Op}
    {r : Except Failure Unit}
    (h : (Api.guarded req credentials .usersWrite fun req _ => op.perform env req).run s =
      (r, s')) :
    Effect env req s (.userRoute credentials op) (r.map fun _ => none) s' := by
  rcases Api.run_guarded_inv h with ⟨⟨e, rfl⟩, rfl⟩ |
    ⟨payload, admin, hcalls, ⟨-, rfl, outbox, rfl⟩ | ⟨hgranted, hserved⟩⟩
  · exact .refused
  · exact .denied
  · rcases UserService.Op.perform_inv hserved with ⟨⟨e, rfl⟩, rfl⟩ | ⟨rfl, heffect⟩
    · exact .refused
    · exact .userRoute hcalls hgranted heffect

/-- **What every request does.** -/
theorem effect_serve (env : Env) (req : Request) (s : Database) (call : Call) :
    Effect env req s call (call.serve env req s).1 (call.serve env req s).2 := by
  cases call with
  | login credentials => exact effect_login rfl
  | refresh refreshToken => exact effect_refresh rfl
  | logout credentials => exact effect_logout rfl
  | generateOtp email => exact effect_generateOtp rfl
  | verifyOtp payload => exact effect_verifyOtp rfl
  | updatePassword payload => exact effect_updatePassword rfl
  | user op => exact effect_userOp rfl
  | userRoute credentials op => exact effect_userRoute rfl

/-! ## User operations that go through -/

variable (env req s) in
/-- The user operation a request makes: nothing stands against it, and through the route the
caller may write users. -/
inductive Makes : Call → UserService.Op → Prop
  | service {op} : op.Unopposed env req s → Makes (.user op) op
  | route {credentials payload caller op} : Api.CallsAs s req.now credentials payload caller →
      PermissionName.usersWrite.value ∈ RbacService.permissions s caller.id →
      op.Unopposed env (Api.actingAs req caller) s → Makes (.userRoute credentials op) op

/-- **It is made.** -/
theorem serve_of_makes {call : Call} {op : UserService.Op} (h : Makes env req s call op) :
    ∃ req' s', call.serve env req s = (.ok none, s') ∧ op.Effect env req' s s' := by
  have hperform : ∀ req', op.Unopposed env req' s → ∃ s',
      (op.perform env req').run s = (.ok (), s') ∧ op.Effect env req' s s' := by
    intro req' hop
    have hok := UserService.Op.perform_ok_iff.mpr hop
    rcases hrun : (op.perform env req').run s with ⟨r, s'⟩
    rw [hrun] at hok
    obtain rfl : r = .ok () := hok
    rcases UserService.Op.perform_inv hrun with ⟨⟨e, he⟩, -⟩ | ⟨-, heffect⟩
    · cases he
    · exact ⟨s', rfl, heffect⟩
  cases h with
  | service hop =>
      obtain ⟨s', hrun, heffect⟩ := hperform req hop
      exact ⟨req, s', by rw [Call.serve, hrun]; rfl, heffect⟩
  | @route _ _ caller _ hcalls hgranted hop =>
      obtain ⟨s', hrun, heffect⟩ := hperform _ hop
      exact ⟨_, s', by rw [Call.serve, Api.run_guarded_ok hcalls hgranted, hrun]; rfl, heffect⟩

/-! ## Frames -/

theorem isSome_find?_effect {op : UserService.Op} {admin : Uuid} (h : op.Effect env req s s')
    (hfound : (s.admins.find? admin).isSome) : (s'.admins.find? admin).isSome := by
  cases h with
  | create hinsert =>
      rw [Table.find?_insert hinsert]
      split
      · rfl
      · exact hfound
  | @update userId _ user _ _ hfind _ hflush =>
      obtain rfl : user.id = userId := (Table.find?_eq_some.mp hfind).2
      exact isSome_find?_flush hfind hflush rfl hfound
  | @replace userId _ user _ _ hfind hflush =>
      obtain rfl : user.id = userId := (Table.find?_eq_some.mp hfind).2
      exact isSome_find?_flush hfind hflush rfl hfound
  | @delete userId user _ _ hfind _ hflush =>
      obtain rfl : user.id = userId := (Table.find?_eq_some.mp hfind).2
      exact isSome_find?_flush hfind hflush rfl hfound

/-- No request removes an admin. -/
theorem Effect.isSome_find? {call : Call} {r : Except Failure (Option TokenResponse)}
    {admin : Uuid} (h : Effect env req s call r s') (hfound : (s.admins.find? admin).isSome) :
    (s'.admins.find? admin).isSome := by
  cases h with
  | session _ hfind hflush hsame => exact isSome_find?_flush hfind hflush hsame.id hfound
  | reset hadmin _ _ _ _ _ hflush =>
      exact isSome_find?_flush (AuthService.find?_of_adminByEmail hadmin) hflush rfl hfound
  | user hop => exact isSome_find?_effect hop hfound
  | userRoute _ _ hop => exact isSome_find?_effect hop hfound
  | _ => exact hfound

/-- An email that was written back is the one from before, or was nobody's. -/
theorem email_flush {admins : Table PlatformAdmin} {user current : PlatformAdmin}
    (hfind : s.admins.find? user.id = some user)
    (hflush : s.admins.flush user current = .ok admins) (hid : current.id = user.id) :
    current.email = user.email ∨ s.adminByEmail current.email = none := by
  by_cases hsame : current.email = user.email
  · exact .inl hsame
  · right
    cases hholder : s.adminByEmail current.email with
    | none => rfl
    | some holder =>
        obtain ⟨hin, hemail⟩ := Database.adminByEmail_eq_some.mp hholder
        have hne : holder.id ≠ user.id := by
          intro heq
          rw [Table.eq_of_key hin (Table.find?_eq_some.mp hfind).1 heq] at hemail
          exact hsame hemail.symm
        exact absurd (.inr (.inl hemail.symm)) (Table.not_clash_of_flush hflush hfind hid hin hne)

/-- The operations of the user service write neither the history nor the OTP rows. -/
theorem frame_effect {op : UserService.Op} (h : op.Effect env req s s') :
    s'.passwordHistory = s.passwordHistory ∧ s'.otps = s.otps := by
  cases h <;> exact ⟨rfl, rfl⟩

end Serve
end Sessions
end AdminPlatform
