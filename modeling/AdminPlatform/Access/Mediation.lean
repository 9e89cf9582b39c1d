import AdminPlatform.Access.Seeded
import AdminPlatform.Conduct.Routes

/-! # Every write is authorised

Requests to all routes take turns, one statement at a time, and any statement may fail. Whatever
a request behind a permission is about to commit is of the kind its route is for, and was
preceded, in this run and by this request, by the acceptance of its token and then by a look at
the caller's permissions that found the one required (`mediated`).

Credentials and sessions have a stricter rule, and it holds of every route, with a permission or
without: what must have been shown before a password, a session, a status or an email changes
(`credentials_guarded`). -/

namespace AdminPlatform
open AdminPlatform.Lib

namespace Api
variable {env : Env} {encode : EncodedToken → String} {ι : Type} [DecidableEq ι]
  {calls : ι → Request × Call} {start : Database}
  {t : List (Program.Threads Sql Failure Database ι × (ι × Option Failure))}
  {u : Program.Threads Sql Failure Database ι} {i : ι}

/-! ## Routes and their tables -/

/-- The writes a route behind a permission is for; an audit intent may come from any. -/
def Call.kinds : Call → Write → Bool
  | .users _ _, .insertAdmin _ => true
  | .users _ _, .updateAdmin _ _ => true
  | .users _ _, .insertAdminRole _ => true
  | .roles _ _, .insertRole _ _ => true
  | .roles _ _, .updateRole _ _ _ => true
  | .screens _ _, .insertScreen _ _ => true
  | .screens _ _, .updateScreen _ _ => true
  | .createExport _ _, .insertExport _ => true
  | .downloadExport _ _ _, .updateExport _ _ => true
  | .downloadExport _ _ _, .writeFile _ _ => true
  | _, .insertIntent _ => true
  | _, _ => false

/-- **Complete mediation.** What a request behind a permission is about to commit is of its
route's kind, and the caller was authenticated and then found to hold the permission; or it is
the record of a denial, and the caller was found not to. -/
theorem mediated (hrun : (machine env encode calls start).Run t u) {β : Type} {w : Write}
    {answer : β} {k : Except Failure β → Db Unit} {credentials : Option EncodedToken}
    {required : PermissionName} (hguard : (calls i).2.guard = some (credentials, required))
    (hcall : u.thread i = .call (.commit w answer) k) :
    (calls i).2.kinds w = true ∧ ∃ admin,
      Granted (calls i).1 credentials required (Program.done exec i t) admin ∨
        (Denied (calls i).1 credentials required (Program.done exec i t) admin ∧
          w = .insertIntent (AuditService.intent (actingAs (calls i).1 admin)
            (denialEvent (actingAs (calls i).1 admin) admin required))) := by
  have hlawful := lawful_of_commit hrun hcall
  generalize hsplit : calls i = c at hlawful hguard ⊢
  obtain ⟨req, call⟩ := c
  cases hlawful with
  | login _ => cases hguard
  | refresh _ => cases hguard
  | generateOtp _ => cases hguard
  | verifyOtp _ => cases hguard
  | updatePassword _ => cases hguard
  | logout _ => cases hguard
  | generateTask _ => cases hguard
  | denied hown hdenied =>
      obtain ⟨rfl, rfl⟩ := Prod.mk.inj (Option.some.inj (hown.symm.trans hguard))
      refine ⟨?_, _, .inr ⟨hdenied, rfl⟩⟩
      cases call <;> rfl
  | users hgranted hw =>
      obtain ⟨rfl, rfl⟩ := Prod.mk.inj (Option.some.inj hguard)
      exact ⟨by cases hw <;> rfl, _, .inl hgranted⟩
  | roles hgranted hw =>
      obtain ⟨rfl, rfl⟩ := Prod.mk.inj (Option.some.inj hguard)
      exact ⟨by cases hw <;> rfl, _, .inl hgranted⟩
  | screens hgranted hw =>
      obtain ⟨rfl, rfl⟩ := Prod.mk.inj (Option.some.inj hguard)
      exact ⟨by cases hw <;> rfl, _, .inl hgranted⟩
  | auditRead hgranted =>
      obtain ⟨rfl, rfl⟩ := Prod.mk.inj (Option.some.inj hguard)
      exact ⟨rfl, _, .inl hgranted⟩
  | createExport hgranted hw =>
      obtain ⟨rfl, rfl⟩ := Prod.mk.inj (Option.some.inj hguard)
      exact ⟨by cases hw <;> rfl, _, .inl hgranted⟩
  | downloadExport hgranted hw =>
      obtain ⟨rfl, rfl⟩ := Prod.mk.inj (Option.some.inj hguard)
      exact ⟨by cases hw <;> rfl, _, .inl hgranted⟩

/-! ## Credentials and sessions -/

/-- The caller may write users. -/
def Administered (req : Request) (call : Call) (past : Past) : Prop :=
  ∃ credentials op caller, call = .users credentials op ∧
    Granted req credentials .usersWrite past caller

/-- A verified code of the account's email, and a password that is not one of its last. -/
def Reset (env : Env) (req : Request) (call : Call) (past : Past) (account : PlatformAdmin) :
    Prop :=
  ∃ payload, call = .updatePassword payload ∧ MayReset env req payload past account

/-- The password of the account, which was active and not locked. -/
def LoggedIn (env : Env) (req : Request) (call : Call) (past : Past) (account : PlatformAdmin) :
    Prop :=
  ∃ credentials, call = .login credentials ∧
    past.Saw (fun s => s.adminByEmail credentials.email = some account) ∧
    AuthService.locked req.now account = false ∧ account.status = .active ∧
    env.bcrypt.verifyPassword credentials.password account.hashedPassword = true

/-- The refresh token of the account's session. -/
def Refreshed (req : Request) (call : Call) (past : Past) (account : PlatformAdmin) : Prop :=
  ∃ token payload, call = .refresh token ∧ decodeToken req.now token = some payload ∧
    payload.type = "refresh" ∧ past.Saw fun s => AuthService.Accepts s payload account

/-- An access token of the account's session, presented to be logged out. -/
def LoggedOut (req : Request) (call : Call) (past : Past) (account : PlatformAdmin) : Prop :=
  ∃ credentials, call = .logout credentials ∧ Authenticated req credentials past account

/-- A login on the account that is refused: its password is wrong and counted, or the account is
inactive. A lock that has run out is lifted, and nothing else is written. -/
def FailedLogin (env : Env) (req : Request) (call : Call) (past : Past)
    (account current : PlatformAdmin) : Prop :=
  ∃ credentials, call = .login credentials ∧
    past.Saw (fun s => s.adminByEmail credentials.email = some account) ∧
    AuthService.locked req.now account = false ∧
    ((env.bcrypt.verifyPassword credentials.password account.hashedPassword = false ∧
        current = AuthService.countFailure env req (AuthService.liftLock account)) ∨
      (env.bcrypt.verifyPassword credentials.password account.hashedPassword = true ∧
        account.status ≠ .active ∧ current = AuthService.liftLock account))

/-- What a request has shown by the time it writes an account back. -/
structure Guarded (env : Env) (req : Request) (call : Call) (past : Past)
    (loaded current : PlatformAdmin) : Prop where
  account : current.id = loaded.id ∧ current.createdAt = loaded.createdAt
  identity : current.email ≠ loaded.email ∨ current.username ≠ loaded.username ∨
    current.status ≠ loaded.status → Administered req call past
  password : current.hashedPassword ≠ loaded.hashedPassword →
    Reset env req call past loaded ∨ Administered req call past
  session : current.currentRefreshJti ≠ loaded.currentRefreshJti →
    current.currentRefreshJti ≠ none →
    LoggedIn env req call past loaded ∨ Refreshed req call past loaded
  signOff : current.currentRefreshJti ≠ loaded.currentRefreshJti →
    current.currentRefreshJti = none →
    LoggedOut req call past loaded ∨ Reset env req call past loaded ∨ Administered req call past
  lock : current.failedLoginAttempts ≠ loaded.failedLoginAttempts ∨
    current.lockedUntil ≠ loaded.lockedUntil →
    FailedLogin env req call past loaded current ∨ LoggedIn env req call past loaded ∨
      Reset env req call past loaded ∨ Administered req call past

section
variable {req : Request} {past : Past} {loaded current : PlatformAdmin}

/-- A failure that is counted, or a lock that is lifted, touches nothing else. -/
structure OnlyCounters (loaded current : PlatformAdmin) : Prop where
  id : current.id = loaded.id
  email : current.email = loaded.email
  username : current.username = loaded.username
  hashedPassword : current.hashedPassword = loaded.hashedPassword
  status : current.status = loaded.status
  currentRefreshJti : current.currentRefreshJti = loaded.currentRefreshJti
  createdAt : current.createdAt = loaded.createdAt

theorem onlyCounters_liftLock (loaded : PlatformAdmin) :
    OnlyCounters loaded (AuthService.liftLock loaded) := by
  unfold AuthService.liftLock
  split <;> exact ⟨rfl, rfl, rfl, rfl, rfl, rfl, rfl⟩

theorem onlyCounters_countFailure (env : Env) (req : Request) (loaded : PlatformAdmin) :
    OnlyCounters loaded (AuthService.countFailure env req (AuthService.liftLock loaded)) := by
  unfold AuthService.countFailure AuthService.liftLock
  split <;> split <;> exact ⟨rfl, rfl, rfl, rfl, rfl, rfl, rfl⟩

theorem OnlyCounters.guarded {call : Call} (h : OnlyCounters loaded current)
    (hfailed : FailedLogin env req call past loaded current) :
    Guarded env req call past loaded current where
  account := ⟨h.id, h.createdAt⟩
  identity := by
    rintro (hemail | husername | hstatus)
    · exact absurd h.email hemail
    · exact absurd h.username husername
    · exact absurd h.status hstatus
  password hpassword := absurd h.hashedPassword hpassword
  session hsession := absurd h.currentRefreshJti hsession
  signOff hsession := absurd h.currentRefreshJti hsession
  lock _ := .inl hfailed

theorem guarded_login {credentials : LoginRequest}
    (h : LoginLawful env encode (claimedActor req credentials.email .admin) credentials past
      (.updateAdmin loaded current)) :
    Guarded env req (.login credentials) past loaded current := by
  cases h with
  | rejected hsaw hunlocked hverify =>
      exact (onlyCounters_countFailure env _ loaded).guarded
        ⟨credentials, rfl, hsaw, hunlocked, .inl ⟨hverify, rfl⟩⟩
  | lifted hsaw hunlocked hverify hinactive =>
      exact (onlyCounters_liftLock loaded).guarded
        ⟨credentials, rfl, hsaw, hunlocked, .inr ⟨hverify, hinactive, rfl⟩⟩
  | session hsaw hunlocked hverify hactive =>
      have hshown : LoggedIn env req (.login credentials) past loaded :=
        ⟨credentials, rfl, hsaw, hunlocked, hactive, hverify⟩
      exact
        { account := ⟨rfl, rfl⟩
          identity := by
            rintro (h | h | h) <;> exact absurd rfl h
          password := fun h => absurd rfl h
          session := fun _ _ => .inl hshown
          signOff := fun _ hnone => by cases hnone
          lock := fun _ => .inr (.inl hshown) }

/-- A user request writes no new session. -/
theorem guarded_users {credentials : Option EncodedToken} {op : UserService.Op}
    {caller : PlatformAdmin} (hgranted : Granted req credentials .usersWrite past caller)
    (h : UserService.Op.Lawful env (actingAs req caller) past op (.updateAdmin loaded current)) :
    Guarded env req (.users credentials op) past loaded current := by
  have hadministered : Administered req (.users credentials op) past :=
    ⟨credentials, op, caller, rfl, hgranted⟩
  have hcolumns : (current.id = loaded.id ∧ current.createdAt = loaded.createdAt) ∧
      (current.currentRefreshJti = loaded.currentRefreshJti ∨ current.currentRefreshJti = none) := by
    cases h with
    | @update _ data =>
        refine ⟨⟨rfl, rfl⟩, ?_⟩
        unfold UserService.assignUpdate
        dsimp only
        split
        · exact .inr rfl
        · exact .inl rfl
    | replace => exact ⟨⟨rfl, rfl⟩, .inl rfl⟩
    | delete => exact ⟨⟨rfl, rfl⟩, .inr rfl⟩
  exact
    { account := hcolumns.1
      identity := fun _ => hadministered
      password := fun _ => .inr hadministered
      session := fun hsession hsome => absurd (hcolumns.2.resolve_left hsession) hsome
      signOff := fun _ _ => .inr (.inr hadministered)
      lock := fun _ => .inr (.inr (.inr hadministered)) }

/-- An account is written back only on proof. -/
theorem guarded_of_lawful {call : Call}
    (h : Lawful env encode req past call (.updateAdmin loaded current)) :
    Guarded env req call past loaded current := by
  cases h with
  | login h => exact guarded_login h
  | users hgranted h => exact guarded_users hgranted h
  | refresh h =>
      cases h with
      | session hdecode htype hsaw =>
          exact
            { account := ⟨rfl, rfl⟩
              identity := by
                rintro (h | h | h) <;> exact absurd rfl h
              password := fun h => absurd rfl h
              session := fun _ _ => .inr ⟨_, _, rfl, hdecode, htype, hsaw⟩
              signOff := fun _ hnone => by cases hnone
              lock := by
                rintro (h | h) <;> exact absurd rfl h }
  | updatePassword h =>
      cases h with
      | reset hmay _ =>
          have hshown : Reset env req (.updatePassword _) past loaded :=
            ⟨_, rfl, hmay.account, hmay.otp, hmay.fresh⟩
          exact
            { account := ⟨rfl, rfl⟩
              identity := by
                rintro (h | h | h) <;> exact absurd rfl h
              password := fun _ => .inl hshown
              session := fun _ hsome => absurd rfl hsome
              signOff := fun _ _ => .inr (.inl hshown)
              lock := fun _ => .inr (.inr (.inl hshown)) }
  | logout h =>
      cases h with
      | cleared hauthenticated =>
          exact
            { account := ⟨rfl, rfl⟩
              identity := by
                rintro (h | h | h) <;> exact absurd rfl h
              password := fun h => absurd rfl h
              session := fun _ hsome => absurd rfl hsome
              signOff := fun _ _ => .inl ⟨_, rfl, hauthenticated⟩
              lock := by
                rintro (h | h) <;> exact absurd rfl h }
  | generateOtp h => cases h
  | verifyOtp h => cases h
  | roles _ h => cases h
  | screens _ h => cases h
  | createExport _ h => cases h
  | downloadExport _ h => cases h
  | generateTask h => cases h

end

/-- **Credentials change only on proof.** When a request of any kind is about to write an account
back: the account's identity is changed by who may write users, its password by them or after a
reset, its session begins with its password or its refresh token, and ends with its access
token, with a reset, or by who may write users; its lock and its count of failures change with a
login, refused or not, with a reset, or by who may write users. -/
theorem credentials_guarded (hrun : (machine env encode calls start).Run t u) {β : Type}
    {loaded current : PlatformAdmin} {answer : β} {k : Except Failure β → Db Unit}
    (hcall : u.thread i = .call (.commit (.updateAdmin loaded current) answer) k) :
    Guarded env (calls i).1 (calls i).2 (Program.done exec i t) loaded current :=
  guarded_of_lawful (lawful_of_commit hrun hcall)

/-! ### A caller and a request -/

open Administration (sampleState sampleEnv sampleRequest sampleAdmin)

/-- The admin with id 1 is signed in. -/
def signedInState : Database :=
  { sampleState with
    admins :=
      ⟨[{ sampleAdmin 1 "admin1" "admin1@example.com" with
            hashedPassword := "salt$Secret-1", currentRefreshJti := some "session" },
        sampleAdmin 2 "admin2" "admin2@example.com"], by decide⟩ }

/-- The access token of that session. -/
def signedInToken : EncodedToken :=
  .signed
    { userId := some (.ofNat 1), jti := "access", exp := 1000, type := "access"
      extra := some
        { rjti := "session", rexp := 1000, email := "admin1@example.com", username := "admin1"
          roles := [], permissions := [] } }

/-- The signed-in admin renames the other one; meanwhile the other one logs in. -/
def signedInCalls (own : Bool) : Request × Call :=
  if own then
    (sampleRequest 1, .users (some signedInToken) (.update (.ofNat 2) { name := some "renamed" }))
  else (sampleRequest 2, .login { email := "admin2@example.com", password := "Secret-1" })

def signedInThreads : Program.Threads Sql Failure Database Bool where
  shared := signedInState
  thread own := (signedInCalls own).2.serve sampleEnv (fun _ => "") (signedInCalls own).1

/-- The caller is authenticated and found to hold the permission, and the other admin loaded; in
between, the other request starts and one of its statements fails. -/
def signedInTurns : List (Bool × Option Failure) :=
  [(true, none), (false, none), (true, none), (false, some .value), (true, none)]

/-- The admin is renamed, and the other request counts a failure; both record it. -/
def recordedTurns : List (Bool × Option Failure) :=
  [(true, none), (false, none), (true, none), (true, none), (true, none), (true, none),
    (true, none), (false, none), (false, none), (false, none)]

theorem initial_signedInThreads :
    (machine sampleEnv (fun _ => "") signedInCalls signedInState).init signedInThreads :=
  ⟨rfl, fun _ => rfl⟩

theorem mediated_signedInTurns :
    ∃ t u, (machine sampleEnv (fun _ => "") signedInCalls signedInState).Run t u ∧
      t.map Prod.snd = signedInTurns ∧ ∃ w, (signedInCalls true).2.kinds w = true ∧ ∃ admin,
        Granted (sampleRequest 1) (some signedInToken) .usersWrite (Program.done exec true t)
            admin ∨
          (Denied (sampleRequest 1) (some signedInToken) .usersWrite (Program.done exec true t)
              admin ∧
            w = .insertIntent (AuditService.intent (actingAs (sampleRequest 1) admin)
              (denialEvent (actingAs (sampleRequest 1) admin) admin .usersWrite))) := by
  have hexec : (machine sampleEnv (fun _ => "") signedInCalls signedInState).exec signedInTurns
      signedInThreads = some _ := rfl
  have hrun := Machine.Run.of_exec (.start initial_signedInThreads) hexec
  exact ⟨_, _, hrun, Machine.map_snd_trace hexec, _, mediated hrun rfl rfl⟩

theorem credentials_guarded_signedInTurns :
    ∃ t u, (machine sampleEnv (fun _ => "") signedInCalls signedInState).Run t u ∧
      t.map Prod.snd = signedInTurns ∧
      Guarded sampleEnv (signedInCalls true).1 (signedInCalls true).2 (Program.done exec true t)
        (sampleAdmin 2 "admin2" "admin2@example.com")
        (sampleAdmin 2 "renamed" "admin2@example.com") := by
  have hexec : (machine sampleEnv (fun _ => "") signedInCalls signedInState).exec signedInTurns
      signedInThreads = some _ := rfl
  have hrun := Machine.Run.of_exec (.start initial_signedInThreads) hexec
  exact ⟨_, _, hrun, Machine.map_snd_trace hexec, credentials_guarded hrun rfl⟩

end Api
end AdminPlatform
