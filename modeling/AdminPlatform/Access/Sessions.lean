import AdminPlatform.Access.Seeded
import AdminPlatform.Api.Deps
import AdminPlatform.Services.User

/-! # One live session per admin

Every request that sets, keeps or clears the pointer to an admin's session, executed one
after another. The state carries a history of the sessions that were issued and ended, which
no request reads; `live` draws from it the session an admin has. `Change` is what a request
can do to the admins and to that history, and `Invariant` ties the two together: a row points
to the refresh token of the live session.

`single_session` says what follows for tokens: exactly those of the live session are
accepted. -/

namespace AdminPlatform
open AdminPlatform.Lib

namespace Sessions

/-! ## Requests -/

inductive Call
  | login (credentials : LoginRequest)
  | refresh (refreshToken : EncodedToken)
  /-- Logout through its route. -/
  | logout (credentials : Option EncodedToken)
  | generateOtp (email : String)
  | verifyOtp (payload : VerifyOtpRequest)
  | updatePassword (payload : UpdatePasswordRequest)
  | user (op : UserService.Op)
  /-- A user operation through its route. -/
  | userRoute (credentials : Option EncodedToken) (op : UserService.Op)

namespace Call

/-- The token a request bears. -/
def token : Call → Option EncodedToken
  | .refresh refreshToken => some refreshToken
  | .logout credentials => credentials
  | .userRoute credentials _ => credentials
  | _ => none

/-- Execute a request alone: the tokens it answers with, if any. -/
def serve (env : Env) (req : Request) (s : Database) :
    Call → Except Failure (Option TokenResponse) × Database
  | .login credentials => ((AuthService.login env req credentials).run s).map (.map some) id
  | .refresh token => ((AuthService.refresh env req token).run s).map (.map some) id
  | .logout credentials => ((Api.logout req credentials).run s).map (.map fun _ => none) id
  | .generateOtp email => ((AuthService.generateOtp env req email).run s).map (.map fun _ => none) id
  | .verifyOtp payload => ((AuthService.verifyOtp req payload).run s).map (.map fun _ => none) id
  | .updatePassword payload =>
      ((AuthService.updatePassword env req payload).run s).map (.map fun _ => none) id
  | .user op => ((op.perform env req).run s).map (.map fun _ => none) id
  | .userRoute credentials op =>
      ((Api.guarded req credentials .usersWrite fun req _ => op.perform env req).run s).map
        (.map fun _ => none) id

end Call

/-! ## The sessions there have been -/

inductive Event
  /-- Login or refresh issued a session to an admin. -/
  | issued (admin : Uuid) (tokens : TokenResponse)
  /-- A logout, a password reset or a deactivation ended the session of an admin. -/
  | ended (admin : Uuid)
  deriving DecidableEq

/-- The admin a token was issued to. -/
def subject : EncodedToken → Option Uuid
  | .signed payload => payload.userId
  | .foreign _ => none

/-- The admin a user operation takes out of service. -/
def deactivated : UserService.Op → Option Uuid
  | .update userId data => if data.status = some .inactive then some userId else none
  | .delete userId => some userId
  | _ => none

/-- What a request that succeeds in `s` does to the sessions. -/
def Call.event (s : Database) : Call → Option TokenResponse → Option Event
  | .login credentials, some tokens =>
      (s.adminByEmail credentials.email).map fun admin => .issued admin.id tokens
  | .refresh refreshToken, some tokens =>
      (subject refreshToken).map fun admin => .issued admin tokens
  | .logout credentials, _ => (credentials.bind subject).map .ended
  | .updatePassword payload, _ =>
      (s.adminByEmail payload.email).map fun admin => .ended admin.id
  | .user op, _ => (deactivated op).map .ended
  | .userRoute _ op, _ => (deactivated op).map .ended
  | _, _ => none

/-- The session an admin has, after a history (newest event first). -/
def live : List Event → Uuid → Option TokenResponse
  | [], _ => none
  | .issued owner tokens :: history, admin =>
      if owner = admin then some tokens else live history admin
  | .ended owner :: history, admin => if owner = admin then none else live history admin

/-- The two tokens of a session. -/
def pair (tokens : TokenResponse) : List EncodedToken := [tokens.accessToken, tokens.refreshToken]

/-- The `jti` of a session's refresh token. -/
def jti (tokens : TokenResponse) : Option String :=
  match tokens.refreshToken with
  | .signed payload => some payload.jti
  | .foreign _ => none

def Event.tokens : Event → Option TokenResponse
  | .issued _ tokens => some tokens
  | .ended _ => none

def Event.jti (e : Event) : Option String := e.tokens.bind Sessions.jti

/-- A token that is no forgery: if the platform signed it, it is of a session in the
history. -/
def unforged (history : List Event) (token : EncodedToken) : Bool :=
  match token with
  | .foreign _ => true
  | .signed _ => history.any fun e => e.tokens.any fun tokens => token ∈ pair tokens

/-! ## Runs -/

structure State where
  db : Database
  history : List Event

/-- The state a request leaves. -/
def next (env : Env) (req : Request) (call : Call) (st : State) : State :=
  match call.serve env req st.db with
  | (.ok answer, db) => ⟨db, (call.event st.db answer).toList ++ st.history⟩
  | (.error _, db) => ⟨db, st.history⟩

/-- The `jti` drawn for the request is new, and the token it bears is no forgery. -/
def admissible (l : Request × Call) (st : State) : Bool :=
  st.history.all (fun e => e.jti ≠ some l.1.refreshJti.str) &&
    l.2.token.all (unforged st.history)

/-- Requests served one after another, from a state in which nobody has logged in. -/
def machine (env : Env) : Machine State (Request × Call) where
  init st := st.history = [] ∧ ∀ admin ∈ st.db.admins, admin.currentRefreshJti = none
  step l st := if admissible l st then some (next env l.1 l.2 st) else none

/-! ## What a request does to the admins -/

/-- The tokens of a session belong to the admin and to each other. -/
structure WellFormed (admin : Uuid) (tokens : TokenResponse) : Prop where
  signed : ∃ access refresh, tokens.accessToken = .signed access ∧
    tokens.refreshToken = .signed refresh ∧ access.userId = some admin ∧
    refresh.userId = some admin ∧ access.type = "access" ∧ refresh.type = "refresh" ∧
    access.rjti = some refresh.jti

/-- What a request does to the admins, with the event that tells of it. `fresh` is the `jti`
of a new session. -/
inductive Change (admins : Table PlatformAdmin) (fresh : String) :
    Option Event → Table PlatformAdmin → Prop
  | same : Change admins fresh none admins
  /-- The admin keeps the session, and is not taken out of service. -/
  | kept {user current : PlatformAdmin} {admins'} :
      admins.find? user.id = some user → admins.flush user current = .ok admins' →
      current.id = user.id → current.currentRefreshJti = user.currentRefreshJti →
      (current.status = .inactive → user.status = .inactive) →
      Change admins fresh none admins'
  | issued {user current : PlatformAdmin} {tokens admins'} :
      admins.find? user.id = some user → admins.flush user current = .ok admins' →
      current.id = user.id → current.status = .active →
      current.currentRefreshJti = some fresh → jti tokens = some fresh →
      WellFormed user.id tokens →
      Change admins fresh (some (.issued user.id tokens)) admins'
  /-- The admin has no session afterwards, or had none as an inactive one. -/
  | ended {user current : PlatformAdmin} {admins'} :
      admins.find? user.id = some user → admins.flush user current = .ok admins' →
      current.id = user.id →
      (current.currentRefreshJti = none ∨
        (user.status = .inactive ∧ current.currentRefreshJti = user.currentRefreshJti)) →
      Change admins fresh (some (.ended user.id)) admins'
  | inserted {row : PlatformAdmin} {admins'} :
      admins.insert row = some admins' → row.currentRefreshJti = none →
      Change admins fresh none admins'

section Change
variable {env : Env} {req : Request} {s s' : Database}

theorem wellFormed_tokens (env : Env) (req : Request) (s : Database) (admin : PlatformAdmin) :
    WellFormed admin.id (AuthService.tokens env req s admin) :=
  ⟨_, _, rfl, rfl, rfl, rfl, rfl, rfl, rfl⟩

theorem subject_of_decode {now : Instant} {token : EncodedToken} {payload : TokenPayload}
    (h : decodeToken now token = some payload) : subject token = payload.userId := by
  obtain ⟨rfl, -⟩ := decodeToken_eq_some.mp h
  rfl

theorem change_user {op : UserService.Op} {fresh : String} (h : op.Effect env req s s') :
    Change s.admins fresh ((deactivated op).map .ended) s'.admins := by
  cases h with
  | create hinsert hkept hassigned => exact .inserted hinsert rfl
  | @update userId data user admins outbox hfind hguard hflush =>
      obtain rfl : user.id = userId := (Table.find?_eq_some.mp hfind).2
      by_cases hstatus : data.status = some .inactive
      · rw [deactivated, if_pos hstatus]
        refine .ended hfind hflush rfl ?_
        cases huser : user.status with
        | active => exact .inl (by simp [UserService.assignUpdate, UserService.deactivates, *])
        | inactive => exact .inr ⟨rfl, by simp [UserService.assignUpdate, UserService.deactivates, *]⟩
      · rw [deactivated, if_neg hstatus]
        refine .kept hfind hflush rfl (by simp [UserService.assignUpdate, UserService.deactivates, *]) ?_
        intro hinactive
        cases hdata : data.status with
        | none => simpa [UserService.assignUpdate, hdata] using hinactive
        | some status =>
            refine absurd ?_ hstatus
            rw [hdata]
            simpa [UserService.assignUpdate, hdata] using hinactive
  | @replace userId data user admins outbox hfind hflush =>
      obtain rfl : user.id = userId := (Table.find?_eq_some.mp hfind).2
      exact .kept hfind hflush rfl rfl id
  | @delete userId user admins outbox hfind hguard hflush =>
      obtain rfl : user.id = userId := (Table.find?_eq_some.mp hfind).2
      exact .ended hfind hflush rfl (.inl rfl)

/-- What the events of a request that ends with `r` are. -/
def outcome (s : Database) (call : Call) : Except Failure (Option TokenResponse) → Option Event
  | .ok answer => call.event s answer
  | .error _ => none

theorem change_login {credentials : LoginRequest} {r : Except Failure TokenResponse}
    (h : (AuthService.login env req credentials).run s = (r, s')) :
    Change s.admins req.refreshJti.str (outcome s (.login credentials) (r.map some))
      s'.admins := by
  rcases AuthService.run_login_inv h with ⟨⟨e, rfl⟩, rfl⟩ | ⟨admin, hadmin, -, hcase⟩
  · exact .same
  have hfind := AuthService.find?_of_adminByEmail hadmin
  rcases hcase with ⟨e, admins, -, hflush, rfl, rfl⟩ | ⟨admins, -, hactive, hflush, rfl, rfl⟩
  · refine .kept hfind hflush ?_ ?_ ?_ <;>
      simp only [AuthService.countFailure, AuthService.liftLock] <;> split <;> split <;>
      simp
  · show Change s.admins _ ((s.adminByEmail credentials.email).map _) admins
    rw [hadmin]
    exact .issued hfind hflush rfl hactive rfl rfl (wellFormed_tokens env req s admin)

theorem change_refresh {refreshToken : EncodedToken} {r : Except Failure TokenResponse}
    (h : (AuthService.refresh env req refreshToken).run s = (r, s')) :
    Change s.admins req.refreshJti.str (outcome s (.refresh refreshToken) (r.map some))
      s'.admins := by
  rcases AuthService.run_refresh_inv h with ⟨⟨e, rfl⟩, rfl⟩ |
    ⟨payload, admin, admins, hdecode, -, haccepts, hflush, rfl, rfl⟩
  · exact .same
  · show Change s.admins _ ((subject refreshToken).map _) admins
    rw [subject_of_decode hdecode, haccepts.userId]
    exact .issued haccepts.found hflush rfl haccepts.active rfl rfl
      (wellFormed_tokens env req s admin)

theorem change_logout {credentials : Option EncodedToken} {r : Except Failure Unit}
    (h : (Api.logout req credentials).run s = (r, s')) :
    Change s.admins req.refreshJti.str (outcome s (.logout credentials) (r.map fun _ => none))
      s'.admins := by
  rcases Api.run_logout_inv h with ⟨⟨e, rfl⟩, rfl⟩ |
    ⟨payload, admin, admins, outbox, hcalls, hflush, rfl, rfl⟩
  · exact .same
  · obtain ⟨token, rfl, hdecode⟩ := hcalls.bears
    show Change s.admins _ ((subject token).map .ended) admins
    rw [subject_of_decode hdecode, hcalls.accepted.userId]
    exact .ended hcalls.accepted.found hflush rfl (.inl rfl)

theorem change_updatePassword {payload : UpdatePasswordRequest}
    {r : Except Failure PlatformAdmin}
    (h : (AuthService.updatePassword env req payload).run s = (r, s')) :
    Change s.admins req.refreshJti.str
      (outcome s (.updatePassword payload) (r.map fun _ => none)) s'.admins := by
  rcases AuthService.run_updatePassword_inv h with ⟨e, history, rfl, rfl⟩ |
    ⟨admin, row, admins, history, hadmin, -, -, -, -, hflush, rfl, rfl⟩
  · exact .same
  · show Change s.admins _ ((s.adminByEmail payload.email).map _) admins
    rw [hadmin]
    exact .ended (AuthService.find?_of_adminByEmail hadmin) hflush rfl (.inl rfl)

theorem change_userOp {op : UserService.Op} {req' : Request} {r : Except Failure Unit}
    {fresh : String} (h : (op.perform env req').run s = (r, s')) :
    Change s.admins fresh (outcome s (.user op) (r.map fun _ => none)) s'.admins := by
  rcases UserService.Op.perform_inv h with ⟨⟨e, rfl⟩, rfl⟩ | ⟨rfl, heffect⟩
  · exact .same
  · exact change_user heffect

/-- **What every request does** to the admins. -/
theorem change_serve (call : Call) :
    Change s.admins req.refreshJti.str (outcome s call (call.serve env req s).1)
      (call.serve env req s).2.admins := by
  cases call with
  | login credentials => exact change_login rfl
  | refresh refreshToken => exact change_refresh rfl
  | logout credentials => exact change_logout rfl
  | updatePassword payload => exact change_updatePassword rfl
  | user op => exact change_userOp rfl
  | generateOtp email =>
      rcases hrun : (AuthService.generateOtp env req email).run s with ⟨r, u⟩
      simp only [Call.serve, hrun, Prod.map]
      rcases AuthService.run_generateOtp_inv hrun with ⟨⟨e, rfl⟩, rfl⟩ | ⟨-, rfl, rfl⟩ |
        ⟨admin, row, otps, -, -, -, -, rfl, rfl⟩
      · exact .same
      · exact .same
      · exact .same
  | verifyOtp payload =>
      rcases hrun : (AuthService.verifyOtp req payload).run s with ⟨r, u⟩
      simp only [Call.serve, hrun, Prod.map]
      rcases AuthService.run_verifyOtp_inv hrun with ⟨⟨e, rfl⟩, rfl⟩ |
        ⟨admin, row, otps, -, -, -, -, -, -, rfl, rfl⟩
      · exact .same
      · exact .same
  | userRoute credentials op =>
      rcases hrun : (Api.guarded req credentials .usersWrite
        fun req _ => op.perform env req).run s with ⟨r, u⟩
      simp only [Call.serve, hrun, Prod.map]
      rcases Api.run_guarded_inv hrun with ⟨⟨e, rfl⟩, rfl⟩ |
        ⟨payload, admin, -, ⟨-, rfl, outbox, rfl⟩ | ⟨-, hserved⟩⟩
      · exact .same
      · exact .same
      · exact change_userOp hserved

end Change

/-! ## What is kept -/

/-- The rows of the admins point to their live sessions, and no two sessions share a `jti`. -/
structure Invariant (admins : Table PlatformAdmin) (history : List Event) : Prop where
  wellFormed : ∀ owner tokens, .issued owner tokens ∈ history → WellFormed owner tokens
  distinct : history.Pairwise fun a b => ∀ j, a.jti = some j → b.jti ≠ some j
  known : ∀ owner tokens, .issued owner tokens ∈ history → (admins.find? owner).isSome
  pointer : ∀ row ∈ admins, row.currentRefreshJti = (live history row.id).bind jti
  inactive : ∀ row ∈ admins, row.status = .inactive → live history row.id = none

theorem mem_of_live {history : List Event} {admin : Uuid} {tokens : TokenResponse}
    (h : live history admin = some tokens) : .issued admin tokens ∈ history := by
  induction history with
  | nil => cases h
  | cons e history ih =>
      cases e with
      | issued owner issued =>
          rw [live] at h
          split at h
          · rename_i howner
            obtain rfl := Option.some.inj h
            rw [howner]
            exact List.mem_cons_self
          · exact List.mem_cons_of_mem _ (ih h)
      | ended owner =>
          rw [live] at h
          split at h
          · cases h
          · exact List.mem_cons_of_mem _ (ih h)

section Step
variable {admins admins' : Table PlatformAdmin} {history : List Event}

/-- Writing an admin back keeps every admin known. -/
theorem isSome_find?_flush {user current : PlatformAdmin}
    (hfind : admins.find? user.id = some user) (hflush : admins.flush user current = .ok admins')
    (hid : current.id = user.id) {owner : Uuid} (h : (admins.find? owner).isSome) :
    (admins'.find? owner).isSome := by
  rw [Table.find?_flush_loaded hflush hfind hid]
  split
  · rfl
  · exact h

/-- Writing an admin back, seen row by row. -/
theorem mem_flush_iff {user current : PlatformAdmin} (hfind : admins.find? user.id = some user)
    (hflush : admins.flush user current = .ok admins') (hid : current.id = user.id)
    {x : PlatformAdmin} : x ∈ admins' ↔ x = current ∨ (x ∈ admins ∧ x.id ≠ user.id) :=
  Table.flush_loaded hflush hfind hid

/-- An admin who keeps the session. -/
theorem Invariant.kept (h : Invariant admins history) {user current : PlatformAdmin}
    (hfind : admins.find? user.id = some user) (hflush : admins.flush user current = .ok admins')
    (hid : current.id = user.id) (hpointer : current.currentRefreshJti = user.currentRefreshJti)
    (hstatus : current.status = .inactive → user.status = .inactive) :
    Invariant admins' history := by
  have hin : user ∈ admins := (Table.find?_eq_some.mp hfind).1
  refine
    { wellFormed := h.wellFormed, distinct := h.distinct
      known := fun owner tokens he => isSome_find?_flush hfind hflush hid (h.known owner tokens he)
      pointer := ?_, inactive := ?_ }
  · intro row hrow
    rcases (mem_flush_iff hfind hflush hid).mp hrow with rfl | ⟨hold, -⟩
    · rw [hpointer, hid]
      exact h.pointer user hin
    · exact h.pointer row hold
  · intro row hrow hinactive
    rcases (mem_flush_iff hfind hflush hid).mp hrow with rfl | ⟨hold, -⟩
    · rw [hid]
      exact h.inactive user hin (hstatus hinactive)
    · exact h.inactive row hold hinactive

/-- An admin who gets a new session, under a `jti` not drawn before. -/
theorem Invariant.issued (h : Invariant admins history) {fresh : String}
    (hfresh : ∀ e ∈ history, e.jti ≠ some fresh) {user current : PlatformAdmin}
    {tokens : TokenResponse} (hfind : admins.find? user.id = some user)
    (hflush : admins.flush user current = .ok admins') (hid : current.id = user.id)
    (hactive : current.status = .active) (hpointer : current.currentRefreshJti = some fresh)
    (hjti : jti tokens = some fresh) (hwell : WellFormed user.id tokens) :
    Invariant admins' (.issued user.id tokens :: history) := by
  refine
    { wellFormed := ?_, distinct := ?_, known := ?_, pointer := ?_, inactive := ?_ }
  · intro owner other he
    rcases List.mem_cons.mp he with heq | he
    · obtain ⟨rfl, rfl⟩ := Event.issued.inj heq
      exact hwell
    · exact h.wellFormed owner other he
  · refine List.pairwise_cons.mpr ⟨fun e he j hj => ?_, h.distinct⟩
    obtain rfl : fresh = j := Option.some.inj (hjti.symm.trans hj)
    exact hfresh e he
  · intro owner other he
    rcases List.mem_cons.mp he with heq | he
    · obtain ⟨rfl, rfl⟩ := Event.issued.inj heq
      exact isSome_find?_flush hfind hflush hid (by rw [hfind]; rfl)
    · exact isSome_find?_flush hfind hflush hid (h.known owner other he)
  · intro row hrow
    show _ = (if user.id = row.id then some tokens else live history row.id).bind jti
    rcases (mem_flush_iff hfind hflush hid).mp hrow with rfl | ⟨hold, hne⟩
    · rw [if_pos hid.symm, Option.bind_some, hjti, hpointer]
    · rw [if_neg (Ne.symm hne)]
      exact h.pointer row hold
  · intro row hrow hinactive
    show (if user.id = row.id then some tokens else live history row.id) = none
    rcases (mem_flush_iff hfind hflush hid).mp hrow with rfl | ⟨hold, hne⟩
    · cases hactive.symm.trans hinactive
    · rw [if_neg (Ne.symm hne)]
      exact h.inactive row hold hinactive

/-- An admin whose session is ended. -/
theorem Invariant.ended (h : Invariant admins history) {user current : PlatformAdmin}
    (hfind : admins.find? user.id = some user) (hflush : admins.flush user current = .ok admins')
    (hid : current.id = user.id)
    (hpointer : current.currentRefreshJti = none ∨
      (user.status = .inactive ∧ current.currentRefreshJti = user.currentRefreshJti)) :
    Invariant admins' (.ended user.id :: history) := by
  have hin : user ∈ admins := (Table.find?_eq_some.mp hfind).1
  -- an inactive admin had no session to keep
  have hnone : current.currentRefreshJti = none := by
    rcases hpointer with hnone | ⟨hinactive, hkept⟩
    · exact hnone
    · rw [hkept, h.pointer user hin, h.inactive user hin hinactive, Option.bind_none]
  have hold : ∀ owner tokens, Event.issued owner tokens ∈ Event.ended user.id :: history →
      Event.issued owner tokens ∈ history := fun owner tokens he => by simpa using he
  refine
    { wellFormed := fun owner tokens he => h.wellFormed owner tokens (hold owner tokens he)
      distinct := List.pairwise_cons.mpr ⟨fun e _ j hj => (by cases hj), h.distinct⟩
      known := fun owner tokens he =>
        isSome_find?_flush hfind hflush hid (h.known owner tokens (hold owner tokens he))
      pointer := ?_, inactive := ?_ }
  · intro row hrow
    show _ = (if user.id = row.id then none else live history row.id).bind jti
    rcases (mem_flush_iff hfind hflush hid).mp hrow with rfl | ⟨hold, hne⟩
    · rw [if_pos hid.symm, Option.bind_none, hnone]
    · rw [if_neg (Ne.symm hne)]
      exact h.pointer row hold
  · intro row hrow hinactive
    show (if user.id = row.id then none else live history row.id) = none
    rcases (mem_flush_iff hfind hflush hid).mp hrow with rfl | ⟨hold, hne⟩
    · rw [if_pos hid.symm]
    · rw [if_neg (Ne.symm hne)]
      exact h.inactive row hold hinactive

/-- A new admin. -/
theorem Invariant.inserted (h : Invariant admins history) {row : PlatformAdmin}
    (hinsert : admins.insert row = some admins') (hnone : row.currentRefreshJti = none) :
    Invariant admins' history := by
  -- sessions were issued to admins in the table only, and the id is new to it
  have hunknown : live history row.id = none := by
    cases hlive : live history row.id with
    | none => rfl
    | some tokens =>
        obtain ⟨old, hold⟩ := Option.isSome_iff_exists.mp (h.known _ _ (mem_of_live hlive))
        obtain ⟨hin, hid⟩ := Table.find?_eq_some.mp hold
        exact absurd (Row.of_key hid) (Table.not_clash_of_insert hinsert hin)
  refine
    { wellFormed := h.wellFormed, distinct := h.distinct, known := ?_, pointer := ?_
      inactive := ?_ }
  · intro owner tokens he
    rw [Table.find?_insert hinsert]
    split
    · rfl
    · exact h.known owner tokens he
  · intro x hx
    rcases (Table.mem_insert hinsert).mp hx with hold | rfl
    · exact h.pointer x hold
    · show _ = (live history x.id).bind jti
      rw [hunknown, hnone, Option.bind_none]
  · intro x hx hinactive
    rcases (Table.mem_insert hinsert).mp hx with hold | rfl
    · exact h.inactive x hold hinactive
    · exact hunknown

/-- **One request keeps the invariant.** -/
theorem Invariant.change (h : Invariant admins history) {fresh : String} {e : Option Event}
    (hchange : Change admins fresh e admins') (hfresh : ∀ e ∈ history, e.jti ≠ some fresh) :
    Invariant admins' (e.toList ++ history) := by
  cases hchange with
  | same => exact h
  | kept hfind hflush hid hpointer hstatus => exact h.kept hfind hflush hid hpointer hstatus
  | issued hfind hflush hid hactive hpointer hjti hwell =>
      exact h.issued hfresh hfind hflush hid hactive hpointer hjti hwell
  | ended hfind hflush hid hpointer => exact h.ended hfind hflush hid hpointer
  | inserted hinsert hnone => exact h.inserted hinsert hnone

theorem Invariant.eq_of_jti (h : Invariant admins history) {a b : Event} {j : String}
    (ha : a ∈ history) (hb : b ∈ history) (hja : a.jti = some j) (hjb : b.jti = some j) :
    a = b := by
  by_contra hne
  have hsymm : Std.Symm fun a b : Event => ∀ j, a.jti = some j → b.jti ≠ some j :=
    ⟨fun a b hab j hb ha => hab j ha hb⟩
  exact h.distinct.forall ha hb hne j hja hjb

end Step

/-! ## The result -/

/-- The platform takes a token as the admin's. -/
def Accepted (s : Database) (now : Instant) (token : EncodedToken) (admin : PlatformAdmin) :
    Prop :=
  ∃ payload, decodeToken now token = some payload ∧
    (AuthService.getAdminFromPayload payload).run s = (.ok admin, s)

/-- The token is one of the admin's live session, and has not expired. -/
def OfLiveSession (st : State) (now : Instant) (token : EncodedToken) (admin : PlatformAdmin) :
    Prop :=
  admin ∈ st.db.admins ∧ (decodeToken now token).isSome ∧
    ∃ tokens, live st.history admin.id = some tokens ∧ token ∈ pair tokens

/-- What holds of tokens and sessions in a state, and of the requests served in it. -/
structure SingleSession (env : Env) (st : State) : Prop where
  /-- The tokens accepted for an admin are those of the live session. -/
  accepted : ∀ now token admin, unforged st.history token →
    (Accepted st.db now token admin ↔ OfLiveSession st now token admin)
  inactive : ∀ admin ∈ st.db.admins, admin.status = .inactive → admin.currentRefreshJti = none
  /-- A request with any other token changes nothing. -/
  other : ∀ req call token st', (machine env).step (req, call) st = some st' →
    call.token = some token → (∀ admin, ¬ OfLiveSession st req.now token admin) → st' = st

section Result
variable {env : Env} {st : State}

/-- A token of a session names its admin and its refresh token. -/
theorem WellFormed.of_mem_pair {owner : Uuid} {tokens : TokenResponse} {payload : TokenPayload}
    (h : WellFormed owner tokens) (hmem : .signed payload ∈ pair tokens) :
    payload.userId = some owner ∧ payload.type ∈ ["access", "refresh"] ∧
      AuthService.presented payload = jti tokens ∧ (jti tokens).isSome := by
  obtain ⟨access, refresh, haccess, hrefresh, huser, huser', htype, htype', hrjti⟩ := h.signed
  have hjti : jti tokens = some refresh.jti := by rw [jti, hrefresh]
  rw [pair, haccess, hrefresh] at hmem
  rw [hjti]
  rcases List.mem_cons.mp hmem with heq | hmem
  · obtain rfl := EncodedToken.signed.inj heq
    exact ⟨huser, by simp [htype], by rw [AuthService.presented, if_pos htype, hrjti], rfl⟩
  · obtain rfl := EncodedToken.signed.inj (List.mem_singleton.mp hmem)
    exact ⟨huser', by simp [htype'], by simp [AuthService.presented, htype'], rfl⟩

theorem accepts_iff (h : Invariant st.db.admins st.history) {now : Instant}
    {token : EncodedToken} {payload : TokenPayload} {admin : PlatformAdmin}
    (hdecode : decodeToken now token = some payload) (hunforged : unforged st.history token) :
    AuthService.Accepts st.db payload admin ↔ OfLiveSession st now token admin := by
  obtain ⟨rfl, -⟩ := decodeToken_eq_some.mp hdecode
  constructor
  · rintro ⟨-, hfound, -, -, hcurrent, hpresented⟩
    have hin : admin ∈ st.db.admins := (Table.find?_eq_some.mp hfound).1
    refine ⟨hin, by rw [hdecode]; rfl, ?_⟩
    -- the session the token is of has the `jti` of the live one, so it is the live one
    obtain ⟨e, he, htokens⟩ := List.any_eq_true.mp hunforged
    obtain ⟨issued, hissued, hpair⟩ := (Option.any_eq_true _ _).mp htokens
    obtain ⟨owner, rfl⟩ : ∃ owner, e = .issued owner issued := by
      cases e with
      | issued owner tokens => exact ⟨owner, by rw [Option.some.inj hissued]⟩
      | ended owner => cases hissued
    obtain ⟨-, -, hjti, hsome⟩ := (h.wellFormed _ _ he).of_mem_pair (of_decide_eq_true hpair)
    obtain ⟨j, hj⟩ := Option.isSome_iff_exists.mp hsome
    have hlive : (live st.history admin.id).bind jti = some j := by
      rw [← h.pointer admin hin, ← hpresented, hjti, hj]
    obtain ⟨tokens, htokens, hj'⟩ := Option.bind_eq_some_iff.mp hlive
    obtain ⟨-, rfl⟩ := Event.issued.inj (h.eq_of_jti he (mem_of_live htokens) hj hj')
    exact ⟨issued, htokens, of_decide_eq_true hpair⟩
  · rintro ⟨hin, -, tokens, hlive, hpair⟩
    obtain ⟨huser, hkind, hpresented, hsome⟩ :=
      (h.wellFormed _ _ (mem_of_live hlive)).of_mem_pair hpair
    have hpointer : admin.currentRefreshJti = jti tokens := by
      rw [h.pointer admin hin, hlive, Option.bind_some]
    refine ⟨huser, Table.find?_eq_some.mpr ⟨hin, rfl⟩, ?_, hkind, by rwa [hpointer],
      hpresented.trans hpointer.symm⟩
    cases hstatus : admin.status with
    | active => rfl
    | inactive =>
        rw [h.inactive admin hin hstatus] at hlive
        cases hlive

theorem accepted_iff (h : Invariant st.db.admins st.history) {now : Instant}
    {token : EncodedToken} {admin : PlatformAdmin} (hunforged : unforged st.history token) :
    Accepted st.db now token admin ↔ OfLiveSession st now token admin := by
  constructor
  · rintro ⟨payload, hdecode, hrun⟩
    exact (accepts_iff h hdecode hunforged).mp (AuthService.run_getAdminFromPayload_iff.mp hrun)
  · intro hlive
    obtain ⟨payload, hdecode⟩ := Option.isSome_iff_exists.mp hlive.2.1
    exact ⟨payload, hdecode,
      AuthService.run_getAdminFromPayload_iff.mpr ((accepts_iff h hdecode hunforged).mpr hlive)⟩

/-- A request that bears a token and is not refused bears one that is accepted. -/
theorem serve_of_not_accepted (env : Env) {req : Request} {call : Call} {token : EncodedToken}
    {s : Database} (htoken : call.token = some token)
    (hnone : ∀ payload admin, decodeToken req.now token = some payload →
      ¬ AuthService.Accepts s payload admin) :
    ∃ e, call.serve env req s = (.error e, s) := by
  cases call with
  | refresh refreshToken =>
      obtain rfl := Option.some.inj htoken
      rcases hrun : (AuthService.refresh env req refreshToken).run s with ⟨r, u⟩
      rcases AuthService.run_refresh_inv hrun with ⟨⟨e, rfl⟩, rfl⟩ |
        ⟨payload, admin, -, hdecode, -, haccepts, -⟩
      · exact ⟨e, by rw [Call.serve, hrun]; rfl⟩
      · exact absurd haccepts (hnone payload admin hdecode)
  | logout credentials =>
      rcases hrun : (Api.logout req credentials).run s with ⟨r, u⟩
      rcases Api.run_logout_inv hrun with ⟨⟨e, rfl⟩, rfl⟩ | ⟨payload, admin, -, -, hcalls, -⟩
      · exact ⟨e, by rw [Call.serve, hrun]; rfl⟩
      · obtain ⟨presented, hbears, hdecode⟩ := hcalls.bears
        obtain rfl : token = presented := Option.some.inj (htoken.symm.trans hbears)
        exact absurd hcalls.accepted (hnone payload admin hdecode)
  | userRoute credentials op =>
      rcases hrun : (Api.guarded req credentials .usersWrite
        fun req _ => op.perform env req).run s with ⟨r, u⟩
      rcases Api.run_guarded_inv hrun with ⟨⟨e, rfl⟩, rfl⟩ | ⟨payload, admin, hcalls, -⟩
      · exact ⟨e, by rw [Call.serve, hrun]; rfl⟩
      · obtain ⟨presented, hbears, hdecode⟩ := hcalls.bears
        obtain rfl : token = presented := Option.some.inj (htoken.symm.trans hbears)
        exact absurd hcalls.accepted (hnone payload admin hdecode)
  | _ => cases htoken

theorem next_eq (req : Request) (call : Call) (st : State) :
    next env req call st =
      ⟨(call.serve env req st.db).2,
        (outcome st.db call (call.serve env req st.db).1).toList ++ st.history⟩ := by
  unfold next
  rcases call.serve env req st.db with ⟨answer | e, db⟩ <;> rfl

theorem Invariant.step (h : Invariant st.db.admins st.history) {l : Request × Call} {st' : State}
    (hstep : (machine env).step l st = some st') : Invariant st'.db.admins st'.history := by
  simp only [machine, Option.ite_none_right_eq_some, Option.some.injEq] at hstep
  obtain ⟨hadmissible, rfl⟩ := hstep
  obtain ⟨hfresh, -⟩ := (Bool.and_eq_true _ _).mp hadmissible
  rw [next_eq]
  refine h.change (change_serve l.2) fun e he => ?_
  simpa using List.all_eq_true.mp hfresh e he

theorem Invariant.init (h : (machine env).init st) : Invariant st.db.admins st.history := by
  obtain ⟨hhistory, hpointers⟩ := h
  rw [hhistory]
  exact
    { wellFormed := fun _ _ he => (by cases he), distinct := .nil
      known := fun _ _ he => (by cases he), pointer := hpointers
      inactive := fun _ _ _ => rfl }

theorem Invariant.of_reachable (h : (machine env).Reachable st) :
    Invariant st.db.admins st.history :=
  Machine.Reachable.invariant (I := fun st => Invariant st.db.admins st.history)
    (fun _ h => .init h) (fun _ _ _ hs hstep => hs.step hstep) h

/-- **Every admin has a single live session.** However many requests were served, in
whatever order: the tokens accepted for an admin are the unexpired ones of the session that
was issued last and has not been ended since; an inactive admin points to no session; and a
request that bears any other token changes nothing. -/
theorem single_session (h : (machine env).Reachable st) : SingleSession env st := by
  have hI := Invariant.of_reachable h
  refine ⟨fun now token admin hunforged => accepted_iff hI hunforged, ?_, ?_⟩
  · intro admin hin hinactive
    rw [hI.pointer admin hin, hI.inactive admin hin hinactive, Option.bind_none]
  · intro req call token st' hstep htoken hother
    simp only [machine, Option.ite_none_right_eq_some, Option.some.injEq] at hstep
    obtain ⟨hadmissible, rfl⟩ := hstep
    obtain ⟨-, hunforged⟩ := (Bool.and_eq_true _ _).mp hadmissible
    rw [htoken, Option.all_some] at hunforged
    obtain ⟨e, hserve⟩ := serve_of_not_accepted env htoken
      fun payload admin hdecode haccepts =>
        hother admin ((accepts_iff hI hdecode hunforged).mp haccepts)
    rw [next, hserve]

end Result

open Administration (sampleEnv sampleState sampleRequest)

/-- An admin is created, logs in, exchanges the refresh token and is deactivated. -/
def sampleCalls : List (Request × Call) :=
  [(sampleRequest 1, .user (.create
      { name := "admin3", email := "admin3@example.com", password := "Secret-1" })),
    (sampleRequest 2, .login { email := "admin3@example.com", password := "Secret-1" }),
    (sampleRequest 3, .refresh (.signed
      { userId := some (.ofNat 101), jti := (Uuid.ofNat 302).str, exp := 604802
        type := "refresh", extra := none })),
    (sampleRequest 4, .user (.delete (.ofNat 101)))]

/-- Two sessions are issued on the way, and the deactivation ends the second one. -/
theorem single_session_sampleCalls :
    ∃ st, (machine sampleEnv).exec sampleCalls ⟨sampleState, []⟩ = some st ∧
      st.history.length = 3 ∧ SingleSession sampleEnv st := by
  have hlength : ((machine sampleEnv).exec sampleCalls ⟨sampleState, []⟩).map
      (fun st => st.history.length) = some 3 := by decide +kernel
  obtain ⟨st, hexec, hst⟩ := Option.map_eq_some_iff.mp hlength
  have hinit : (machine sampleEnv).init ⟨sampleState, []⟩ :=
    ⟨rfl, show ∀ admin ∈ sampleState.admins, admin.currentRefreshJti = none by decide⟩
  exact ⟨st, hexec, hst, single_session (Machine.reachable_of_exec hinit hexec)⟩

end Sessions
end AdminPlatform
