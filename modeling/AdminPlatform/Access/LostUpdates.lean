import AdminPlatform.Access.Seeded
import AdminPlatform.Lib.CompareAndSwap
import AdminPlatform.Services.Auth

/-! # The security counters, under concurrent requests

`login` and `generate_otp` read a row, compute from what they read, and write the result back
with nothing in between that would notice another write. Here any number of them run
interleaved, statement by statement, on one account.

While every write finds the row as its request read it, the requests move as the clients of
`CompareAndSwap` do, so no failure and no request is lost (`counters_kept`). Two requests that
both read before either writes lose one (`failure_lost`). -/

namespace AdminPlatform
open AdminPlatform.Lib

namespace LostUpdates
open CompareAndSwap

/-! ## Writes on a row as it was read -/

/-- The row an update was computed from is still what it was. -/
def isFresh (s : Database) : Write → Bool
  | .updateAdmin loaded _ => s.admins.find? loaded.id = some loaded
  | .updateOtp loaded _ => s.otps.find? loaded.email = some loaded
  | _ => true

/-- If the statement a thread issues next is an update, its row is as the thread read it. -/
def Fresh {ι : Type} (t : Program.Threads Sql Failure Database ι) (i : ι) : Prop :=
  (match t.thread i with
    | .call (.commit w _) _ => isFresh t.shared w
    | _ => true) = true

instance {ι : Type} (t : Program.Threads Sql Failure Database ι) (i : ι) : Decidable (Fresh t i) :=
  inferInstanceAs (Decidable (_ = true))

variable {n : Nat}

abbrev State (n : Nat) := Program.Threads Sql Failure Database (Fin n)

/-- The given threads, taking turns. -/
def machine (threads : State n) : Machine (State n) (Fin n) :=
  Program.interleave exec fun t => t = threads

/-- A program that commits nothing. -/
abbrev CommitsNothing {α : Type} (p : Db α) : Prop := p.Writes fun _ => False

theorem fresh_commit {t : State n} {i : Fin n} {w : Write} {g : Unit → Db Unit}
    (h : Fresh t i) (hthread : t.thread i = commit w >>= g) : isFresh t.shared w = true := by
  unfold Fresh at h
  rw [hthread] at h
  exact h

/-- A turn of a thread that commits nothing changes nothing. -/
theorem turn_commitsNothing {t t' : State n} {i : Fin n} (h : CommitsNothing (t.thread i))
    (hturn : Program.turn exec i t = some t') :
    ∃ p, CommitsNothing p ∧ t' = ⟨t.shared, Function.update t.thread i p⟩ := by
  obtain ⟨rest, hrest, hthread, hcommit⟩ := Db.Writes.turn_inv h hturn
  rcases hcommit with hshared | ⟨_, _, _, _, -, hw, -⟩
  · refine ⟨rest, hrest, ?_⟩
    obtain ⟨shared, thread⟩ := t'
    obtain rfl : shared = t.shared := hshared
    obtain rfl : thread = _ := hthread
    rfl
  · exact absurd hw id

/-! ## Logins with a wrong password -/

structure Attempt where
  req : Request
  password : String

def Attempt.credentials (a : Attempt) (email : String) : LoginRequest := ⟨email, a.password⟩

/-- Attempts to log in to one account, at the same time. -/
def loginThreads (env : Env) (email : String) (attempts : Fin n → Attempt) (s : Database) :
    State n where
  shared := s
  thread i := drop (AuthService.login env (attempts i).req ((attempts i).credentials email))

/-- The same attempts, one after another. -/
def serveLogins (env : Env) (email : String) (attempts : Fin n → Attempt) (s : Database)
    (order : List (Fin n)) : Database :=
  order.foldl
    (fun u i =>
      ((AuthService.login env (attempts i).req ((attempts i).credentials email)).run u).2) s

/-- What an attempt makes of the row it reads: nothing while the account is locked. -/
def attempted (env : Env) (a : Attempt) (row : PlatformAdmin) : Option PlatformAdmin :=
  if AuthService.locked a.req.now row then none
  else some (AuthService.countFailure env a.req (AuthService.liftLock row))

/-- What each of the attempts makes of the row it reads. -/
def attempting (env : Env) (attempts : Fin n → Attempt) (i : Fin n) :
    PlatformAdmin → Option PlatformAdmin := attempted env (attempts i)

/-- What is left of an attempt once its failure is written. -/
def afterFailure (row : PlatformAdmin) (e : AppError) (_ : Unit) : Db Unit :=
  refresh Database.admins row.id >>= fun _ => (raise e : Db TokenResponse) >>= fun _ => pure ()

theorem commitsNothing_afterFailure (row : PlatformAdmin) (e : AppError) :
    CommitsNothing (afterFailure row e ()) :=
  (Db.writes_refresh _ _).bind fun _ => (Db.writes_throw _).bind fun _ => Db.writes_pure _

section Login
variable {env : Env} {email : String} {a : Attempt} {row : PlatformAdmin}

/-- **A login up to its commit.** It looks the account up, and with a wrong password it raises
or writes the failure. -/
theorem login_eq (env : Env) (email : String) (a : Attempt) :
    ∃ f, drop (AuthService.login env a.req (a.credentials email)) =
        query (fun s => s.adminByEmail email) >>= f ∧
      ∀ row, env.bcrypt.verifyPassword a.password row.hashedPassword = false →
        (attempted env a row = none → f (some row) = throw (.app .accountLocked)) ∧
        ∀ row', attempted env a row = some row' →
          ∃ g, f (some row) = commit (.updateAdmin row row') >>= g ∧ CommitsNothing (g ()) := by
  refine ⟨_, Program.bind_bind _ _ _, fun row hwrong => ⟨fun hnone => ?_, fun row' hsome => ?_⟩⟩
  · have hlocked : AuthService.locked a.req.now row = true := by
      by_contra hunlocked
      rw [attempted, if_neg hunlocked] at hnone
      cases hnone
    dsimp only
    rw [hlocked]
    rfl
  · have hunlocked : AuthService.locked a.req.now row = false := by
      rw [attempted] at hsome
      split at hsome
      · cases hsome
      · exact Bool.eq_false_iff.mpr ‹_›
    rw [attempted, hunlocked] at hsome
    obtain rfl := Option.some.inj hsome
    have hhash : (AuthService.liftLock row).hashedPassword = row.hashedPassword := by
      unfold AuthService.liftLock
      split <;> rfl
    have hcheck : env.bcrypt.verifyPassword (a.credentials email).password
        (AuthService.liftLock row).hashedPassword = false := by rw [hhash]; exact hwrong
    dsimp only
    rw [hunlocked, hcheck]
    -- the failure that is written either locks the account or is counted
    show ∃ g, drop (AuthService.rejectPassword env a.req row (AuthService.liftLock row)) = _ ∧ _
    unfold AuthService.rejectPassword AuthService.countFailure
    dsimp only
    split
    · refine ⟨afterFailure row .accountLocked, ?_, commitsNothing_afterFailure _ _⟩
      rw [AuthRepository.saveAdmin, writeAdmin, save, drop, Program.bind_bind, Program.bind_bind]
      rfl
    · refine ⟨afterFailure row .invalidCredentials, ?_, commitsNothing_afterFailure _ _⟩
      rw [AuthRepository.saveAdmin, writeAdmin, save, drop, Program.bind_bind, Program.bind_bind]
      rfl

/-- A counted failure keeps what identifies the account, and its password. -/
theorem columns_attempted {row' : PlatformAdmin} (h : attempted env a row = some row') :
    row'.id = row.id ∧ row'.email = row.email ∧ row'.username = row.username ∧
      row'.hashedPassword = row.hashedPassword := by
  unfold attempted at h
  split at h
  · cases h
  · obtain rfl := Option.some.inj h
    exact AuthService.columns_countFailure env a.req row

end Login

/-! ### The attempts as clients of the row -/

/-- Where an attempt stands. -/
inductive LoginStage (env : Env) (email : String) (a : Attempt) :
    Db Unit → Client PlatformAdmin → Prop
  | idle : LoginStage env email a
      (drop (AuthService.login env a.req (a.credentials email))) .idle
  | holding {seen row : PlatformAdmin} {g : Unit → Db Unit}
      (hemail : seen.email = email) (hrow : attempted env a seen = some row)
      (hg : CommitsNothing (g ())) :
      LoginStage env email a (commit (.updateAdmin seen row) >>= g) (.holding seen)
  | served {p : Db Unit} {q : Client PlatformAdmin} (hp : CommitsNothing p)
      (hq : q = .wrote ∨ q = .refused) : LoginStage env email a p q

/-- Threads and shared state, seen as the cell that holds the account's row. -/
structure LoginSim (env : Env) (email hash : String) (attempts : Fin n → Attempt) (t : State n)
    (c : Cell PlatformAdmin (Fin n)) : Prop where
  row : t.shared.adminByEmail email = some c.value
  hash : c.value.hashedPassword = hash
  stage : ∀ i, LoginStage env email (attempts i) (t.thread i) (c.client i)

/-- One thread and its client go on, the others stay where they are. -/
theorem stage_put {σ : Type} {Stage : Fin n → Db Unit → Client σ → Prop} {t : State n}
    {c : Cell σ (Fin n)} (h : ∀ j, Stage j (t.thread j) (c.client j)) {i : Fin n} {p : Db Unit}
    {q : Client σ} (hi : Stage i p q) (x : σ) (j : Fin n) :
    Stage j (Function.update t.thread i p j) ((c.put x i q).client j) := by
  rw [Function.update_apply, client_put]
  split
  · rename_i hj
    rw [hj]
    exact hi
  · exact h j

/-- A thread goes on without its client. -/
theorem stage_stay {σ : Type} {Stage : Fin n → Db Unit → Client σ → Prop} {t : State n}
    {c : Cell σ (Fin n)} (h : ∀ j, Stage j (t.thread j) (c.client j)) {i : Fin n} {p : Db Unit}
    (hi : Stage i p (c.client i)) (j : Fin n) :
    Stage j (Function.update t.thread i p j) (c.client j) := by
  rw [Function.update_apply]
  split
  · rename_i hj
    rw [hj]
    exact hi
  · exact h j

section LoginSim
variable {env : Env} {email hash : String} {attempts : Fin n → Attempt} {t t' : State n}
  {c : Cell PlatformAdmin (Fin n)} {i : Fin n} {row : PlatformAdmin}

/-- **A turn is a move** of the clients, or none, as long as updates are fresh. -/
theorem LoginSim.turn (h : LoginSim env email hash attempts t c)
    (hwrong : ∀ i, env.bcrypt.verifyPassword (attempts i).password hash = false)
    (hfresh : Fresh t i) (hturn : Program.turn exec i t = some t') :
    ∃ c', Relation.ReflTransGen (Move (attempting env attempts)) c c' ∧
      LoginSim env email hash attempts t' c' := by
  have hstage := h.stage i
  generalize hthread : t.thread i = p at hstage
  generalize hclient : c.client i = q at hstage
  cases hstage with
  -- the statement that reads the admin
  | idle =>
      obtain ⟨f, hlogin, hlookup⟩ := login_eq env email (attempts i)
      obtain rfl := Option.some.inj
        (hturn.symm.trans (Db.turn_query (hthread.trans hlogin)))
      rw [h.row]
      obtain ⟨hnone, hsome⟩ := hlookup c.value (by rw [h.hash]; exact hwrong i)
      cases hattempted : attempted env (attempts i) c.value with
      | none =>
          rw [hnone hattempted]
          exact ⟨_, .single (.refuse hclient hattempted), h.row, h.hash,
            stage_put h.stage (.served (Db.writes_throw _) (.inr rfl)) _⟩
      | some row' =>
          obtain ⟨g, hg, hrest⟩ := hsome row' hattempted
          rw [hg]
          exact ⟨_, .single (.hold hclient hattempted), h.row, h.hash,
            stage_put h.stage
            (.holding (Database.adminByEmail_eq_some.mp h.row).2 hattempted hrest) _⟩
  -- the commit of the failure: it is fresh, so it swaps what was read
  | @holding seen row' g hemail hrow hg =>
      have hseen : t.shared.admins.find? seen.id = some seen :=
        of_decide_eq_true (fresh_commit hfresh hthread)
      have hadmin : t.shared.adminByEmail email = some seen :=
        Database.adminByEmail_eq_some.mpr ⟨(Table.find?_eq_some.mp hseen).1, hemail⟩
      obtain rfl : seen = c.value := Option.some.inj (hadmin.symm.trans h.row)
      obtain ⟨hid, hsame, husername, hhash⟩ := columns_attempted hrow
      obtain ⟨admins, hflush⟩ := exists_flushAdmin hseen hsame husername
      have happly : (Write.updateAdmin c.value row').apply t.shared =
          .ok { t.shared with admins := admins } := by
        rw [Write.apply, hflush]
        rfl
      obtain rfl := Option.some.inj (hturn.symm.trans (Db.turn_commit_ok hthread happly))
      refine ⟨_, .single (.swap hclient hrow), ?_, hhash.trans h.hash,
        stage_put h.stage (.served hg (.inl rfl)) _⟩
      exact (AuthService.adminByEmail_flush hadmin hflush hid hsame email).trans (if_pos rfl)
  | served hp hq =>
      obtain ⟨p', hp', rfl⟩ := turn_commitsNothing (by rw [hthread]; exact hp) hturn
      exact ⟨c, .refl, h.row, h.hash, stage_stay h.stage (.served hp' (by rwa [hclient]))⟩

/-- Every state reached is that of clients that compare and swap. -/
theorem LoginSim.of_run {account : PlatformAdmin} {s₀ : Database}
    (haccount : s₀.adminByEmail email = some account)
    (hwrong : ∀ i, env.bcrypt.verifyPassword (attempts i).password account.hashedPassword = false)
    {trace : List (State n × Fin n)}
    (h : (machine (loginThreads env email attempts s₀)).Run trace t)
    (hfresh : ∀ p ∈ trace, Fresh p.1 p.2) :
    ∃ c, Relation.ReflTransGen (Move (attempting env attempts))
        ⟨account, fun _ => .idle⟩ c ∧
      LoginSim env email account.hashedPassword attempts t c := by
  refine h.invariant_while (I := fun t => ∃ c, Relation.ReflTransGen
    (Move (attempting env attempts)) ⟨account, fun _ => .idle⟩ c ∧
      LoginSim env email account.hashedPassword attempts t c) ?_ ?_ hfresh
  · rintro _ rfl
    exact ⟨_, .refl, haccount, rfl, fun _ => .idle⟩
  · rintro u i u' ⟨c, hreach, hsim⟩ hfresh hturn
    obtain ⟨c', hmoves, hsim'⟩ := hsim.turn hwrong hfresh hturn
    exact ⟨c', hreach.trans hmoves, hsim'⟩

/-- Once an attempt has ended, its client has been served. -/
theorem LoginSim.served_of_ended (h : LoginSim env email hash attempts t c)
    (hended : (t.thread i).Ended) : c.served i := by
  have hstage := h.stage i
  generalize t.thread i = p at hstage hended
  generalize hclient : c.client i = q at hstage
  cases hstage with
  | idle => exact hended.elim
  | holding _ _ _ => exact hended.elim
  | served hp hq => rwa [Cell.served, hclient]

/-! ### The attempts one after another -/

theorem attempting_locked (h : AuthService.locked (attempts i).req.now row = true) :
    attempting env attempts i row = none := if_pos h

theorem attempting_unlocked (h : AuthService.locked (attempts i).req.now row = false) :
    attempting env attempts i row =
      some (AuthService.countFailure env (attempts i).req (AuthService.liftLock row)) :=
  if_neg (Bool.eq_false_iff.mp h)

/-- Serving the attempts serves the clients of the row. -/
theorem adminByEmail_serveLogins {s : Database} (hrow : s.adminByEmail email = some row)
    (hwrong : ∀ i, env.bcrypt.verifyPassword (attempts i).password row.hashedPassword = false)
    (order : List (Fin n)) :
    (serveLogins env email attempts s order).adminByEmail email =
      some (serve (attempting env attempts) row order) := by
  induction order generalizing s row with
  | nil => exact hrow
  | cons i order ih =>
      rw [serve_cons, serveLogins, List.foldl_cons]
      cases hlocked : AuthService.locked (attempts i).req.now row with
      | true =>
          have hrun : (AuthService.login env (attempts i).req
              ((attempts i).credentials email)).run s = (.error (.app .accountLocked), s) :=
            AuthService.run_login_locked hrow hlocked
          rw [hrun, apply_none (attempting_locked hlocked)]
          exact ih hrow hwrong
      | false =>
          have hcheck : env.bcrypt.verifyPassword ((attempts i).credentials email).password
              row.hashedPassword = false := hwrong i
          obtain ⟨e, admins, hflush, hrun⟩ := AuthService.run_login_wrong hrow hlocked hcheck
          obtain ⟨hid, hemail, -, hhash⟩ :=
            AuthService.columns_countFailure env (attempts i).req row
          rw [hrun, apply_some (attempting_unlocked hlocked)]
          refine ih ?_ fun j => by rw [hhash]; exact hwrong j
          exact (AuthService.adminByEmail_flush hrow hflush hid hemail email).trans (if_pos rfl)

/-- The account is locked, by one of the attempts. -/
def LockedByOne (env : Env) (attempts : Fin n → Attempt) (row : PlatformAdmin) : Prop :=
  ∃ i, row.lockedUntil =
    some ((attempts i).req.now + Instant.minutes env.settings.lockoutMinutes)

/-- Any two attempts come within the time an account stays locked. -/
def Close (env : Env) (attempts : Fin n → Attempt) : Prop :=
  ∀ i j, (attempts i).req.now <
    (attempts j).req.now + Instant.minutes env.settings.lockoutMinutes

/-- A lock holds as long as the attempts last. -/
theorem LockedByOne.serve (h : LockedByOne env attempts row) (hclose : Close env attempts)
    (order : List (Fin n)) :
    CompareAndSwap.serve (attempting env attempts) row order = row := by
  induction order with
  | nil => rfl
  | cons i order ih =>
      obtain ⟨j, hj⟩ := h
      have hlocked : AuthService.locked (attempts i).req.now row = true := by
        rw [AuthService.locked, hj, Option.any_some]
        exact decide_eq_true (hclose i j)
      rw [serve_cons, apply_none (attempting_locked hlocked), ih]

/-- Where the account is not locked and has no lock to lift, every attempt counts. -/
theorem lockedByOne_of_count (hclose : Close env attempts) (hnone : row.lockedUntil = none)
    {order : List (Fin n)} (hpos : order ≠ [])
    (hcount : env.settings.maxFailedLoginAttempts ≤ row.failedLoginAttempts + order.length) :
    LockedByOne env attempts (serve (attempting env attempts) row order) := by
  induction order generalizing row with
  | nil => exact absurd rfl hpos
  | cons i order ih =>
      have hlocked : AuthService.locked (attempts i).req.now row = false := by
        rw [AuthService.locked, hnone]
        rfl
      have hlift : AuthService.liftLock row = row := by
        rw [AuthService.liftLock, hnone]
        rfl
      rw [serve_cons, apply_some (attempting_unlocked hlocked), hlift, AuthService.countFailure]
      split
      · have hone : LockedByOne env attempts { row with
            lockedUntil :=
              some ((attempts i).req.now + Instant.minutes env.settings.lockoutMinutes)
            failedLoginAttempts := 0 } := ⟨i, rfl⟩
        rw [hone.serve hclose]
        exact hone
      · rename_i hbelow
        rw [List.length_cons] at hcount
        refine ih hnone ?_ ?_
        · rintro rfl
          exact hbelow hcount
        · show _ ≤ row.failedLoginAttempts + 1 + order.length
          omega

/-- **Enough failures lock the account**, in whatever order they are served. -/
theorem lockedByOne_serve (hclose : Close env attempts)
    (hunlocked : ∀ i, AuthService.locked (attempts i).req.now row = false)
    {order : List (Fin n)} (hpos : order ≠ [])
    (hcount : env.settings.maxFailedLoginAttempts ≤ order.length) :
    LockedByOne env attempts (serve (attempting env attempts) row order) := by
  -- a lock that has run out is lifted by the first attempt, with the count at zero
  have hlifted : (AuthService.liftLock row).lockedUntil = none := by
    unfold AuthService.liftLock
    split
    · rfl
    · rename_i hnone
      simpa using hnone
  have hfirst : serve (attempting env attempts) row order =
      serve (attempting env attempts) (AuthService.liftLock row) order := by
    cases order with
    | nil => exact absurd rfl hpos
    | cons i order =>
        have hstill : AuthService.locked (attempts i).req.now (AuthService.liftLock row) =
            false := by
          rw [AuthService.locked, hlifted]
          rfl
        have htwice : AuthService.liftLock (AuthService.liftLock row) =
            AuthService.liftLock row := by
          rw [AuthService.liftLock, hlifted]
          rfl
        rw [serve_cons, serve_cons, apply_some (attempting_unlocked (hunlocked i)),
          apply_some (attempting_unlocked hstill), htwice]
  rw [hfirst]
  exact lockedByOne_of_count hclose hlifted hpos (by omega)

end LoginSim

/-! ## Requests for an OTP -/

/-- Requests for an OTP for one email, at the same time. -/
def otpThreads (env : Env) (email : String) (requests : Fin n → Request) (s : Database) :
    State n where
  shared := s
  thread i := AuthService.generateOtp env (requests i) email

/-- What each of the requests makes of the row it reads. -/
def requesting (env : Env) (email : String) (requests : Fin n → Request) (i : Fin n)
    (row : Option PasswordResetOtp) : Option (Option PasswordResetOtp) :=
  (AuthService.requestedOtp env (requests i) email row).map some

/-- The write of a request, by the row it read. -/
def writeOtp (row : PasswordResetOtp) : Option PasswordResetOtp → Write
  | none => .insertOtp row
  | some loaded => .updateOtp loaded row

/-- A request after it has read the row: it raises, or writes the row it makes of it. -/
def Requests (env : Env) (req : Request) (email : String)
    (g : Option PasswordResetOtp → Db Unit) : Prop :=
  ∀ o, (AuthService.requestedOtp env req email o = none → ∃ e, g o = throw e) ∧
    ∀ row, AuthService.requestedOtp env req email o = some row →
      ∃ h, g o = commit (writeOtp row o) >>= h ∧ CommitsNothing (h ())

/-- **A request up to its commit.** It looks an active admin up, reads the row, and raises or
writes. -/
theorem generateOtp_eq (env : Env) (req : Request) (email : String) :
    ∃ f, AuthService.generateOtp env req email = query (fun s => s.adminByEmail email) >>= f ∧
      ∀ admin, admin.status = .active →
        ∃ g, f (some admin) = query (fun s => s.otps.find? email) >>= g ∧
          Requests env req email g := by
  have hrest : ∀ k : String, CommitsNothing (refresh Database.otps k >>= fun _ => pure ()) :=
    fun k => (Db.writes_refresh _ _).bind fun _ => Db.writes_pure _
  refine ⟨_, rfl, fun admin hactive => ?_⟩
  rw [Option.filter_some_pos (by simpa using hactive)]
  refine ⟨_, rfl, fun o => ?_⟩
  cases o with
  -- no row yet: an insert
  | none =>
      refine ⟨nofun, ?_⟩
      rintro _ ⟨⟩
      refine ⟨fun _ => refresh Database.otps email >>= fun _ => pure (), ?_, hrest _⟩
      exact Program.bind_bind _ _ _
  | some loaded =>
      -- a new window, a refusal, or one more in the window that runs
      dsimp only [AuthService.requestedOtp]
      split
      · refine ⟨nofun, ?_⟩
        rintro _ ⟨⟩
        refine ⟨fun _ => refresh Database.otps loaded.email >>= fun _ => pure (), ?_, hrest _⟩
        exact Program.bind_bind _ _ _
      · split
        · exact ⟨fun _ => ⟨_, rfl⟩, nofun⟩
        · refine ⟨nofun, ?_⟩
          rintro _ ⟨⟩
          refine ⟨fun _ => refresh Database.otps loaded.email >>= fun _ => pure (), ?_, hrest _⟩
          exact Program.bind_bind _ _ _

/-! ### The requests as clients of the row -/

/-- Where a request stands. -/
inductive OtpStage (env : Env) (email : String) (req : Request) :
    Db Unit → Client (Option PasswordResetOtp) → Prop
  | idle : OtpStage env email req (AuthService.generateOtp env req email) .idle
  | admitted {g : Option PasswordResetOtp → Db Unit} (hg : Requests env req email g) :
      OtpStage env email req (query (fun s => s.otps.find? email) >>= g) .idle
  | holding {seen : Option PasswordResetOtp} {row : PasswordResetOtp} {g : Unit → Db Unit}
      (hemail : ∀ old ∈ seen, old.email = email)
      (hrow : AuthService.requestedOtp env req email seen = some row)
      (hg : CommitsNothing (g ())) :
      OtpStage env email req (commit (writeOtp row seen) >>= g) (.holding seen)
  | wrote {p : Db Unit} (hp : CommitsNothing p) : OtpStage env email req p .wrote
  | raised {e : Failure} {q : Client (Option PasswordResetOtp)} (hq : q = .refused ∨ q = .failed) :
      OtpStage env email req (.throw e) q

/-- Threads and shared state, seen as the cell that holds the row of the email. -/
structure OtpSim (env : Env) (email : String) (requests : Fin n → Request)
    (admin : PlatformAdmin) (t : State n) (c : Cell (Option PasswordResetOtp) (Fin n)) :
    Prop where
  admin : t.shared.adminByEmail email = some admin
  row : t.shared.otps.find? email = c.value
  stage : ∀ i, OtpStage env email (requests i) (t.thread i) (c.client i)

section OtpSim
variable {env : Env} {email : String} {requests : Fin n → Request} {admin : PlatformAdmin}
  {t t' : State n} {c : Cell (Option PasswordResetOtp) (Fin n)} {i : Fin n}

/-- The row is written where the email has none, or the one that was read. -/
theorem apply_writeOtp {s : Database} {row : PasswordResetOtp} {seen : Option PasswordResetOtp}
    (hemail : row.email = email) (hseen : s.otps.find? email = seen) :
    ∃ otps, (writeOtp row seen).apply s = .ok { s with otps := otps } ∧
      otps.find? email = some row := by
  subst hemail
  cases seen with
  | none =>
      cases hinsert : s.otps.insert row with
      | none =>
          obtain ⟨old, hold, hclash⟩ := Table.insert_eq_none.mp hinsert
          exact absurd hclash (Table.find?_eq_none.mp hseen old hold)
      | some otps =>
          refine ⟨otps, ?_, (Table.find?_insert hinsert row.email).trans (if_pos rfl)⟩
          show (Write.insertOtp row).apply s = _
          rw [Write.apply, hinsert]
          rfl
  | some loaded =>
      have hkey : row.email = loaded.email := (Table.find?_eq_some.mp hseen).2.symm
      have hloaded : s.otps.find? loaded.email = some loaded := hkey ▸ hseen
      obtain ⟨otps, hflush⟩ := Table.exists_flush hloaded hkey fun other _ hne hclash =>
        hne (hclash.symm.trans hkey)
      refine ⟨otps, ?_, (Table.find?_flush_loaded hflush hloaded hkey row.email).trans
        (if_pos hkey)⟩
      show (Write.updateOtp loaded row).apply s = _
      rw [Write.apply, hflush]
      rfl

/-- **A turn is a move** of the clients, or none, as long as updates are fresh. -/
theorem OtpSim.turn (h : OtpSim env email requests admin t c) (hactive : admin.status = .active)
    (hfresh : Fresh t i) (hturn : Program.turn exec i t = some t') :
    ∃ c', Relation.ReflTransGen (Move (requesting env email requests)) c c' ∧
      OtpSim env email requests admin t' c' := by
  have hstage := h.stage i
  generalize hthread : t.thread i = p at hstage
  generalize hclient : c.client i = q at hstage
  cases hstage with
  -- the statement that looks the admin up
  | idle =>
      obtain ⟨f, hrequest, hlookup⟩ := generateOtp_eq env (requests i) email
      obtain ⟨g, hg, hrequests⟩ := hlookup admin hactive
      obtain rfl := Option.some.inj (hturn.symm.trans (Db.turn_query (hthread.trans hrequest)))
      rw [h.admin, hg]
      exact ⟨c, .refl, h.admin, h.row, stage_stay h.stage (by rw [hclient]; exact .admitted hrequests)⟩
  -- the statement that reads the row: its outcome decides what is written
  | @admitted g hrequests =>
      obtain rfl := Option.some.inj (hturn.symm.trans (Db.turn_query hthread))
      rw [h.row]
      obtain ⟨hnone, hsome⟩ := hrequests c.value
      cases hrequested : AuthService.requestedOtp env (requests i) email c.value with
      | none =>
          obtain ⟨e, he⟩ := hnone hrequested
          rw [he]
          have hrefuse : requesting env email requests i c.value = none := by
            rw [requesting, hrequested]
            rfl
          exact ⟨_, .single (.refuse hclient hrefuse), h.admin, h.row,
            stage_put h.stage (.raised (.inl rfl)) _⟩
      | some row =>
          obtain ⟨k, hk, hrest⟩ := hsome row hrequested
          rw [hk]
          have hwrites : requesting env email requests i c.value = some (some row) := by
            rw [requesting, hrequested]
            rfl
          have hemail : ∀ old ∈ c.value, old.email = email := fun old hold =>
            (Table.find?_eq_some.mp (h.row.trans hold)).2
          exact ⟨_, .single (.hold hclient hwrites), h.admin, h.row,
            stage_put h.stage (.holding hemail hrequested hrest) _⟩
  | @holding seen row g hemail hrow hg =>
      have hrowEmail : row.email = email := (AuthService.requestedOtp_columns hrow hemail).1
      -- the commit swaps the row that was read for the new one
      by_cases hsame : seen = c.value
      · subst hsame
        obtain ⟨otps, happly, hfind⟩ := apply_writeOtp hrowEmail h.row
        obtain rfl := Option.some.inj (hturn.symm.trans (Db.turn_commit_ok hthread happly))
        have hwrites : requesting env email requests i c.value = some (some row) := by
          rw [requesting, hrow]
          rfl
        exact ⟨_, .single (.swap hclient hwrites), h.admin, hfind,
          stage_put h.stage (.wrote hg) _⟩
      · -- an update is fresh, so this is an insert, which the primary key refuses
        cases seen with
        | some loaded =>
            have hloaded : t.shared.otps.find? loaded.email = some loaded :=
              of_decide_eq_true (fresh_commit hfresh hthread)
            rw [hemail loaded rfl, h.row] at hloaded
            exact absurd hloaded.symm hsame
        | none =>
            have hrefused : (writeOtp row none).apply t.shared = .error .integrity := by
              obtain ⟨old, hold⟩ := Option.ne_none_iff_exists'.mp (Ne.symm hsame)
              obtain ⟨hmem, hkey⟩ := Table.find?_eq_some.mp (h.row.trans hold)
              show (Write.insertOtp row).apply t.shared = _
              rw [Write.apply, Table.insert_eq_none.mpr ⟨old, hmem, hkey.trans hrowEmail.symm⟩]
              rfl
            obtain rfl := Option.some.inj
              (hturn.symm.trans (Db.turn_commit_error hthread hrefused))
            exact ⟨_, .single (.fail hclient hsame), h.admin, h.row,
              stage_put h.stage (.raised (.inr rfl)) _⟩
  -- nothing but reads is left
  | wrote hp =>
      obtain ⟨p', hp', rfl⟩ := turn_commitsNothing (by rw [hthread]; exact hp) hturn
      exact ⟨c, .refl, h.admin, h.row, stage_stay h.stage (by rw [hclient]; exact .wrote hp')⟩
  | raised hq =>
      rw [Program.turn, hthread] at hturn
      cases hturn

/-- Every state reached is that of clients that compare and swap. -/
theorem OtpSim.of_run {s₀ : Database} (hadmin : s₀.adminByEmail email = some admin)
    (hactive : admin.status = .active) {trace : List (State n × Fin n)}
    (h : (machine (otpThreads env email requests s₀)).Run trace t)
    (hfresh : ∀ p ∈ trace, Fresh p.1 p.2) :
    ∃ c, Relation.ReflTransGen (Move (requesting env email requests))
        ⟨s₀.otps.find? email, fun _ => .idle⟩ c ∧
      OtpSim env email requests admin t c := by
  refine h.invariant_while (I := fun t => ∃ c, Relation.ReflTransGen
    (Move (requesting env email requests)) ⟨s₀.otps.find? email, fun _ => .idle⟩ c ∧
      OtpSim env email requests admin t c) ?_ ?_ hfresh
  · rintro _ rfl
    exact ⟨_, .refl, hadmin, rfl, fun _ => .idle⟩
  · rintro u i u' ⟨c, hreach, hsim⟩ hfresh hturn
    obtain ⟨c', hmoves, hsim'⟩ := hsim.turn hactive hfresh hturn
    exact ⟨c', hreach.trans hmoves, hsim'⟩

/-- A request that has returned has written. -/
theorem OtpSim.wrote_of_returned (h : OtpSim env email requests admin t c)
    (hreturned : t.thread i = .pure ()) : c.client i = .wrote := by
  have hstage := h.stage i
  rw [hreturned] at hstage
  generalize c.client i = q at hstage ⊢
  generalize hp : (Program.pure () : Db Unit) = p at hstage
  cases hstage with
  | idle => cases hp
  | admitted _ => cases hp
  | holding _ _ _ => cases hp
  | wrote _ => rfl
  | raised _ => cases hp

/-! ### The requests one after another -/

/-- One throttle window: the requests come within its length of each other, and the window
that the stored row has open takes all of them or none. -/
structure OneWindow (env : Env) (requests : Fin n → Request) (row : Option PasswordResetOtp) :
    Prop where
  close : ∀ i j, (requests i).now <
    (requests j).now + Instant.minutes env.settings.otpThrottleWindowMinutes
  stored : ∀ old ∈ row,
    (∀ i, (requests i).now <
      old.windowStartedAt + Instant.minutes env.settings.otpThrottleWindowMinutes) ∨
    ∀ i, old.windowStartedAt + Instant.minutes env.settings.otpThrottleWindowMinutes ≤
      (requests i).now

/-- In an open window, every request that writes is counted. -/
theorem length_writers_open {row : PasswordResetOtp}
    (hopen : ∀ i, (requests i).now <
      row.windowStartedAt + Instant.minutes env.settings.otpThrottleWindowMinutes)
    (order : List (Fin n)) :
    (writers (requesting env email requests) (some row) order).length ≤
      env.settings.otpMaxRequestsPerWindow - row.requestCount := by
  induction order generalizing row with
  | nil => exact Nat.zero_le _
  | cons i order ih =>
      have hsame := not_le.mpr (hopen i)
      by_cases hfull : env.settings.otpMaxRequestsPerWindow ≤ row.requestCount
      · have hrefuse : requesting env email requests i (some row) = none := by
          rw [requesting, AuthService.requestedOtp, if_neg hsame, if_pos hfull]
          rfl
        rw [writers_cons_none hrefuse]
        exact ih hopen
      · have hwrites : requesting env email requests i (some row) = some (some
            { row with
              requestCount := row.requestCount + 1
              expiresAt := (requests i).now + Instant.minutes env.settings.otpExpiryMinutes
              verified := false }) := by
          rw [requesting, AuthService.requestedOtp, if_neg hsame, if_neg hfull]
          rfl
        rw [writers_cons_some hwrites, List.length_cons]
        have hrest : (writers (requesting env email requests) (some
            { row with
              requestCount := row.requestCount + 1
              expiresAt := (requests i).now + Instant.minutes env.settings.otpExpiryMinutes
              verified := false }) order).length ≤
            env.settings.otpMaxRequestsPerWindow - (row.requestCount + 1) := ih hopen
        omega

/-- **A window takes no more requests than it may**, in whatever order they are served. -/
theorem length_writers {row : Option PasswordResetOtp} (h : OneWindow env requests row)
    (hmax : 0 < env.settings.otpMaxRequestsPerWindow) (order : List (Fin n)) :
    (writers (requesting env email requests) row order).length ≤
      env.settings.otpMaxRequestsPerWindow := by
  -- the request that starts a window is the first that it counts
  have hstart : ∀ (i : Fin n) (order : List (Fin n)) (first : PasswordResetOtp),
      first.windowStartedAt = (requests i).now → first.requestCount = 1 →
      requesting env email requests i row = some (some first) →
      (writers (requesting env email requests) row (i :: order)).length ≤
        env.settings.otpMaxRequestsPerWindow := by
    intro i order first hstarted hcount hwrites
    rw [writers_cons_some hwrites, List.length_cons]
    have hopen : ∀ j, (requests j).now < first.windowStartedAt +
        Instant.minutes env.settings.otpThrottleWindowMinutes := fun j => by
      rw [hstarted]
      exact h.close j i
    have hrest : (writers (requesting env email requests) (some first) order).length ≤
        env.settings.otpMaxRequestsPerWindow - first.requestCount :=
      length_writers_open hopen order
    omega
  cases order with
  | nil => exact Nat.zero_le _
  | cons i order =>
      cases row with
      | none => exact hstart i order _ rfl rfl rfl
      | some old =>
          rcases h.stored old rfl with hopen | hover
          · exact (length_writers_open hopen _).trans (Nat.sub_le _ _)
          · refine hstart i order
              { old with
                expiresAt := (requests i).now + Instant.minutes env.settings.otpExpiryMinutes
                requestCount := 1, windowStartedAt := (requests i).now, verified := false }
              rfl rfl ?_
            rw [requesting, AuthService.requestedOtp, if_pos (hover i)]
            rfl

end OtpSim

/-! ## The result -/

/-- The counters of an account: its failures, and whether it is locked. -/
def counters (s : Database) (email : String) : Option (Nat × Bool) :=
  (s.adminByEmail email).map fun account =>
    (account.failedLoginAttempts, account.lockedUntil.isSome)

/-- The counters are what some sequential order of the attempts gives. -/
def SomeOrder (env : Env) (email : String) (attempts : Fin n → Attempt) (s₀ s : Database) :
    Prop :=
  ∃ order : List (Fin n), order.Nodup ∧ (∀ i, i ∈ order) ∧
    counters s email = counters (serveLogins env email attempts s₀ order) email

/-- No more requests have returned than a window may take. -/
def AtMost (env : Env) (t : State n) : Prop :=
  ∀ l : List (Fin n), l.Nodup → (∀ i ∈ l, t.thread i = .pure ()) →
    l.length ≤ env.settings.otpMaxRequestsPerWindow

/-- **No counter is lost** in runs whose updates find their row as it was read. Once all wrong
passwords are dealt with, the counters are those of a sequential order, and enough of them have
locked the account; and at no time have more requests for an OTP returned than one window may
take. -/
theorem counters_kept {env : Env} {email : String} {s₀ : Database} {account : PlatformAdmin}
    (haccount : s₀.adminByEmail email = some account) {n : Nat} :
    (∀ (attempts : Fin n → Attempt) (t : List (State n × Fin n)) (s : State n),
      (machine (loginThreads env email attempts s₀)).Run t s →
      (∀ i, env.bcrypt.verifyPassword (attempts i).password account.hashedPassword = false) →
      (∀ i, AuthService.locked (attempts i).req.now account = false) →
      (∀ p ∈ t, Fresh p.1 p.2) → (∀ i, (s.thread i).Ended) →
      SomeOrder env email attempts s₀ s.shared ∧
        (0 < n → env.settings.maxFailedLoginAttempts ≤ n → Close env attempts →
          (counters s.shared email).map Prod.snd = some true)) ∧
    (∀ (requests : Fin n → Request) (t : List (State n × Fin n)) (s : State n),
      (machine (otpThreads env email requests s₀)).Run t s →
      account.status = .active → OneWindow env requests (s₀.otps.find? email) →
      0 < env.settings.otpMaxRequestsPerWindow → (∀ p ∈ t, Fresh p.1 p.2) → AtMost env s) := by
  constructor
  · intro attempts t s hrun hwrong hunlocked hfresh hended
    obtain ⟨c, hreach, hsim⟩ := LoginSim.of_run haccount hwrong hrun hfresh
    obtain ⟨order, hserial⟩ := serial_of_reachable (fun _ => rfl) hreach
    have hall : ∀ i, i ∈ order := fun i =>
      (hserial.mem i).mpr (hsim.served_of_ended (hended i))
    have hvalue : c.value = serve (attempting env attempts) account order := hserial.value
    refine ⟨⟨order, hserial.nodup, hall, ?_⟩, fun hpos hmax hclose => ?_⟩
    · rw [counters, counters, hsim.row, adminByEmail_serveLogins haccount hwrong, hvalue]
    · have hlength : n ≤ order.length := by
        -- every attempt was served, so the order has all of them
        have hperm : (List.finRange n).Subperm order :=
          List.subperm_of_subset (List.nodup_finRange n) fun i _ => hall i
        simpa using hperm.length_le
      have hne : order ≠ [] := by
        rintro rfl
        exact absurd (hall ⟨0, hpos⟩) List.not_mem_nil
      obtain ⟨i, hlocked⟩ :=
        lockedByOne_serve hclose hunlocked hne (hmax.trans hlength)
      rw [counters, hsim.row, hvalue, Option.map_some, Option.map_some, hlocked]
      rfl
  · intro requests t s hrun hactive hwindow hmax hfresh l hnodup hreturned
    obtain ⟨c, hreach, hsim⟩ := OtpSim.of_run haccount hactive hrun hfresh
    obtain ⟨order, hserial⟩ := serial_of_reachable (fun _ => rfl) hreach
    -- the requests that returned are among those that have written
    have hwrote : l ⊆ writers (requesting env email requests) (s₀.otps.find? email) order :=
      fun i hi => (hserial.wrote i).mp (hsim.wrote_of_returned (hreturned i hi))
    exact (List.subperm_of_subset hnodup hwrote).length_le.trans (length_writers hwindow hmax order)

/-! ## A failure that is lost -/

open Administration (sampleEnv sampleState sampleRequest)

/-- Two attempts on the first admin. -/
def sampleAttempts (i : Fin 2) : Attempt where
  req := sampleRequest (i + 1)
  password := "wrong"

/-- The two attempts on the sample state. -/
def sampleLogins : State 2 :=
  loginThreads sampleEnv "admin1@example.com" sampleAttempts sampleState

/-- Two requests for an OTP of the first admin. -/
def sampleOtps : State 2 :=
  otpThreads sampleEnv "admin1@example.com" (fun i => sampleRequest (i + 1)) sampleState

theorem adminByEmail_sampleState : sampleState.adminByEmail "admin1@example.com" =
    some (Administration.sampleAdmin 1 "admin1" "admin1@example.com") := rfl

/-- One after the other: each reads, writes and reads again. -/
theorem counters_kept_sampleState :
    (∃ t s, (machine sampleLogins).Run t s ∧ t.map Prod.snd = [0, 0, 0, 1, 1, 1] ∧
      SomeOrder sampleEnv "admin1@example.com" sampleAttempts sampleState s.shared) ∧
    ∃ t s, (machine sampleOtps).Run t s ∧ t.map Prod.snd = [0, 0, 0, 0, 1, 1, 1, 1] ∧
      AtMost sampleEnv s := by
  have hkept := @counters_kept sampleEnv _ _ _ adminByEmail_sampleState
  constructor
  · obtain ⟨s, hexec⟩ : ∃ s, (machine sampleLogins).exec [0, 0, 0, 1, 1, 1] sampleLogins = some s :=
      Option.isSome_iff_exists.mp (by decide +kernel)
    have hended : ((machine sampleLogins).exec [0, 0, 0, 1, 1, 1] sampleLogins).map
        (fun s => decide (∀ i, (s.thread i).Ended)) = some true := by decide +kernel
    rw [hexec] at hended
    have hrun := Machine.Run.of_exec (.start rfl) hexec
    refine ⟨_, s, hrun, Machine.map_snd_trace hexec, ?_⟩
    refine ((@hkept 2).1 sampleAttempts _ s hrun ?_ ?_ ?_ ?_).1
    · decide +kernel
    · decide +kernel
    · decide +kernel
    · exact of_decide_eq_true (Option.some.inj hended)
  · obtain ⟨s, hexec⟩ : ∃ s, (machine sampleOtps).exec [0, 0, 0, 0, 1, 1, 1, 1] sampleOtps =
        some s :=
      Option.isSome_iff_exists.mp (by decide +kernel)
    have hrun := Machine.Run.of_exec (.start rfl) hexec
    refine ⟨_, s, hrun, Machine.map_snd_trace hexec, ?_⟩
    refine (@hkept 2).2 (fun i => sampleRequest (i + 1)) _ s hrun rfl ⟨?_, nofun⟩ ?_ ?_
    · decide +kernel
    · decide
    · decide +kernel

/-- Both read, both write. -/
def bothRead : List (Fin 2) := [0, 1, 0, 1, 0, 1]

/-- **A failure is lost**: after two wrong passwords the account counts one. -/
theorem failure_lost :
    ∃ t s, (machine sampleLogins).Run t s ∧ (∀ i, (s.thread i).Ended) ∧
      ¬ SomeOrder sampleEnv "admin1@example.com" sampleAttempts sampleState s.shared := by
  obtain ⟨s, hexec⟩ : ∃ s, (machine sampleLogins).exec bothRead sampleLogins = some s :=
    Option.isSome_iff_exists.mp (by decide +kernel)
  have hfacts : ((machine sampleLogins).exec bothRead sampleLogins).map
      (fun s => (decide (∀ i, (s.thread i).Ended), counters s.shared "admin1@example.com")) =
        some (true, some (1, false)) := by decide +kernel
  rw [hexec] at hfacts
  obtain ⟨hended, hcounters⟩ := Prod.mk.inj (Option.some.inj hfacts)
  refine ⟨_, s, Machine.Run.of_exec (.start rfl) hexec, of_decide_eq_true hended, ?_⟩
  rintro ⟨order, hnodup, hall, horder⟩
  have hperm : order.Perm [0, 1] := (List.perm_ext_iff_of_nodup hnodup (by decide)).mpr fun i =>
    iff_of_true (hall i) (by revert i; decide)
  have htwo : ∀ a b : Fin 2, [a, b].Nodup → counters (serveLogins sampleEnv "admin1@example.com"
      sampleAttempts sampleState [a, b]) "admin1@example.com" = some (2, false) := by
    decide +kernel
  obtain ⟨a, b, rfl⟩ := List.length_eq_two.mp hperm.length_eq
  rw [hcounters, htwo a b hnodup] at horder
  cases horder

end LostUpdates
end AdminPlatform
