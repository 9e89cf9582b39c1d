import AdminPlatform.Access.Seeded
import AdminPlatform.Lib.Machine
import AdminPlatform.Lib.Spacing
import AdminPlatform.Services.Auth

/-! # Guessing a password

Login attempts one after another, on a clock that does not go back, until one on the account
succeeds. The state carries the times at which a password was compared with the account's
and found wrong, newest first; no request reads it.

The account keeps a count and a deadline, and both are reset on several branches. `Linked`
says what they are of the history: the count is that of the newest failures, and the others
have been over for a lockout by the time the next comparison can be made. So the failures are
`Spaced`, and `bruteForce_bound` is the bound on every window. -/

namespace AdminPlatform
open AdminPlatform.Lib

namespace Lockout

/-! ## Attempts -/

/-- A login attempt. Through its route (`audited`) a refused attempt is followed by an audit
record, whose commit also writes what the attempt has set on the admin and not saved. -/
structure Attempt where
  req : Request
  credentials : LoginRequest
  audited : Bool

/-- The account, where the attempt gets as far as comparing passwords. -/
def compared (a : Attempt) (s : Database) : Option PlatformAdmin :=
  (s.adminByEmail a.credentials.email).filter fun admin => !AuthService.locked a.req.now admin

/-- The password is compared with that of the account, and is another. -/
def wrong (env : Env) (a : Attempt) (s : Database) : Bool :=
  (compared a s).any fun admin =>
    !env.bcrypt.verifyPassword a.credentials.password admin.hashedPassword

/-- Serve an attempt. What is left unsaved is the lifted lock of an account whose password
was right. -/
def attempt (env : Env) (a : Attempt) (s : Database) : Except Failure TokenResponse × Database :=
  match (AuthService.login env a.req a.credentials).run s with
  | (.ok tokens, s') => (.ok tokens, s')
  | (.error e, s') =>
      match compared a s with
      | some admin =>
          if a.audited && !wrong env a s then
            (.error e, ((writeAdmin admin (AuthService.liftLock admin)).run s').2)
          else (.error e, s')
      | none => (.error e, s')

structure State where
  db : Database
  clock : Instant
  /-- When the account's password was compared and found wrong, newest first. -/
  failures : List Instant

/-- The failures after an attempt. -/
def failuresAfter (env : Env) (email : String) (a : Attempt) (st : State) : List Instant :=
  if a.credentials.email = email ∧ wrong env a st.db then a.req.now :: st.failures
  else st.failures

/-- Attempts on any account, as long as none on this one succeeds. -/
def machine (env : Env) (email : String) : Machine State Attempt where
  init st := st.failures = [] ∧ ∃ admin, st.db.adminByEmail email = some admin ∧
    admin.failedLoginAttempts = 0 ∧ admin.lockedUntil = none
  step a st :=
    if st.clock ≤ a.req.now then
      match attempt env a st.db with
      | (.ok _, db) =>
          if a.credentials.email = email then none
          else some ⟨db, a.req.now, st.failures⟩
      | (.error _, db) => some ⟨db, a.req.now, failuresAfter env email a st⟩
    else none

/-! ## The count, the deadline and the failures -/

/-- How long a lock lasts. -/
def lockout (env : Env) : Instant := Instant.minutes env.settings.lockoutMinutes

/-- What the account's row says of the failures so far. -/
structure Linked (env : Env) (admin : PlatformAdmin) (clock : Instant)
    (failures : List Instant) : Prop where
  order : NewestFirst failures
  past : ∀ t ∈ failures, t ≤ clock
  spaced : Spaced env.settings.maxFailedLoginAttempts (lockout env) failures
  count : admin.failedLoginAttempts < env.settings.maxFailedLoginAttempts
  /-- The count is that of the newest failures. The others are over by the deadline, or by now. -/
  older : ∀ t ∈ failures.drop admin.failedLoginAttempts,
    t + lockout env ≤ admin.lockedUntil.getD clock
  /-- A lock starts the count again. -/
  restart : admin.lockedUntil.isSome → admin.failedLoginAttempts = 0

section Linked
variable {env : Env} {admin : PlatformAdmin} {clock now : Instant} {failures : List Instant}

/-- Nothing changes while time passes. -/
theorem Linked.wait (h : Linked env admin clock failures) (hnow : clock ≤ now) :
    Linked env admin now failures := by
  refine
    { order := h.order, past := fun t ht => (h.past t ht).trans hnow, spaced := h.spaced
      count := h.count, older := fun t ht => (h.older t ht).trans ?_, restart := h.restart }
  cases admin.lockedUntil with
  | none => exact hnow
  | some u => exact le_rfl

/-- When the account is not locked, all but the counted failures are over. -/
theorem Linked.over (h : Linked env admin now failures)
    (hunlocked : AuthService.locked now admin = false) {t : Instant}
    (ht : t ∈ failures.drop admin.failedLoginAttempts) : t + lockout env ≤ now := by
  refine (h.older t ht).trans ?_
  unfold AuthService.locked at hunlocked
  cases hu : admin.lockedUntil with
  | none => exact le_rfl
  | some u =>
      rw [hu, Option.any_some, decide_eq_false_iff_not, not_lt] at hunlocked
      exact hunlocked

/-- Lifting a lock that has run out. -/
theorem Linked.lift (h : Linked env admin now failures)
    (hunlocked : AuthService.locked now admin = false) :
    Linked env (AuthService.liftLock admin) now failures := by
  unfold AuthService.liftLock
  split
  · rename_i hlock
    refine
      { order := h.order, past := h.past, spaced := h.spaced
        count := (Nat.zero_le _).trans_lt h.count, older := fun t ht => ?_, restart := nofun }
    have hzero := h.restart hlock
    exact h.over hunlocked (by rwa [hzero])
  · exact h

/-- **One more wrong password.** It is at least a lockout later than the one that many before,
whether it is counted or locks the account. -/
theorem Linked.fail {req : Request} (h : Linked env admin req.now failures)
    (hnone : admin.lockedUntil = none) :
    Linked env (AuthService.countFailure env req admin) req.now (req.now :: failures) := by
  have hover : ∀ t ∈ failures.drop admin.failedLoginAttempts, t + lockout env ≤ req.now := by
    intro t ht
    simpa [hnone] using h.older t ht
  have hmax := h.count
  have hspaced : Spaced env.settings.maxFailedLoginAttempts (lockout env)
      (req.now :: failures) := by
    refine h.spaced.cons fun old hold => hover old ?_
    -- at most `m - 1` failures are counted, so the `m`-th before this one is not among them
    obtain ⟨m, hm⟩ : ∃ m, env.settings.maxFailedLoginAttempts = m + 1 :=
      Nat.exists_eq_succ_of_ne_zero (by omega)
    rw [hm, List.getElem?_cons_succ] at hold
    have hdrop : (failures.drop admin.failedLoginAttempts)[m - admin.failedLoginAttempts]? =
        some old := by
      rw [List.getElem?_drop, ← hold]
      congr 1
      omega
    exact List.mem_of_getElem? hdrop
  have horder := h.order.cons h.past
  have hpast : ∀ t ∈ req.now :: failures, t ≤ req.now := by
    intro t ht
    rcases List.mem_cons.mp ht with rfl | ht
    · exact le_rfl
    · exact h.past t ht
  unfold AuthService.countFailure
  split
  · refine
      { order := horder, past := hpast, spaced := hspaced
        count := by show 0 < _; omega
        older := fun t ht => ?_, restart := fun _ => rfl }
    rw [Option.getD_some]
    exact Nat.add_le_add_right (hpast t ht) (lockout env)
  · rename_i hfew
    refine
      { order := horder, past := hpast, spaced := hspaced
        count := by show _ + 1 < _; omega
        older := fun t ht => ?_, restart := fun hlock => ?_ }
    · show t + _ ≤ admin.lockedUntil.getD _
      rw [hnone]
      exact hover t ht
    · rw [hnone] at hlock
      cases hlock

end Linked

/-! ## What an attempt does -/

section Attempt
variable {env : Env} {a : Attempt} {s s' : Database} {admin : PlatformAdmin}

theorem compared_eq_some : compared a s = some admin ↔
    s.adminByEmail a.credentials.email = some admin ∧
      AuthService.locked a.req.now admin = false := by
  simp [compared, Option.filter_eq_some_iff]

theorem columns_liftLock (admin : PlatformAdmin) :
    (AuthService.liftLock admin).id = admin.id ∧
      (AuthService.liftLock admin).email = admin.email ∧
      (AuthService.liftLock admin).username = admin.username := by
  unfold AuthService.liftLock
  split <;> exact ⟨rfl, rfl, rfl⟩

/-- The account after an attempt that is refused: its failure is counted where the password
was compared and wrong, and otherwise it is as before, or a lock has been lifted from it. -/
inductive After (env : Env) (a : Attempt) (s : Database) : Bool → Database → Prop
  | counted {admin admins} : compared a s = some admin →
      s.admins.flush admin (AuthService.countFailure env a.req (AuthService.liftLock admin)) =
        .ok admins →
      After env a s true { s with admins := admins }
  | lifted {admin admins} : compared a s = some admin →
      s.admins.flush admin (AuthService.liftLock admin) = .ok admins →
      After env a s false { s with admins := admins }
  | same : After env a s false s

theorem attempt_error_inv {e : Failure} (h : attempt env a s = (.error e, s')) :
    After env a s (wrong env a s) s' := by
  unfold attempt at h
  rcases hrun : (AuthService.login env a.req a.credentials).run s with ⟨e' | tokens, u⟩
  case ok =>
    rw [hrun] at h
    cases h
  rw [hrun] at h
  cases hcompared : compared a s with
  -- no password was compared: no admin, or a lock that holds
  | none =>
      have hu : u = s := by
        rcases AuthService.run_login_inv hrun with ⟨-, hu⟩ | ⟨admin, hadmin, hunlocked, -⟩
        · exact hu
        · rw [compared_eq_some.mpr ⟨hadmin, hunlocked⟩] at hcompared
          cases hcompared
      rw [hcompared] at h
      obtain ⟨-, rfl⟩ := Prod.mk.inj h
      rw [wrong, hcompared, hu]
      exact .same
  | some admin =>
      obtain ⟨hadmin, hunlocked⟩ := compared_eq_some.mp hcompared
      rw [hcompared] at h
      cases hpassword : env.bcrypt.verifyPassword a.credentials.password admin.hashedPassword with
      -- the failure is counted, and the handler finds nothing to lift
      | false =>
          have hwrong : wrong env a s = true := by
            rw [wrong, hcompared, Option.any_some, hpassword]
            rfl
          obtain ⟨e'', admins, hflush, hlogin⟩ :=
            AuthService.run_login_wrong hadmin hunlocked hpassword
          rw [hrun] at hlogin
          obtain ⟨-, rfl⟩ := Prod.mk.inj hlogin
          simp only [hwrong, Bool.not_true, Bool.and_false, Bool.false_eq_true, if_false] at h
          obtain ⟨-, rfl⟩ := Prod.mk.inj h
          rw [hwrong]
          exact .counted hcompared hflush
      -- the password was right and the login refused for another reason
      | true =>
          have hwrong : wrong env a s = false := by
            rw [wrong, hcompared, Option.any_some, hpassword]
            rfl
          have hu : u = s := by
            rcases AuthService.run_login_inv hrun with ⟨-, hu⟩ |
              ⟨other, hother, -, ⟨_, _, hbad, -⟩ | ⟨_, -, -, -, hok, -⟩⟩
            · exact hu
            · obtain rfl : admin = other := Option.some.inj (hadmin.symm.trans hother)
              rw [hpassword] at hbad
              cases hbad
            · cases hok
          subst hu
          rw [hwrong] at h ⊢
          dsimp only at h
          split at h
          · obtain ⟨-, rfl⟩ := Prod.mk.inj h
            obtain ⟨hid, hemail, husername⟩ := columns_liftLock admin
            have hfind := AuthService.find?_of_adminByEmail hadmin
            obtain ⟨admins, hflush⟩ := exists_flushAdmin hfind hemail husername
            rw [run_writeAdmin_ok hfind hid hflush]
            exact .lifted hcompared hflush
          · obtain ⟨-, rfl⟩ := Prod.mk.inj h
            exact .same

/-- What an attempt on another account does is not seen on this one. -/
theorem adminByEmail_of_ne {email : String} {t : Table PlatformAdmin} {current : PlatformAdmin}
    (hadmin : compared a s = some admin) (hflush : s.admins.flush admin current = .ok t)
    (hid : current.id = admin.id) (hemail : current.email = admin.email)
    (hne : a.credentials.email ≠ email) :
    ({ s with admins := t } : Database).adminByEmail email = s.adminByEmail email := by
  rw [AuthService.adminByEmail_flush (compared_eq_some.mp hadmin).1 hflush hid hemail,
    if_neg hne.symm]

theorem adminByEmail_of_eq {t : Table PlatformAdmin} {current : PlatformAdmin}
    (hadmin : compared a s = some admin) (hflush : s.admins.flush admin current = .ok t)
    (hid : current.id = admin.id) (hemail : current.email = admin.email) :
    ({ s with admins := t } : Database).adminByEmail a.credentials.email = some current := by
  rw [AuthService.adminByEmail_flush (compared_eq_some.mp hadmin).1 hflush hid hemail,
    if_pos rfl]

/-- What holds after every attempt: the account is there, and its row is linked to the
failures. -/
def Invariant (env : Env) (email : String) (st : State) : Prop :=
  ∃ admin, st.db.adminByEmail email = some admin ∧ Linked env admin st.clock st.failures

/-- **An attempt that is refused** keeps the account's row and the failures linked. -/
theorem Invariant.refused {email : String} {st : State} {e : Failure}
    (h : Invariant env email st) (hclock : st.clock ≤ a.req.now)
    (hattempt : attempt env a st.db = (.error e, s')) :
    Invariant env email ⟨s', a.req.now, failuresAfter env email a st⟩ := by
  obtain ⟨admin, hadmin, hlinked⟩ := h
  have hwait := hlinked.wait hclock
  have hafter := attempt_error_inv hattempt
  unfold failuresAfter
  generalize hw : wrong env a st.db = w at hafter ⊢
  by_cases hemail : a.credentials.email = email
  · subst hemail
    cases hafter with
    -- the failure is the newest in the list, and on the row
    | @counted other admins hcompared hflush =>
        obtain ⟨hother, hunlocked⟩ := compared_eq_some.mp hcompared
        obtain rfl : admin = other := Option.some.inj (hadmin.symm.trans hother)
        obtain ⟨hid, hkept, -⟩ := AuthService.columns_countFailure env a.req admin
        refine ⟨_, adminByEmail_of_eq hcompared hflush hid hkept, ?_⟩
        rw [if_pos ⟨rfl, rfl⟩]
        refine (hwait.lift hunlocked).fail ?_
        unfold AuthService.liftLock
        split
        · rfl
        · rename_i hnone
          exact Option.not_isSome_iff_eq_none.mp hnone
    | @lifted other admins hcompared hflush =>
        obtain ⟨hother, hunlocked⟩ := compared_eq_some.mp hcompared
        obtain rfl : admin = other := Option.some.inj (hadmin.symm.trans hother)
        obtain ⟨hid, hkept, -⟩ := columns_liftLock admin
        refine ⟨_, adminByEmail_of_eq hcompared hflush hid hkept, ?_⟩
        rw [if_neg (by simp)]
        exact hwait.lift hunlocked
    | same =>
        rw [if_neg (by simp)]
        exact ⟨admin, hadmin, hwait⟩
  -- an attempt on another account leaves this row alone
  · rw [if_neg fun hboth => hemail hboth.1]
    refine ⟨admin, ?_, hwait⟩
    rw [← hadmin]
    cases hafter with
    | counted hcompared hflush =>
        obtain ⟨hid, hkept, -⟩ := AuthService.columns_countFailure env a.req _
        exact adminByEmail_of_ne hcompared hflush hid hkept hemail
    | lifted hcompared hflush =>
        obtain ⟨hid, hkept, -⟩ := columns_liftLock _
        exact adminByEmail_of_ne hcompared hflush hid hkept hemail
    | same => rfl

/-- A login to another account leaves this one as it was. -/
theorem Invariant.other {email : String} {st : State} {tokens : TokenResponse}
    (h : Invariant env email st) (hclock : st.clock ≤ a.req.now)
    (hattempt : attempt env a st.db = (.ok tokens, s')) (hne : a.credentials.email ≠ email) :
    Invariant env email ⟨s', a.req.now, st.failures⟩ := by
  obtain ⟨admin, hadmin, hlinked⟩ := h
  refine ⟨admin, ?_, hlinked.wait hclock⟩
  rw [← hadmin]
  unfold attempt at hattempt
  rcases hrun : (AuthService.login env a.req a.credentials).run st.db with ⟨e' | tokens', u⟩
  case error =>
    rw [hrun] at hattempt
    dsimp only at hattempt
    split at hattempt
    · split at hattempt <;> cases hattempt
    · cases hattempt
  rw [hrun] at hattempt
  obtain ⟨-, rfl⟩ := Prod.mk.inj hattempt
  rcases AuthService.run_login_inv hrun with ⟨⟨e, he⟩, -⟩ |
    ⟨other, hother, hunlocked, ⟨_, _, -, -, hbad, -⟩ | ⟨admins, -, -, hflush, -, rfl⟩⟩
  · cases he
  · cases hbad
  · exact adminByEmail_of_ne (compared_eq_some.mpr ⟨hother, hunlocked⟩) hflush rfl rfl hne

end Attempt

/-! ## The bound -/

/-- What guessing comes up against. -/
structure BruteForceBound (env : Env) (email : String) (st : State) : Prop where
  /-- Windows that contain their earlier end, and windows that contain their later one. -/
  window : ∀ t,
    (st.failures.filter (fun x => t ≤ x ∧ x < t + lockout env)).length ≤
        env.settings.maxFailedLoginAttempts ∧
      (st.failures.filter (fun x => t < x ∧ x ≤ t + lockout env)).length ≤
        env.settings.maxFailedLoginAttempts
  /-- The count stays below the maximum. -/
  count : ∃ admin, st.db.adminByEmail email = some admin ∧
    admin.failedLoginAttempts < env.settings.maxFailedLoginAttempts
  /-- While the deadline lies in the future, the answer does not depend on bcrypt. -/
  locked : ∀ admin deadline req credentials bcrypt, st.db.adminByEmail email = some admin →
    admin.lockedUntil = some deadline → req.now < deadline → credentials.email = email →
    (AuthService.login { env with bcrypt := bcrypt } req credentials).run st.db =
      (.error (.app .accountLocked), st.db)

/-- **The brute-force bound.** Whatever passwords are tried on an account, one after another
and without success: in every window of a lockout's length at most as many comparisons fail
as the settings allow, the count stays below that number, and no password is compared before
the deadline has passed. -/
theorem bruteForce_bound {env : Env} {email : String} {st : State}
    (hmax : 1 ≤ env.settings.maxFailedLoginAttempts)
    (h : (machine env email).Reachable st) : BruteForceBound env email st := by
  have hI : Invariant env email st := by
    refine Machine.Reachable.invariant (I := Invariant env email) ?_ ?_ h
    · rintro st ⟨hnone, admin, hadmin, hzero, hunlocked⟩
      refine ⟨admin, hadmin, ?_⟩
      rw [hnone]
      exact
        { order := .nil, past := nofun, spaced := .nil, count := by omega, older := by simp
          restart := fun _ => hzero }
    · intro st a st' hst hstep
      simp only [machine] at hstep
      split at hstep
      · rename_i hclock
        split at hstep
        · rename_i tokens db hattempt
          split at hstep
          · cases hstep
          · rename_i hne
            obtain rfl := Option.some.inj hstep
            exact hst.other hclock hattempt hne
        · rename_i e db hattempt
          obtain rfl := Option.some.inj hstep
          exact hst.refused hclock hattempt
      · cases hstep
  obtain ⟨admin, hadmin, hlinked⟩ := hI
  refine ⟨fun t => ⟨hlinked.spaced.length_Ico_le hlinked.order t,
    hlinked.spaced.length_Ioc_le hlinked.order t⟩, ⟨admin, hadmin, hlinked.count⟩, ?_⟩
  rintro other deadline req credentials bcrypt hother hdeadline hfuture rfl
  refine AuthService.run_login_locked hother ?_
  rw [AuthService.locked, hdeadline, Option.any_some, decide_eq_true hfuture]

open Administration (sampleEnv sampleState sampleRequest)

/-- The `n`-th guess at the first admin's password, in the `n`-th second. -/
def sampleAttempt (n : Nat) : Attempt where
  req := sampleRequest n
  credentials := { email := "admin1@example.com", password := "guess" }
  audited := true

/-- Of six guesses within six seconds, five are compared. -/
theorem bruteForce_bound_sampleAttempt :
    ∃ st, (machine sampleEnv "admin1@example.com").exec
        ((List.range 6).map sampleAttempt) ⟨sampleState, 0, []⟩ = some st ∧
      st.failures.length = 5 ∧ BruteForceBound sampleEnv "admin1@example.com" st := by
  have hlength : ((machine sampleEnv "admin1@example.com").exec
      ((List.range 6).map sampleAttempt) ⟨sampleState, 0, []⟩).map
      (fun st => st.failures.length) = some 5 := by decide +kernel
  obtain ⟨st, hexec, hst⟩ := Option.map_eq_some_iff.mp hlength
  have hinit : (machine sampleEnv "admin1@example.com").init ⟨sampleState, 0, []⟩ :=
    ⟨rfl, _, rfl, rfl, rfl⟩
  exact ⟨st, hexec, hst, bruteForce_bound (by decide) (Machine.reachable_of_exec hinit hexec)⟩

end Lockout
end AdminPlatform
