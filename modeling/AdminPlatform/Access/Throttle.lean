import AdminPlatform.Access.Seeded
import AdminPlatform.Lib.FixedWindow
import AdminPlatform.Lib.Machine
import AdminPlatform.Services.Auth

/-! # The OTP throttle

The row of an email counts the requests for an OTP in a window: `requestedOtp` is the limiter
of `Lib.FixedWindow` (`map_requestedOtp`). Any run of requests and verifications for the email
of an active admin, on a clock that does not go back, is followed here with a history of what
was issued, which no call reads. At every moment of the run the throttle holds
(`throttled_of_reachable`). -/

namespace AdminPlatform.OtpThrottle
open AdminPlatform.Lib AuthService
open FixedWindow (Counted Started Window)

/-- The length of a throttle window. -/
def windowLength (env : Env) : Instant := Instant.minutes env.settings.otpThrottleWindowMinutes

/-- The window a row has open. -/
def openWindow (row : PasswordResetOtp) : Window Instant :=
  ⟨row.windowStartedAt, row.requestCount⟩

/-- **The throttle counts in fixed windows.** -/
theorem map_requestedOtp (env : Env) (req : Request) (email : String)
    (o : Option PasswordResetOtp) :
    (requestedOtp env req email o).map openWindow =
      FixedWindow.next env.settings.otpMaxRequestsPerWindow (windowLength env) req.now
        (o.map openWindow) := by
  cases o with
  | none => rfl
  | some row =>
      rw [requestedOtp, Option.map_some, FixedWindow.next]
      split
      · rename_i hended
        exact (if_pos hended).symm
      · rename_i hrunning
        refine Eq.trans ?_ (if_neg hrunning).symm
        split
        · rename_i hfull
          exact (if_pos hfull).symm
        · rename_i hroom
          exact (if_neg hroom).symm

/-! ## Runs for one email -/

/-- An OTP that was issued: when, and the row it left. -/
structure Issued where
  time : Instant
  row : Option PasswordResetOtp

structure State where
  db : Database
  clock : Instant
  /-- Newest first. -/
  issued : List Issued

def State.times (st : State) : List Instant := st.issued.map Issued.time

/-- When the windows of the OTPs began. -/
def State.windowStarts (st : State) : List Instant :=
  st.issued.filterMap fun otp => otp.row.map PasswordResetOtp.windowStartedAt

inductive Call
  | generateOtp
  | verifyOtp (otp : String)
  | updatePassword (newPassword : String)

/-- What a call leaves; a password reset that succeeds is not part of these runs. -/
def perform (env : Env) (email : String) (req : Request) (st : State) : Call → Option State
  | .generateOtp =>
      match (AuthService.generateOtp env req email).run st.db with
      | (.ok _, db) => some ⟨db, req.now, ⟨req.now, db.otps.find? email⟩ :: st.issued⟩
      | (.error _, db) => some ⟨db, req.now, st.issued⟩
  | .verifyOtp otp =>
      some ⟨((AuthService.verifyOtp req ⟨email, otp⟩).run st.db).2, req.now, st.issued⟩
  | .updatePassword newPassword =>
      match (AuthService.updatePassword env req ⟨email, newPassword⟩).run st.db with
      | (.ok _, _) => none
      | (.error _, db) => some ⟨db, req.now, st.issued⟩

/-- An active admin has the email, and no OTP was requested. The clock does not go back. -/
def machine (env : Env) (email : String) : Machine State (Request × Call) where
  init st := (∃ admin, st.db.adminByEmail email = some admin ∧ admin.status = .active) ∧
    st.db.otps.find? email = none ∧ st.issued = []
  step l st := if st.clock ≤ l.1.now then perform env email l.1 st l.2 else none

section Run
variable {env : Env} {email : String} {req : Request} {st st' : State}

/-! ## The invariant -/

/-- The row an issue leaves: unverified, and with its expiry ahead. -/
def Fresh (env : Env) (otp : Issued) : Prop :=
  ∃ row, otp.row = some row ∧ row.verified = false ∧
    row.expiresAt = otp.time + Instant.minutes env.settings.otpExpiryMinutes

/-- The row of the email has counted what was issued; without a row nothing was. -/
def RowCounts (env : Env) (email : String) (st : State) : Prop :=
  (st.db.otps.find? email = none ∧ st.issued = []) ∨
    ∃ row, st.db.otps.find? email = some row ∧ row.email = email ∧
      Counted env.settings.otpMaxRequestsPerWindow (windowLength env) st.times
        (openWindow row) ∧
      Started (windowLength env) st.windowStarts (openWindow row)

structure Invariant (env : Env) (email : String) (st : State) : Prop where
  active : ∃ admin, st.db.adminByEmail email = some admin ∧ admin.status = .active
  past : ∀ time ∈ st.times, time ≤ st.clock
  counts : RowCounts env email st
  fresh : ∀ otp ∈ st.issued, Fresh env otp

/-- A call that issues nothing, and keeps the admins and what the row has counted. -/
theorem Invariant.quiet (h : Invariant env email st) {db : Database} {now : Instant}
    (hnow : st.clock ≤ now) (hadmins : db.admins = st.db.admins)
    (hcounts : RowCounts env email ⟨db, now, st.issued⟩) :
    Invariant env email ⟨db, now, st.issued⟩ where
  active := by
    rw [Database.adminByEmail, hadmins]
    exact h.active
  past time htime := (h.past time htime).trans hnow
  counts := hcounts
  fresh := h.fresh

/-- **A request that is not throttled**: the row counts it as well. -/
theorem Invariant.issue (h : Invariant env email st) (hnow : st.clock ≤ req.now)
    (hm : 1 ≤ env.settings.otpMaxRequestsPerWindow) {row : PasswordResetOtp}
    {otps : Table PasswordResetOtp}
    (hrow : requestedOtp env req email (st.db.otps.find? email) = some row)
    (hstores : Stores otps st.db row) :
    Invariant env email
      ⟨{ st.db with otps := otps }, req.now, ⟨req.now, otps.find? email⟩ :: st.issued⟩ := by
  have hnext := map_requestedOtp env req email (st.db.otps.find? email)
  rw [hrow] at hnext
  obtain ⟨hemail, hunverified, hexpiry⟩ := requestedOtp_columns hrow
    fun old hold => (Table.find?_eq_some.mp hold).2
  have hfind : otps.find? email = some row := by rw [hstores, if_pos hemail.symm]
  refine ⟨h.active, ?_, .inr ⟨row, hfind, hemail, ?_⟩, ?_⟩
  · intro time htime
    rcases List.mem_cons.mp htime with rfl | htime
    · exact le_rfl
    · exact (h.past time htime).trans hnow
  · rw [State.windowStarts, List.filterMap_cons_some (by rw [hfind]; rfl), State.times,
      List.map_cons]
    rcases h.counts with ⟨hnone, hissued⟩ | ⟨old, hold, -, hcounted, hstarted⟩
    · rw [hnone] at hnext
      have hstarted : Started (windowLength env) [(openWindow row).start] (openWindow row) :=
        Started.first
      rw [hissued]
      exact ⟨Counted.first hm hnext.symm, hstarted⟩
    · rw [hold] at hnext
      have hbefore : ∀ time ∈ st.times, time ≤ req.now := fun time htime =>
        (h.past time htime).trans hnow
      have hbegun : (openWindow old).start ≤ req.now :=
        hbefore _ (List.mem_of_getElem? hcounted.begun)
      exact ⟨hcounted.next hbefore hnext.symm, hstarted.next hbegun hnext.symm⟩
  · intro otp hotp
    rcases List.mem_cons.mp hotp with rfl | hotp
    · exact ⟨row, hfind, hunverified, hexpiry⟩
    · exact h.fresh otp hotp

/-- **Every call keeps the throttle.** -/
theorem Invariant.perform (h : Invariant env email st) (hnow : st.clock ≤ req.now)
    (hm : 1 ≤ env.settings.otpMaxRequestsPerWindow) {call : Call}
    (hcall : OtpThrottle.perform env email req st call = some st') : Invariant env email st' := by
  cases call with
  | generateOtp =>
      obtain ⟨admin, hadmin, hactive⟩ := h.active
      have hfilter : (st.db.adminByEmail email).filter (fun a => a.status = .active) =
          some admin := Option.filter_eq_some_iff.mpr ⟨hadmin, decide_eq_true hactive⟩
      rw [OtpThrottle.perform] at hcall
      rcases @run_generateOtp_active env req _ _ _ hfilter with
        ⟨-, hrun⟩ | ⟨row, otps, hrow, hstores, hrun⟩
      · rw [hrun] at hcall
        obtain rfl := Option.some.inj hcall
        exact h.quiet hnow rfl h.counts
      · rw [hrun] at hcall
        obtain rfl := Option.some.inj hcall
        exact h.issue hnow hm hrow hstores
  | verifyOtp otp =>
      rw [OtpThrottle.perform] at hcall
      obtain rfl := Option.some.inj hcall
      rcases hrun : (AuthService.verifyOtp req ⟨email, otp⟩).run st.db with ⟨r, db⟩
      rcases run_verifyOtp_inv hrun with ⟨-, rfl⟩ |
        ⟨admin, row, otps, -, -, -, hrow, -, hstores, -, rfl⟩
      · exact h.quiet hnow rfl h.counts
      · refine h.quiet hnow rfl ?_
        rcases h.counts with ⟨hnone, -⟩ | ⟨old, hold, hemail, hcounted, hstarted⟩
        · rw [hnone] at hrow
          cases hrow
        · obtain rfl : old = row := Option.some.inj (hold.symm.trans hrow)
          refine .inr ⟨{ old with verified := true }, ?_, hemail, hcounted, hstarted⟩
          exact (hstores email).trans (if_pos hemail.symm)
  | updatePassword newPassword =>
      rw [OtpThrottle.perform] at hcall
      rcases hrun : (AuthService.updatePassword env req ⟨email, newPassword⟩).run st.db with
        ⟨e | admin, db⟩
      · rw [hrun] at hcall
        obtain rfl := Option.some.inj hcall
        rcases run_updatePassword_inv hrun with ⟨_, history, -, rfl⟩ |
          ⟨_, _, _, _, -, -, -, -, -, -, hok, -⟩
        · exact h.quiet hnow rfl h.counts
        · cases hok
      · rw [hrun] at hcall
        cases hcall

theorem invariant_of_reachable (hm : 1 ≤ env.settings.otpMaxRequestsPerWindow)
    (h : (machine env email).Reachable st) : Invariant env email st := by
  refine Machine.Reachable.invariant ?_ ?_ h
  · rintro ⟨db, clock, issued⟩ ⟨hactive, hnone, rfl⟩
    exact ⟨hactive, nofun, .inl ⟨hnone, rfl⟩, nofun⟩
  · rintro s ⟨req, call⟩ s' hs hstep
    dsimp only [machine] at hstep
    split at hstep
    · rename_i hnow
      exact hs.perform hnow hm hstep
    · cases hstep

/-! ## The bound -/

/-- The throttle holds: in every interval of the length of a window, whichever of its ends is
the open one, less than twice the maximum were issued; the row has counted one to the maximum;
the windows begin at least the length of one apart; and whatever was issued is to be verified
before its expiry. -/
structure Throttled (env : Env) (email : String) (st : State) : Prop where
  closedOpen : ∀ t, (st.times.filter (fun x => t ≤ x ∧ x < t + windowLength env)).length ≤
    2 * env.settings.otpMaxRequestsPerWindow - 1
  openClosed : ∀ t, (st.times.filter (fun x => t < x ∧ x ≤ t + windowLength env)).length ≤
    2 * env.settings.otpMaxRequestsPerWindow - 1
  count : ∀ row, st.db.otps.find? email = some row →
    1 ≤ row.requestCount ∧ row.requestCount ≤ env.settings.otpMaxRequestsPerWindow
  windows : st.windowStarts.Pairwise fun new old => new = old ∨ old + windowLength env ≤ new
  fresh : ∀ otp ∈ st.issued, Fresh env otp

/-- **The throttle holds in every run** of requests for an OTP, verifications and attempts to
reset the password without one, for the email of an active admin. -/
theorem throttled_of_reachable (hm : 1 ≤ env.settings.otpMaxRequestsPerWindow)
    (h : (machine env email).Reachable st) : Throttled env email st := by
  obtain ⟨-, -, hcounts, hfresh⟩ := invariant_of_reachable hm h
  rcases hcounts with ⟨hnone, hissued⟩ | ⟨row, hrow, -, hcounted, hstarted⟩
  · have htimes : st.times = [] := by rw [State.times, hissued]; rfl
    have hstarts : st.windowStarts = [] := by rw [State.windowStarts, hissued]; rfl
    refine ⟨fun t => ?_, fun t => ?_, fun row hrow => ?_, ?_, hfresh⟩
    · rw [htimes]
      exact Nat.zero_le _
    · rw [htimes]
      exact Nat.zero_le _
    · rw [hnone] at hrow
      cases hrow
    · rw [hstarts]
      exact .nil
  · refine ⟨fun t => ?_, fun t => ?_, fun found hfound => ?_, hstarted.apart, hfresh⟩
    · exact hcounted.spaced.length_Ico_le hcounted.order t
    · exact hcounted.spaced.length_Ioc_le hcounted.order t
    · obtain rfl : row = found := Option.some.inj (hrow.symm.trans hfound)
      exact ⟨hcounted.pos, hcounted.le⟩

end Run

open Administration (sampleEnv sampleRequest sampleState)

/-- Two windows of fifteen minutes, the first one filled at its end, the second at its start. -/
def sampleCalls : List (Request × Call) :=
  [(sampleRequest 1, .generateOtp), (sampleRequest 899, .generateOtp),
    (sampleRequest 899, .verifyOtp otpCode), (sampleRequest 900, .generateOtp),
    (sampleRequest 900, .generateOtp), (sampleRequest 901, .generateOtp),
    (sampleRequest 902, .generateOtp), (sampleRequest 903, .generateOtp)]

/-- In fifteen minutes five OTPs are issued, and no interval of that length has more. -/
theorem throttled_sampleCalls :
    ∃ st, (machine sampleEnv "admin1@example.com").exec sampleCalls ⟨sampleState, 0, []⟩ =
        some st ∧
      (st.times.filter (fun x => Instant.seconds 899 ≤ x ∧
        x < Instant.seconds 899 + windowLength sampleEnv)).length = 5 ∧
      Throttled sampleEnv "admin1@example.com" st := by
  have hfive : ((machine sampleEnv "admin1@example.com").exec sampleCalls
      ⟨sampleState, 0, []⟩).map (fun st => (st.times.filter (fun x => Instant.seconds 899 ≤ x ∧
        x < Instant.seconds 899 + windowLength sampleEnv)).length) = some 5 := by decide +kernel
  obtain ⟨st, hexec, hlength⟩ := Option.map_eq_some_iff.mp hfive
  have hinit : (machine sampleEnv "admin1@example.com").init ⟨sampleState, 0, []⟩ :=
    ⟨⟨Administration.sampleAdmin 1 "admin1" "admin1@example.com", by decide, rfl⟩, by decide, rfl⟩
  exact ⟨st, hexec, hlength,
    throttled_of_reachable (by decide) (Machine.reachable_of_exec hinit hexec)⟩

end AdminPlatform.OtpThrottle
