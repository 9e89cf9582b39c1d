import AdminPlatform.Access.Throttle
import AdminPlatform.Api.Auth

/-! # What requesting OTPs reveals

Requests for an OTP are answered for every email, with or without an account. The throttle
counts them for active accounts only, so an account shows itself by being throttled. Requests
for the email of an active admin are answered as those for any other email if and only if the
throttle has room for all of them (`outcomes_eq_iff`). -/

namespace AdminPlatform.Enumeration
open AdminPlatform.Lib OtpThrottle
open FixedWindow (Fits decisions)

/-- What the client sees of requests for one email, one after another. -/
def outcomes (env : Env) (email : String) : List Request → Database → List (Except Failure Json)
  | [], _ => []
  | req :: later, s =>
      let (outcome, s') := (Api.generateOtp env req email).run s
      outcome :: outcomes env email later s'

/-- The admin with the email is active. -/
def Active (email : String) (s : Database) : Prop :=
  ∃ admin, s.adminByEmail email = some admin ∧ admin.status = .active

/-- No admin has the email, or an inactive one. -/
def Unused (email : String) (s : Database) : Prop :=
  ∀ admin, s.adminByEmail email = some admin → admin.status ≠ .active

/-- What the client sees of a request, by whether the throttle lets it pass. -/
def answer : Bool → Except Failure Json
  | true => .ok Api.otpSent
  | false => .error (.app .otpThrottled)

/-- The throttle has room for requests at these times. -/
def Room (env : Env) (email : String) (times : List Instant) (s : Database) : Prop :=
  Fits env.settings.otpMaxRequestsPerWindow (windowLength env)
    ((s.otps.find? email).map openWindow) times

section Outcomes
variable {env : Env} {req : Request} {reqs : List Request} {email : String} {s : Database}

theorem outcomes_cons {outcome : Except Failure Json} {s' : Database}
    (h : (Api.generateOtp env req email).run s = (outcome, s')) :
    outcomes env email (req :: reqs) s = outcome :: outcomes env email reqs s' := by
  rw [outcomes, h]

/-- Without an account every request is answered. -/
theorem outcomes_unused (h : Unused email s) :
    outcomes env email reqs s = reqs.map fun _ => answer true := by
  induction reqs generalizing s with
  | nil => rfl
  | cons req reqs ih =>
      have hnone : (s.adminByEmail email).filter (fun a => a.status = .active) = none := by
        refine Option.filter_eq_none_iff.mpr fun admin hadmin => ?_
        simpa using h admin hadmin
      obtain ⟨outbox, hrun⟩ := Api.run_generateOtp_ok (AuthService.run_generateOtp_unknown hnone)
      rw [outcomes_cons hrun, List.map_cons]
      -- only the outbox has changed
      exact congrArg _ (ih h)

/-- **With an account the throttle decides.** -/
theorem outcomes_active (h : Active email s) :
    outcomes env email reqs s =
      (decisions env.settings.otpMaxRequestsPerWindow (windowLength env)
        ((s.otps.find? email).map openWindow) (reqs.map Request.now)).map answer := by
  induction reqs generalizing s with
  | nil => rfl
  | cons req reqs ih =>
      obtain ⟨admin, hadmin, hactive⟩ := h
      have hfilter : (s.adminByEmail email).filter (fun a => a.status = .active) =
          some admin := Option.filter_eq_some_iff.mpr ⟨hadmin, decide_eq_true hactive⟩
      have hnext := map_requestedOtp env req email (s.otps.find? email)
      rw [List.map_cons, decisions, ← hnext]
      rcases @AuthService.run_generateOtp_active env (Api.claimedActor req email .admin) _ _ _
        hfilter with ⟨hrow, hrun⟩ | ⟨row, otps, hrow, hstores, hrun⟩
      -- throttled: the row stays as it is
      · obtain ⟨outbox, hrun⟩ := Api.run_generateOtp_throttled hrun
        rw [Api.requestedOtp_claimedActor] at hrow
        rw [outcomes_cons hrun, hrow]
        exact congrArg _ (ih ⟨admin, hadmin, hactive⟩)
      -- counted: the later requests find the row that was written
      · obtain ⟨outbox, hrun⟩ := Api.run_generateOtp_ok hrun
        rw [Api.requestedOtp_claimedActor] at hrow
        have hemail : row.email = email :=
          (AuthService.requestedOtp_columns hrow fun old hold =>
            (Table.find?_eq_some.mp hold).2).1
        have hfind : otps.find? email = some row := by rw [hstores, if_pos hemail.symm]
        let s' : Database := { s with otps := otps, auditIntents := outbox }
        have hs' : Active email s' := ⟨admin, hadmin, hactive⟩
        have hrest := ih hs'
        rw [show s'.otps.find? email = some row from hfind] at hrest
        rw [outcomes_cons hrun, hrow]
        exact congrArg _ hrest

/-- **What requesting OTPs reveals**: requests for the email of an active admin, and requests
at the same times for an email without an active admin, in this state of the platform or any
other. The client sees the same of both if and only if the throttle has room for all those for
the admin. -/
theorem outcomes_eq_iff {used unused : String} {s₀ : Database} {reqs₀ : List Request}
    (hused : Active used s) (hunused : Unused unused s₀)
    (htimes : reqs₀.map Request.now = reqs.map Request.now) :
    outcomes env unused reqs₀ s₀ = outcomes env used reqs s ↔
      Room env used (reqs.map Request.now) s := by
  rw [outcomes_unused hunused, outcomes_active hused, Room, ← FixedWindow.all_decisions_iff]
  generalize hpassed : decisions _ _ _ (reqs.map Request.now) = passed
  have hlength : reqs₀.length = passed.length := by
    rw [← hpassed, FixedWindow.length_decisions, ← htimes, List.length_map]
  rw [List.map_const', hlength, eq_comm, List.eq_replicate_iff, List.length_map]
  constructor
  · rintro ⟨-, hall⟩ p hp
    have hanswer := hall _ (List.mem_map_of_mem hp)
    cases p with
    | true => rfl
    | false => cases hanswer
  · refine fun hall => ⟨rfl, fun outcome houtcome => ?_⟩
    obtain ⟨p, hp, rfl⟩ := List.mem_map.mp houtcome
    rw [hall p hp]

end Outcomes

open Administration (sampleAdmin sampleEnv sampleRequest sampleState)

theorem active_admin1 : Active "admin1@example.com" sampleState :=
  ⟨sampleAdmin 1 "admin1" "admin1@example.com", by decide, rfl⟩

theorem unused_nobody : Unused "nobody@example.com" sampleState := by
  have hnone : sampleState.adminByEmail "nobody@example.com" = none := by decide
  intro admin hadmin
  rw [hnone] at hadmin
  cases hadmin

/-- Three requests are answered alike. -/
theorem outcomes_eq_three :
    outcomes sampleEnv "nobody@example.com" ([1, 2, 3].map sampleRequest) sampleState =
      outcomes sampleEnv "admin1@example.com" ([1, 2, 3].map sampleRequest) sampleState := by
  refine (outcomes_eq_iff active_admin1 unused_nobody rfl).mpr ?_
  show ∀ window ∈ FixedWindow.windows _ _, window.length ≤ _
  decide

/-- **The fourth request tells**: it is throttled for the admin only. -/
theorem outcomes_ne_four :
    Active "admin1@example.com" sampleState ∧ Unused "nobody@example.com" sampleState ∧
      outcomes sampleEnv "nobody@example.com" ([1, 2, 3, 4].map sampleRequest) sampleState ≠
        outcomes sampleEnv "admin1@example.com" ([1, 2, 3, 4].map sampleRequest)
          sampleState := by
  refine ⟨active_admin1, unused_nobody, ?_⟩
  rw [outcomes_unused unused_nobody, outcomes_active active_admin1]
  decide

end AdminPlatform.Enumeration
