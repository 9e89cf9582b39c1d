import AdminPlatform.Access.Effects

/-! # Whose OTP a reset rests on

The requests of `Sessions`, one after another on a clock that does not go back. The state
carries a history of the OTPs requested and verified and of the resets, each with the id of
the admin it was for; no request reads it. `own` draws from it the OTP an admin has.

The table keeps OTPs by email, and emails move between admins. As long as nobody is given an
email under which someone else's OTP is waiting, the row of an admin's email is the admin's
own OTP, and every reset is `Backed` by it (`reset_backed`). -/

namespace AdminPlatform
open AdminPlatform.Lib

namespace OwnOtp

/-! ## The history -/

inductive Event
  | requested (admin : Uuid) (expiresAt : Instant)
  | verified (admin : Uuid)
  | reset (admin : Uuid)
  deriving DecidableEq

/-- A new request or a reset makes an earlier verification void. -/
def Event.Voids (admin : Uuid) : Event → Prop
  | .requested owner _ => owner = admin
  | .verified _ => False
  | .reset owner => owner = admin

/-- The OTP an admin has (newest event first): when it expires, and whether it is verified. -/
def own : List Event → Uuid → Option (Instant × Bool)
  | [], _ => none
  | .requested owner expiresAt :: history, admin =>
      if owner = admin then some (expiresAt, false) else own history admin
  | .verified owner :: history, admin =>
      if owner = admin then (own history admin).map fun otp => (otp.1, true)
      else own history admin
  | .reset owner :: history, admin => if owner = admin then none else own history admin

/-- **A reset of the admin is backed**: a verification for that very admin stands in the
history, before it the request that set the expiry, and nothing voids either; the time is
before the expiry. -/
def Backed (history : List Event) (admin : Uuid) (now : Instant) : Prop :=
  ∃ since before earlier expiresAt,
    history = since ++ .verified admin :: (before ++ .requested admin expiresAt :: earlier) ∧
    (∀ e ∈ since, ¬ e.Voids admin) ∧ (∀ e ∈ before, ¬ e.Voids admin) ∧ now < expiresAt

section History
variable {history : List Event} {admin : Uuid} {expiresAt : Instant} {verified : Bool}

/-- An OTP was requested, and not voided since. -/
theorem requested_of_own (h : own history admin = some (expiresAt, verified)) :
    ∃ before earlier, history = before ++ .requested admin expiresAt :: earlier ∧
      ∀ e ∈ before, ¬ e.Voids admin := by
  have hcons : ∀ (e : Event) (history : List Event), ¬ e.Voids admin →
      (∃ before earlier, history = before ++ .requested admin expiresAt :: earlier ∧
        ∀ e ∈ before, ¬ e.Voids admin) →
      ∃ before earlier, e :: history = before ++ .requested admin expiresAt :: earlier ∧
        ∀ e ∈ before, ¬ e.Voids admin := by
    rintro e _ he ⟨before, earlier, rfl, hbefore⟩
    exact ⟨e :: before, earlier, rfl, List.forall_mem_cons.mpr ⟨he, hbefore⟩⟩
  -- by induction from the newest event, passing over those of others
  induction history generalizing verified with
  | nil => cases h
  | cons e history ih =>
      cases e with
      | requested owner expiry =>
          rw [own] at h
          split at h
          · rename_i howner
            obtain ⟨rfl, -⟩ := Prod.mk.inj (Option.some.inj h)
            exact ⟨[], history, by rw [howner]; rfl, nofun⟩
          · rename_i hne
            exact hcons _ _ hne (ih h)
      | verified owner =>
          rw [own] at h
          split at h
          · obtain ⟨⟨expiry, v⟩, hown, heq⟩ := Option.map_eq_some_iff.mp h
            obtain ⟨rfl, -⟩ := Prod.mk.inj heq
            exact hcons _ _ id (ih hown)
          · exact hcons _ _ id (ih h)
      | reset owner =>
          rw [own] at h
          split at h
          · cases h
          · rename_i hne
            exact hcons _ _ hne (ih h)

/-- An admin whose own OTP is verified has verified it. -/
theorem backed_of_own {now : Instant} (h : own history admin = some (expiresAt, true))
    (hnow : now < expiresAt) : Backed history admin now := by
  have hcons : ∀ (e : Event) (history : List Event), ¬ e.Voids admin →
      Backed history admin now → Backed (e :: history) admin now := by
    rintro e _ he ⟨since, before, earlier, expiry, rfl, hsince, hbefore, hlive⟩
    exact ⟨e :: since, before, earlier, expiry, rfl, List.forall_mem_cons.mpr ⟨he, hsince⟩,
      hbefore, hlive⟩
  induction history with
  | nil => cases h
  | cons e history ih =>
      cases e with
      | requested owner expiry =>
          rw [own] at h
          split at h
          · cases h
          · rename_i hne
            exact hcons _ _ hne (ih h)
      | verified owner =>
          rw [own] at h
          split at h
          · rename_i howner
            obtain ⟨⟨expiry, v⟩, hown, heq⟩ := Option.map_eq_some_iff.mp h
            obtain ⟨rfl, -⟩ := Prod.mk.inj heq
            -- the verification; the request it was for lies further back
            obtain ⟨before, earlier, rfl, hbefore⟩ := requested_of_own hown
            exact ⟨[], before, earlier, expiry, by rw [howner]; rfl, nofun, hbefore, hnow⟩
          · exact hcons _ _ id (ih h)
      | reset owner =>
          rw [own] at h
          split at h
          · cases h
          · rename_i hne
            exact hcons _ _ hne (ih h)

end History

/-! ## Runs -/

structure State where
  db : Database
  clock : Instant
  history : List Event

/-- What a request that succeeds tells of OTPs. -/
def event (env : Env) (req : Request) (s : Database) : Sessions.Call → Option Event
  | .generateOtp email =>
      ((s.adminByEmail email).filter fun a => a.status = .active).map fun admin =>
        .requested admin.id (req.now + Instant.minutes env.settings.otpExpiryMinutes)
  | .verifyOtp payload => (s.adminByEmail payload.email).map fun admin => .verified admin.id
  | .updatePassword payload => (s.adminByEmail payload.email).map fun admin => .reset admin.id
  | _ => none

/-- The state a request leaves. -/
def next (env : Env) (l : Request × Sessions.Call) (st : State) : State :=
  match l.2.serve env l.1 st.db with
  | (.ok _, db) => ⟨db, l.1.now, (event env l.1 st.db l.2).toList ++ st.history⟩
  | (.error _, db) => ⟨db, l.1.now, st.history⟩

/-- Requests in the order of time, from a state in which no OTP is waiting. -/
def machine (env : Env) : Machine State (Request × Sessions.Call) where
  init st := st.history = [] ∧ ∀ row ∈ st.db.otps, row.expiresAt ≤ st.clock
  step l st := if st.clock ≤ l.1.now then some (next env l st) else none

/-! ## The condition -/

/-- The email is nobody's, and an OTP that has not expired is waiting under it which is not
the admin's own. -/
def Waiting (st : State) (now : Instant) (admin : Uuid) (email : String) : Prop :=
  st.db.adminByEmail email = none ∧ ∃ row, st.db.otps.find? email = some row ∧
    now < row.expiresAt ∧ own st.history admin ≠ some (row.expiresAt, row.verified)

/-- The admin an operation names an email for. -/
def gives (req : Request) : UserService.Op → Option (Uuid × String)
  | .create data => some (req.newId, data.email)
  | .update userId data => data.email.map fun email => (userId, email)
  | .replace userId data => some (userId, data.email)
  | .delete _ => none

/-- The operation gives an admin such an email. -/
def TakesOver (st : State) (req : Request) (op : UserService.Op) : Prop :=
  ∃ p ∈ gives req op, Waiting st req.now p.1 p.2

/-- A request that gives no admin an email under which somebody else's OTP is waiting: no user
operation that goes through does. -/
def Clean (env : Env) (st : State) (l : Request × Sessions.Call) : Prop :=
  ∀ op, Sessions.Makes env l.1 st.db l.2 op → ¬ TakesOver st l.1 op

/-! ## What is kept -/

/-- What is waiting under an admin's email is the admin's own OTP. -/
def Invariant (st : State) : Prop :=
  ∀ admin ∈ st.db.admins, ∀ row, st.db.otps.find? admin.email = some row →
    st.clock < row.expiresAt → own st.history admin.id = some (row.expiresAt, row.verified)

section Emails
variable {env : Env} {req : Request} {s s' : Database}

/-- Every admin had the id and the email before. -/
def EmailsKept (admins admins' : Table PlatformAdmin) : Prop :=
  ∀ x' ∈ admins', ∃ x ∈ admins, x.id = x'.id ∧ x.email = x'.email

theorem emailsKept_refl (admins : Table PlatformAdmin) : EmailsKept admins admins :=
  fun x hx => ⟨x, hx, rfl, rfl⟩

theorem emailsKept_flush {admins : Table PlatformAdmin} {user current : PlatformAdmin}
    (hfind : s.admins.find? user.id = some user)
    (hflush : s.admins.flush user current = .ok admins) (hid : current.id = user.id)
    (hemail : current.email = user.email) : EmailsKept s.admins admins := by
  intro x' hx'
  rcases (Table.flush_loaded hflush hfind hid).mp hx' with rfl | ⟨hx, -⟩
  · exact ⟨user, (Table.find?_eq_some.mp hfind).1, hid.symm, hemail.symm⟩
  · exact ⟨x', hx, rfl, rfl⟩

/-- **Where the emails come from** that the admins have after a user operation. -/
theorem emails_effect {op : UserService.Op} (h : op.Effect env req s s') :
    ∀ x' ∈ s'.admins, (∃ x ∈ s.admins, x.id = x'.id ∧ x.email = x'.email) ∨
      (s.adminByEmail x'.email = none ∧ gives req op = some (x'.id, x'.email)) := by
  intro x' hx'
  have hold : x' ∈ s.admins → ∃ x ∈ s.admins, x.id = x'.id ∧ x.email = x'.email :=
    fun hx => ⟨x', hx, rfl, rfl⟩
  cases h with
  | @create data admins adminRoles outbox hinsert =>
      rcases (Table.mem_insert hinsert).mp hx' with hx | rfl
      · exact .inl (hold hx)
      -- the emails of the table are unique, so that of the new row was free
      · refine .inr ⟨?_, rfl⟩
        cases hholder : s.adminByEmail (UserService.newUser env req data).email with
        | none => rfl
        | some holder =>
            obtain ⟨hin, hemail⟩ := Database.adminByEmail_eq_some.mp hholder
            exact absurd (.inr (.inl hemail)) (Table.not_clash_of_insert hinsert hin)
  | @update userId data user admins outbox hfind hguard hflush =>
      obtain rfl : user.id = userId := (Table.find?_eq_some.mp hfind).2
      rcases (Table.flush_loaded hflush hfind rfl).mp hx' with rfl | ⟨hx, -⟩
      · rcases Sessions.email_flush hfind hflush rfl with hsame | hfree
        · exact .inl ⟨user, (Table.find?_eq_some.mp hfind).1, rfl, hsame.symm⟩
        · cases hdata : data.email with
          | none =>
              refine .inl ⟨user, (Table.find?_eq_some.mp hfind).1, rfl, ?_⟩
              simp [UserService.assignUpdate, hdata]
          | some email =>
              refine .inr ⟨hfree, ?_⟩
              simp [gives, UserService.assignUpdate, hdata]
      · exact .inl (hold hx)
  | @replace userId data user admins outbox hfind hflush =>
      obtain rfl : user.id = userId := (Table.find?_eq_some.mp hfind).2
      rcases (Table.flush_loaded hflush hfind rfl).mp hx' with rfl | ⟨hx, -⟩
      · rcases Sessions.email_flush hfind hflush rfl with hsame | hfree
        · exact .inl ⟨user, (Table.find?_eq_some.mp hfind).1, rfl, hsame.symm⟩
        · exact .inr ⟨hfree, rfl⟩
      · exact .inl (hold hx)
  | @delete userId user admins outbox hfind hguard hflush =>
      obtain rfl : user.id = userId := (Table.find?_eq_some.mp hfind).2
      exact .inl (emailsKept_flush hfind hflush rfl rfl x' hx')

end Emails

section Step
variable {env : Env} {st : State} {l : Request × Sessions.Call}

/-- A request that leaves emails and OTPs alone. -/
theorem Invariant.frame (h : Invariant st) {db : Database} {now : Instant}
    (hclock : st.clock ≤ now) (hemails : EmailsKept st.db.admins db.admins)
    (hotps : db.otps = st.db.otps) : Invariant ⟨db, now, st.history⟩ := by
  intro x' hx' row hrow hlive
  obtain ⟨x, hx, hid, hemail⟩ := hemails x' hx'
  rw [← hid]
  refine h x hx row ?_ (hclock.trans_lt hlive)
  rwa [hemail, ← hotps]

/-- A user operation that takes over no waiting OTP. -/
theorem Invariant.user (h : Invariant st) {req : Request} {op : UserService.Op} {db : Database}
    (hclock : st.clock ≤ req.now) (hop : op.Effect env req st.db db)
    (hclean : ¬ TakesOver st req op) : Invariant ⟨db, req.now, st.history⟩ := by
  intro x' hx' row hrow hlive
  have hotps : db.otps = st.db.otps := (Sessions.frame_effect hop).2
  rcases emails_effect hop x' hx' with ⟨x, hx, hid, hemail⟩ | ⟨hfree, hgives⟩
  · rw [← hid]
    refine h x hx row ?_ (hclock.trans_lt hlive)
    rwa [hemail, ← hotps]
  · by_contra hother
    exact hclean ⟨_, hgives, hfree, row, by rwa [← hotps], hlive, hother⟩

/-- A row is written under the email of an admin, with the event that tells of it. -/
theorem Invariant.write (h : Invariant st) {now : Instant} (hclock : st.clock ≤ now)
    {owner : PlatformAdmin} (howner : owner ∈ st.db.admins) {row : PasswordResetOtp}
    (hemail : row.email = owner.email) {otps : Table PasswordResetOtp}
    (hstores : AuthService.Stores otps st.db row) {e : Event}
    (hown : now < row.expiresAt →
      own (e :: st.history) owner.id = some (row.expiresAt, row.verified))
    (hothers : ∀ admin, admin ≠ owner.id → own (e :: st.history) admin = own st.history admin) :
    Invariant ⟨{ st.db with otps := otps }, now, e :: st.history⟩ := by
  intro x hx found hfound hlive
  have hfind : otps.find? x.email = some found := hfound
  rw [hstores] at hfind
  split at hfind
  · rename_i hsame
    obtain rfl := Option.some.inj hfind
    have hclash : Row.Clash x owner := .inr (.inl (hsame.trans hemail))
    obtain rfl := Table.eq_of_clash hx howner hclash
    exact hown hlive
  · rename_i hdiffers
    have hne : x.id ≠ owner.id := by
      intro heq
      rw [Table.eq_of_key hx howner heq] at hdiffers
      exact hdiffers hemail.symm
    rw [hothers x.id hne]
    exact h x hx found hfind (hclock.trans_lt hlive)

/-- **A reset that goes through is backed.** -/
theorem Invariant.backed (h : Invariant st) {req : Request} (hclock : st.clock ≤ req.now)
    {payload : UpdatePasswordRequest} {user : PlatformAdmin}
    (hrun : ((AuthService.updatePassword env req payload).run st.db).1 = .ok user) :
    Backed st.history user.id req.now := by
  rcases hupdate : (AuthService.updatePassword env req payload).run st.db with ⟨r, s'⟩
  rw [hupdate] at hrun
  obtain rfl : r = .ok user := hrun
  rcases AuthService.run_updatePassword_inv hupdate with ⟨e, history, he, -⟩ |
    ⟨owner, row, admins, history, hadmin, -, hrow, hverified, hlive, -, hresult, -⟩
  · cases he
  · obtain rfl := Except.ok.inj hresult
    obtain ⟨hin, hemail⟩ := Database.adminByEmail_eq_some.mp hadmin
    have hown := h owner hin row (by rw [hemail]; exact hrow) (hclock.trans_lt hlive)
    rw [hverified] at hown
    exact backed_of_own hown hlive

/-- **One request keeps the invariant**, unless it takes over a waiting OTP. -/
theorem Invariant.step (h : Invariant st) (hclock : st.clock ≤ l.1.now)
    (hclean : Clean env st l) :
    Invariant (next env l st) := by
  obtain ⟨req, call⟩ := l
  have heffect := Sessions.effect_serve env req st.db call
  unfold next
  rcases hserve : call.serve env req st.db with ⟨r, db⟩
  rw [hserve] at heffect
  have hrefl := emailsKept_refl st.db.admins
  cases heffect with
  | refused => exact h.frame hclock hrefl rfl
  | denied => exact h.frame hclock hrefl rfl
  | @session _ _ admin current admins outbox hcall hfind hflush hsame =>
      -- a session is no event of this history
      have hevent : event env req st.db call = none := by
        cases call <;> first | rfl | cases hcall
      have hemails := emailsKept_flush hfind hflush hsame.id hsame.email
      cases r with
      | error e => exact h.frame hclock hemails rfl
      | ok answer =>
          rw [hevent]
          exact h.frame hclock hemails rfl
  | unknown hnone =>
      show Invariant ⟨_, _, (event env req st.db (.generateOtp _)).toList ++ _⟩
      rw [event, hnone]
      exact h.frame hclock hrefl rfl
  | @requested email owner row otps hadmin hactive hrow hstores =>
      obtain ⟨hin, hemail⟩ := Database.adminByEmail_eq_some.mp hadmin
      obtain ⟨hkey, hverified, hexpires⟩ := AuthService.requestedOtp_columns hrow fun old hold =>
        (Table.find?_eq_some.mp hold).2
      have hevent : event env req st.db (.generateOtp email) =
          some (.requested owner.id row.expiresAt) := by
        rw [event, hadmin, Option.filter_some_pos (by simpa using hactive), hexpires]
        rfl
      show Invariant ⟨_, _, (event env req st.db (.generateOtp email)).toList ++ _⟩
      rw [hevent]
      -- from now on the row is the owner's, not yet verified
      refine h.write hclock hin (hkey.trans hemail.symm) hstores (fun _ => ?_) fun admin hne => ?_
      · rw [own, if_pos rfl, hverified]
      · rw [own, if_neg hne.symm]
  | @verified payload owner row otps hadmin hactive hrow hlive hstores =>
      obtain ⟨hin, hemail⟩ := Database.adminByEmail_eq_some.mp hadmin
      -- the row was the owner's own, so the verification is
      have hown := h owner hin row (by rw [hemail]; exact hrow) (hclock.trans_lt hlive)
      show Invariant ⟨_, _, (event env req st.db (.verifyOtp payload)).toList ++ _⟩
      rw [event, hadmin]
      have hkey : ({ row with verified := true } : PasswordResetOtp).email = owner.email :=
        (Table.find?_eq_some.mp hrow).2.trans hemail.symm
      refine h.write hclock hin hkey hstores (fun _ => ?_) fun admin hne => ?_
      · rw [own, if_pos rfl, hown]
        rfl
      · rw [own, if_neg hne.symm]
  | @reset payload owner row admins added hadmin hrow hverified hlive hnew hinsert hflush =>
      obtain ⟨hin, hemail⟩ := Database.adminByEmail_eq_some.mp hadmin
      have hfind := AuthService.find?_of_adminByEmail hadmin
      show Invariant ⟨_, _, (event env req st.db (.updatePassword payload)).toList ++ _⟩
      rw [event, hadmin]
      intro x' hx' found hfound hexpires
      -- the row of the email is gone, the other admins keep theirs
      obtain ⟨hmem, hkey⟩ := Table.find?_eq_some.mp hfound
      obtain ⟨hold, hkept⟩ := Table.mem_delete.mp hmem
      have hother : found.email ≠ payload.email := of_decide_eq_false hkept
      obtain ⟨x, hx, hid, hxemail⟩ := emailsKept_flush hfind hflush rfl rfl x' hx'
      have hfoundEmail : found.email = x.email := hkey.trans hxemail.symm
      have hne : owner.id ≠ x'.id := by
        intro heq
        have hsame : x = owner := Table.eq_of_key hx hin (hid.trans heq.symm)
        rw [hfoundEmail, hsame, hemail] at hother
        exact hother rfl
      show own (.reset owner.id :: st.history) x'.id = _
      rw [own, if_neg hne, ← hid]
      exact h x hx found (Table.find?_eq_some.mpr ⟨hold, hfoundEmail⟩) (hclock.trans_lt hexpires)
  | user hop => exact h.user hclock hop (hclean _ (.service hop.unopposed))
  | @userRoute credentials op payload caller _ hcalls hgranted hop =>
      have hclock' : st.clock ≤ (Api.actingAs req caller).now := hclock
      have huser := h.user hclock' hop (hclean op (.route hcalls hgranted hop.unopposed))
      exact huser

end Step

/-! ## The result -/

/-- **A reset needs its own verified OTP**, in runs that give nobody an email under which
somebody else's OTP is waiting: whenever a reset changes an admin's password, that admin has
requested the OTP and verified it, nothing has made it void since, and it has not expired. -/
theorem reset_backed {env : Env} {t : List (State × (Request × Sessions.Call))} {s : State}
    (h : (machine env).Run t s) (hclean : ∀ p ∈ t, Clean env p.1 p.2) :
    ∀ p ∈ t, ∀ payload user, p.2.2 = .updatePassword payload →
      ((AuthService.updatePassword env p.2.1 payload).run p.1.db).1 = .ok user →
      Backed p.1.history user.id p.2.1.now := by
  have hI : ∀ u ∈ Machine.visited t s, Invariant u := by
    have hkeeps : ∀ st l st', Invariant st → Clean env st l →
        (machine env).step l st = some st' → Invariant st' := by
      intro st l st' hst hl hstep
      simp only [machine, Option.ite_none_right_eq_some, Option.some.injEq] at hstep
      obtain ⟨hclock, rfl⟩ := hstep
      exact hst.step hclock hl
    refine h.always_while ?_ hkeeps hclean
    rintro st ⟨-, hexpired⟩ admin hadmin row hrow hlive
    exact absurd hlive (not_lt.mpr (hexpired row (Table.find?_eq_some.mp hrow).1))
  intro p hp payload user hcall hrun
  have hclock : p.1.clock ≤ p.2.1.now := by
    obtain ⟨-, u, hstep⟩ := h.step_of_mem hp
    simp only [machine, Option.ite_none_right_eq_some] at hstep
    exact hstep.1
  exact (hI p.1 (List.mem_append_left _ (List.mem_map_of_mem hp))).backed hclock hrun

open Administration (sampleEnv sampleState sampleRequest)

/-- The first admin requests and verifies an OTP. -/
def verifyCalls : List (Request × Sessions.Call) :=
  [(sampleRequest 1, .generateOtp "admin1@example.com"),
    (sampleRequest 2, .verifyOtp { email := "admin1@example.com", otp := "12345" })]

def newPassword : UpdatePasswordRequest where
  email := "admin1@example.com"
  newPassword := "Secret-2"

theorem init_sampleState : (machine sampleEnv).init ⟨sampleState, 0, []⟩ := ⟨rfl, nofun⟩

/-- The first admin then moves to another email; requests that would give the one it leaves to
somebody else are refused, as there is no such admin or nobody calls. -/
def refusedCalls : List (Request × Sessions.Call) :=
  verifyCalls ++
    [(sampleRequest 3, .user (.update (.ofNat 1) { email := "renamed@example.com" })),
      (sampleRequest 4, .user (.update (.ofNat 99) { email := "admin1@example.com" })),
      (sampleRequest 5, .userRoute none (.update (.ofNat 2) { email := "admin1@example.com" })),
      (sampleRequest 6, .generateOtp "renamed@example.com"),
      (sampleRequest 7, .verifyOtp { email := "renamed@example.com", otp := "12345" })]

def renamedPassword : UpdatePasswordRequest where
  email := "renamed@example.com"
  newPassword := "Secret-2"

/-- The operation a request is for, whether it goes through or not. -/
def operation : Sessions.Call → Option UserService.Op
  | .user op => some op
  | .userRoute _ op => some op
  | _ => none

/-- A request that is refused, or whose email no OTP is under. -/
theorem clean_of_unheld {env : Env} {st : State} {l : Request × Sessions.Call}
    (h : (l.2.serve env l.1 st.db).1.toOption = none ∨ ∀ op ∈ operation l.2,
      ∀ g ∈ gives l.1 op, st.db.otps.find? g.2 = none) : Clean env st l := by
  rintro op hmakes ⟨g, hg, -, row, hrow, -⟩
  obtain ⟨req', s', hserve, -⟩ := Sessions.serve_of_makes hmakes
  obtain ⟨req, call⟩ := l
  have hop : op ∈ operation call := by
    cases hmakes <;> exact rfl
  rcases h with hrefused | hunheld
  · rw [hserve] at hrefused
    cases hrefused
  · rw [hunheld op hop g hg] at hrow
    cases hrow

theorem reset_backed_refusedCalls :
    ∃ u, (machine sampleEnv).exec refusedCalls ⟨sampleState, 0, []⟩ = some u ∧
      Backed u.history (.ofNat 1) (sampleRequest 8).now := by
  have hfacts : ((machine sampleEnv).exec refusedCalls ⟨sampleState, 0, []⟩).map
      (fun u => (decide (u.clock ≤ (sampleRequest 8).now),
        ((AuthService.updatePassword sampleEnv (sampleRequest 8) renamedPassword).run
          u.db).1.toOption.map PlatformAdmin.id)) = some (true, some (.ofNat 1)) := by
    decide +kernel
  have hunheld : ∀ p ∈ Machine.trace (machine sampleEnv) refusedCalls ⟨sampleState, 0, []⟩,
      (p.2.2.serve sampleEnv p.2.1 p.1.db).1.toOption.isNone ∨ ∀ op ∈ operation p.2.2,
        ∀ g ∈ gives p.2.1 op, (p.1.db.otps.find? g.2).isNone := by decide +kernel
  obtain ⟨u, hexec, hu⟩ := Option.map_eq_some_iff.mp hfacts
  obtain ⟨hclock, hid⟩ := Prod.mk.inj hu
  obtain ⟨user, hresult, huser⟩ := Option.map_eq_some_iff.mp hid
  have hrun := Machine.Run.of_exec (.start init_sampleState) hexec
  have hstep : (machine sampleEnv).step (sampleRequest 8, .updatePassword renamedPassword) u =
      some (next sampleEnv (sampleRequest 8, .updatePassword renamedPassword) u) :=
    if_pos (of_decide_eq_true hclock)
  refine ⟨u, hexec, ?_⟩
  rw [← huser]
  refine reset_backed (.step hrun hstep) (fun p hp => ?_) _
    (List.mem_append_right _ (List.mem_singleton_self _)) renamedPassword user rfl ?_
  · rcases List.mem_append.mp hp with hp | hp
    · simp only [Option.isNone_iff_eq_none] at hunheld
      exact clean_of_unheld (hunheld p hp)
    · obtain rfl := List.mem_singleton.mp hp
      rintro op ⟨⟩
  · cases hr : ((AuthService.updatePassword sampleEnv (sampleRequest 8) renamedPassword).run
      u.db).1 with
    | error e => rw [hr] at hresult; cases hresult
    | ok a => rw [hr] at hresult; rw [Option.some.inj hresult]

/-- The first admin moves to another email, and the second one to the email it leaves. -/
def moveCalls : List (Request × Sessions.Call) :=
  verifyCalls ++
    [(sampleRequest 3, .user (.update (.ofNat 1)
        { name := none, email := some "renamed@example.com", status := none })),
      (sampleRequest 4, .user (.update (.ofNat 2)
        { name := none, email := some "admin1@example.com", status := none }))]

/-- **A reset on somebody else's OTP**: the password of the second admin is changed, who has
never requested or verified an OTP. -/
theorem reset_on_foreign_otp :
    ∃ t s user, (machine sampleEnv).Run t s ∧
      ((AuthService.updatePassword sampleEnv (sampleRequest 5) newPassword).run s.db).1 =
        .ok user ∧
      ¬ Backed s.history user.id (sampleRequest 5).now := by
  have hfacts : ((machine sampleEnv).exec moveCalls ⟨sampleState, 0, []⟩).map
      (fun u => (u.history,
        ((AuthService.updatePassword sampleEnv (sampleRequest 5) newPassword).run u.db).1.toOption.map
          PlatformAdmin.id)) =
        some ([.verified (.ofNat 1), .requested (.ofNat 1) (Instant.seconds 601)],
          some (.ofNat 2)) := by decide +kernel
  obtain ⟨u, hexec, hu⟩ := Option.map_eq_some_iff.mp hfacts
  obtain ⟨hhistory, hid⟩ := Prod.mk.inj hu
  obtain ⟨user, hresult, huser⟩ := Option.map_eq_some_iff.mp hid
  refine ⟨_, u, user, Machine.Run.of_exec (.start init_sampleState) hexec, ?_, ?_⟩
  · cases hr : ((AuthService.updatePassword sampleEnv (sampleRequest 5) newPassword).run u.db).1 with
    | error e => rw [hr] at hresult; cases hresult
    | ok a => rw [hr] at hresult; rw [Option.some.inj hresult]
  · rintro ⟨since, before, earlier, expiresAt, heq, -⟩
    have hmem : Event.verified (.ofNat 2) ∈ u.history := by
      rw [heq, huser]
      simp
    rw [hhistory] at hmem
    revert hmem
    decide

end OwnOtp
end AdminPlatform
