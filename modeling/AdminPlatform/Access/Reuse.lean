import AdminPlatform.Access.PasswordChange
import AdminPlatform.Lib.Recent

/-! # Old passwords

The requests of `Sessions`, one after another on a clock that goes forward. The state carries
the passwords one admin has held, newest first, each with its hash; no request reads it.

The history table keeps the hashes of the last few of them, as long as every change of the
password is a reset: a reset files the old hash and trims the rest, a replacement files
nothing. `noReuse` is the law for runs without replacements of the admin. -/

namespace AdminPlatform
open AdminPlatform.Lib

namespace Reuse

/-! ## Runs -/

structure State where
  db : Database
  clock : Instant
  /-- The passwords the admin has held, with their hashes, newest first. -/
  held : List (String × String)

/-- The password a request brings for an admin. -/
def given : Sessions.Call → Option String
  | .updatePassword payload => some payload.newPassword
  | .user (.replace _ data) => some data.password
  | .userRoute _ (.replace _ data) => some data.password
  | _ => none

/-- The password the admin has from the request on, if it is another. -/
def change (env : Env) (admin : Uuid) (l : Request × Sessions.Call) (s : Database) :
    Option (String × String) :=
  match s.admins.find? admin, (l.2.serve env l.1 s).2.admins.find? admin, given l.2 with
  | some before, some after, some password =>
      if after.hashedPassword = before.hashedPassword then none
      else some (password, after.hashedPassword)
  | _, _, _ => none

def next (env : Env) (admin : Uuid) (l : Request × Sessions.Call) (st : State) : State where
  db := (l.2.serve env l.1 st.db).2
  clock := l.1.now
  held := (change env admin l st.db).toList ++ st.held

/-- Requests with increasing times, from a state in which the admin holds the first password
and has no history. -/
def machine (env : Env) (admin : Uuid) : Machine State (Request × Sessions.Call) where
  init st :=
    (∃ user password, st.db.admins.find? admin = some user ∧
      st.held = [(password, user.hashedPassword)] ∧
      env.bcrypt.verifyPassword password user.hashedPassword = true) ∧
    ∀ entry ∈ st.db.passwordHistory, entry.platformAdminId ≠ admin
  step l st := if st.clock < l.1.now then some (next env admin l st) else none

/-! ## The entries of an admin -/

/-- The history entries of an admin, in the order they were added. -/
def entries (t : Table PasswordHistory) (admin : Uuid) : List PasswordHistory :=
  t.select fun entry => entry.platformAdminId = admin

section Entries
variable {s : Database} {admin other : Uuid} {t : Table PasswordHistory}

theorem recent_eq (h : Chronological PasswordHistory.createdAt (entries s.passwordHistory admin))
    (n : Nat) : PasswordHistoryRepository.recent s admin n =
      (entries s.passwordHistory admin).reverse.take n :=
  congrArg (List.take n) h.newestFirst_eq

theorem nodup_entries (t : Table PasswordHistory) (admin : Uuid) :
    ((entries t admin).map PasswordHistory.id).Nodup :=
  List.pairwise_map.mpr (List.Pairwise.sublist List.filter_sublist t.unique)

theorem entries_insert {entry : PasswordHistory} (h : s.passwordHistory.insert entry = some t)
    (admin : Uuid) :
    entries t admin = entries s.passwordHistory admin ++
      if entry.platformAdminId = admin then [entry] else [] := by
  rw [entries, Table.select, Table.rows_insert h, List.filter_append]
  by_cases hadmin : entry.platformAdminId = admin <;> simp [entries, Table.select, hadmin]

/-- Trimming keeps the newest entries of the admin. -/
theorem entries_trimmed {n : Nat} (hn : 0 < n)
    (h : Chronological PasswordHistory.createdAt (entries s.passwordHistory admin)) :
    entries (PasswordHistoryRepository.trimmed s admin n) admin =
      ((entries s.passwordHistory admin).reverse.take n).reverse := by
  rw [← filter_mem_newest (nodup_entries s.passwordHistory admin) n]
  unfold PasswordHistoryRepository.trimmed
  rw [recent_eq h]
  split
  · rename_i hnil
    have hempty : entries s.passwordHistory admin = [] := by
      have hzero : n = 0 ∨ entries s.passwordHistory admin = [] := by
        simpa [List.take_eq_nil_iff] using hnil
      exact hzero.resolve_left hn.ne'
    rw [hempty]
    rfl
  · rw [entries, Table.select, Table.delete, List.filter_filter, entries, Table.select,
      List.filter_filter]
    refine List.filter_congr fun entry _ => ?_
    by_cases hadmin : entry.platformAdminId = admin <;> simp [hadmin]

/-- Trimming leaves the entries of the others. -/
theorem entries_trimmed_of_ne (n : Nat) (hne : other ≠ admin) :
    entries (PasswordHistoryRepository.trimmed s admin n) other =
      entries s.passwordHistory other := by
  unfold PasswordHistoryRepository.trimmed
  split
  · rfl
  · rw [entries, Table.select, Table.delete, List.filter_filter]
    refine List.filter_congr fun entry _ => ?_
    by_cases hother : entry.platformAdminId = other <;> simp [hother, hne]

end Entries

/-! ## What is kept -/

/-- The admin's row and history against the passwords held. -/
structure Invariant (env : Env) (admin : Uuid) (st : State) : Prop where
  current : ∃ user password older, st.db.admins.find? admin = some user ∧
    st.held = (password, user.hashedPassword) :: older
  verifies : ∀ p ∈ st.held, env.bcrypt.verifyPassword p.1 p.2 = true
  order : Chronological PasswordHistory.createdAt (entries st.db.passwordHistory admin)
  past : ∀ entry ∈ entries st.db.passwordHistory admin, entry.createdAt ≤ st.clock
  history : (entries st.db.passwordHistory admin).reverse.map PasswordHistory.hashedPassword =
    (st.held.tail.take env.settings.passwordHistoryDepth).map Prod.snd

/-- A request that replaces the admin, nothing standing against it, with another password. -/
def ReplacesAdmin (env : Env) (admin : Uuid) (l : Request × Sessions.Call) (st : State) : Prop :=
  ∃ user, user.id = admin ∧ Sessions.Replaces env l.1 st.db l.2 user

section Step
variable {env : Env} {admin : Uuid} {st : State} {l : Request × Sessions.Call}

/-- Requests that leave the admin's password and history alone. -/
theorem Invariant.frame (h : Invariant env admin st) (hclock : st.clock < l.1.now)
    (hfound : ((l.2.serve env l.1 st.db).2.admins.find? admin).isSome)
    (hkeeps : ∀ user user', st.db.admins.find? admin = some user →
      (l.2.serve env l.1 st.db).2.admins.find? admin = some user' →
      user'.hashedPassword = user.hashedPassword)
    (hentries : entries (l.2.serve env l.1 st.db).2.passwordHistory admin =
      entries st.db.passwordHistory admin) :
    Invariant env admin (next env admin l st) := by
  obtain ⟨user, password, older, hbefore, hheld⟩ := h.current
  obtain ⟨user', hafter⟩ := Option.isSome_iff_exists.mp hfound
  have hhash := hkeeps user user' hbefore hafter
  have hnone : change env admin l st.db = none := by
    unfold change
    rw [hbefore, hafter]
    cases given l.2 with
    | none => rfl
    | some password => exact if_pos hhash
  have hnext : (next env admin l st).held = st.held := by
    show (change env admin l st.db).toList ++ st.held = st.held
    rw [hnone, Option.toList_none, List.nil_append]
  refine
    { current := ⟨user', password, older, hafter, by rw [hnext, hhash, hheld]⟩
      verifies := by rw [hnext]; exact h.verifies
      order := ?_, past := ?_, history := ?_ }
  · show Chronological _ (entries (l.2.serve env l.1 st.db).2.passwordHistory admin)
    rw [hentries]
    exact h.order
  · intro entry hentry
    have hold : entry ∈ entries st.db.passwordHistory admin := hentries ▸ hentry
    exact (h.past entry hold).trans hclock.le
  · rw [hnext]
    show (entries (l.2.serve env l.1 st.db).2.passwordHistory admin).reverse.map _ = _
    rw [hentries]
    exact h.history

/-- What is not reused is none of the passwords whose hashes were compared. -/
theorem Invariant.fresh_of_not_reused (h : Invariant env admin st) {user : PlatformAdmin}
    {password : String} (hfind : st.db.admins.find? admin = some user)
    (hnew : AuthService.reused env password user (PasswordHistoryRepository.recent st.db admin
      env.settings.passwordHistoryDepth) = false) :
    password ∉ (st.held.take (env.settings.passwordHistoryDepth + 1)).map Prod.fst := by
  obtain ⟨hcurrent, hrecent⟩ := Bool.or_eq_false_iff.mp hnew
  obtain ⟨user', first, older, hfind', hheld⟩ := h.current
  obtain rfl : user = user' := Option.some.inj (hfind.symm.trans hfind')
  intro hmem
  obtain ⟨⟨p, hash⟩, hp, rfl⟩ := List.mem_map.mp hmem
  have hverifies := h.verifies _ (List.mem_of_mem_take hp)
  rw [hheld, List.take_succ_cons] at hp
  rcases List.mem_cons.mp hp with heq | hp
  · obtain ⟨rfl, rfl⟩ := Prod.mk.inj heq
    exact Bool.false_ne_true (hcurrent.symm.trans hverifies)
  · have hhash : hash ∈ (entries st.db.passwordHistory admin).reverse.map
        PasswordHistory.hashedPassword := by
      rw [h.history, hheld, List.tail_cons]
      exact List.mem_map_of_mem hp
    obtain ⟨entry, hentry, rfl⟩ := List.mem_map.mp hhash
    have hlength : (entries st.db.passwordHistory admin).reverse.length ≤
        env.settings.passwordHistoryDepth := by
      have := congrArg List.length h.history
      rw [List.length_map, List.length_map, List.length_take] at this
      omega
    have hin : entry ∈ PasswordHistoryRepository.recent st.db admin
        env.settings.passwordHistoryDepth := by
      rw [recent_eq h.order, List.take_of_length_le hlength]
      exact hentry
    exact List.any_eq_false.mp hrecent entry hin hverifies

/-- **A reset of the admin** files the old hash in front and drops what is too old. -/
theorem Invariant.reset (h : Invariant env admin st) (hclock : st.clock < l.1.now)
    (hdepth : 1 ≤ env.settings.passwordHistoryDepth)
    (hbcrypt : ∀ salt password,
      env.bcrypt.verifyPassword password (env.bcrypt.hashPassword salt password) = true)
    {payload : UpdatePasswordRequest} (hcall : l.2 = .updatePassword payload)
    {user : PlatformAdmin} {admins : Table PlatformAdmin} {added : Table PasswordHistory}
    (hfind : st.db.admins.find? admin = some user)
    (hnew : AuthService.reused env payload.newPassword user
      (PasswordHistoryRepository.recent st.db admin env.settings.passwordHistoryDepth) = false)
    (hinsert : st.db.passwordHistory.insert ⟨l.1.newId, admin, user.hashedPassword, l.1.now⟩ =
      some added)
    (hflush : st.db.admins.flush user (AuthService.resetPassword env l.1 payload.newPassword user) =
      .ok admins)
    (hserve : (l.2.serve env l.1 st.db).2.admins = admins ∧
      (l.2.serve env l.1 st.db).2.passwordHistory =
        PasswordHistoryRepository.trimmed { st.db with passwordHistory := added } admin
          env.settings.passwordHistoryDepth) :
    Invariant env admin (next env admin l st) := by
  obtain rfl : user.id = admin := (Table.find?_eq_some.mp hfind).2
  obtain ⟨user', first, older, hfind', hheld⟩ := h.current
  obtain rfl : user = user' := Option.some.inj (hfind.symm.trans hfind')
  obtain ⟨hadmins, hhistory⟩ := hserve
  let hash := env.bcrypt.hashPassword l.1.salt payload.newPassword
  have hother : hash ≠ user.hashedPassword := by
    intro heq
    have hverifies : env.bcrypt.verifyPassword payload.newPassword hash = true := hbcrypt _ _
    rw [heq] at hverifies
    exact Bool.false_ne_true ((Bool.or_eq_false_iff.mp hnew).1.symm.trans hverifies)
  have hafter : admins.find? user.id =
      some (AuthService.resetPassword env l.1 payload.newPassword user) := by
    rw [Table.find?_flush_loaded hflush hfind rfl]
    exact if_pos rfl
  have hchange : change env user.id l st.db = some (payload.newPassword, hash) := by
    unfold change
    rw [hadmins, hfind, hafter, hcall]
    exact if_neg hother
  have hnext : (next env user.id l st).held =
      (payload.newPassword, hash) :: (first, user.hashedPassword) :: older := by
    show (change env user.id l st.db).toList ++ st.held = _
    rw [hchange, hheld]
    rfl
  -- the entries: the old hash comes last, and the newest of them are kept
  have hadded : entries added user.id = entries st.db.passwordHistory user.id ++
      [⟨l.1.newId, user.id, user.hashedPassword, l.1.now⟩] := by
    rw [entries_insert hinsert, if_pos rfl]
  have horder : Chronological PasswordHistory.createdAt (entries added user.id) := by
    rw [hadded]
    exact h.order.append fun entry hentry => (h.past entry hentry).trans_lt hclock
  have hkept : entries (l.2.serve env l.1 st.db).2.passwordHistory user.id =
      ((entries added user.id).reverse.take env.settings.passwordHistoryDepth).reverse := by
    rw [hhistory]
    exact entries_trimmed (s := { st.db with passwordHistory := added }) hdepth horder
  have hpast : ∀ entry ∈ entries added user.id, entry.createdAt ≤ l.1.now := by
    intro entry hentry
    rw [hadded] at hentry
    rcases List.mem_append.mp hentry with hentry | hentry
    · exact (h.past entry hentry).trans hclock.le
    · rw [List.mem_singleton.mp hentry]
  obtain ⟨depth, hd⟩ : ∃ depth, env.settings.passwordHistoryDepth = depth + 1 :=
    Nat.exists_eq_succ_of_ne_zero (by omega)
  refine
    { current := ⟨_, payload.newPassword, _, by rw [← hadmins] at hafter; exact hafter, hnext⟩
      verifies := ?_, order := ?_, past := ?_, history := ?_ }
  · rw [hnext, ← hheld]
    intro p hp
    rcases List.mem_cons.mp hp with rfl | hp
    · exact hbcrypt _ _
    · exact h.verifies p hp
  · show Chronological _ (entries (l.2.serve env l.1 st.db).2.passwordHistory user.id)
    rw [hkept, List.take_reverse, List.reverse_reverse]
    exact horder.sublist (List.drop_sublist _ _)
  · intro entry hentry
    have hmem : entry ∈ entries (l.2.serve env l.1 st.db).2.passwordHistory user.id := hentry
    rw [hkept, List.mem_reverse] at hmem
    exact hpast entry (List.mem_reverse.mp (List.mem_of_mem_take hmem))
  · show (entries (l.2.serve env l.1 st.db).2.passwordHistory user.id).reverse.map _ = _
    have hprevious := h.history
    rw [hheld, List.tail_cons] at hprevious
    rw [hkept, hnext, List.reverse_reverse, hadded, List.reverse_append, List.tail_cons, hd,
      List.reverse_singleton, List.singleton_append, List.take_succ_cons, List.take_succ_cons,
      List.map_cons, List.map_cons, List.map_take, hprevious, hd, ← List.map_take,
      List.take_take, Nat.min_eq_left (Nat.le_succ depth)]

/-- **One request keeps the invariant**, unless it replaces the admin. -/
theorem Invariant.step (h : Invariant env admin st) (hclock : st.clock < l.1.now)
    (hdepth : 1 ≤ env.settings.passwordHistoryDepth)
    (hbcrypt : ∀ salt password,
      env.bcrypt.verifyPassword password (env.bcrypt.hashPassword salt password) = true)
    (hok : ¬ ReplacesAdmin env admin l st) : Invariant env admin (next env admin l st) := by
  obtain ⟨req, call⟩ := l
  obtain ⟨user, first, older, hfind, hheld⟩ := h.current
  have heffect := Sessions.effect_serve env req st.db call
  have hfound := heffect.isSome_find? (show (st.db.admins.find? admin).isSome by rw [hfind]; rfl)
  have hframe := h.frame (l := (req, call)) hclock hfound
  have hself : ∀ user, st.db.admins.find? admin = some user →
      st.db.admins.find? user.id = some user ∧ user.id = admin := fun user hfind =>
    ⟨Table.find?_eq_some.mpr ⟨(Table.find?_eq_some.mp hfind).1, rfl⟩,
      (Table.find?_eq_some.mp hfind).2⟩
  rcases hserve : call.serve env req st.db with ⟨r, s'⟩
  rw [hserve] at heffect hframe
  cases heffect with
  -- requests that set no password and file nothing
  | refused => exact hframe (Sessions.keepsPasswords_refl _ _) rfl
  | denied => exact hframe (Sessions.keepsPasswords_refl _ _) rfl
  | unknown => exact hframe (Sessions.keepsPasswords_refl _ _) rfl
  | requested => exact hframe (Sessions.keepsPasswords_refl _ _) rfl
  | verified => exact hframe (Sessions.keepsPasswords_refl _ _) rfl
  | session _ hloaded hflush hsame =>
      exact hframe
        (Sessions.keepsPasswords_flush hloaded hflush hsame.id hsame.hashedPassword _) rfl
  | @reset payload owner row admins added hadmin _ _ _ hnew hinsert hflush =>
      have howner := AuthService.find?_of_adminByEmail hadmin
      -- another admin's reset files under the id of that admin
      by_cases hid : owner.id = admin
      · subst hid
        exact h.reset hclock hdepth hbcrypt rfl howner hnew hinsert hflush
          (by rw [hserve]; exact ⟨rfl, rfl⟩)
      · refine hframe (fun before after hbefore hafter => ?_) ?_
        · have hne : admin ≠ Row.key owner := Ne.symm hid
          rw [Table.find?_flush_loaded hflush howner rfl, if_neg hne] at hafter
          rw [Option.some.inj (hbefore.symm.trans hafter)]
        · show entries (PasswordHistoryRepository.trimmed _ owner.id _) admin = _
          rw [entries_trimmed_of_ne _ (Ne.symm hid), entries_insert hinsert, if_neg hid,
            List.append_nil]
  -- a change of the hash is a replacement, which `hok` excludes
  | user hop =>
      refine hframe (fun before after hbefore hafter => by_contra fun hne => hok ?_)
        (by rw [(Sessions.frame_effect hop).1])
      obtain ⟨data, rfl, hfree, hhash⟩ := Sessions.replace_of_effect hop hbefore hafter hne
      obtain ⟨hloaded, hid⟩ := hself before hbefore
      exact ⟨before, hid, .service hloaded hfree hhash⟩
  | userRoute hcalls hgranted hop =>
      refine hframe (fun before after hbefore hafter => by_contra fun hne => hok ?_)
        (by rw [(Sessions.frame_effect hop).1])
      obtain ⟨data, rfl, hfree, hhash⟩ := Sessions.replace_of_effect hop hbefore hafter hne
      obtain ⟨hloaded, hid⟩ := hself before hbefore
      exact ⟨before, hid, .route hcalls hgranted hloaded hfree hhash⟩

end Step

/-! ## The law -/

/-- The request resets the admin's password. -/
def Resets (env : Env) (admin : Uuid) (req : Request) (payload : UpdatePasswordRequest)
    (s : Database) : Prop :=
  ∃ user, ((AuthService.updatePassword env req payload).run s).1 = .ok user ∧ user.id = admin

/-- What holds of the resets of a run, and of the history in every state it goes through. -/
structure NoReuse (env : Env) (admin : Uuid) (t : List (State × (Request × Sessions.Call)))
    (s : State) : Prop where
  /-- A reset sets neither the password the admin has nor one of the last few before it. -/
  fresh : ∀ p ∈ t, ∀ payload, p.2.2 = .updatePassword payload →
    Resets env admin p.2.1 payload p.1.db →
    payload.newPassword ∉
      (p.1.held.take (env.settings.passwordHistoryDepth + 1)).map Prod.fst
  /-- The history is that of the last passwords before the one the admin has. -/
  history : ∀ u ∈ Machine.visited t s,
    (entries u.db.passwordHistory admin).length ≤ env.settings.passwordHistoryDepth ∧
    (PasswordHistoryRepository.recent u.db admin env.settings.passwordHistoryDepth).map
        PasswordHistory.hashedPassword =
      (u.held.tail.take env.settings.passwordHistoryDepth).map Prod.snd

theorem Invariant.init {env : Env} {admin : Uuid} {st : State}
    (h : (machine env admin).init st) : Invariant env admin st := by
  obtain ⟨⟨user, password, hfind, hheld, hverifies⟩, hnone⟩ := h
  have hempty : entries st.db.passwordHistory admin = [] := by
    refine List.filter_eq_nil_iff.mpr fun entry hentry => ?_
    simpa using hnone entry hentry
  refine
    { current := ⟨user, password, [], hfind, hheld⟩, verifies := ?_, order := ?_, past := ?_
      history := ?_ }
  · rw [hheld]
    intro p hp
    rw [List.mem_singleton.mp hp]
    exact hverifies
  · rw [hempty]
    exact .nil
  · rw [hempty]
    exact nofun
  · rw [hempty, hheld]
    simp

/-- **No recent password can be reused**, in runs that replace the admin by no request: a
reset never sets a password the admin has or one of the last few before it, and the history
holds exactly the hashes of those. -/
theorem noReuse {env : Env} {admin : Uuid} {t : List (State × (Request × Sessions.Call))}
    {s : State} (hdepth : 1 ≤ env.settings.passwordHistoryDepth)
    (hbcrypt : ∀ salt password,
      env.bcrypt.verifyPassword password (env.bcrypt.hashPassword salt password) = true)
    (h : (machine env admin).Run t s) (hok : ∀ p ∈ t, ¬ ReplacesAdmin env admin p.2 p.1) :
    NoReuse env admin t s := by
  have hI : ∀ u ∈ Machine.visited t s, Invariant env admin u := by
    have hkeeps : ∀ st l st', Invariant env admin st → ¬ ReplacesAdmin env admin l st →
        (machine env admin).step l st = some st' → Invariant env admin st' := by
      intro st l st' hst hl hstep
      simp only [machine, Option.ite_none_right_eq_some, Option.some.injEq] at hstep
      obtain ⟨hclock, rfl⟩ := hstep
      exact hst.step hclock hdepth hbcrypt hl
    exact h.always_while (fun st hst => .init hst) hkeeps hok
  refine ⟨?_, ?_⟩
  · rintro ⟨st, req, call⟩ hp payload hcall ⟨user, hrun, hid⟩
    have hst := hI st (List.mem_append_left _ (List.mem_map_of_mem hp))
    rcases hupdate : (AuthService.updatePassword env req payload).run st.db with ⟨r, s'⟩
    rw [hupdate] at hrun
    obtain rfl : r = .ok user := hrun
    rcases AuthService.run_updatePassword_cases hupdate with ⟨⟨e, he⟩, -⟩ |
      ⟨owner, row, admins, added, hadmin, -, -, -, -, hnew, -, -, hresult, -⟩
    · cases he
    · obtain rfl := Except.ok.inj hresult
      obtain rfl : owner.id = admin := hid
      exact hst.fresh_of_not_reused (AuthService.find?_of_adminByEmail hadmin) hnew
  · intro u hu
    have hhistory := (hI u hu).history
    have hlength : (entries u.db.passwordHistory admin).reverse.length ≤
        env.settings.passwordHistoryDepth := by
      have := congrArg List.length hhistory
      rw [List.length_map, List.length_map, List.length_take] at this
      omega
    rw [recent_eq (hI u hu).order, List.take_of_length_le hlength, ← List.length_reverse]
    exact ⟨hlength, hhistory⟩

open Administration (sampleEnv sampleState sampleRequest sampleAdmin)

/-- bcrypt as a hash that ends in the password. -/
def suffixEnv : Env :=
  { sampleEnv with
    bcrypt :=
      { hashpw := sampleEnv.bcrypt.hashpw
        checkpw := fun password hashed =>
          ('$' :: Administration.passwordChars password) <:+ hashed.toList } }

theorem verifyPassword_suffixEnv (salt password : String) :
    suffixEnv.bcrypt.verifyPassword password (suffixEnv.bcrypt.hashPassword salt password) =
      true := by
  refine decide_eq_true ?_
  show _ <:+ (String.ofList _).toList
  rw [String.toList_ofList]
  exact List.suffix_append _ _

/-- The sample state, where the first admin's password is "First-1". -/
def firstPassword : State where
  db := { sampleState with
    admins :=
      ⟨[{ sampleAdmin 1 "admin1" "admin1@example.com" with hashedPassword := "salt$First-1" }],
        by decide⟩ }
  clock := 0
  held := [("First-1", "salt$First-1")]

/-- A reset in the seconds from `n` on, for the admin. -/
def resetFrom (n : Nat) (password : String) : List (Request × Sessions.Call) :=
  [(sampleRequest n, .generateOtp "admin1@example.com"),
    (sampleRequest (n + 1), .verifyOtp { email := "admin1@example.com", otp := "12345" }),
    (sampleRequest (n + 2), .updatePassword
      { email := "admin1@example.com", newPassword := password })]

theorem init_firstPassword (env : Env)
    (h : env.bcrypt.verifyPassword "First-1" "salt$First-1" = true) :
    (machine env (.ofNat 1)).init firstPassword :=
  ⟨⟨_, _, rfl, rfl, h⟩, nofun⟩

/-- Two resets file two hashes. -/
theorem noReuse_resetFrom :
    ∃ t s, (machine suffixEnv (.ofNat 1)).Run t s ∧
      t.map Prod.snd = resetFrom 1 "Second-2" ++ resetFrom 4 "Third-3" ∧
      s.held.length = 3 ∧ NoReuse suffixEnv (.ofNat 1) t s := by
  have hlength : ((machine suffixEnv (.ofNat 1)).exec
      (resetFrom 1 "Second-2" ++ resetFrom 4 "Third-3") firstPassword).map
        (fun s => s.held.length) = some 3 := by decide +kernel
  obtain ⟨s, hexec, hs⟩ := Option.map_eq_some_iff.mp hlength
  have hrun := Machine.Run.of_exec (.start (init_firstPassword suffixEnv (by decide))) hexec
  have hlabels := Machine.map_snd_trace hexec
  refine ⟨_, s, hrun, hlabels, hs, noReuse (by decide) verifyPassword_suffixEnv hrun ?_⟩
  rintro p hp ⟨user, -, hreplaces⟩
  have hcall : p.2 ∈ resetFrom 1 "Second-2" ++ resetFrom 4 "Third-3" :=
    hlabels ▸ List.mem_map_of_mem hp
  generalize p.2 = l at hcall hreplaces
  simp only [resetFrom, List.cons_append, List.nil_append, List.mem_cons, List.not_mem_nil,
    or_false] at hcall
  rcases hcall with rfl | rfl | rfl | rfl | rfl | rfl <;> cases hreplaces

/-- The admin is replaced with another password, and an OTP is requested and verified. -/
def replaceCalls : List (Request × Sessions.Call) :=
  [(sampleRequest 1, .user (.replace (.ofNat 1)
      { name := "admin1", email := "admin1@example.com", password := "Second-2" })),
    (sampleRequest 2, .generateOtp "admin1@example.com"),
    (sampleRequest 3, .verifyOtp { email := "admin1@example.com", otp := "12345" })]

/-- The password from before the replacement. -/
def oldPassword : UpdatePasswordRequest where
  email := "admin1@example.com"
  newPassword := "First-1"

/-- **The last password is set again**: the replacement left no trace in the history. -/
theorem replaced_password_reused :
    ∃ t s, (machine sampleEnv (.ofNat 1)).Run t s ∧ ¬ NoReuse sampleEnv (.ofNat 1) t s := by
  have hfacts : ((machine sampleEnv (.ofNat 1)).exec replaceCalls firstPassword).map
      (fun u => (u.held.map Prod.fst, decide (u.clock < (sampleRequest 4).now),
        ((AuthService.updatePassword sampleEnv (sampleRequest 4) oldPassword).run u.db).1.toOption.map
          PlatformAdmin.id)) =
        some (["Second-2", "First-1"], true, some (.ofNat 1)) := by decide +kernel
  obtain ⟨u, hexec, hu⟩ := Option.map_eq_some_iff.mp hfacts
  obtain ⟨hheld, hu⟩ := Prod.mk.inj hu
  obtain ⟨hclock, hid⟩ := Prod.mk.inj hu
  have hrun := Machine.Run.of_exec (.start (init_firstPassword sampleEnv (by decide))) hexec
  have hstep : (machine sampleEnv (.ofNat 1)).step (sampleRequest 4, .updatePassword oldPassword) u =
      some (next sampleEnv (.ofNat 1) (sampleRequest 4, .updatePassword oldPassword) u) :=
    if_pos (of_decide_eq_true hclock)
  refine ⟨_, _, .step hrun hstep, fun hno => ?_⟩
  obtain ⟨user, hresult, huser⟩ := Option.map_eq_some_iff.mp hid
  have hresets : Resets sampleEnv (.ofNat 1) (sampleRequest 4) oldPassword u.db := by
    refine ⟨user, ?_, huser⟩
    cases hr : ((AuthService.updatePassword sampleEnv (sampleRequest 4) oldPassword).run u.db).1 with
    | error e => rw [hr] at hresult; cases hresult
    | ok a => rw [hr] at hresult; rw [Option.some.inj hresult]
  refine hno.fresh _ (List.mem_append_right _ (List.mem_singleton_self _)) _ rfl hresets ?_
  rw [List.map_take, hheld]
  decide

end Reuse
end AdminPlatform
