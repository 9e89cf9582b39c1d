import AdminPlatform.Access.Reuse

/-! # The reset when a repository call raises

`update_password` makes seven repository calls, four of which commit: the old hash is filed,
the history is trimmed, the admin is written, the OTP row is removed. Here one of the calls may
raise, without effect of its own, and the request ends there; what the calls before it have
committed stays.

`allOrNothing_iff` says for which states, requests and faults the reset is all-or-nothing. -/

namespace AdminPlatform
open AdminPlatform.Lib

namespace PasswordReset
open Reuse (entries)

/-! ## Faults -/

/-- The repository calls of `update_password`, in the order it makes them. -/
inductive RepositoryCall
  | getAdminByEmail
  | getOtp
  | recentForAdmin
  | addHistory
  | trimHistory
  | updateAdminPassword
  | deleteOtp
  deriving DecidableEq

/-- `update_password`, every repository call of which goes through `via`. -/
def updatePasswordVia (via : RepositoryCall → ∀ {α : Type}, Db α → Db α) (env : Env)
    (req : Request) (payload : UpdatePasswordRequest) : Db PlatformAdmin := do
  let depth := env.settings.passwordHistoryDepth
  match (← via .getAdminByEmail (AuthRepository.getAdminByEmail payload.email)).filter
      (fun a => a.status = .active) with
  | none => raise .passwordResetFailed
  | some admin =>
      let row ← via .getOtp (OtpRepository.get payload.email)
      when (!row.any fun row => row.verified && req.now < row.expiresAt)
        (raise .passwordResetFailed)
      let recent ← via .recentForAdmin (PasswordHistoryRepository.recentForAdmin admin.id depth)
      when (AuthService.reused env payload.newPassword admin recent) (raise .passwordReuse)
      let _ ← via .addHistory
        (PasswordHistoryRepository.add req.newId admin.id admin.hashedPassword req.now)
      via .trimHistory (PasswordHistoryRepository.trim admin.id depth)
      let updated ← via .updateAdminPassword (AuthRepository.updateAdminPassword admin
        { admin with failedLoginAttempts := 0, lockedUntil := none, currentRefreshJti := none }
        (env.bcrypt.hashPassword req.salt payload.newPassword))
      via .deleteOtp (OtpRepository.delete payload.email)
      return updated

/-- The calls as they are: the reset of the service. -/
theorem updatePasswordVia_id (env : Env) (req : Request) (payload : UpdatePasswordRequest) :
    updatePasswordVia (fun _ _ p => p) env req payload =
      AuthService.updatePassword env req payload := rfl

abbrev Fault := Program.Fault RepositoryCall Failure

def faultyUpdatePassword (env : Env) (req : Request) (payload : UpdatePasswordRequest)
    (fault : Option Fault) : Db PlatformAdmin :=
  updatePasswordVia (fun call _ p => Program.strike fault call p) env req payload

/-- Without a fault, it is the reset of the service. -/
theorem faultyUpdatePassword_none (env : Env) (req : Request) (payload : UpdatePasswordRequest) :
    faultyUpdatePassword env req payload none = AuthService.updatePassword env req payload := rfl

/-! ## All or nothing -/

/-- The admin with the email, the admin's history and the OTP row are what they were. -/
structure Untouched (s s' : Database) (email : String) : Prop where
  admin : s'.adminByEmail email = s.adminByEmail email
  history : ∀ admin ∈ s.adminByEmail email,
    entries s'.passwordHistory admin.id = entries s.passwordHistory admin.id
  otp : s'.otps.find? email = s.otps.find? email

/-- The admin has the new password and no session, the old hash is in the history, and the
OTP row is gone. -/
structure Complete (env : Env) (req : Request) (payload : UpdatePasswordRequest)
    (s s' : Database) (before after : PlatformAdmin) : Prop where
  admin : s.adminByEmail payload.email = some before
  found : s'.admins.find? before.id = some after
  password : after.hashedPassword = env.bcrypt.hashPassword req.salt payload.newPassword
  session : after.currentRefreshJti = none
  history : ∃ entry ∈ entries s'.passwordHistory before.id,
    entry.hashedPassword = before.hashedPassword
  otp : s'.otps.find? payload.email = none

/-- A reset that raises leaves everything untouched, one that returns is complete. -/
def AllOrNothing (env : Env) (req : Request) (payload : UpdatePasswordRequest)
    (fault : Option Fault) (s : Database) : Prop :=
  match (faultyUpdatePassword env req payload fault).run s with
  | (.error _, s') => Untouched s s' payload.email
  | (.ok _, s') => ∃ before after, Complete env req payload s s' before after

/-! ## The condition -/

/-- Nothing stands against the reset: it is for this admin, and no check refuses it. -/
structure Granted (env : Env) (req : Request) (payload : UpdatePasswordRequest) (s : Database)
    (admin : PlatformAdmin) : Prop where
  found : s.adminByEmail payload.email = some admin
  active : admin.status = .active
  otp : ∃ row, s.otps.find? payload.email = some row ∧ row.verified = true ∧
    req.now < row.expiresAt
  fresh : AuthService.reused env payload.newPassword admin
    (PasswordHistoryRepository.recent s admin.id env.settings.passwordHistoryDepth) = false
  unused : ∀ entry ∈ s.passwordHistory, entry.id ≠ req.newId

/-- The admin's entries that are no older than the one a reset files now. -/
def newer (req : Request) (s : Database) (admin : PlatformAdmin) : List PasswordHistory :=
  (entries s.passwordHistory admin.id).filter fun entry => req.now ≤ entry.createdAt

/-- Trimming to `depth` leaves the old hash in the history: nothing is trimmed, the entry just
filed is among the newest, or an entry that stays has the hash as well. -/
def KeepsOldHash (env : Env) (req : Request) (s : Database) (admin : PlatformAdmin) : Prop :=
  env.settings.passwordHistoryDepth = 0 ∨
    (newer req s admin).length < env.settings.passwordHistoryDepth ∨
    ∃ entry ∈ PasswordHistoryRepository.recent s admin.id env.settings.passwordHistoryDepth,
      entry.hashedPassword = admin.hashedPassword

/-- Trimming to `depth` takes the entry just filed back, and no other: there are exactly `depth`
entries, all no older than it. -/
def TakesBack (env : Env) (req : Request) (s : Database) (admin : PlatformAdmin) : Prop :=
  0 < env.settings.passwordHistoryDepth ∧
    (entries s.passwordHistory admin.id).length = env.settings.passwordHistoryDepth ∧
    ∀ entry ∈ entries s.passwordHistory admin.id, req.now ≤ entry.createdAt

/-- Which fault a reset that is granted can take. -/
def Withstands (env : Env) (req : Request) (s : Database) (admin : PlatformAdmin) :
    Option Fault → Prop
  | none => KeepsOldHash env req s admin
  | some fault =>
      match fault.part with
      | .getAdminByEmail | .getOtp | .recentForAdmin | .addHistory => True
      | .trimHistory | .deleteOtp => False
      | .updateAdminPassword => TakesBack env req s admin

/-! ## The history under a reset -/

section History
variable {env : Env} {req : Request} {s : Database} {admin : PlatformAdmin}
  {added : Table PasswordHistory}

/-- What trimming leaves of an admin's entries. -/
theorem entries_trimmed (s : Database) (adminId : Uuid) (keep : Nat) :
    entries (PasswordHistoryRepository.trimmed s adminId keep) adminId =
      (entries s.passwordHistory adminId).filter fun entry =>
        keep = 0 ∨ entry ∈ PasswordHistoryRepository.recent s adminId keep := by
  unfold PasswordHistoryRepository.trimmed
  split
  · rename_i hnil
    refine (List.filter_eq_self.mpr fun entry hentry => decide_eq_true ?_).symm
    have hrecent : keep = 0 ∨ entries s.passwordHistory adminId = [] := by
      refine (List.take_eq_nil_iff.mp (List.map_eq_nil_iff.mp hnil)).imp_right fun hsorted => ?_
      rw [← List.length_eq_zero_iff, List.length_insertionSort] at hsorted
      exact List.length_eq_zero_iff.mp hsorted
    refine hrecent.imp_right fun hempty => ?_
    rw [hempty] at hentry
    cases hentry
  · rename_i hsome
    have hkeep : keep ≠ 0 := by
      rintro rfl
      exact hsome rfl
    rw [entries, Table.select, Table.delete, List.filter_filter, entries, Table.select,
      List.filter_filter]
    refine List.filter_congr fun entry hentry => ?_
    have hiff : entry.id ∈ (PasswordHistoryRepository.recent s adminId keep).map
        PasswordHistory.id ↔ entry ∈ PasswordHistoryRepository.recent s adminId keep := by
      constructor
      · intro hmem
        obtain ⟨other, hother, hid⟩ := List.mem_map.mp hmem
        have hin : other ∈ s.passwordHistory :=
          (Table.mem_select.mp ((List.mem_insertionSort _).mp (List.mem_of_mem_take hother))).1
        rwa [← Table.eq_of_key hin hentry hid]
      · exact List.mem_map_of_mem
    by_cases hadmin : entry.platformAdminId = adminId <;> simp [hadmin, hiff, hkeep]

/-- The entry a reset files. -/
def filed (req : Request) (admin : PlatformAdmin) : PasswordHistory :=
  ⟨req.newId, admin.id, admin.hashedPassword, req.now⟩

/-- The admin's history between filing and trimming. -/
theorem entries_added (h : s.passwordHistory.insert (filed req admin) = some added) :
    entries added admin.id = entries s.passwordHistory admin.id ++ [filed req admin] := by
  rw [Reuse.entries_insert h]
  exact congrArg _ (if_pos rfl)

/-- The newest entries between filing and trimming. -/
theorem recent_added (h : s.passwordHistory.insert (filed req admin) = some added) (keep : Nat) :
    PasswordHistoryRepository.recent { s with passwordHistory := added } admin.id keep =
      (newestFirst PasswordHistory.createdAt
        (entries s.passwordHistory admin.id ++ [filed req admin])).take keep :=
  congrArg (fun l => (newestFirst PasswordHistory.createdAt l).take keep) (entries_added h)

theorem length_noOlder_filed (req : Request) (s : Database) (admin : PlatformAdmin) :
    (noOlder PasswordHistory.createdAt (filed req admin)
      (entries s.passwordHistory admin.id)).length = (newer req s admin).length :=
  length_noOlder _

/-- The entry a reset files is not one of those before. -/
theorem filed_not_mem (h : s.passwordHistory.insert (filed req admin) = some added) :
    filed req admin ∉ entries s.passwordHistory admin.id := by
  intro hmem
  exact Table.not_clash_of_insert h (Table.mem_select.mp hmem).1 rfl

/-- Behind `keep` entries or more, the entry filed does not change which are the newest. -/
theorem recent_added_of_le (h : s.passwordHistory.insert (filed req admin) = some added)
    {keep : Nat} (hkeep : keep ≤ (newer req s admin).length) :
    PasswordHistoryRepository.recent { s with passwordHistory := added } admin.id keep =
      PasswordHistoryRepository.recent s admin.id keep := by
  rw [recent_added h]
  rw [← length_noOlder_filed] at hkeep
  exact take_newestFirst_append_of_le hkeep

theorem filed_mem_recent (h : s.passwordHistory.insert (filed req admin) = some added)
    {keep : Nat} (hkeep : (newer req s admin).length < keep) :
    filed req admin ∈
      PasswordHistoryRepository.recent { s with passwordHistory := added } admin.id keep := by
  rw [recent_added h]
  rw [← length_noOlder_filed] at hkeep
  exact mem_take_newestFirst_append hkeep

theorem mem_of_mem_recent {entry : PasswordHistory} {adminId : Uuid} {keep : Nat}
    (h : entry ∈ PasswordHistoryRepository.recent s adminId keep) :
    entry ∈ entries s.passwordHistory adminId :=
  (List.mem_insertionSort _).mp (List.mem_of_mem_take h)

/-- The admin's history once filing and trimming are done. -/
theorem mem_entries_reset (h : s.passwordHistory.insert (filed req admin) = some added)
    {keep : Nat} {entry : PasswordHistory} :
    entry ∈ entries (PasswordHistoryRepository.trimmed { s with passwordHistory := added }
        admin.id keep) admin.id ↔
      (entry ∈ entries s.passwordHistory admin.id ∨ entry = filed req admin) ∧
        (keep = 0 ∨ entry ∈ PasswordHistoryRepository.recent
          { s with passwordHistory := added } admin.id keep) := by
  rw [entries_trimmed, List.mem_filter, entries_added h, List.mem_append, List.mem_singleton,
    decide_eq_true_eq]

/-- **When the old hash stays.** -/
theorem keepsOldHash_iff (h : s.passwordHistory.insert (filed req admin) = some added) :
    (∃ entry ∈ entries (PasswordHistoryRepository.trimmed { s with passwordHistory := added }
        admin.id env.settings.passwordHistoryDepth) admin.id,
      entry.hashedPassword = admin.hashedPassword) ↔ KeepsOldHash env req s admin := by
  constructor
  · rintro ⟨entry, hentry, hhash⟩
    obtain ⟨-, hzero | hrecent⟩ := (mem_entries_reset h).mp hentry
    · exact .inl hzero
    · right
      rcases lt_or_ge (newer req s admin).length env.settings.passwordHistoryDepth with hlt | hge
      · exact .inl hlt
      · rw [recent_added_of_le h hge] at hrecent
        exact .inr ⟨entry, hrecent, hhash⟩
  · intro hkeeps
    rcases lt_or_ge (newer req s admin).length env.settings.passwordHistoryDepth with hlt | hge
    · exact ⟨filed req admin,
        (mem_entries_reset h).mpr ⟨.inr rfl, .inr (filed_mem_recent h hlt)⟩, rfl⟩
    · rcases hkeeps with hzero | hlt | ⟨entry, hentry, hhash⟩
      · exact ⟨filed req admin, (mem_entries_reset h).mpr ⟨.inr rfl, .inl hzero⟩, rfl⟩
      · omega
      · refine ⟨entry, (mem_entries_reset h).mpr ⟨.inl (mem_of_mem_recent hentry), .inr ?_⟩, hhash⟩
        rwa [recent_added_of_le h hge]

/-- **When trimming takes back what was filed.** -/
theorem takesBack_iff (h : s.passwordHistory.insert (filed req admin) = some added) :
    entries (PasswordHistoryRepository.trimmed { s with passwordHistory := added }
        admin.id env.settings.passwordHistoryDepth) admin.id =
      entries s.passwordHistory admin.id ↔ TakesBack env req s admin := by
  have hnodup : (entries s.passwordHistory admin.id).Nodup :=
    (Reuse.nodup_entries s.passwordHistory admin.id).of_map
  have hfiltered : (newer req s admin).length ≤ (entries s.passwordHistory admin.id).length :=
    List.length_filter_le _ _
  constructor
  · intro heq
    have hgone : ¬ (env.settings.passwordHistoryDepth = 0 ∨ filed req admin ∈
        PasswordHistoryRepository.recent { s with passwordHistory := added } admin.id
          env.settings.passwordHistoryDepth) := by
      intro hstays
      refine filed_not_mem h ?_
      rw [← heq]
      exact (mem_entries_reset h).mpr ⟨.inr rfl, hstays⟩
    obtain ⟨hpos, hout⟩ := not_or.mp hgone
    have hge : env.settings.passwordHistoryDepth ≤ (newer req s admin).length :=
      not_lt.mp fun hlt => hout (filed_mem_recent h hlt)
    -- all entries are among the newest `depth`, so there are no more than that
    have hsubset : entries s.passwordHistory admin.id ⊆
        PasswordHistoryRepository.recent s admin.id env.settings.passwordHistoryDepth := by
      intro entry hentry
      rw [← heq] at hentry
      have hstays := ((mem_entries_reset h).mp hentry).2.resolve_left hpos
      rwa [recent_added_of_le h hge] at hstays
    have hle : (entries s.passwordHistory admin.id).length ≤
        env.settings.passwordHistoryDepth :=
      (List.subperm_of_subset hnodup hsubset).length_le.trans (List.length_take_le _ _)
    have hall : (newer req s admin).length = (entries s.passwordHistory admin.id).length := by
      omega
    refine ⟨Nat.pos_of_ne_zero hpos, by omega, fun entry hentry => ?_⟩
    exact of_decide_eq_true (List.length_filter_eq_length_iff.mp hall entry hentry)
  · rintro ⟨hpos, hlength, hnew⟩
    have hnewer : newer req s admin = entries s.passwordHistory admin.id :=
      List.filter_eq_self.mpr fun entry hentry => decide_eq_true (hnew entry hentry)
    have hge : env.settings.passwordHistoryDepth ≤ (newer req s admin).length := by
      rw [hnewer, hlength]
    have hrecent : ∀ entry, entry ∈ PasswordHistoryRepository.recent
        { s with passwordHistory := added } admin.id env.settings.passwordHistoryDepth ↔
          entry ∈ entries s.passwordHistory admin.id := by
      intro entry
      rw [recent_added_of_le h hge, PasswordHistoryRepository.recent, List.take_of_length_le]
      · exact List.mem_insertionSort _
      · rw [List.length_insertionSort]
        exact hlength.le
    rw [entries_trimmed, entries_added h, List.filter_append, List.filter_eq_self.mpr,
      List.filter_eq_nil_iff.mpr, List.append_nil]
    · intro entry hentry
      rw [List.mem_singleton.mp hentry, decide_eq_true_eq, hrecent]
      exact fun hstays => (hstays.resolve_left hpos.ne') |> filed_not_mem h
    · intro entry hentry
      rw [decide_eq_true_eq, hrecent]
      exact .inr hentry

end History

/-! ## What a faulty reset does -/

section Run
variable {env : Env} {req : Request} {payload : UpdatePasswordRequest} {s s' : Database}
  {fault : Option Fault}

/-- **Inversion of a call.** It is struck, or it is made as it is. -/
theorem strike_bind_inv {α β : Type} {call : RepositoryCall} {p : Db α} {f : α → Db β}
    {r : Except Failure β} (h : (Program.strike fault call p >>= f : Db β).run s = (r, s')) :
    (∃ e, fault = some ⟨call, e⟩ ∧ r = .error e ∧ s' = s) ∨
      (∀ e, fault ≠ some ⟨call, e⟩) ∧ (p >>= f).run s = (r, s') := by
  rcases Program.strike_cases fault call p with ⟨e, hfault, hstruck⟩ | ⟨hfault, hmade⟩
  · rw [hstruck] at h
    obtain ⟨rfl, rfl⟩ := Prod.mk.inj h
    exact .inl ⟨e, hfault, rfl, rfl⟩
  · rw [hmade] at h
    exact .inr ⟨hfault, h⟩

/-- The history after filing and trimming. -/
def trimmedHistory (env : Env) (s : Database) (admin : PlatformAdmin)
    (added : Table PasswordHistory) : Table PasswordHistory :=
  PasswordHistoryRepository.trimmed { s with passwordHistory := added } admin.id
    env.settings.passwordHistoryDepth

/-- All that a reset with a fault can do: one constructor for each place it can end in. -/
inductive Effect (env : Env) (req : Request) (payload : UpdatePasswordRequest) (s : Database)
    (fault : Option Fault) : Except Failure PlatformAdmin → Database → Prop
  | refused {e : Failure} (h : ∀ admin, Granted env req payload s admin → ∃ x, fault = some x ∧
      x.part ∈ [.getAdminByEmail, .getOtp, .recentForAdmin, .addHistory]) :
      Effect env req payload s fault (.error e) s
  | untrimmed {admin added e} (hgranted : Granted env req payload s admin)
      (hinsert : s.passwordHistory.insert (filed req admin) = some added)
      (hfault : fault = some ⟨.trimHistory, e⟩) :
      Effect env req payload s fault (.error e) { s with passwordHistory := added }
  | unwritten {admin added e} (hgranted : Granted env req payload s admin)
      (hinsert : s.passwordHistory.insert (filed req admin) = some added)
      (hfault : fault = some ⟨.updateAdminPassword, e⟩) :
      Effect env req payload s fault (.error e)
        { s with passwordHistory := trimmedHistory env s admin added }
  | unconsumed {admin added admins e} (hgranted : Granted env req payload s admin)
      (hinsert : s.passwordHistory.insert (filed req admin) = some added)
      (hflush : s.admins.flush admin (AuthService.resetPassword env req payload.newPassword admin) =
        .ok admins)
      (hfault : fault = some ⟨.deleteOtp, e⟩) :
      Effect env req payload s fault (.error e)
        { s with admins := admins, passwordHistory := trimmedHistory env s admin added }
  | complete {admin added admins} (hgranted : Granted env req payload s admin)
      (hinsert : s.passwordHistory.insert (filed req admin) = some added)
      (hflush : s.admins.flush admin (AuthService.resetPassword env req payload.newPassword admin) =
        .ok admins)
      (hfault : fault = none) :
      Effect env req payload s fault
        (.ok (AuthService.resetPassword env req payload.newPassword admin))
        { s with
          admins := admins, passwordHistory := trimmedHistory env s admin added
          otps := s.otps.delete fun otp => otp.email = payload.email }

/-- **All that a faulty reset does.** -/
theorem effect_faultyUpdatePassword {r : Except Failure PlatformAdmin}
    (h : (faultyUpdatePassword env req payload fault).run s = (r, s')) :
    Effect env req payload s fault r s' := by
  -- what is struck before anything is committed changes nothing
  have early : ∀ {call : RepositoryCall} {e : Failure}, fault = some ⟨call, e⟩ →
      call ∈ [.getAdminByEmail, .getOtp, .recentForAdmin, .addHistory] →
      Effect env req payload s fault (.error e) s :=
    fun hfault hcall => .refused fun _ _ => ⟨_, hfault, hcall⟩
  unfold faultyUpdatePassword updatePasswordVia at h
  dsimp only at h
  rcases strike_bind_inv h with ⟨e, hfault, rfl, rfl⟩ | ⟨hadmin, h⟩
  · exact early hfault (by decide)
  rw [AuthRepository.getAdminByEmail, Db.run_query_bind] at h
  cases hfound : (s.adminByEmail payload.email).filter (fun a => a.status = .active) with
  | none =>
      rw [hfound] at h
      obtain ⟨rfl, rfl⟩ := Prod.mk.inj h
      refine .refused fun admin hgranted => ?_
      rw [hgranted.found, Option.filter_some_pos (by simpa using hgranted.active)] at hfound
      cases hfound
  | some admin =>
      obtain ⟨hemail, hactive⟩ := Option.filter_eq_some_iff.mp hfound
      rw [hfound] at h
      dsimp only at h
      have same : ∀ {other}, Granted env req payload s other → other = admin := fun hother =>
        Option.some.inj (hother.found.symm.trans hemail)
      -- the OTP has to be verified
      rcases strike_bind_inv h with ⟨e, hfault, rfl, rfl⟩ | ⟨hotp, h⟩
      · exact early hfault (by decide)
      rw [OtpRepository.get, Db.run_query_bind] at h
      rcases Db.isCheck_raise (!(s.otps.find? payload.email).any fun row =>
          row.verified && decide (req.now < row.expiresAt)) .passwordResetFailed s with
        ⟨hbad, hrefused⟩ | ⟨hverified, hrun⟩
      · obtain ⟨⟨e, rfl⟩, rfl⟩ := hrefused.bind_inv h
        refine .refused fun other hgranted => ?_
        obtain ⟨row, hrow, hrowVerified, hlive⟩ := hgranted.otp
        rw [hrow] at hbad
        simp [hrowVerified, hlive] at hbad
      rw [Db.run_bind_ok _ hrun] at h
      -- the password must not be one of the recent ones
      rcases strike_bind_inv h with ⟨e, hfault, rfl, rfl⟩ | ⟨hrecent, h⟩
      · exact early hfault (by decide)
      rw [PasswordHistoryRepository.recentForAdmin, Db.run_query_bind] at h
      rcases Db.isCheck_raise (AuthService.reused env payload.newPassword admin
          (PasswordHistoryRepository.recent s admin.id env.settings.passwordHistoryDepth))
          .passwordReuse s with ⟨hbad, hrefused⟩ | ⟨hnew, hrun⟩
      · obtain ⟨⟨e, rfl⟩, rfl⟩ := hrefused.bind_inv h
        refine .refused fun other hgranted => ?_
        obtain rfl := same hgranted
        rw [hgranted.fresh] at hbad
        cases hbad
      rw [Db.run_bind_ok _ hrun] at h
      -- the first commit files the old password; from here on a fault leaves something behind
      rcases strike_bind_inv h with ⟨e, hfault, rfl, rfl⟩ | ⟨hadd, h⟩
      · exact early hfault (by decide)
      have hfind := AuthService.find?_of_adminByEmail hemail
      cases hinsert : s.passwordHistory.insert (filed req admin) with
      | none =>
          rcases run_addHistory_bind_inv h with ⟨⟨e, rfl⟩, rfl⟩ | ⟨added, entry, hadded, rfl, -⟩
          · refine .refused fun other hgranted => ?_
            obtain ⟨entry, hentry, hid⟩ := Table.insert_eq_none.mp hinsert
            exact absurd hid (hgranted.unused entry hentry)
          · cases hinsert.symm.trans hadded
      | some added =>
      rw [Db.run_bind_ok _ (run_addHistory_ok (by rw [hfind]; rfl) hinsert)] at h
      have hgranted : Granted env req payload s admin := by
        obtain ⟨row, hrow, hlive⟩ := (Option.any_eq_true _ _).mp (by simpa using hverified)
        obtain ⟨hrowVerified, hunexpired⟩ := (Bool.and_eq_true _ _).mp hlive
        exact ⟨hemail, of_decide_eq_true hactive,
          ⟨row, hrow, hrowVerified, of_decide_eq_true hunexpired⟩, Bool.eq_false_iff.mpr hnew,
          fun entry hentry => Table.not_clash_of_insert hinsert hentry⟩
      -- the second commit
      rcases strike_bind_inv h with ⟨e, hfault, rfl, rfl⟩ | ⟨htrim, h⟩
      · exact .untrimmed hgranted hinsert hfault
      rw [Db.run_bind_ok _ (PasswordHistoryRepository.run_trim _ _ _)] at h
      rcases strike_bind_inv h with ⟨e, hfault, rfl, rfl⟩ | ⟨hupdate, h⟩
      · exact .unwritten hgranted hinsert hfault
      -- the third commit, of the admin with the new password
      let u : Database :=
        { s with
          passwordHistory := PasswordHistoryRepository.trimmed { s with passwordHistory := added }
            admin.id env.settings.passwordHistoryDepth }
      obtain ⟨admins, hflush, hwrite⟩ :=
        @AuthService.run_updateAdminPassword env req u payload.newPassword admin hfind
      rw [Db.run_bind_ok _ hwrite] at h
      -- the last commit consumes the OTP
      rcases strike_bind_inv h with ⟨e, hfault, rfl, rfl⟩ | ⟨hdelete, h⟩
      · exact .unconsumed hgranted hinsert hflush hfault
      rw [OtpRepository.delete, Db.run_bind_ok _ (Db.run_commit_ok rfl)] at h
      obtain ⟨rfl, rfl⟩ := Prod.mk.inj h
      refine .complete hgranted hinsert hflush ?_
      -- no call was struck
      refine Option.eq_none_iff_forall_ne_some.mpr fun x hstruck => ?_
      obtain ⟨call, e⟩ := x
      cases call with
      | getAdminByEmail => exact hadmin e hstruck
      | getOtp => exact hotp e hstruck
      | recentForAdmin => exact hrecent e hstruck
      | addHistory => exact hadd e hstruck
      | trimHistory => exact htrim e hstruck
      | updateAdminPassword => exact hupdate e hstruck
      | deleteOtp => exact hdelete e hstruck

theorem Granted.unique {admin other : PlatformAdmin} (h : Granted env req payload s admin)
    (hother : Granted env req payload s other) : other = admin :=
  Option.some.inj (hother.found.symm.trans h.found)

/-- The admin after the third commit has another password. -/
theorem Granted.changes {admin : PlatformAdmin} {admins : Table PlatformAdmin}
    (hbcrypt : ∀ salt password,
      env.bcrypt.verifyPassword password (env.bcrypt.hashPassword salt password) = true)
    (h : Granted env req payload s admin)
    (hflush : s.admins.flush admin (AuthService.resetPassword env req payload.newPassword admin) =
      .ok admins) :
    admin ∉ admins := by
  intro hmem
  have hfind := AuthService.find?_of_adminByEmail h.found
  have hrow := (Table.find?_flush_loaded hflush hfind rfl admin.id).trans (if_pos rfl)
  have hstill : admins.find? admin.id = some admin := Table.find?_eq_some.mpr ⟨hmem, rfl⟩
  have hsame : admin.hashedPassword = env.bcrypt.hashPassword req.salt payload.newPassword :=
    congrArg PlatformAdmin.hashedPassword (Option.some.inj (hstill.symm.trans hrow))
  have hverifies : env.bcrypt.verifyPassword payload.newPassword admin.hashedPassword = true := by
    rw [hsame]
    exact hbcrypt _ _
  have hfresh := h.fresh
  rw [AuthService.reused, hverifies] at hfresh
  cases hfresh

end Run

/-! ## The result -/

/-- **When a reset is all-or-nothing**, for every state, request and fault: exactly if it is
refused before it files anything, or nothing raises and the old hash stays in the history, or
the writing of the admin raises and trimming has taken back what was filed. -/
theorem allOrNothing_iff {env : Env} (hbcrypt : ∀ salt password,
      env.bcrypt.verifyPassword password (env.bcrypt.hashPassword salt password) = true)
    (req : Request) (payload : UpdatePasswordRequest) (fault : Option Fault) (s : Database) :
    AllOrNothing env req payload fault s ↔
      ∀ admin, Granted env req payload s admin → Withstands env req s admin fault := by
  rcases hrun : (faultyUpdatePassword env req payload fault).run s with ⟨r, s'⟩
  have heffect := effect_faultyUpdatePassword hrun
  unfold AllOrNothing
  rw [hrun]
  cases heffect with
  | refused hearly =>
      refine ⟨fun _ admin hgranted => ?_, fun _ => ⟨rfl, fun _ _ => rfl, rfl⟩⟩
      obtain ⟨⟨call, e⟩, rfl, hcall⟩ := hearly admin hgranted
      simp only [List.mem_cons, List.not_mem_nil, or_false] at hcall
      rcases hcall with rfl | rfl | rfl | rfl <;> trivial
  | @untrimmed admin added e hgranted hinsert hfault =>
      constructor
      · intro huntouched
        -- the filed hash is still there
        have hhistory := huntouched.history admin hgranted.found
        rw [entries_added hinsert] at hhistory
        exact absurd (hhistory ▸ List.mem_append_right _ (List.mem_singleton_self _))
          (filed_not_mem hinsert)
      · intro hwithstands
        rw [hfault] at hwithstands
        exact (hwithstands admin hgranted).elim
  | @unwritten admin added e hgranted hinsert hfault =>
      constructor
      · intro huntouched other hother
        rw [hfault, hgranted.unique hother]
        exact (takesBack_iff hinsert).mp (huntouched.history admin hgranted.found)
      · intro hwithstands
        rw [hfault] at hwithstands
        refine ⟨rfl, fun other hother => ?_, rfl⟩
        obtain rfl : admin = other := Option.some.inj (hgranted.found.symm.trans hother)
        exact (takesBack_iff hinsert).mpr (hwithstands admin hgranted)
  | @unconsumed admin added admins e hgranted hinsert hflush hfault =>
      constructor
      · intro huntouched
        -- the admin has the new password
        have hfound := huntouched.admin.trans hgranted.found
        exact absurd (Database.adminByEmail_eq_some.mp hfound).1 (hgranted.changes hbcrypt hflush)
      · intro hwithstands
        rw [hfault] at hwithstands
        exact (hwithstands admin hgranted).elim
  | @complete admin added admins hgranted hinsert hflush hfault =>
      rw [hfault]
      constructor
      · rintro ⟨before, after, hcomplete⟩ other hother
        obtain rfl : before = admin :=
          Option.some.inj (hcomplete.admin.symm.trans hgranted.found)
        rw [hgranted.unique hother]
        exact (keepsOldHash_iff hinsert).mp hcomplete.history
      · intro hwithstands
        have hfind := AuthService.find?_of_adminByEmail hgranted.found
        have hrow := (Table.find?_flush_loaded hflush hfind rfl admin.id).trans (if_pos rfl)
        refine ⟨admin, _, hgranted.found, hrow, rfl, rfl,
          (keepsOldHash_iff hinsert).mpr (hwithstands admin hgranted), ?_⟩
        refine Table.find?_eq_none.mpr fun otp hotp hkey => ?_
        exact of_decide_eq_false (Table.mem_delete.mp hotp).2 hkey

open Administration (sampleEnv sampleState sampleRequest)

/-- The sample state, where the first admin has a verified OTP. -/
def verifiedState : Database :=
  { sampleState with
    otps :=
      ⟨[{ email := "admin1@example.com", expiresAt := Instant.seconds 600, requestCount := 1
          windowStartedAt := 0, verified := true }], List.pairwise_singleton _ _⟩ }

def newPassword : UpdatePasswordRequest where
  email := "admin1@example.com"
  newPassword := "Secret-2"

theorem allOrNothing_newPassword :
    AllOrNothing Reuse.suffixEnv (sampleRequest 1) newPassword none verifiedState := by
  rw [allOrNothing_iff Reuse.verifyPassword_suffixEnv]
  exact fun _ _ => .inr (.inl (show 0 < 3 by decide))

/-- **A reset half done**: the writing of the admin raises, the password is the old one, and the
old hash stands in the history all the same. -/
theorem reset_half_done :
    ¬ AllOrNothing sampleEnv (sampleRequest 1) newPassword
      (some ⟨.updateAdminPassword, .database .staleData⟩) verifiedState := by
  have hfacts : (fun x : Except Failure PlatformAdmin × Database =>
      (x.1.toOption.map PlatformAdmin.id, (verifiedState.adminByEmail newPassword.email).map
        fun admin => (entries x.2.passwordHistory admin.id).length))
      ((faultyUpdatePassword sampleEnv (sampleRequest 1) newPassword
        (some ⟨.updateAdminPassword, .database .staleData⟩)).run verifiedState) =
        (none, some 1) := by decide +kernel
  intro h
  unfold AllOrNothing at h
  generalize (faultyUpdatePassword sampleEnv (sampleRequest 1) newPassword
    (some ⟨.updateAdminPassword, .database .staleData⟩)).run verifiedState = x at h hfacts
  obtain ⟨r, s'⟩ := x
  obtain ⟨hraises, hfiled⟩ := Prod.mk.inj hfacts
  obtain ⟨admin, hadmin, hone⟩ := Option.map_eq_some_iff.mp hfiled
  cases r with
  | ok user => cases hraises
  | error e =>
      have hhistory := h.history admin hadmin
      rw [hhistory] at hone
      cases hone

end PasswordReset
end AdminPlatform
