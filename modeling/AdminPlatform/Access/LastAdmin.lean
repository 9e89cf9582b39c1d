import AdminPlatform.Access.Seeded
import AdminPlatform.Services.User

/-! # The last active admin, under concurrent requests

Any number of requests that take admins out of service, interleaved statement by statement:
each loads the admin, counts the *other* active admins, and commits later, on that count.
Nothing locks in between, so two requests on two admins can each count the other.

`lastAdmin_survives_iff` is the exact condition on a run: whenever a deactivation commits,
its count must still hold. `lastAdmin_lost` is a run where it does not. -/

namespace AdminPlatform
open AdminPlatform.Lib

namespace LastAdmin

/-! ## Requests that take turns -/

/-- A request that takes an admin out of service. -/
inductive Deactivation
  /-- `update_user` with status inactive, perhaps with a new name or email. -/
  | update (req : Request) (userId : Uuid) (name email : Option String)
  | delete (req : Request) (userId : Uuid)

def Deactivation.program : Deactivation → Db Unit
  | .update req userId name email =>
      drop (UserService.updateUser req userId
        { name := name, email := email, status := some .inactive })
  | .delete req userId => UserService.deleteUser req userId

variable {ι : Type} [DecidableEq ι]

abbrev State (ι : Type) := Program.Threads Sql Failure Database ι

def SomeActive (s : Database) : Prop := ∃ admin ∈ s.admins, admin.status = .active

/-- Some admin is active, and every thread is about to serve such a request. -/
def Initial (t : State ι) : Prop :=
  SomeActive t.shared ∧ ∀ i, ∃ d : Deactivation, t.thread i = d.program

/-- The machine whose steps are single statements. -/
def machine (ι : Type) [DecidableEq ι] : Machine (State ι) ι := Program.interleave exec Initial

/-- If the statement a thread issues next is the commit that takes `loaded` out of service,
and the constraints accept it, then the count it rests on still holds: some other admin is
active. -/
def CountHolds (t : State ι) (i : ι) : Prop :=
  ∀ (β : Type) (answer : β) loaded current k s',
    t.thread i = .call (.commit (.updateAdmin loaded current) answer) k →
    loaded.status = .active → current.status = .inactive →
    (Write.updateAdmin loaded current).apply t.shared = .ok s' →
    UserRepository.activeAdmins t.shared (some loaded.id) ≠ []

/-! ## What these requests can write -/

/-- An intent, or an admin whose status is kept or set from active to inactive. -/
def Writes : Write → Prop
  | .insertIntent _ => True
  | .updateAdmin loaded current => current.status = loaded.status ∨
      (loaded.status = .active ∧ current.status = .inactive)
  | _ => False

/-- Every commit of these requests is one of those. -/
theorem writes_program (d : Deactivation) : d.program.Writes Writes := by
  have hrecord := AuditService.writes_record (W := Writes) fun _ => trivial
  cases d with
  | update req userId name email =>
      refine Db.Writes.drop ((UserService.writes_getUser userId).bind fun user => ?_)
      refine Db.Writes.bind ?_ fun _ => ?_
      · cases email
        · exact Db.writes_pure _
        · exact UserService.writes_ensureEmailAvailable _ _
      refine ((UserService.writes_guardLastActiveAdmin userId).when _).bind fun _ => ?_
      refine Db.Writes.bind (Db.writes_save ?_ _ _) fun _ =>
        (hrecord _ _).bind fun _ => Db.writes_pure _
      cases hstatus : user.status
      · exact .inr ⟨hstatus, rfl⟩
      · exact .inl hstatus.symm
  | delete req userId =>
      refine (UserService.writes_getUser userId).bind fun user => ?_
      refine ((UserService.writes_guardLastActiveAdmin userId).when _).bind fun _ => ?_
      refine (Db.writes_commit ?_).bind fun _ => hrecord _ _
      cases hstatus : user.status
      · exact .inr ⟨hstatus, rfl⟩
      · exact .inl hstatus.symm

/-! ## What a commit does to the active admins -/

theorem activeAdmins_ne_nil {s : Database} {userId : Uuid} :
    UserRepository.activeAdmins s (some userId) ≠ [] ↔
      ∃ other ∈ s.admins, other.status = .active ∧ other.id ≠ userId := by
  rw [UserRepository.activeAdmins, ← List.length_pos_iff_ne_nil, List.length_pos_iff_exists_mem]
  simp only [Table.mem_select, decide_eq_true_eq, ne_eq, Option.some.injEq, eq_comm (a := userId)]

/-- A commit that keeps the admin's status keeps the active admins. -/
theorem someActive_of_keep {s s' : Database} {loaded current : PlatformAdmin}
    (h : (Write.updateAdmin loaded current).apply s = .ok s')
    (hkeep : current.status = loaded.status) (hactive : SomeActive s) : SomeActive s' := by
  obtain ⟨t, ht, rfl⟩ := apply_updateAdmin h
  rcases Table.flush_inv ht with ⟨-, rfl⟩ | ⟨stored, hstored, hmem⟩
  · exact hactive
  · obtain ⟨hin, hid⟩ := Table.find?_eq_some.mp hstored
    obtain ⟨admin, hadmin, hact⟩ := hactive
    by_cases hsame : admin.id = loaded.id
    · obtain rfl : admin = stored := Table.eq_of_key hadmin hin (hsame.trans hid.symm)
      refine ⟨_, (hmem _).mpr (.inl rfl), ?_⟩
      show column loaded.status current.status admin.status = .active
      rwa [hkeep, column_same]
    · exact ⟨admin, (hmem _).mpr (.inr ⟨hadmin, hsame⟩), hact⟩

/-- A commit that takes an admin out of service leaves the other active ones. -/
theorem someActive_deactivate_iff {s s' : Database} {loaded current : PlatformAdmin}
    (h : (Write.updateAdmin loaded current).apply s = .ok s')
    (hloaded : loaded.status = .active) (hcurrent : current.status = .inactive) :
    SomeActive s' ↔ UserRepository.activeAdmins s (some loaded.id) ≠ [] := by
  rw [activeAdmins_ne_nil]
  obtain ⟨t, ht, rfl⟩ := apply_updateAdmin h
  have hchanged : current.status ≠ loaded.status := by rw [hloaded, hcurrent]; decide
  rcases Table.flush_inv ht with ⟨rfl, -⟩ | ⟨stored, hstored, hmem⟩
  · exact absurd rfl hchanged
  · constructor
    · rintro ⟨admin, hadmin, hact⟩
      rcases (hmem _).mp hadmin with rfl | ⟨hold, hne⟩
      · have hinactive : column loaded.status current.status stored.status = .inactive := by
          rw [column_changed _ hchanged, hcurrent]
        cases hinactive.symm.trans hact
      · exact ⟨admin, hold, hact, hne⟩
    · rintro ⟨other, hother, hact, hne⟩
      exact ⟨other, (hmem _).mpr (.inr ⟨hother, hne⟩), hact⟩

/-! ## Runs -/

/-- One turn keeps an active admin exactly when it is no commit on a stale count. -/
theorem someActive_turn_iff {t t' : State ι} {i : ι} (hwrites : Db.Writes Writes (t.thread i))
    (hactive : SomeActive t.shared) (hturn : Program.turn exec i t = some t') :
    SomeActive t'.shared ↔ CountHolds t i := by
  obtain ⟨β, c, k, hthread, hshared, -⟩ := Program.turn_inv hturn
  rw [hthread] at hwrites
  rw [hshared]
  cases c with
  -- a read changes nothing, and is no commit
  | query q =>
      refine iff_of_true hactive ?_
      intro β' answer' loaded current k' s' hcommit
      rw [hthread] at hcommit
      cases hcommit
  | commit w answer =>
      cases happly : w.apply t.shared with
      -- nor is a commit that the constraints refuse
      | error e =>
          rw [exec, happly]
          refine iff_of_true hactive ?_
          intro β' answer' loaded current k' s' hcommit _ _ hok
          rw [hthread] at hcommit
          cases hcommit
          rw [happly] at hok
          cases hok
      | ok s' =>
          rw [exec, happly]
          have hw : Writes w := hwrites.1
          cases w with
          | insertIntent intent =>
              obtain ⟨outbox, -, rfl⟩ := apply_insertIntent happly
              refine iff_of_true hactive ?_
              intro β' answer' loaded current k' s' hcommit
              rw [hthread] at hcommit
              cases hcommit
          | updateAdmin loaded current =>
              -- the only case in which anything is at stake is a deactivation
              rcases hw with hkeep | ⟨hloaded, hcurrent⟩
              · refine iff_of_true (someActive_of_keep happly hkeep hactive) ?_
                intro β' answer' l c k' s' hcommit hl hc
                rw [hthread] at hcommit
                cases hcommit
                rw [hkeep, hl] at hc
                cases hc
              · rw [someActive_deactivate_iff happly hloaded hcurrent]
                constructor
                · intro hcount β' answer' l c k' s' hcommit _ _ _
                  rw [hthread] at hcommit
                  cases hcommit
                  exact hcount
                · intro hholds
                  exact hholds β answer loaded current k s' hthread hloaded hcurrent happly
          | _ => exact absurd hw id

/-- **When the last active admin survives.** Of any number of concurrent requests that take
admins out of service, in any order of their statements: a run keeps an active admin in
every committed state if and only if every deactivation commits while the count it made of
the other active admins still holds. -/
theorem lastAdmin_survives_iff {t : List (State ι × ι)} {s : State ι}
    (h : (machine ι).Run t s) :
    (∀ u ∈ Machine.visited t s, SomeActive u.shared) ↔ ∀ p ∈ t, CountHolds p.1 p.2 := by
  refine h.always_iff (I := fun u => ∀ i, Db.Writes Writes (u.thread i)) ?_ ?_ ?_
  · rintro u ⟨hactive, hthreads⟩
    refine ⟨fun i => ?_, hactive⟩
    obtain ⟨d, hd⟩ := hthreads i
    rw [hd]
    exact writes_program d
  · intro u i u' hI hturn j
    obtain ⟨rest, hrest, hnext, -⟩ := (hI i).turn_inv hturn
    rw [hnext, Function.update_apply]
    split
    · exact hrest
    · exact hI j
  · intro u i u' hI hactive hturn
    exact someActive_turn_iff (hI i) hactive hturn

/-! ## A lost admin -/

open Administration (sampleState sampleRequest)

/-- Two admins, and a request to delete each. -/
def sampleThreads : State Bool where
  shared := sampleState
  thread i :=
    if i then Deactivation.program (.delete (sampleRequest 1) (.ofNat 1))
    else Deactivation.program (.delete (sampleRequest 2) (.ofNat 2))

theorem initial_sampleThreads : Initial sampleThreads := by
  refine ⟨by unfold SomeActive; decide, fun i => ?_⟩
  cases i
  · exact ⟨.delete (sampleRequest 2) (.ofNat 2), rfl⟩
  · exact ⟨.delete (sampleRequest 1) (.ofNat 1), rfl⟩

/-- Both load their admin, both count the other one, both commit. -/
def staleCount : List Bool := [true, false, true, false, true, false]

/-- The condition on the run in which both counts are made before both commits. -/
theorem lastAdmin_survives_iff_staleCount :
    ∃ t s, (machine Bool).Run t s ∧ t.map Prod.snd = staleCount ∧
      ((∀ u ∈ Machine.visited t s, SomeActive u.shared) ↔ ∀ p ∈ t, CountHolds p.1 p.2) := by
  obtain ⟨s, hexec⟩ : ∃ s, (machine Bool).exec staleCount sampleThreads = some s :=
    Option.isSome_iff_exists.mp rfl
  have hrun := Machine.Run.of_exec (.start initial_sampleThreads) hexec
  exact ⟨_, s, hrun, Machine.map_snd_trace hexec, lastAdmin_survives_iff hrun⟩

/-- **Nobody is left**: two active admins, and after that run none. -/
theorem lastAdmin_lost :
    ∃ s : State Bool, (machine Bool).Reachable s ∧ ¬ SomeActive s.shared := by
  obtain ⟨s, hexec⟩ : ∃ s, (machine Bool).exec staleCount sampleThreads = some s :=
    Option.isSome_iff_exists.mp rfl
  have hstatus : ((machine Bool).exec staleCount sampleThreads).map
      (fun s => s.shared.admins.rows.map PlatformAdmin.status) =
        some [.inactive, .inactive] := by decide +kernel
  simp only [hexec, Option.map_some, Option.some.injEq] at hstatus
  refine ⟨s, Machine.reachable_of_exec initial_sampleThreads hexec, ?_⟩
  rintro ⟨admin, hadmin, hact⟩
  have hmem : admin.status ∈ s.shared.admins.rows.map PlatformAdmin.status :=
    List.mem_map_of_mem hadmin
  rw [hstatus, hact] at hmem
  simp at hmem

end LastAdmin
end AdminPlatform
