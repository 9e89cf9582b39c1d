import AdminPlatform.Access.Seeded
import AdminPlatform.Lib.Rely
import AdminPlatform.Services.Export

/-! # The status of an export

The background task of an export and any number of downloads take turns, statement by
statement, and each may fail at any of them. The task and the downloads set the status of what
they have read, so a status that was read too early is written over a later one; and nothing
clears the error of a generation that failed. Where every update that sets the status is made
from a pending export that is still pending, or has that status already, the status only moves
forward, and an export that is ready is complete (`status_monotone`). -/

namespace AdminPlatform
open AdminPlatform.Lib

namespace StatusMoves
open ExportService

/-! ## The requests of one export -/

/-- The background task (`none`) and the downloads of one export. -/
def requests (env : Env) (now : Instant) (exportId : Uuid) {ι : Type}
    (calls : ι → Request × String) : Option ι → Db Unit
  | none => generateTask env now exportId
  | some i => drop (downloadExport env (calls i).1 exportId (calls i).2)

abbrev Threads (ι : Type) := Program.Threads Sql Failure Database (Option ι)

/-- They take turns and may fail, from an export that was just created on. -/
def machine (env : Env) (now : Instant) (exportId : Uuid) {ι : Type} [DecidableEq ι]
    (calls : ι → Request × String) : Machine (Threads ι) (Option ι × Option Failure) :=
  Program.faultyInterleave exec fun t =>
    (∃ entry, t.shared.exports.find? exportId = some entry ∧ Untouched entry) ∧
      t.thread = requests env now exportId calls

/-! ## What is to hold -/

/-- Where a status may move. -/
inductive Moves : ExportStatus → ExportStatus → Prop
  | stays (a) : Moves a a
  | ready : Moves .pending .ready
  | failed : Moves .pending .failed
  | retried : Moves .failed .ready
  | expired (a) : Moves a .expired

/-- What a ready export has. -/
structure Complete (entry : Export) : Prop where
  rowCount : entry.rowCount ≠ none
  filePath : entry.filePath ≠ none
  expiresAt : entry.expiresAt ≠ none
  generationError : entry.generationError = none

/-- The export moves from one state to the other. -/
def MovesIn (exportId : Uuid) (s s' : Database) : Prop :=
  ∃ x y, s.exports.find? exportId = some x ∧ s'.exports.find? exportId = some y ∧
    Moves x.status y.status

def ReadyComplete (exportId : Uuid) (s : Database) : Prop :=
  ∀ x, s.exports.find? exportId = some x → x.status = .ready → Complete x

/-! ## When it does -/

/-- What a request commits next. -/
def nextWrite : Db Unit → Option Write
  | .call (.commit w _) _ => some w
  | _ => none

/-- An update that sets another status than expired is of an export read as pending, and finds
it pending, or with the status it sets. -/
def NotStale (s : Database) : Write → Prop
  | .updateExport loaded current =>
      current.status = loaded.status ∨ current.status = .expired ∨
        (loaded.status = .pending ∧ ∀ stored ∈ s.exports.find? loaded.id,
          stored.status = .pending ∨ stored.status = current.status)
  | _ => True

instance (s : Database) (w : Write) : Decidable (NotStale s w) := by
  unfold NotStale; split <;> infer_instance

/-- A turn whose commit is made, if it makes one, is not stale. -/
def Fresh {ι : Type} (t : Threads ι) (l : Option ι × Option Failure) : Prop :=
  l.2.isNone → ∀ w ∈ nextWrite (t.thread l.1), NotStale t.shared w

instance {ι : Type} (t : Threads ι) (l : Option ι × Option Failure) : Decidable (Fresh t l) := by
  unfold Fresh; infer_instance

/-! ## What the requests may do -/

/-- The invariant of the row. -/
structure Lawful (entry : Export) : Prop where
  pending : entry.status = .pending → Untouched entry
  ready : entry.status = .ready → Complete entry

/-- The export is no longer pending. -/
def Left (exportId : Uuid) (s : Database) : Prop :=
  ∃ x, s.exports.find? exportId = some x ∧ x.status ≠ .pending

/-- An export that a request has read. -/
structure Loaded (exportId : Uuid) (entry : Export) (s : Database) : Prop where
  id : entry.id = exportId
  lawful : Lawful entry
  left : entry.status ≠ .pending → Left exportId s

/-- What a request makes of an export it has read. -/
inductive Sets : Export → Export → Prop
  | failed {loaded error} : loaded.status = .pending →
      Sets loaded { loaded with status := .failed, generationError := some error }
  | expired {loaded} : Sets loaded { loaded with status := .expired }
  | ready {loaded n path expiresAt} :
      Sets loaded
        { loaded with
          status := .ready, rowCount := some n, filePath := some path
          expiresAt := some expiresAt }

/-- Statements of requests for one export. -/
def Allowed (exportId : Uuid) : ∀ {β : Type}, Sql β → Database → Prop
  | _, .query _, _ => True
  | _, .commit (.updateExport loaded current) _, s =>
      Loaded exportId loaded s ∧ Sets loaded current
  | _, .commit (.insertIntent _) _, _ => True
  | _, .commit (.writeFile _ _) _, _ => True
  | _, .commit _ _, _ => False

/-- What requests for one export leave to each other. -/
def interference (exportId : Uuid) : Program.Interference Sql Database where
  inv s := ∃ x, s.exports.find? exportId = some x ∧ Lawful x
  rely s u := Left exportId s → Left exportId u
  refl _ := id
  trans h h' := h' ∘ h
  allows := Allowed exportId

/-! ## One commit -/

section Commit
variable {exportId : Uuid} {s s' : Database} {loaded current stored : Export}

theorem moves_of_ready {a : ExportStatus} (h : a = .pending ∨ a = .ready) : Moves a .ready := by
  rcases h with rfl | rfl
  · exact .ready
  · exact .stays _

theorem complete_column {β : Type} [DecidableEq β] {loaded current stored : Option β}
    (hcurrent : current ≠ none) (h : loaded = none ∨ stored ≠ none) :
    column loaded current stored ≠ none := by
  unfold column
  split
  · rename_i hsame
    rcases h with hnone | hstored
    · exact absurd (hsame.trans hnone) hcurrent
    · exact hstored
  · exact hcurrent

/-- An export becomes ready: of a pending one that still is, or ready already. -/
theorem lawful_ready {n : Nat} {path : String} {expiresAt : Instant}
    (hloaded : Untouched loaded) (hlawful : Lawful stored)
    (hstatus : stored.status = .pending ∨ stored.status = .ready)
    (hcurrent : current = { loaded with
      status := .ready, rowCount := some n, filePath := some path, expiresAt := some expiresAt }) :
    Lawful (Entity.merge loaded current stored) ∧
      (Entity.merge loaded current stored).status = .ready := by
  subst hcurrent
  have hready : column loaded.status .ready stored.status = .ready :=
    column_changed _ (by rw [hloaded.status]; exact nofun)
  have herror : stored.generationError = none := by
    rcases hstatus with hpending | hready
    · exact (hlawful.pending hpending).generationError
    · exact (hlawful.ready hready).generationError
  refine ⟨⟨fun h => ?_, fun _ => ⟨?_, ?_, ?_, ?_⟩⟩, hready⟩
  · cases hready.symm.trans h
  · exact complete_column (by simp) (.inl hloaded.rowCount)
  · exact complete_column (by simp) (.inl hloaded.filePath)
  · exact complete_column (by simp) (.inl hloaded.expiresAt)
  · exact (column_same _ _).trans herror

/-- A ready export is generated anew, whatever has become of it. -/
theorem lawful_again {n : Nat} {path : String} {expiresAt : Instant}
    (hloaded : loaded.status = .ready) (hlawful : Lawful stored) (hleft : stored.status ≠ .pending)
    (hcurrent : current = { loaded with
      status := .ready, rowCount := some n, filePath := some path, expiresAt := some expiresAt }) :
    Lawful (Entity.merge loaded current stored) ∧
      (Entity.merge loaded current stored).status = stored.status := by
  subst hcurrent
  have hsame : column loaded.status .ready stored.status = stored.status := by
    rw [hloaded, column_same]
  refine ⟨⟨fun h => absurd (hsame.symm.trans h) hleft, fun h => ?_⟩, hsame⟩
  have hcomplete := hlawful.ready (hsame.symm.trans h)
  exact ⟨complete_column (by simp) (.inr hcomplete.rowCount),
    complete_column (by simp) (.inr hcomplete.filePath),
    complete_column (by simp) (.inr hcomplete.expiresAt),
    (column_same _ _).trans hcomplete.generationError⟩

/-- A row that is neither pending nor ready. -/
theorem lawful_of_status {x : Export} (h : x.status = .failed ∨ x.status = .expired) :
    Lawful x := by
  refine ⟨fun hpending => ?_, fun hready => ?_⟩
  · rw [hpending] at h
    simp at h
  · rw [hready] at h
    simp at h

/-- **What an update makes of the row**, where it is not stale. -/
theorem merge_moves (hloaded : Loaded exportId loaded s)
    (hstored : s.exports.find? exportId = some stored) (hlawful : Lawful stored)
    (hsets : Sets loaded current) (hfresh : NotStale s (.updateExport loaded current)) :
    Lawful (Entity.merge loaded current stored) ∧
      Moves stored.status (Entity.merge loaded current stored).status ∧
      (stored.status ≠ .pending → (Entity.merge loaded current stored).status ≠ .pending) := by
  -- an export that was read past pending has stayed past it
  have hread : loaded.status ≠ .pending → stored.status ≠ .pending := by
    intro h
    obtain ⟨x, hx, hleft⟩ := hloaded.left h
    obtain rfl := Option.some.inj (hstored.symm.trans hx)
    exact hleft
  have hfound : stored ∈ s.exports.find? loaded.id := by
    rw [hloaded.id]
    exact hstored
  have hexpired : ∀ {x : Export}, x.status = .expired →
      Lawful x ∧ Moves stored.status x.status ∧ (stored.status ≠ .pending → x.status ≠ .pending) :=
    fun h => ⟨lawful_of_status (.inr h), h ▸ .expired _, fun _ => by rw [h]; exact nofun⟩
  cases hsets with
  -- the handler read PENDING; a fresh update finds PENDING or FAILED
  | failed hpending =>
      have hstatus : column loaded.status .failed stored.status = .failed :=
        column_changed _ (by rw [hpending]; exact nofun)
      refine ⟨lawful_of_status (.inl hstatus), ?_, fun _ => ?_⟩
      · show Moves stored.status (column loaded.status .failed stored.status)
        rw [hstatus]
        rcases hfresh with h | h | ⟨-, h⟩
        · rw [hpending] at h
          cases h
        · cases h
        · rcases h stored hfound with h | h
          · rw [h]
            exact .failed
          · rw [h]
            exact .stays _
      · show column loaded.status .failed stored.status ≠ .pending
        rw [hstatus]
        exact nofun
  | expired =>
      -- an update that sets nothing leaves the row
      by_cases hsame : loaded.status = .expired
      · have hnothing : { loaded with status := .expired } = loaded := by rw [← hsame]
        have hmerge : Entity.merge loaded loaded stored = stored := by simp [Entity.merge]
        rw [hnothing, hmerge]
        exact ⟨hlawful, .stays _, id⟩
      · exact hexpired (column_changed _ fun h => hsame h.symm)
  -- the generation: it wrote READY over READY, or over what it may
  | ready =>
      rcases hfresh with h | h | ⟨hpending, h⟩
      · have hready : loaded.status = .ready := h.symm
        have hleft := hread (by rw [hready]; exact nofun)
        obtain ⟨hlawful', hstatus⟩ := lawful_again hready hlawful hleft rfl
        exact ⟨hlawful', hstatus ▸ .stays _, fun _ => hstatus ▸ hleft⟩
      · cases h
      · obtain ⟨hlawful', hstatus⟩ :=
          lawful_ready (hloaded.lawful.pending hpending) hlawful (h stored hfound) rfl
        refine ⟨hlawful', ?_, fun _ => ?_⟩
        · rw [hstatus]
          exact moves_of_ready (h stored hfound)
        · rw [hstatus]
          exact nofun

/-- **One statement** that is not stale: the export moves, and stays lawful. -/
theorem allowed_moves {β : Type} {c : Sql β} (hinv : (interference exportId).inv s)
    (hallowed : Allowed exportId c s) (hfresh : ∀ w answer, c = .commit w answer → NotStale s w) :
    (interference exportId).inv (exec c s).2 ∧ (interference exportId).rely s (exec c s).2 ∧
      MovesIn exportId s (exec c s).2 := by
  obtain ⟨x, hx, hlawful⟩ := hinv
  have hsame : ∀ u : Database, u.exports.find? exportId = s.exports.find? exportId →
      (interference exportId).inv u ∧ (interference exportId).rely s u ∧ MovesIn exportId s u := by
    intro u hu
    refine ⟨⟨x, hu.trans hx, hlawful⟩, ?_, x, x, hx, hu.trans hx, .stays _⟩
    rintro ⟨y, hy, hleft⟩
    exact ⟨y, hu.trans hy, hleft⟩
  cases c with
  | query q => exact hsame s rfl
  | commit w answer =>
      rw [exec]
      cases happly : w.apply s with
      | error e => exact hsame s rfl
      | ok u =>
          cases w with
          | updateExport loaded current =>
              obtain ⟨hloaded, hsets⟩ := hallowed
              obtain ⟨t, hflush, rfl⟩ := apply_updateExport happly
              -- the flush is of this export or of another
              rcases Table.find?_flush hflush exportId with hkept | ⟨stored, hstored, hmerged⟩
              · exact hsame _ hkept
              · obtain rfl := Option.some.inj (hx.symm.trans hstored)
                obtain ⟨hlawful', hmoves, hleft⟩ :=
                  merge_moves hloaded hx hlawful hsets (hfresh _ _ rfl)
                refine ⟨⟨_, hmerged, hlawful'⟩, ?_, x, _, hx, hmerged, hmoves⟩
                rintro ⟨y, hy, hyleft⟩
                obtain rfl := Option.some.inj (hx.symm.trans hy)
                exact ⟨_, hmerged, hleft hyleft⟩
          | insertIntent intent =>
              obtain ⟨t, -, rfl⟩ := apply_insertIntent happly
              exact hsame _ rfl
          | writeFile path file =>
              obtain rfl := Except.ok.inj happly
              exact hsame _ rfl
          | _ => exact absurd hallowed id

end Commit

/-! ## The requests keep to it -/

section Requests
variable {exportId : Uuid} {s : Database} {α : Type}

/-- The request is one of those of the export. -/
abbrev Keeps (exportId : Uuid) (p : Db α) (s : Database) : Prop :=
  p.Under (interference exportId) exec (fun _ _ => True) s

/-- The commits that touch no export. -/
def Apart : Write → Prop
  | .insertIntent _ => True
  | .writeFile _ _ => True
  | _ => False

theorem keeps_of_writes {p : Db α} (hp : p.Writes Apart) (s : Database) : Keeps exportId p s := by
  refine Program.under_of_within hp fun c u hc => ?_
  cases c with
  | query q => trivial
  | commit w answer =>
      cases w with
      | insertIntent intent => trivial
      | writeFile path file => trivial
      | _ => exact absurd hc id

theorem Loaded.mono {entry : Export} {u : Database} (h : Loaded exportId entry s)
    (hu : (interference exportId).rely s u) : Loaded exportId entry u :=
  ⟨h.id, h.lawful, fun hleft => hu (h.left hleft)⟩

/-- An export that is read, or held by the session since it was read. -/
theorem under_getExport {held : Option Export} (hheld : ∀ x ∈ held, Loaded exportId x s) :
    (ExportRepository.getExport exportId held).Under (interference exportId) exec
      (fun found u => ∀ x, found = some x → Loaded exportId x u) s := by
  unfold ExportRepository.getExport
  split
  · rename_i entry hentry
    intro u _ hsu x hx
    obtain rfl := Option.some.inj hx
    exact (hheld _ (Option.filter_eq_some_iff.mp hentry).1).mono hsu
  · refine Program.under_issue fun u hu hsu => ⟨trivial, ?_⟩
    rintro found u' hanswer - v - hrely x rfl
    obtain ⟨hfound, rfl⟩ := Prod.mk.inj hanswer
    have hfind : u.exports.find? exportId = some x := Except.ok.inj hfound
    obtain ⟨y, hy, hlawful⟩ := hu
    obtain rfl := Option.some.inj (hfind.symm.trans hy)
    exact ⟨(Table.find?_eq_some.mp hfind).2, hlawful, fun hleft => hrely ⟨x, hfind, hleft⟩⟩

/-- Setting a read export. -/
theorem keeps_updateExport {loaded current : Export} (h : Loaded exportId loaded s)
    (hsets : Sets loaded current) :
    Keeps exportId (ExportRepository.updateExport loaded current) s :=
  Program.under_issue fun _ _ hsu => ⟨⟨h.mono hsu, hsets⟩, fun _ _ _ _ _ _ _ => trivial⟩

theorem keeps_when {p : Db Unit} (hp : Keeps exportId p s) (b : Bool) :
    Keeps exportId (when b p) s := by
  cases b
  · exact fun _ _ _ => trivial
  · exact hp

theorem keeps_generate (env : Env) (now : Instant) {held : Option Export}
    (hheld : ∀ x ∈ held, Loaded exportId x s) :
    Keeps exportId (generate env now exportId held) s := by
  refine (under_getExport hheld).bind fun found u _ _ hfound => ?_
  cases found with
  | none => trivial
  | some entry =>
      have hentry := hfound entry rfl
      refine (keeps_of_writes (writes_spec entry.module) u).bind fun spec v _ huv _ => ?_
      refine (keeps_of_writes (writes_rowStream spec entry.filters) v).bind fun rows w _ hvw _ => ?_
      have hfile : ∀ path, (writeFile env now spec entry path rows).Writes Apart :=
        fun path => writes_writeFile now spec entry path rows fun _ => trivial
      refine (keeps_of_writes (hfile _) w).bind fun _ z _ hwz _ => ?_
      exact (keeps_updateExport (((hentry.mono huv).mono hvw).mono hwz) .ready).bind
        fun _ _ _ _ _ _ _ _ => trivial

/-- **The background task keeps to it**, and so does its failure handler. -/
theorem keeps_generateTask (env : Env) (now : Instant) (s : Database) :
    Keeps exportId (generateTask env now exportId) s := by
  refine Program.Under.tryCatch ?_ fun _ u => Program.Under.tryCatch ?_ fun _ v => ?_
  · exact (keeps_generate env now fun x hx => by cases hx).bind fun _ _ _ _ _ _ _ _ => trivial
  · refine (under_getExport fun x hx => by cases hx).bind fun found v _ _ hfound => ?_
    cases found with
    | none => exact fun _ _ _ => trivial
    | some entry =>
        cases hpending : decide (entry.status = .pending) with
        | false =>
            show Keeps exportId (when (decide (entry.status = .pending)) _) v
            rw [hpending]
            exact fun _ _ _ => trivial
        | true =>
            exact keeps_when
              (keeps_updateExport (hfound entry rfl) (.failed (of_decide_eq_true hpending))) _
  · exact fun _ _ _ => trivial

theorem keeps_downloadExport (env : Env) (req : Request) (adminEmail : String) (s : Database) :
    Keeps exportId (downloadExport env req exportId adminEmail) s := by
  have howned : (ownedExport exportId adminEmail).Under (interference exportId) exec
      (Loaded exportId) s := by
    refine (under_getExport fun x hx => by cases hx).bind fun found u _ _ hfound => ?_
    cases found with
    | none => trivial
    | some entry =>
        refine (keeps_of_writes ((Db.writes_throw _).when _) u).bind fun _ v _ huv _ => ?_
        exact fun w _ hvw => ((hfound entry rfl).mono huv).mono hvw
  -- what was read stays a row that was read, whatever the others commit
  refine howned.bind fun entry u _ _ hentry => ?_
  have hexpiry : Keeps exportId (refuseExpired req.now entry) u := by
    refine keeps_when ((keeps_updateExport hentry .expired).bind fun _ _ _ _ _ => ?_) _
    trivial
  refine hexpiry.bind fun _ v _ huv _ => ?_
  have hregenerate : Keeps exportId (regenerate env req.now entry) v := by
    refine (keeps_of_writes (Db.writes_query _) v).bind fun present w _ hvw _ => ?_
    split
    · obtain rfl := hentry.id
      refine keeps_generate env req.now fun x hx => ?_
      obtain rfl := Option.some.inj hx
      exact (hentry.mono huv).mono hvw
    · exact fun _ _ _ => trivial
  refine hregenerate.bind fun ready w _ _ _ => keeps_of_writes ?_ w
  exact (Db.writes_query _).bind fun _ => ((Db.writes_throw _).when _).bind fun _ =>
    (AuditService.writes_record (fun _ => trivial) _ _).bind fun _ => Db.writes_pure _

end Requests

/-! ## Runs -/

section Runs
variable {ι : Type} [DecidableEq ι] {env : Env} {now : Instant} {exportId : Uuid}
  {calls : ι → Request × String}

abbrev Sound (exportId : Uuid) (t : Threads ι) : Prop :=
  Program.Threads.Sound (interference exportId) exec t

theorem sound_of_init {t : Threads ι} (h : (machine env now exportId calls).init t) :
    Sound exportId t := by
  obtain ⟨⟨entry, hfind, hnew⟩, hthreads⟩ := h
  have hlawful : Lawful entry := by
    refine ⟨fun _ => hnew, fun hready => ?_⟩
    rw [hnew.status] at hready
    cases hready
  refine ⟨⟨entry, hfind, hlawful⟩, fun i => ?_⟩
  rw [hthreads]
  cases i with
  | none => exact keeps_generateTask env now _
  | some i =>
      exact (keeps_downloadExport env (calls i).1 (calls i).2 _).bind fun _ _ _ _ _ _ _ _ => trivial

/-- **One turn** that is not stale. -/
theorem Sound.step {t t' : Threads ι} (h : Sound exportId t) {l : Option ι × Option Failure}
    (hfresh : Fresh t l) (hstep : (machine env now exportId calls).step l t = some t') :
    Sound exportId t' ∧ MovesIn exportId t.shared t'.shared := by
  obtain ⟨hturn, hsound⟩ := h.turn_inv hstep
  rcases hturn with hsame | ⟨β, c, k, hturn, hcall, hallows, hshared⟩
  · obtain ⟨x, hx, hlawful⟩ := h.inv
    rw [hsame] at hsound ⊢
    exact ⟨hsound ⟨x, hx, hlawful⟩ id, x, x, hx, hx, .stays _⟩
  · have hwrite : ∀ w answer, c = .commit w answer → NotStale t.shared w := by
      rintro w answer rfl
      exact hfresh (by rw [hturn]; rfl) w (by rw [hcall]; rfl)
    obtain ⟨hinv, hrely, hmoves⟩ := allowed_moves h.inv hallows hwrite
    rw [← hshared] at hinv hrely hmoves
    exact ⟨hsound hinv hrely, hmoves⟩

omit [DecidableEq ι] in
theorem Sound.readyComplete {t : Threads ι} (h : Sound exportId t) :
    ReadyComplete exportId t.shared := by
  intro x hx hready
  obtain ⟨y, hy, hlawful⟩ := h.inv
  obtain rfl := Option.some.inj (hx.symm.trans hy)
  exact hlawful.ready hready

end Runs

/-- **When the status is monotone.** In every run of the background task of an export and any
number of downloads, each statement of which may fail, where every update that sets another
status than expired is of an export that was read as pending and finds it pending, or with the
status it sets: the committed status moves only from pending to ready or failed, from failed to
ready, or to expired, and a ready export is complete and has no error. -/
theorem status_monotone {ι : Type} [DecidableEq ι] {env : Env} {now : Instant} {exportId : Uuid}
    {calls : ι → Request × String} {t : List (Threads ι × (Option ι × Option Failure))}
    {st : Threads ι} (h : (machine env now exportId calls).Run t st)
    (hfresh : ∀ p ∈ t, Fresh p.1 p.2) :
    (∀ p ∈ t, ∀ u, (machine env now exportId calls).step p.2 p.1 = some u →
      MovesIn exportId p.1.shared u.shared) ∧
      ∀ u ∈ Machine.visited t st, ReadyComplete exportId u.shared := by
  have hsound : ∀ u ∈ Machine.visited t st, Sound exportId u :=
    h.always_while (fun _ hu => sound_of_init hu)
      (fun _ _ _ hu hok hstep => (Sound.step hu hok hstep).1) hfresh
  constructor
  · intro p hp u hstep
    have hmem : p.1 ∈ Machine.visited t st := by simp [Machine.visited, List.mem_map_of_mem hp]
    exact ((hsound p.1 hmem).step (hfresh p hp) hstep).2
  · exact fun u hu => (hsound u hu).readyComplete

/-! ## A late failure -/

open Administration (sampleEnv sampleState sampleRequest)

/-- An export of the first admin, just created. -/
def sampleExport : Export where
  id := .ofNat 101
  module := "users"
  reason := "review"
  fileFormat := "xlsx"
  classification := "Confidential"
  filters := .null
  status := .pending
  rowCount := none
  filePath := none
  generationError := none
  expiresAt := none
  createdBy := "admin1@example.com"
  createdAt := Instant.seconds 1

/-- One download besides the background task. -/
def sampleCalls : Unit → Request × String := fun _ => (sampleRequest 2, "admin1@example.com")

def sampleMachine : Machine (Threads Unit) (Option Unit × Option Failure) :=
  machine sampleEnv (Instant.seconds 1) (.ofNat 101) sampleCalls

def sampleThreads : Threads Unit where
  shared := { sampleState with exports := ⟨[sampleExport], by decide⟩ }
  thread := requests sampleEnv (Instant.seconds 1) (.ofNat 101) sampleCalls

theorem init_sampleThreads : sampleMachine.init sampleThreads :=
  ⟨⟨sampleExport, rfl, ⟨rfl, rfl, rfl, rfl, rfl⟩⟩, rfl⟩

/-- A turn without a failure. -/
def turns (i : Option Unit) (n : Nat) : List (Option Unit × Option Failure) :=
  List.replicate n (i, none)

/-- The task reads the export, selects the rows, writes the file and sets the status; then the
download finds the file. -/
def inOrder : List (Option Unit × Option Failure) := turns none 4 ++ turns (some ()) 3

theorem status_monotone_inOrder :
    ∃ t st, sampleMachine.Run t st ∧ t.map Prod.snd = inOrder ∧
      (st.shared.exports.find? (.ofNat 101)).map Export.status = some .ready ∧
      (∀ p ∈ t, ∀ u, sampleMachine.step p.2 p.1 = some u →
        MovesIn (.ofNat 101) p.1.shared u.shared) ∧
      ∀ u ∈ Machine.visited t st, ReadyComplete (.ofNat 101) u.shared := by
  have hready : (sampleMachine.exec inOrder sampleThreads).map
      (fun t => (t.shared.exports.find? (.ofNat 101)).map Export.status) =
      some (some .ready) := by decide +kernel
  obtain ⟨st, hexec, hst⟩ := Option.map_eq_some_iff.mp hready
  have hrun := Machine.Run.of_exec (.start init_sampleThreads) hexec
  refine ⟨_, st, hrun, Machine.map_snd_trace hexec, hst, status_monotone hrun ?_⟩
  decide +kernel

/-- The task fails at once, and its handler reads the export as pending; the download then
generates it. -/
def lateFailure : List (Option Unit × Option Failure) :=
  (none, some .value) :: turns none 1 ++ turns (some ()) 5

/-- **Ready falls back to failed**, once the handler goes on. -/
theorem ready_falls_back :
    ¬ ∀ t st, sampleMachine.Run t st → ∀ p ∈ t, ∀ u, sampleMachine.step p.2 p.1 = some u →
      MovesIn (.ofNat 101) p.1.shared u.shared := by
  intro hmoves
  have hlast : ((sampleMachine.exec lateFailure sampleThreads).bind fun st =>
      (sampleMachine.step (none, none) st).map fun u =>
        ((st.shared.exports.find? (.ofNat 101)).map Export.status,
          (u.shared.exports.find? (.ofNat 101)).map Export.status)) =
      some (some .ready, some .failed) := by decide +kernel
  obtain ⟨st, hexec, hst⟩ := Option.bind_eq_some_iff.mp hlast
  obtain ⟨u, hstep, hu⟩ := Option.map_eq_some_iff.mp hst
  obtain ⟨hready, hfailed⟩ := Prod.mk.inj hu
  have hrun := Machine.Run.of_exec (.start init_sampleThreads) hexec
  obtain ⟨x, y, hx, hy, hmove⟩ := hmoves _ u (.step hrun hstep) (st, (none, none)) (by simp) u hstep
  rw [hx, Option.map_some, Option.some.injEq] at hready
  rw [hy, Option.map_some, Option.some.injEq] at hfailed
  rw [hready, hfailed] at hmove
  cases hmove

end StatusMoves
end AdminPlatform
