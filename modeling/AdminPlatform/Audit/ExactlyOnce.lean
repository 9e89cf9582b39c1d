import AdminPlatform.Audit.Interleaving
import Mathlib.Data.List.Count

/-! # Exactly-once promotion

An intent should be in the outbox without an entry, or out of it with exactly one. The
batch of a promoter is read before the lock is taken, so by the time its rows are inserted
another promoter may have promoted the same intents: deleting them again affects nothing,
and they get a second entry (`duplicate_promotion`).

`exactlyOnce_iff` says when that happens: a run keeps exactly-once in every state it goes
through exactly when every commit is of a batch that is still in the outbox. -/

namespace AdminPlatform.Audit
open AdminPlatform.Lib State

/-! ## The batch of a phase -/

namespace Phase

def batch : Phase → List AuditIntent
  | .idle => []
  | .selected batch | .chaining batch _ _ | .tipRead batch _ _ _ _ | .flushed batch _ => batch

/-- The entries of a locked transaction, sealed or not, in the order of its batch. -/
def entries : Phase → List Entry
  | .chaining _ todo added => added ++ todo
  | .tipRead _ entry todo added _ => added ++ entry :: todo
  | .flushed _ added => added
  | _ => []

end Phase

section Invariant
variable {ι κ : Type*}

namespace State

/-- How many committed entries an intent has. -/
def copies (s : State ι κ) (i : AuditIntent) : Nat :=
  s.logs.countP (fun e => e.source = some i)

end State

/-- Every intent ever recorded is queued without an entry, or promoted with exactly one. -/
def ExactlyOnce (s : State ι κ) : Prop :=
  ∀ i ∈ s.recorded, (i ∈ s.outbox ∧ s.copies i = 0) ∨ (i ∉ s.outbox ∧ s.copies i = 1)

instance (s : State ι κ) : Decidable (ExactlyOnce s) := by unfold ExactlyOnce; infer_instance

/-- What the statements keep about intents, whether or not batches are stale. -/
structure Bookkeeping (s : State ι κ) : Prop where
  distinct : (s.recorded.map (fun i => i.id)).Nodup
  outbox_recorded : ∀ i ∈ s.outbox, i ∈ s.recorded
  outbox_nodup : s.outbox.Nodup
  source_recorded : ∀ e ∈ s.logs, ∀ i ∈ e.source, i ∈ s.recorded
  batch_recorded : ∀ p, ∀ i ∈ (s.phase p).batch, i ∈ s.recorded
  batch_nodup : ∀ p, (s.phase p).batch.Nodup
  entries_batch : ∀ p, (s.phase p).Locked →
    (s.phase p).entries.map Entry.source = (s.phase p).batch.map some

theorem Bookkeeping.eq_of_id {s : State ι κ} (h : Bookkeeping s) {i j : AuditIntent}
    (hi : i ∈ s.recorded) (hj : j ∈ s.recorded) (hid : i.id = j.id) : i = j :=
  List.inj_on_of_nodup_map h.distinct hi hj hid

theorem bookkeeping_initial {s : State ι κ} (h : Initial s) : Bookkeeping s where
  distinct := h.recorded ▸ h.distinct
  outbox_recorded := fun i hi => h.recorded ▸ hi
  outbox_nodup := h.distinct.of_map _
  source_recorded := by
    intro e he i hi
    rw [(h.prechain e he).1] at hi
    cases hi
  batch_recorded := by
    intro p i hi
    rw [h.idle p] at hi
    cases hi
  batch_nodup := fun p => by rw [h.idle p]; exact List.nodup_nil
  entries_batch := fun p hp => by rw [h.idle p] at hp; exact hp.elim

theorem exactlyOnce_initial {s : State ι κ} (h : Initial s) : ExactlyOnce s := by
  intro i hi
  refine .inl ⟨h.recorded ▸ hi, List.countP_eq_zero.mpr fun e he hsource => ?_⟩
  rw [(h.prechain e he).1] at hsource
  cases of_decide_eq_true hsource

/-- The sources of the rows a commit publishes are its batch. -/
theorem Bookkeeping.flushed {s : State ι κ} (h : Bookkeeping s) {p : ι}
    {batch : List AuditIntent} {added : List Entry} (hp : s.phase p = .flushed batch added) :
    added.map Entry.source = batch.map some := by
  have hentries := h.entries_batch p (by rw [hp]; trivial)
  rwa [hp] at hentries

variable [DecidableEq ι]

/-- A step that only moves `p` to a phase whose batch is recorded and whose entries are
those of its batch. -/
theorem Bookkeeping.enter {s s' : State ι κ} (h : Bookkeeping s) {p : ι} {ph : Phase}
    (hphase : s'.phase = Function.update s.phase p ph) (hrecorded : s'.recorded = s.recorded)
    (houtbox : s'.outbox = s.outbox) (hlogs : s'.logs = s.logs)
    (hbatch : ∀ i ∈ ph.batch, i ∈ s.recorded) (hnodup : ph.batch.Nodup)
    (hentries : ph.Locked → ph.entries.map Entry.source = ph.batch.map some) :
    Bookkeeping s' where
  distinct := by rw [hrecorded]; exact h.distinct
  outbox_recorded := by rw [hrecorded, houtbox]; exact h.outbox_recorded
  outbox_nodup := by rw [houtbox]; exact h.outbox_nodup
  source_recorded := by rw [hrecorded, hlogs]; exact h.source_recorded
  batch_recorded := by
    rw [hphase, hrecorded]
    exact Function.forall_update_iff _ (fun _ (ph : Phase) => ∀ i ∈ ph.batch, i ∈ s.recorded) |>.mpr
      ⟨hbatch, fun q _ => h.batch_recorded q⟩
  batch_nodup := by
    rw [hphase]
    exact Function.forall_update_iff _ (fun _ (ph : Phase) => ph.batch.Nodup) |>.mpr
      ⟨hnodup, fun q _ => h.batch_nodup q⟩
  entries_batch := by
    rw [hphase]
    exact Function.forall_update_iff _
      (fun _ (ph : Phase) => ph.Locked → ph.entries.map Entry.source = ph.batch.map some) |>.mpr
        ⟨hentries, fun q _ => h.entries_batch q⟩

/-- A step from one phase of a locked transaction to the next, with the same batch. -/
theorem Bookkeeping.advance {s : State ι κ} (h : Bookkeeping s) {p : ι} {ph : Phase}
    (hlocked : (s.phase p).Locked) (hbatch : ph.batch = (s.phase p).batch)
    (hentries : ph.entries.map Entry.source = (s.phase p).entries.map Entry.source) :
    Bookkeeping (s.goto p ph) := by
  refine h.enter rfl rfl rfl rfl ?_ ?_ ?_
  · rw [hbatch]
    exact h.batch_recorded p
  · rw [hbatch]
    exact h.batch_nodup p
  · intro _
    rw [hentries, hbatch]
    exact h.entries_batch p hlocked

theorem Bookkeeping.leave {s s' : State ι κ} (h : Bookkeeping s) {p : ι}
    (hphase : s'.phase = Function.update s.phase p .idle) (hrecorded : s'.recorded = s.recorded)
    (houtbox : s'.outbox = s.outbox) (hlogs : s'.logs = s.logs) : Bookkeeping s' :=
  h.enter hphase hrecorded houtbox hlogs (fun _ hi => (List.not_mem_nil hi).elim)
    List.nodup_nil (fun hlocked => hlocked.elim)

/-! ## Commits -/

/-- A commit publishes one entry for each intent of its batch. -/
theorem copies_promote {s : State ι κ} (h : Bookkeeping s) {p : ι} {batch : List AuditIntent}
    {added : List Entry} (hp : s.phase p = .flushed batch added) (i : AuditIntent) :
    (s.promote p batch added).copies i = s.copies i + batch.count i := by
  have hadded : added.countP (fun e => e.source = some i) = batch.count i := by
    have hcount : (added.map Entry.source).count (some i) = (batch.map some).count (some i) := by
      rw [h.flushed hp]
    rw [List.count_map_of_injective _ _ (Option.some_injective _)] at hcount
    rw [← hcount, List.count, List.countP_map]
    congr 1
    funext e
    exact (beq_eq_decide _ _).symm
  rw [State.copies, State.copies, ← hadded]
  exact List.countP_append

theorem mem_outbox_promote {s : State ι κ} (h : Bookkeeping s) {p : ι}
    {batch : List AuditIntent} {added : List Entry} (hp : s.phase p = .flushed batch added)
    {i : AuditIntent} (hi : i ∈ s.recorded) :
    i ∈ (s.promote p batch added).outbox ↔ i ∈ s.outbox ∧ i ∉ batch := by
  have hb := h.batch_recorded p
  rw [hp] at hb
  refine mem_deleteBatch.trans (and_congr Iff.rfl ⟨fun hids hmem => hids i hmem rfl, ?_⟩)
  intro hnot j hj hid
  exact hnot (h.eq_of_id (hb j hj) hi hid ▸ hj)

/-- A step commits no batch, or a batch that is still in the outbox. -/
def FreshCommit (s : State ι κ) : Label ι κ → Prop
  | .commit p => ∀ i ∈ (s.phase p).batch, i ∈ s.outbox
  | _ => True

theorem exactlyOnce_promote_iff {s : State ι κ} (h : Bookkeeping s) (honce : ExactlyOnce s)
    {p : ι} {batch : List AuditIntent} {added : List Entry}
    (hp : s.phase p = .flushed batch added) :
    ExactlyOnce (s.promote p batch added) ↔ ∀ i ∈ batch, i ∈ s.outbox := by
  have hb : ∀ i ∈ batch, i ∈ s.recorded := by
    have hb := h.batch_recorded p
    rwa [hp] at hb
  have hn : batch.Nodup := by
    have hn := h.batch_nodup p
    rwa [hp] at hn
  constructor
  · intro hafter i hi
    by_contra hgone
    obtain ⟨hin, -⟩ | ⟨-, hone⟩ := honce i (hb i hi)
    · exact hgone hin
    · have htwo : (s.promote p batch added).copies i = 2 := by
        rw [copies_promote h hp, hone, List.count_eq_one_of_mem hn hi]
      obtain ⟨-, hzero⟩ | ⟨-, hone'⟩ := hafter i (hb i hi)
      · omega
      · omega
  · intro hfresh i hi
    have hi' : i ∈ s.recorded := hi
    rw [mem_outbox_promote h hp hi', copies_promote h hp]
    by_cases hbatch : i ∈ batch
    · have hzero : s.copies i = 0 := by
        obtain ⟨-, hzero⟩ | ⟨hout, -⟩ := honce i hi'
        · exact hzero
        · exact absurd (hfresh i hbatch) hout
      exact .inr ⟨fun hboth => hboth.2 hbatch, by
        rw [hzero, List.count_eq_one_of_mem hn hbatch]⟩
    · rw [List.count_eq_zero_of_not_mem hbatch]
      obtain ⟨hin, hzero⟩ | ⟨hout, hone⟩ := honce i hi'
      · exact .inl ⟨⟨hin, hbatch⟩, hzero⟩
      · exact .inr ⟨fun hboth => hout hboth.1, hone⟩

/-! ## Steps -/

variable [DecidableEq κ]

theorem bookkeeping_step {l : Label ι κ} {s s' : State ι κ} (h : Bookkeeping s)
    (hstep : Step l s s') : Bookkeeping s' := by
  cases hstep with
  -- the batch is read from the outbox
  | selectNone hp hbatch => exact h
  | @select _ p order hp hbatch =>
      exact h.enter rfl rfl rfl rfl
        (fun i hi => h.outbox_recorded i (order.mem_of_mem_batch hi))
        (order.nodup_batch h.outbox_nodup) (fun hlocked => hlocked.elim)
  | @lock _ p newId batch hp hlock =>
      have hb := h.batch_recorded p
      have hn := h.batch_nodup p
      rw [hp] at hb hn
      refine h.enter (p := p) rfl rfl rfl rfl hb hn fun _ => ?_
      simp [Phase.entries, Phase.batch, Entry.forge]
  | readTip hp hfits => exact h.advance (by rw [hp]; trivial) (by rw [hp]; rfl) (by rw [hp]; rfl)
  | readHash hp =>
      refine h.advance (by rw [hp]; trivial) (by rw [hp]; rfl) ?_
      rw [hp]
      simp [Phase.entries]
  | flush hp hfits =>
      refine h.advance (by rw [hp]; trivial) (by rw [hp]; rfl) ?_
      rw [hp]
      simp [Phase.entries]
  | @commit _ p batch added hp =>
      have hb := h.batch_recorded p
      rw [hp] at hb
      -- the batch leaves the outbox as its entries become visible
      have hcleared : Bookkeeping (s.goto p .idle) := h.leave rfl rfl rfl rfl
      refine { hcleared with outbox_recorded := ?_, outbox_nodup := ?_, source_recorded := ?_ }
      · exact fun i hi => h.outbox_recorded i (mem_deleteBatch.mp hi).1
      · exact h.outbox_nodup.filter _
      · intro e hmem i hi
        rcases List.mem_append.mp hmem with hmem | hmem
        · exact h.source_recorded e hmem i hi
        · have hsource : e.source ∈ batch.map some := h.flushed hp ▸ List.mem_map_of_mem hmem
          obtain ⟨j, hj, hje⟩ := List.mem_map.mp hsource
          rw [← hje] at hi
          exact Option.mem_some_iff.mp hi ▸ hb j hj
  | @crash _ p hp => exact h.leave (p := p) rfl rfl rfl rfl
  | insertIntent hc => exact { h with }
  | abortIntent hc => exact { h with }
  | @commitIntent _ c intent hc hfresh =>
      -- an id that was never recorded: the intent is new to all lists
      have hnew : intent ∉ s.recorded := fun hm => hfresh (List.mem_map_of_mem hm)
      refine
        { distinct := ?_, outbox_recorded := ?_, outbox_nodup := ?_, source_recorded := ?_
          batch_recorded := ?_, batch_nodup := h.batch_nodup, entries_batch := h.entries_batch }
      · simp only [State.record, List.map_append, List.map_cons, List.map_nil]
        refine List.nodup_append.mpr ⟨h.distinct, by simp, ?_⟩
        rintro a ha b hb rfl
        rw [List.mem_singleton.mp hb] at ha
        exact hfresh ha
      · intro i hi
        rcases List.mem_append.mp hi with hi | hi
        · exact List.mem_append_left _ (h.outbox_recorded i hi)
        · exact List.mem_append_right _ hi
      · refine List.nodup_append.mpr ⟨h.outbox_nodup, by simp, ?_⟩
        rintro a ha b hb rfl
        rw [List.mem_singleton.mp hb] at ha
        exact hnew (h.outbox_recorded _ ha)
      · exact fun e he i hi => List.mem_append_left _ (h.source_recorded e he i hi)
      · exact fun p i hi => List.mem_append_left _ (h.batch_recorded p i hi)

omit [DecidableEq ι] in
/-- Recording an intent queues it without an entry. -/
theorem exactlyOnce_record {s : State ι κ} (h : Bookkeeping s) (honce : ExactlyOnce s) {c : κ}
    {intent : AuditIntent} (hfresh : intent.id ∉ s.recorded.map (fun i => i.id)) :
    ExactlyOnce (s.record c intent) := by
  have hnew : intent ∉ s.recorded := fun hm => hfresh (List.mem_map_of_mem hm)
  intro i hi
  rcases List.mem_append.mp hi with hi | hi
  · have hne : i ≠ intent := fun heq => hnew (heq ▸ hi)
    have hmem : i ∈ (s.record c intent).outbox ↔ i ∈ s.outbox := by simp [State.record, hne]
    rw [hmem]
    exact honce i hi
  · obtain rfl := List.mem_singleton.mp hi
    refine .inl ⟨List.mem_append_right _ hi, List.countP_eq_zero.mpr fun e he hsource => ?_⟩
    exact hnew (h.source_recorded e he i (by simpa using hsource))

/-- One step keeps exactly-once exactly when it is no stale commit. -/
theorem exactlyOnce_step_iff {l : Label ι κ} {s s' : State ι κ} (h : Bookkeeping s)
    (honce : ExactlyOnce s) (hstep : Step l s s') : ExactlyOnce s' ↔ FreshCommit s l := by
  cases hstep with
  | @commit _ p batch added hp =>
      rw [exactlyOnce_promote_iff h honce hp, FreshCommit, hp]
      rfl
  | commitIntent hc hfresh => exact iff_of_true (exactlyOnce_record h honce hfresh) trivial
  | _ => exact iff_of_true honce trivial

/-- An intent leaves the outbox only in a commit, which publishes an entry for it. -/
theorem removed_only_by_commit {l : Label ι κ} {s s' : State ι κ} (h : Bookkeeping s)
    (hstep : Step l s s') {i : AuditIntent} (hi : i ∈ s.outbox) (hgone : i ∉ s'.outbox) :
    ∃ p, l = .commit p ∧ s'.copies i = s.copies i + 1 := by
  cases hstep with
  | @commit _ p batch added hp =>
      have hbatch : i ∈ batch := by
        by_contra hnot
        exact hgone ((mem_outbox_promote h hp (h.outbox_recorded i hi)).mpr ⟨hi, hnot⟩)
      have hn := h.batch_nodup p
      rw [hp] at hn
      refine ⟨p, rfl, ?_⟩
      rw [copies_promote h hp, List.count_eq_one_of_mem (l := batch) hn hbatch]
  | commitIntent hc hfresh => exact absurd (List.mem_append_left _ hi) hgone
  | _ => exact absurd hi hgone

/-- **When promotion is exactly-once.** A run keeps exactly-once in every state it goes
through if and only if, whenever a promoter commits, every intent of the batch it selected
before taking the lock is still in the outbox. -/
theorem exactlyOnce_iff {t : List (State ι κ × Label ι κ)} {s : State ι κ}
    (h : (machine ι κ).Run t s) :
    (∀ u ∈ Machine.visited t s, ExactlyOnce u) ↔ ∀ p ∈ t, FreshCommit p.1 p.2 :=
  h.always_iff (I := Bookkeeping)
    (fun _ h0 => ⟨bookkeeping_initial h0, exactlyOnce_initial h0⟩)
    (fun _ l _ hI hs => bookkeeping_step hI (step_inv (l := l) hs))
    (fun _ l _ hI honce hs => exactlyOnce_step_iff hI honce (step_inv (l := l) hs))

/-- Two promoters select the same two intents; both commit, one after the other. -/
def staleBatch : List (Label Bool Unit) :=
  [.select true .stable, .select false .stable,
    .lock false id, .readTip false, .readHash false, .readTip false, .readHash false,
    .flush false, .commit false,
    .lock true id, .readTip true, .readHash true, .readTip true, .readHash true,
    .flush true, .commit true]

/-- The condition on that run. -/
theorem exactlyOnce_iff_staleBatch :
    ∃ t s, (machine Bool Unit).Run t s ∧ t.map Prod.snd = staleBatch ∧
      ((∀ u ∈ Machine.visited t s, ExactlyOnce u) ↔ ∀ p ∈ t, FreshCommit p.1 p.2) := by
  obtain ⟨s, hexec⟩ : ∃ s, (machine Bool Unit).exec staleBatch sampleStart = some s :=
    Option.isSome_iff_exists.mp (by decide +kernel)
  have hrun := Machine.Run.of_exec (.start sampleStart_initial) hexec
  exact ⟨_, s, hrun, Machine.map_snd_trace hexec, exactlyOnce_iff hrun⟩

/-- A duplicate: after both commits each of the two intents has two entries. -/
theorem duplicate_promotion :
    ∃ s : State Bool Unit, (machine Bool Unit).Reachable s ∧ ¬ ExactlyOnce s ∧
      s.recorded = [sampleIntent 1, sampleIntent 2] ∧ s.outbox = [] ∧
        s.copies (sampleIntent 1) = 2 ∧ s.copies (sampleIntent 2) = 2 := by
  obtain ⟨s, hexec⟩ : ∃ s, (machine Bool Unit).exec staleBatch sampleStart = some s :=
    Option.isSome_iff_exists.mp (by decide +kernel)
  have hshape : ((machine Bool Unit).exec staleBatch sampleStart).map
      (fun s => (s.recorded, s.outbox, s.copies (sampleIntent 1), s.copies (sampleIntent 2))) =
        some ([sampleIntent 1, sampleIntent 2], [], 2, 2) := by decide +kernel
  simp only [hexec, Option.map_some, Option.some.injEq, Prod.mk.injEq] at hshape
  obtain ⟨hrecorded, houtbox, hone, htwo⟩ := hshape
  refine ⟨s, Machine.reachable_of_exec sampleStart_initial hexec, ?_, hrecorded, houtbox, hone,
    htwo⟩
  intro honce
  obtain ⟨-, h⟩ | ⟨-, h⟩ := honce (sampleIntent 1) (by simp [hrecorded])
  · omega
  · omega

end Invariant

end AdminPlatform.Audit
