import AdminPlatform.Audit.ExactlyOnce
import AdminPlatform.Audit.Integrity

/-! # What is recorded is carried over

Promoters may promote an intent twice, but they lose none and make none up: every intent that
was recorded is queued or has an entry, and every entry has the content of the intent it was
forged from and a hash (`conserved_step`). -/

namespace AdminPlatform.Audit
open AdminPlatform.Lib State

/-- An entry says what its intent says. -/
def Entry.Faithful (e : Entry) : Prop :=
  ∃ i, e.source = some i ∧ e.row.content = i.content

section Invariant
variable {ι κ : Type*}

/-- Nothing is lost or made up. -/
structure Conserved (s : State ι κ) : Prop where
  kept : ∀ i ∈ s.recorded, i ∈ s.outbox ∨ ∃ e ∈ s.logs, e.source = some i
  /-- A committed row is from before the chain, or it was forged and sealed. -/
  logs : ∀ e ∈ s.logs, (e.source = none ∧ e.row.entryHash = none) ∨
    (e.Faithful ∧ e.row.entryHash.isSome)
  entries : ∀ p, ∀ e ∈ (s.phase p).entries, e.Faithful
  added : ∀ p, ∀ e ∈ (s.phase p).added, e.Faithful ∧ e.row.entryHash.isSome

theorem conserved_initial {s : State ι κ} (h : Initial s) : Conserved s where
  kept _ hi := .inl (h.recorded ▸ hi)
  logs e he := .inl ⟨(h.prechain e he).1, (h.prechain e he).2.2⟩
  entries p e he := by
    rw [h.idle p] at he
    cases he
  added p e he := by
    rw [h.idle p] at he
    cases he

variable [DecidableEq ι]

/-- A step that only moves `p` to a phase whose entries are faithful. -/
theorem Conserved.enter {s s' : State ι κ} (h : Conserved s) {p : ι} {ph : Phase}
    (hphase : s'.phase = Function.update s.phase p ph) (hrecorded : s'.recorded = s.recorded)
    (houtbox : s'.outbox = s.outbox) (hlogs : s'.logs = s.logs)
    (hentries : ∀ e ∈ ph.entries, e.Faithful)
    (hadded : ∀ e ∈ ph.added, e.Faithful ∧ e.row.entryHash.isSome) : Conserved s' where
  kept := by
    rw [hrecorded, houtbox, hlogs]
    exact h.kept
  logs := by
    rw [hlogs]
    exact h.logs
  entries := by
    rw [hphase]
    exact Function.forall_update_iff _ (fun _ (ph : Phase) => ∀ e ∈ ph.entries, e.Faithful) |>.mpr
      ⟨hentries, fun q _ => h.entries q⟩
  added := by
    rw [hphase]
    exact Function.forall_update_iff _
      (fun _ (ph : Phase) => ∀ e ∈ ph.added, e.Faithful ∧ e.row.entryHash.isSome) |>.mpr
        ⟨hadded, fun q _ => h.added q⟩

theorem Conserved.leave {s s' : State ι κ} (h : Conserved s) {p : ι}
    (hphase : s'.phase = Function.update s.phase p .idle) (hrecorded : s'.recorded = s.recorded)
    (houtbox : s'.outbox = s.outbox) (hlogs : s'.logs = s.logs) : Conserved s' :=
  h.enter hphase hrecorded houtbox hlogs (fun _ he => (List.not_mem_nil he).elim)
    fun _ he => (List.not_mem_nil he).elim

/-- A commit moves its batch from the outbox to the log. -/
theorem Conserved.promote {s : State ι κ} (h : Conserved s) (hbook : Bookkeeping s) {p : ι}
    {batch : List AuditIntent} {added : List Entry} (hp : s.phase p = .flushed batch added) :
    Conserved (s.promote p batch added) := by
  have hadded := h.added p
  rw [hp] at hadded
  have hcleared : Conserved (s.goto p .idle) := h.leave rfl rfl rfl rfl
  refine { hcleared with kept := ?_, logs := ?_ }
  · intro i hi
    rcases h.kept i hi with hqueued | ⟨e, he, hsource⟩
    · by_cases hbatch : i ∈ batch
      · have hmem : some i ∈ added.map Entry.source := by
          rw [hbook.flushed hp]
          exact List.mem_map_of_mem hbatch
        obtain ⟨e, he, hsource⟩ := List.mem_map.mp hmem
        exact .inr ⟨e, List.mem_append_right _ he, hsource⟩
      · exact .inl ((mem_outbox_promote hbook hp hi).mpr ⟨hqueued, hbatch⟩)
    · exact .inr ⟨e, List.mem_append_left _ he, hsource⟩
  · intro e he
    rcases List.mem_append.mp he with he | he
    · exact h.logs e he
    · exact .inr (hadded e he)

variable [DecidableEq κ]

/-- **Every statement conserves what is recorded.** -/
theorem conserved_step {l : Label ι κ} {s s' : State ι κ} (h : Conserved s)
    (hbook : Bookkeeping s) (hstep : Step l s s') : Conserved s' := by
  have hnone : ∀ e ∈ ([] : List Entry), e.Faithful ∧ e.row.entryHash.isSome :=
    fun _ he => (List.not_mem_nil he).elim
  cases hstep with
  | selectNone hp hbatch => exact h
  | @select _ p order hp hbatch =>
      exact h.enter (p := p) rfl rfl rfl rfl (fun _ he => (List.not_mem_nil he).elim) hnone
  | @lock _ p newId batch hp hlock =>
      refine h.enter (p := p) rfl rfl rfl rfl (fun e he => ?_) hnone
      obtain ⟨i, -, rfl⟩ := List.mem_map.mp he
      exact ⟨i, rfl, rfl⟩
  | @readTip _ p batch entry todo added hp hfits =>
      have hentries := h.entries p
      have hadded := h.added p
      rw [hp] at hentries hadded
      exact h.enter (p := p) rfl rfl rfl rfl hentries hadded
  | @readHash _ p batch entry todo added tip hp =>
      have hentries := h.entries p
      have hadded := h.added p
      rw [hp] at hentries hadded
      -- sealing leaves the content and gives the row its hash
      have hsealed : Entry.Faithful
          { entry with row := entry.row.seal tip (tipHash (s.visible p) tip) } :=
        hentries entry (by simp [Phase.entries])
      refine h.enter (p := p) rfl rfl rfl rfl (fun e he => ?_) fun e he => ?_
      · simp only [Phase.entries, List.mem_append, List.mem_singleton] at he
        rcases he with (he | rfl) | he
        · exact (hadded e he).1
        · exact hsealed
        · exact hentries e (by simp [Phase.entries, he])
      · rcases List.mem_append.mp he with he | he
        · exact hadded e he
        · obtain rfl := List.mem_singleton.mp he
          exact ⟨hsealed, rfl⟩
  | @flush _ p batch added hp hfits =>
      have hentries := h.entries p
      have hadded := h.added p
      rw [hp] at hentries hadded
      refine h.enter (p := p) rfl rfl rfl rfl (fun e he => (hadded e he).1) hadded
  | commit hp => exact h.promote hbook hp
  | @crash _ p hp => exact h.leave (p := p) rfl rfl rfl rfl
  | insertIntent hc => exact { h with }
  | abortIntent hc => exact { h with }
  | @commitIntent _ c intent hc hfresh =>
      refine { h with kept := fun i hi => ?_ }
      rcases List.mem_append.mp hi with hi | hi
      · exact (h.kept i hi).imp (List.mem_append_left _) id
      · exact .inl (List.mem_append_right _ hi)

/-! ## What the tables then say -/

theorem bookkeeping_reachable {s : State ι κ} (h : (machine ι κ).Reachable s) : Bookkeeping s :=
  h.invariant (I := Bookkeeping) (fun _ h0 => bookkeeping_initial h0)
    (fun _ l _ hI hs => bookkeeping_step hI (step_inv (l := l) hs))

theorem conserved_reachable {s : State ι κ} (h : (machine ι κ).Reachable s) : Conserved s := by
  have hboth : Bookkeeping s ∧ Conserved s :=
    h.invariant (I := fun s => Bookkeeping s ∧ Conserved s)
      (fun _ h0 => ⟨bookkeeping_initial h0, conserved_initial h0⟩)
      (fun _ l _ hI hs => ⟨bookkeeping_step hI.1 (step_inv (l := l) hs),
        conserved_step hI.2 hI.1 (step_inv (l := l) hs)⟩)
  exact hboth.2

end Invariant
end AdminPlatform.Audit
