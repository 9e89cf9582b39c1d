import AdminPlatform.Audit.Evidence
import AdminPlatform.Audit.Interleaving

/-! # Integrity of the chain under concurrency

`Chaining` is the invariant of concurrent promoters: whoever is past the lock statement
holds the lock, the rows each promoter sees are well chained, and a tip that was read is
still the tip. Only the holder of the lock has added rows, so a commit publishes exactly
the rows its promoter saw, and everybody else sees the committed table.

From it: the table verifies in every reachable state (`chain_integrity`), and what a chain
says cannot be changed without moving its tip (`tamper_evident`). -/

namespace AdminPlatform.Audit
open AdminPlatform.Lib State

section Invariant
variable {ι κ : Type*}

structure Chaining (s : State ι κ) : Prop where
  holder : ∀ p, (s.phase p).Locked → s.lock = some p
  visible : ∀ p, WellChained (s.visible p)
  committed : WellChained s.table
  tip : ∀ p batch entry todo added tip,
    s.phase p = .tipRead batch entry todo added tip → tip = tipSeq (s.visible p)

theorem chaining_initial {s : State ι κ} (h : Initial s) : Chaining s := by
  have hchained : WellChained s.table := by
    refine wellChained_prechain fun row hrow => ?_
    obtain ⟨e, he, rfl⟩ := List.mem_map.mp hrow
    exact (h.prechain e he).2
  have hunlocked : ∀ p, ¬ (s.phase p).Locked := by
    intro p hp
    rw [h.idle p] at hp
    exact hp
  exact
    { holder := fun p hp => absurd hp (hunlocked p)
      visible := fun p => by rw [visible_eq_table (hunlocked p)]; exact hchained
      committed := hchained
      tip := fun p batch entry todo added tip hp => by rw [h.idle p] at hp; cases hp }

/-- With the lock free, or in one's own hands, nobody else is past the lock statement. -/
theorem Chaining.not_locked {s : State ι κ} (h : Chaining s) {p q : ι} (hqp : q ≠ p)
    (hlock : s.lock = none ∨ s.lock = some p) : ¬ (s.phase q).Locked := by
  intro hq
  have hq' := h.holder q hq
  rcases hlock with hlock | hlock
  · rw [hlock] at hq'
    cases hq'
  · rw [hlock] at hq'
    exact hqp (Option.some.inj hq').symm

/-- A step that only concerns the outbox. -/
theorem Chaining.congr {s s' : State ι κ} (h : Chaining s) (hlogs : s'.logs = s.logs)
    (hphase : s'.phase = s.phase) (hlock : s'.lock = s.lock) : Chaining s' := by
  have htable : s'.table = s.table := by rw [State.table, State.table, hlogs]
  have hvisible : ∀ p, s'.visible p = s.visible p := by
    intro p
    rw [State.visible, State.visible, htable, hphase]
  exact
    { holder := fun p hp => by rw [hlock]; exact h.holder p (hphase ▸ hp)
      visible := fun p => hvisible p ▸ h.visible p
      committed := htable ▸ h.committed
      tip := fun p batch entry todo added tip hp => by
        rw [hvisible p]
        exact h.tip p batch entry todo added tip (hphase ▸ hp) }

variable [DecidableEq ι]

/-- A step of a transaction that has the lock, or does not need it, and commits nothing:
only its own phase changes, to one that sees well chained rows. -/
theorem Chaining.goto {s : State ι κ} (h : Chaining s) (p : ι) {ph : Phase}
    (hlocked : ph.Locked → (s.phase p).Locked)
    (hvisible : WellChained (s.table ++ ph.added.map Entry.row))
    (htip : ∀ batch entry todo added tip, ph = .tipRead batch entry todo added tip →
      tip = tipSeq (s.table ++ ph.added.map Entry.row)) :
    Chaining (s.goto p ph) := by
  refine ⟨?_, ?_, h.committed, ?_⟩
  · intro q hq
    by_cases hqp : q = p
    · subst hqp
      rw [phase_goto_self] at hq
      exact h.holder q (hlocked hq)
    · rw [phase_goto_of_ne s ph hqp] at hq
      exact h.holder q hq
  · intro q
    by_cases hqp : q = p
    · subst hqp
      rw [visible_goto_self]
      exact hvisible
    · rw [visible_goto_of_ne s ph hqp]
      exact h.visible q
  · intro q batch entry todo added tip hq
    by_cases hqp : q = p
    · subst hqp
      rw [phase_goto_self] at hq
      rw [visible_goto_self]
      exact htip batch entry todo added tip hq
    · rw [phase_goto_of_ne s ph hqp] at hq
      rw [visible_goto_of_ne s ph hqp]
      exact h.tip q batch entry todo added tip hq

theorem Chaining.lock {s : State ι κ} (h : Chaining s) {p : ι} {batch : List AuditIntent}
    {todo : List Entry} (hlock : s.lock = none) :
    Chaining { s.goto p (.chaining batch todo []) with lock := some p } := by
  refine ⟨?_, ?_, h.committed, ?_⟩
  · intro q hq
    by_cases hqp : q = p
    · rw [hqp]
    · have hq' : (s.phase q).Locked := by rwa [← phase_goto_of_ne s _ hqp]
      exact absurd hq' (h.not_locked hqp (.inl hlock))
  · intro q
    by_cases hqp : q = p
    · subst hqp
      have hself : (s.goto q (.chaining batch todo [])).visible q = s.table := by
        rw [visible_goto_self]
        exact List.append_nil _
      exact hself ▸ h.committed
    · exact visible_goto_of_ne s (.chaining batch todo []) hqp ▸ h.visible q
  · intro q batch' entry todo' added tip hq
    by_cases hqp : q = p
    · subst hqp
      have hself := phase_goto_self s q (.chaining batch todo [])
      rw [show (s.goto q (.chaining batch todo [])).phase q = _ from hq] at hself
      cases hself
    · exact visible_goto_of_ne s (.chaining batch todo []) hqp ▸
        h.tip q batch' entry todo' added tip (phase_goto_of_ne s _ hqp ▸ hq)

/-- The end of a transaction: the others see what they saw, or, after a commit, they hold
no rows of their own. -/
theorem Chaining.finish {s s' : State ι κ} (h : Chaining s) {p : ι}
    (hphase : s'.phase = Function.update s.phase p .idle)
    (hlock : s'.lock = if s.lock = some p then none else s.lock)
    (htable : WellChained s'.table)
    (hothers : s'.table = s.table ∨ ∀ q, q ≠ p → ¬ (s.phase q).Locked) : Chaining s' := by
  have hself : s'.phase p = .idle := by rw [hphase, Function.update_self]
  have hother : ∀ {q}, q ≠ p → s'.phase q = s.phase q := by
    intro q hqp
    rw [hphase, Function.update_of_ne hqp]
  have hvisible : ∀ {q}, q ≠ p → (s'.phase q).Locked → s'.visible q = s.visible q := by
    intro q hqp hq
    rcases hothers with hothers | hothers
    · simp only [State.visible, hothers, hother hqp]
    · exact absurd (hother hqp ▸ hq) (hothers q hqp)
  refine ⟨?_, ?_, htable, ?_⟩
  · intro q hq
    by_cases hqp : q = p
    · rw [hqp, hself] at hq
      exact hq.elim
    · have hq' := h.holder q (hother hqp ▸ hq)
      rw [hlock, hq', if_neg]
      exact fun heq => hqp (Option.some.inj heq)
  · intro q
    by_cases hq : (s'.phase q).Locked
    · have hqp : q ≠ p := by
        rintro rfl
        rw [hself] at hq
        exact hq
      rw [hvisible hqp hq]
      exact h.visible q
    · rw [visible_eq_table hq]
      exact htable
  · intro q batch entry todo added tip hq
    have hqp : q ≠ p := by
      rintro rfl
      rw [hself] at hq
      cases hq
    rw [hvisible hqp (by rw [hq]; trivial)]
    exact h.tip q batch entry todo added tip (hother hqp ▸ hq)

variable [DecidableEq κ]

/-- **Every statement keeps the chain.** -/
theorem chaining_step {l : Label ι κ} {s s' : State ι κ} (h : Chaining s)
    (hstep : Step l s s') : Chaining s' := by
  cases hstep with
  | selectNone hp hbatch => exact h
  | select hp hbatch =>
      refine h.goto _ (fun hl => hl.elim) ?_ ?_
      · simpa [Phase.added] using h.committed
      · intro batch entry todo added tip heq
        cases heq
  | lock hp hlock => exact h.lock hlock
  -- under the lock a pass sees what it added and what is committed, and nobody adds to that
  | @readTip _ p batch entry todo added hp hfits =>
      have hvisible : s.table ++ added.map Entry.row = s.visible p := by
        rw [State.visible, hp, Phase.added]
      refine h.goto _ (fun _ => by rw [hp]; trivial) ?_ ?_
      · rw [Phase.added, hvisible]
        exact h.visible p
      · rintro batch' entry' todo' added' tip' heq
        injection heq with _ _ _ _ htip
        rw [Phase.added, hvisible, htip]
  | @readHash _ p batch entry todo added tip hp =>
      have hvisible : s.table ++ added.map Entry.row = s.visible p := by
        rw [State.visible, hp, Phase.added]
      -- the tip it read is still the tip
      have htip : tip = tipSeq (s.visible p) := h.tip p _ _ _ _ _ hp
      refine h.goto _ (fun _ => by rw [hp]; trivial) ?_ ?_
      · have hseal := (h.visible p).append_seal entry.row
        rw [← htip] at hseal
        rw [Phase.added, List.map_append, ← List.append_assoc, hvisible]
        exact hseal
      · intro batch' entry' todo' added' tip' heq
        cases heq
  | @flush _ p batch added hp hfits =>
      have hvisible : s.table ++ added.map Entry.row = s.visible p := by
        rw [State.visible, hp, Phase.added]
      refine h.goto _ (fun _ => by rw [hp]; trivial) ?_ ?_
      · rw [Phase.added, hvisible]
        exact h.visible p
      · intro batch' entry' todo' added' tip' heq
        cases heq
  | @commit _ p batch added hp =>
      have hlock : s.lock = some p := h.holder p (by rw [hp]; trivial)
      -- the commit publishes what only this pass has seen
      have htable : (s.promote p batch added).table = s.visible p := by
        rw [State.visible, hp]
        simp [State.promote, State.table, Phase.added]
      refine h.finish (p := p) rfl rfl ?_ (.inr fun q hqp => h.not_locked hqp (.inr hlock))
      rw [htable]
      exact h.visible p
  | @crash _ p hp => exact h.finish (p := p) rfl rfl h.committed (.inl rfl)
  | insertIntent hc => exact h.congr rfl rfl rfl
  | commitIntent hc hfresh => exact h.congr rfl rfl rfl
  | abortIntent hc => exact h.congr rfl rfl rfl

theorem chaining_reachable {s : State ι κ} (h : (machine ι κ).Reachable s) : Chaining s :=
  h.invariant (I := Chaining) (fun _ h0 => chaining_initial h0)
    (fun _ l _ hI hs => chaining_step hI (step_inv (l := l) hs))

/-! ## The claims of the chain -/

/-- **Integrity of the chain.** In every state that concurrent, crashing promoters reach,
the sealed rows carry `1, …, n` once each, the first has no predecessor, every other one
points at the row with the preceding `seq`, and verification is clean. -/
theorem chain_integrity {s : State ι κ} (h : (machine ι κ).Reachable s) :
    ((sealedRows s.table).map (fun row => row.seq)).Perm (seqs (sealedRows s.table).length) ∧
      (∀ row ∈ sealedRows s.table, row.seq = some 1 → row.prevHash = none) ∧
      (∀ a ∈ sealedRows s.table, ∀ b ∈ sealedRows s.table, ∀ k : Int,
        a.seq = some k → b.seq = some (k + 1) → b.prevHash = a.entryHash) ∧
      ∀ visit, VisitOrder s.table visit →
        verify visit = ((sealedRows s.table).length, []) := by
  have hchained : WellChained s.table := (chaining_reachable h).committed
  refine ⟨by rw [hchained.seqs], ?_, ?_, fun visit hv => hchained.verify_eq hv⟩
  · intro row hrow hseq
    exact hchained.prevHash_first hrow hseq
  · intro a ha b hb k hka hkb
    exact hchained.prevHash_succ ha hb hka hkb

/-- Two promoters select the same two intents; the one that gets the lock second crashes. -/
def twoPromoters : List (Label Bool Unit) :=
  [.select true .stable, .select false .stable, .lock false id, .readTip false,
    .readHash false, .insertIntent () (sampleIntent 3), .readTip false, .commitIntent (),
    .readHash false, .flush false, .commit false, .lock true id, .readTip true, .crash true]

theorem chain_integrity_twoPromoters :
    ∃ s : State Bool Unit, s.table.length = 3 ∧ s.outbox = [sampleIntent 3] ∧
      ((sealedRows s.table).map (fun row => row.seq)).Perm (seqs 2) ∧
      ∀ visit, VisitOrder s.table visit → verify visit = (2, []) := by
  obtain ⟨s, hexec⟩ : ∃ s, (machine Bool Unit).exec twoPromoters sampleStart = some s :=
    Option.isSome_iff_exists.mp (by decide +kernel)
  have hshape : ((machine Bool Unit).exec twoPromoters sampleStart).map
      (fun s => (s.table.length, s.outbox, (sealedRows s.table).length)) =
        some (3, [sampleIntent 3], 2) := by decide +kernel
  simp only [hexec, Option.map_some, Option.some.injEq, Prod.mk.injEq] at hshape
  obtain ⟨htable, houtbox, hlen⟩ := hshape
  have h := chain_integrity (Machine.reachable_of_exec sampleStart_initial hexec)
  rw [hlen] at h
  exact ⟨s, htable, houtbox, h.1, h.2.2.2⟩

/-- **Tamper evidence relative to the tip.** `visit` is any content of `audit_logs`, in the
order verification visits it. When verification finds no problem and the last hash it
visits is that of the true chain, `visit` holds the true chain's sealed rows, row by row. -/
theorem tamper_evident {s : State ι κ} (h : (machine ι κ).Reachable s)
    {visit : List AuditLog} (hclean : (verify visit).2 = [])
    (hlast : lastHash visit = lastHash s.table)
    (hcollision : NoCollision (preimages (links s.table)) (preimages (links visit))) :
    (verify visit).1 = (sealedRows s.table).length ∧
      List.Forall₂ SameEvidence (sealedRows s.table) (sealedRows visit) := by
  obtain ⟨hproblems, hcount, -⟩ := walk_spec visit
  have hchained : WellChained s.table := (chaining_reachable h).committed
  have hsame : List.Forall₂ SameEvidence (sealedRows s.table) (sealedRows visit) :=
    sameEvidence_of_lastHash hchained.linked (hproblems.mp hclean) hcollision hlast.symm
  refine ⟨?_, hsame⟩
  rw [verify, hcount, length_links, hsame.length_eq]

/-! ### Three promotions -/

/-- After `twoPromoters`, the one that has crashed promotes the third intent. -/
def threePromotions : List (Label Bool Unit) :=
  twoPromoters ++ [.select true .stable, .lock true id, .readTip true, .readHash true, .flush true,
    .commit true]

/-- The fields that the promotions seal. -/
def promotedFields (seq : Int) : ChainFields :=
  { toAuditFields := sampleFields, seq := some seq, createdAt := sampleTime }

/-- The hashes of their rows, each of the one before and of the fields. -/
def firstHash : String := "3d7ffb15d123e5a8642f9512ae05382c73abf5b655debad13527ea6ab8232bd9"
def secondHash : String := "11e3460948411ad615a19429fed3d1cfbabcacfde6f0d9d7edd456af311436ca"
def thirdHash : String := "eb472801e2fd5711168c138a9d0b13b8d9defd4e31f95257692a5074a7ef8123"

def promotedLinks : List (HashChain.Link String ChainFields) :=
  [⟨none, firstHash, promotedFields 1⟩, ⟨some firstHash, secondHash, promotedFields 2⟩,
    ⟨some secondHash, thirdHash, promotedFields 3⟩]

theorem linked_promotedLinks : HashChain.Linked entryDigest none promotedLinks := by
  have hfirst : entryDigest none (promotedFields 1) = firstHash := by decide +kernel
  have hsecond : entryDigest (some firstHash) (promotedFields 2) = secondHash := by decide +kernel
  have hthird : entryDigest (some secondHash) (promotedFields 3) = thirdHash := by decide +kernel
  exact ⟨rfl, hfirst.symm, rfl, hsecond.symm, rfl, hthird.symm, trivial⟩

/-- A table of four rows: one from before the chain, and three that are sealed. -/
theorem exists_threePromotions : ∃ (s : State Bool Unit) (prechain first second third : AuditLog),
    (machine Bool Unit).Reachable s ∧ s.table = [prechain, first, second, third] ∧
      prechain.link? = none ∧ prechain.seq = none ∧ links s.table = promotedLinks ∧
      first.link? = some ⟨none, firstHash, promotedFields 1⟩ ∧
      second.link? = some ⟨some firstHash, secondHash, promotedFields 2⟩ ∧
      third.link? = some ⟨some secondHash, thirdHash, promotedFields 3⟩ := by
  obtain ⟨s, hexec⟩ : ∃ s, (machine Bool Unit).exec threePromotions sampleStart = some s :=
    Option.isSome_iff_exists.mp (by decide +kernel)
  have hshape : ((machine Bool Unit).exec threePromotions sampleStart).map
      (fun s => s.table.map fun row => (row.chainFields, row.entryHash.isSome)) =
        some [(samplePrechain.row.chainFields, false), (promotedFields 1, true),
          (promotedFields 2, true), (promotedFields 3, true)] := by decide +kernel
  rw [hexec, Option.map_some, Option.some.injEq] at hshape
  obtain ⟨prechain, rest, htable, hprechain, hrest⟩ := List.map_eq_cons_iff.mp hshape
  obtain ⟨first, rest, rfl, hfirst, hrest⟩ := List.map_eq_cons_iff.mp hrest
  obtain ⟨second, rest, rfl, hsecond, hrest⟩ := List.map_eq_cons_iff.mp hrest
  obtain ⟨third, rest, rfl, hthird, hnil⟩ := List.map_eq_cons_iff.mp hrest
  obtain rfl := List.map_eq_nil_iff.mp hnil
  have hreachable := Machine.reachable_of_exec sampleStart_initial hexec
  have hunsealed : prechain.entryHash = none :=
    Option.isSome_eq_false_iff.mp (congrArg Prod.snd hprechain) |> Option.isNone_iff_eq_none.mp
  have hsealed : ∀ {row : AuditLog} {fields : ChainFields},
      (row.chainFields, row.entryHash.isSome) = (fields, true) →
        ∃ link, row.link? = some link ∧ link.fields = fields := by
    intro row fields hrow
    obtain ⟨hfields, hsome⟩ := Prod.mk.inj hrow
    obtain ⟨hash, hhash⟩ := Option.isSome_iff_exists.mp hsome
    exact ⟨⟨row.prevHash, hash, row.chainFields⟩, by rw [AuditLog.link?, hhash]; rfl, hfields⟩
  obtain ⟨firstLink, hfirst, hfirstFields⟩ := hsealed hfirst
  obtain ⟨secondLink, hsecond, hsecondFields⟩ := hsealed hsecond
  obtain ⟨thirdLink, hthird, hthirdFields⟩ := hsealed hthird
  have hlinks : links s.table = [firstLink, secondLink, thirdLink] := by
    rw [htable, links_cons_unsealed _ hunsealed]
    simp [links, hfirst, hsecond, hthird]
  have hlinked : HashChain.Linked entryDigest none [firstLink, secondLink, thirdLink] :=
    hlinks ▸ (chaining_reachable hreachable).committed.linked
  have hpromoted : [firstLink, secondLink, thirdLink] = promotedLinks :=
    hlinked.eq_of_fields linked_promotedLinks (by
      simp [promotedLinks, hfirstFields, hsecondFields, hthirdFields])
  simp only [promotedLinks, List.cons.injEq] at hpromoted
  obtain ⟨rfl, rfl, rfl, -⟩ := hpromoted
  exact ⟨s, prechain, first, second, third, hreachable, htable, by rw [AuditLog.link?, hunsealed]; rfl,
    congrArg (fun x => x.1.seq) hprechain, hlinks, hfirst, hsecond, hthird⟩

/-- Their three texts are told apart by SHA-256. -/
theorem nodup_promotedLinks : ((preimages promotedLinks).map Sha256.hexdigest).Nodup := by
  rw [hexdigests_preimages linked_promotedLinks]
  decide

/-- The sealed rows, with the row from before the chain doctored and moved to the end. -/
def doctored (table : List AuditLog) : List AuditLog :=
  sealedRows table ++ [{ samplePrechain.row with actor := none, action := "user.create" }]

theorem tamper_evident_threePromotions :
    ∃ s : State Bool Unit, (sealedRows s.table).length = 3 ∧ doctored s.table ≠ s.table ∧
      List.Forall₂ SameEvidence (sealedRows s.table) (sealedRows (doctored s.table)) := by
  obtain ⟨s, prechain, first, second, third, hreachable, htable, -, -, hlinks, -, -, hthird⟩ :=
    exists_threePromotions
  have hsame : links (doctored s.table) = links s.table := by
    rw [doctored, links_append, links_sealedRows, links_cons_unsealed [] rfl]
    exact List.append_nil _
  have hclean : (verify (doctored s.table)).2 = [] := by
    refine (walk_spec _).1.mpr ?_
    rw [hsame]
    exact (chaining_reachable hreachable).committed.linked
  have hcollision : NoCollision (preimages (links s.table))
      (preimages (links (doctored s.table))) := by
    rw [hsame, hlinks]
    exact noCollision_of_nodup nodup_promotedLinks (List.Subset.refl _) (List.Subset.refl _)
  have hlength : (sealedRows s.table).length = 3 := by
    rw [← length_links, hlinks]
    rfl
  have hmoved : doctored s.table ≠ s.table := by
    intro heq
    have hlast : (doctored s.table).getLast?.bind AuditLog.link? = none := by
      simp [doctored, AuditLog.link?, samplePrechain, AuditIntent.toEntry]
    rw [heq, htable] at hlast
    cases hthird.symm.trans hlast
  exact ⟨s, hlength, hmoved, (tamper_evident hreachable hclean
    (by rw [← tip_links, ← tip_links, hsame]) hcollision).2⟩

end Invariant

end AdminPlatform.Audit
