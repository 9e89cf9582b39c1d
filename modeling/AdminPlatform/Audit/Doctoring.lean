import AdminPlatform.Audit.Integrity

/-! # Doctoring one sealed row

Someone changes fields of one sealed row of a table that promotions have left, and leaves its
`entry_hash` or clears it. Where the hash is left, verification finds that it does not match
the fields any more. Where it is cleared, verification takes the row for one from before the
chain and skips it, and finds only that the next sealed row points at a hash it has not seen.
So every such change is found but one: the last row, with its hash cleared (`flagged_iff`). -/

namespace AdminPlatform.Audit
open AdminPlatform.Lib State

/-- The row with other values in some of the sealed fields, its `entry_hash` kept or cleared. -/
structure Doctored (row row' : AuditLog) : Prop where
  id : row'.id = row.id
  prevHash : row'.prevHash = row.prevHash
  entryHash : row'.entryHash = row.entryHash ∨ row'.entryHash = none
  changed : ¬ SameFields row.chainFields row'.chainFields

section Doctoring
variable {before after : List AuditLog} {row row' : AuditLog} {visit : List AuditLog}

theorem mem_links_of_mem {rows : List AuditLog} {hash : String} (hrow : row ∈ rows)
    (hhash : row.entryHash = some hash) :
    ⟨row.prevHash, hash, row.chainFields⟩ ∈ links rows :=
  List.mem_filterMap.mpr ⟨row, hrow, by rw [AuditLog.link?, hhash, Option.map_some]⟩

/-- **A changed row whose hash is kept** is found in whatever order the rows are visited. -/
theorem flagged_of_kept (h : WellChained (before ++ row :: after)) {hash : String}
    (hhash : row.entryHash = some hash) (hkept : row'.entryHash = some hash)
    (hchanged : ¬ SameFields row.chainFields row'.chainFields)
    (hv : VisitOrder (before ++ row' :: after) visit)
    (hcollision : NoCollision (preimages (links (before ++ row :: after)))
      (preimages (links visit))) : (verify visit).2 ≠ [] := by
  intro hclean
  have hvisited : HashChain.Linked entryDigest none (links visit) :=
    (walk_spec visit).1.mp hclean
  have hrow : row ∈ before ++ row :: after := by simp
  have hrow' : row' ∈ visit := hv.1.mem_iff.mpr (by simp)
  obtain ⟨hposition, hdigest⟩ := h.linked.position (mem_links_of_mem hrow hhash)
  obtain ⟨hposition', hdigest'⟩ := hvisited.position (mem_links_of_mem hrow' hkept)
  -- both rows are hashed to the hash that was kept
  have hsame : entryDigest row.prevHash row.chainFields =
      entryDigest row'.prevHash row'.chainFields := hdigest.symm.trans hdigest'
  exact hchanged (position_of_digest h.linked hvisited hcollision _ hposition _ hposition' hsame).2

theorem links_split {hash : String} (hhash : row.entryHash = some hash) :
    links (before ++ row :: after) =
      links before ++ ⟨row.prevHash, hash, row.chainFields⟩ :: links after := by
  rw [links_append, links_cons_sealed after hhash]

/-- Whoever clears a hash hides the row from the walk. -/
theorem links_visit_of_cleared (h : WellChained (before ++ row :: after))
    (hcleared : row'.entryHash = none) (hv : VisitOrder (before ++ row' :: after) visit) :
    links visit = links before ++ links after := by
  have hhidden : sealedRows (before ++ row' :: after) = sealedRows (before ++ after) := by
    have hcons : sealedRows (row' :: after) = sealedRows after := by simp [sealedRows, hcleared]
    rw [sealedRows_append, sealedRows_append, hcons]
  have hfewer : (sealedRows (before ++ after)).Sublist (sealedRows (before ++ row :: after)) :=
    ((List.sublist_cons_self row after).append_left before).filter _
  have hincreasing : (sealedRows (before ++ row' :: after)).Pairwise SeqLt := by
    rw [hhidden]
    exact h.increasing.sublist hfewer
  rw [← links_sealedRows visit, sealedRows_visit_of_increasing hincreasing hv, hhidden,
    links_sealedRows, links_append]

/-- **A row whose hash is cleared** is missed exactly where it was the last of the chain. -/
theorem clean_of_cleared_iff (h : WellChained (before ++ row :: after)) {hash : String}
    (hhash : row.entryHash = some hash) (hcleared : row'.entryHash = none)
    (hv : VisitOrder (before ++ row' :: after) visit)
    (hcollision : NoCollision (preimages (links (before ++ row :: after)))
      (preimages (links (before ++ row :: after)))) :
    (verify visit).2 = [] ↔ sealedRows after = [] := by
  have hlinked := h.linked
  have hsep := position_of_digest h.linked h.linked hcollision
  rw [links_split hhash] at hlinked hsep
  -- no other row of the chain has the sequence number of this one
  have hdistinct : ∀ m ∈ links before, ¬ SameFields m.fields row.chainFields := by
    intro m hm hsame
    obtain ⟨other, hother, hlink⟩ := List.mem_filterMap.mp hm
    obtain ⟨otherHash, hotherHash, rfl⟩ := Option.map_eq_some_iff.mp hlink
    have hincreasing := h.increasing
    rw [sealedRows_append] at hincreasing
    have hsealed : other ∈ sealedRows before :=
      List.mem_filter.mpr ⟨hother, by rw [hotherHash]; rfl⟩
    have hlater : row ∈ sealedRows (row :: after) :=
      List.mem_filter.mpr ⟨List.mem_cons_self, by rw [hhash]; rfl⟩
    obtain ⟨i, j, hi, hj, hij⟩ := (List.pairwise_append.mp hincreasing).2.2 _ hsealed _ hlater
    have hseq : other.seq = row.seq := hsame.seq
    rw [hi, hj] at hseq
    exact absurd (Option.some.inj hseq) (ne_of_lt hij)
  rw [show (verify visit).2 = [] ↔ _ from (walk_spec visit).1,
    links_visit_of_cleared h hcleared hv,
    HashChain.linked_erase_iff hlinked (fun a ha b hb hd => (hsep a ha b hb hd).2) hdistinct,
    ← List.length_eq_zero_iff, length_links, List.length_eq_zero_iff]

end Doctoring

section Reached
variable {ι κ : Type*} [DecidableEq ι] [DecidableEq κ]

/-- **A doctored row is found** unless it was the last of the chain and its hash is cleared. -/
theorem flagged_iff {s : State ι κ} (h : (machine ι κ).Reachable s)
    {before after : List AuditLog} {row row' : AuditLog} (htable : s.table = before ++ row :: after)
    (hsealed : row.entryHash.isSome) (hdoctored : Doctored row row') {visit : List AuditLog}
    (hv : VisitOrder (before ++ row' :: after) visit)
    (hcollision : NoCollision (preimages (links s.table))
      (preimages (links s.table) ++ preimages (links visit))) :
    (verify visit).2 ≠ [] ↔ ¬ (row'.entryHash = none ∧ sealedRows after = []) := by
  obtain ⟨hash, hhash⟩ := Option.isSome_iff_exists.mp hsealed
  have hchained : WellChained s.table := (chaining_reachable h).committed
  rw [htable] at hchained hcollision
  by_cases hcleared : row'.entryHash = none
  · have hself : NoCollision (preimages (links (before ++ row :: after)))
        (preimages (links (before ++ row :: after))) :=
      fun x hx y hy => hcollision x hx y (List.mem_append_left _ hy)
    rw [ne_eq, clean_of_cleared_iff hchained hhash hcleared hv hself]
    simp [hcleared]
  · have hkept : row'.entryHash = some hash :=
      (hdoctored.entryHash.resolve_right hcleared).trans hhash
    have hvisit : NoCollision (preimages (links (before ++ row :: after)))
        (preimages (links visit)) :=
      fun x hx y hy => hcollision x hx y (List.mem_append_right _ hy)
    exact iff_of_true (flagged_of_kept hchained hhash hkept hdoctored.changed hv hvisit)
      fun hmissed => hcleared hmissed.1

/-! ## Three promotions -/

/-- The fields of a sealed row, with another actor. -/
def forgedFields (seq : Int) : ChainFields :=
  { promotedFields seq with actor := some "nobody@example.com" }

theorem forgedFields_changed (seq : Int) : ¬ SameFields (promotedFields seq) (forgedFields seq) := by
  intro h
  exact absurd h.actor (by decide : some "root@example.com" ≠ some "nobody@example.com")

/-- The text of the forged row is told apart from those of the chain. -/
theorem nodup_forged :
    ((preimages promotedLinks ++ [preimage (some firstHash) (forgedFields 2)]).map
      Sha256.hexdigest).Nodup := by
  have hdigest : Sha256.hexdigest (preimage (some firstHash) (forgedFields 2)) =
      "bdb250dc0a9c4f0d7eaa5090e355577707d15de47d8ac1061452f926dee3b5e5" := by decide +kernel
  rw [List.map_append, hexdigests_preimages linked_promotedLinks, List.map_singleton, hdigest]
  decide

/-- The row from before the chain is visited last. -/
theorem visitOrder_rows {prechain first second third : AuditLog} (hprechain : prechain.seq = none)
    (hfirst : first.seq = some 1) (hsecond : second.seq = some 2) (hthird : third.seq = some 3) :
    VisitOrder [prechain, first, second, third] [first, second, third, prechain] := by
  constructor
  · show ([first, second, third] ++ [prechain]).Perm ([prechain] ++ [first, second, third])
    exact List.perm_append_comm
  · simp [seqLe, hprechain, hfirst, hsecond, hthird]

/-- Another actor in the second of three sealed rows is found where its hash is kept. -/
theorem flagged_iff_forged : ∃ (s : State Bool Unit) (row' : AuditLog) (visit : List AuditLog),
    (machine Bool Unit).Reachable s ∧ (sealedRows s.table).length = 3 ∧ row'.seq = some 2 ∧
      row'.actor = some "nobody@example.com" ∧ row' ∈ visit ∧ (verify visit).2 ≠ [] := by
  obtain ⟨s, prechain, first, second, third, hreachable, htable, hskipped, hseq, hlinks, hfirst,
    hsecond, hthird⟩ := exists_threePromotions
  obtain ⟨-, -, hfirstFields⟩ := link?_eq_some hfirst
  obtain ⟨hprev, hhash, hfields⟩ := link?_eq_some hsecond
  obtain ⟨-, -, hthirdFields⟩ := link?_eq_some hthird
  set row' : AuditLog := { second with toChainFields := forgedFields 2 } with hrow'
  have hvisit : VisitOrder ([prechain, first] ++ row' :: [third]) [first, row', third, prechain] :=
    visitOrder_rows hseq (congrArg (fun fields => fields.seq) hfirstFields) rfl
      (congrArg (fun fields => fields.seq) hthirdFields)
  have hforged : row'.link? = some ⟨some firstHash, secondHash, forgedFields 2⟩ := by
    rw [AuditLog.link?, show row'.entryHash = some secondHash from hhash, Option.map_some,
      show row'.prevHash = some firstHash from hprev]
    rfl
  have hvisited : links [first, row', third, prechain] =
      [⟨none, firstHash, promotedFields 1⟩, ⟨some firstHash, secondHash, forgedFields 2⟩,
        ⟨some secondHash, thirdHash, promotedFields 3⟩] := by
    simp [links, hfirst, hforged, hthird, hskipped]
  have hcollision : NoCollision (preimages (links s.table))
      (preimages (links s.table) ++ preimages (links [first, row', third, prechain])) := by
    rw [hlinks, hvisited]
    refine noCollision_of_nodup nodup_forged (List.subset_append_left _ _) ?_
    simp [preimages, HashChain.positions, promotedLinks]
  have hdoctored : Doctored second row' :=
    ⟨rfl, rfl, .inl rfl, hfields ▸ forgedFields_changed 2⟩
  refine ⟨s, row', [first, row', third, prechain], hreachable, ?_, rfl, rfl, by simp, ?_⟩
  · rw [← length_links, hlinks]
    rfl
  · have hsplit : s.table = [prechain, first] ++ second :: [third] := htable
    refine (flagged_iff hreachable hsplit (by rw [hhash]; rfl) hdoctored hvisit hcollision).mpr ?_
    rintro ⟨hcleared, -⟩
    rw [show row'.entryHash = second.entryHash from rfl, hhash] at hcleared
    cases hcleared

/-- **Where its hash is cleared as well**, verification finds nothing in the last row. -/
theorem not_flagged_last : ∃ (s : State Bool Unit) (before after : List AuditLog)
    (row row' : AuditLog) (visit : List AuditLog), (machine Bool Unit).Reachable s ∧
      s.table = before ++ row :: after ∧ row.entryHash.isSome ∧ Doctored row row' ∧
      VisitOrder (before ++ row' :: after) visit ∧
      NoCollision (preimages (links s.table))
        (preimages (links s.table) ++ preimages (links visit)) ∧ (verify visit).2 = [] := by
  obtain ⟨s, prechain, first, second, third, hreachable, htable, hskipped, hseq, hlinks, hfirst,
    hsecond, hthird⟩ := exists_threePromotions
  obtain ⟨-, -, hfirstFields⟩ := link?_eq_some hfirst
  obtain ⟨-, -, hsecondFields⟩ := link?_eq_some hsecond
  obtain ⟨-, hhash, hfields⟩ := link?_eq_some hthird
  set row' : AuditLog := { third with toChainFields := forgedFields 3, entryHash := none } with hrow'
  have hvisit : VisitOrder ([prechain, first, second] ++ row' :: []) [first, second, row', prechain] :=
    visitOrder_rows hseq (congrArg (fun fields => fields.seq) hfirstFields)
      (congrArg (fun fields => fields.seq) hsecondFields) rfl
  have hself : NoCollision (preimages (links s.table)) (preimages (links s.table)) := by
    rw [hlinks]
    exact noCollision_of_nodup nodup_promotedLinks (List.Subset.refl _) (List.Subset.refl _)
  have hvisited : links [first, second, row', prechain] =
      [⟨none, firstHash, promotedFields 1⟩, ⟨some firstHash, secondHash, promotedFields 2⟩] := by
    have hhidden : row'.link? = none := rfl
    simp [links, hfirst, hsecond, hskipped, hhidden]
  have hdoctored : Doctored third row' := ⟨rfl, rfl, .inr rfl, hfields ▸ forgedFields_changed 3⟩
  have hsplit : s.table = [prechain, first, second] ++ third :: [] := htable
  refine ⟨s, [prechain, first, second], [], third, row', [first, second, row', prechain],
    hreachable, hsplit, by rw [hhash]; rfl, hdoctored, hvisit, ?_, ?_⟩
  · rw [hlinks, hvisited]
    refine noCollision_of_nodup nodup_promotedLinks (List.Subset.refl _) ?_
    simp [preimages, HashChain.positions, promotedLinks]
  · have hchained : WellChained s.table := (chaining_reachable hreachable).committed
    rw [hsplit] at hchained hself
    exact (clean_of_cleared_iff hchained hhash rfl hvisit hself).mpr rfl

end Reached

end AdminPlatform.Audit
