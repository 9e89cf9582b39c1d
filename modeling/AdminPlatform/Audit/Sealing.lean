import AdminPlatform.Audit.Log
import Mathlib.Data.List.Pairwise

/-! # Sealing entries onto the chain

The loop body of `_chain_entries` (`app/repositories/audit_repository.py`): read the tip of
the chain from the table, then give the entry its `seq`, `prev_hash` and `entry_hash`.

`WellChained` is the invariant of a table that only this loop writes: the sealed rows
carry `1, 2, …, n` in the order they were inserted and are linked, and the rows without a
hash have no `seq`. Sealing one more entry keeps it (`WellChained.append_seal`), and every
verification walk over a well chained table is clean (`WellChained.verify_eq`). -/

namespace AdminPlatform.Audit
open AdminPlatform.Lib

/-! ## The tip -/

/-- `SELECT coalesce(max(seq), 0)`. -/
def tipSeq (rows : List AuditLog) : Int := (rows.filterMap (fun row => row.seq)).max?.getD 0

/-- `SELECT entry_hash … WHERE seq = tip_seq`, the first row's or `None`. -/
def tipHash (rows : List AuditLog) (tip : Int) : Option String :=
  (rows.find? (fun row => row.seq = some tip)).bind (fun row => row.entryHash)

/-- `AuditLog(**intent.payload, created_at=intent.created_at)`, with a fresh `id`. -/
def AuditIntent.toEntry (intent : AuditIntent) (id : Uuid) : AuditLog :=
  { toAuditFields := intent.payload
    seq := none
    createdAt := intent.createdAt
    id := id
    prevHash := none
    entryHash := none }

/-- The assignments of the loop body, from the tip that was read. -/
def AuditLog.seal (entry : AuditLog) (tip : Int) (hash : Option String) : AuditLog :=
  let entry := { entry with seq := some (tip + 1), prevHash := hash }
  { entry with entryHash := some (entry.computeEntryHash hash) }

/-- The fields that sealing sets, and those it leaves alone. -/
theorem seal_fields (entry : AuditLog) (tip : Int) (hash : Option String) :
    (entry.seal tip hash).toAuditFields = entry.toAuditFields ∧
      (entry.seal tip hash).createdAt = entry.createdAt ∧
      (entry.seal tip hash).seq = some (tip + 1) ∧ (entry.seal tip hash).prevHash = hash ∧
      (entry.seal tip hash).entryHash =
        some (entryDigest hash (entry.seal tip hash).chainFields) :=
  ⟨rfl, rfl, rfl, rfl, rfl⟩

theorem links_seal (entry : AuditLog) (tip : Int) (hash : Option String) :
    links [entry.seal tip hash] =
      [⟨hash, entryDigest hash (entry.seal tip hash).chainFields,
        (entry.seal tip hash).chainFields⟩] := rfl

theorem sealedRows_seal (entry : AuditLog) (tip : Int) (hash : Option String) :
    sealedRows [entry.seal tip hash] = [entry.seal tip hash] := rfl

/-- No row is past the tip. -/
theorem le_tipSeq {rows : List AuditLog} {row : AuditLog} {k : Int} (hrow : row ∈ rows)
    (hk : row.seq = some k) : k ≤ tipSeq rows := by
  have hmem : k ∈ rows.filterMap (fun row => row.seq) := List.mem_filterMap.mpr ⟨row, hrow, hk⟩
  obtain ⟨m, hm⟩ := Option.isSome_iff_exists.mp (List.isSome_max?_of_mem hmem)
  rw [tipSeq, hm]
  exact (List.max?_eq_some_iff.mp hm).2 k hmem

theorem tipSeq_eq {rows : List AuditLog} {row : AuditLog} {k : Int} (hrow : row ∈ rows)
    (hk : row.seq = some k) (hmax : ∀ r ∈ rows, ∀ j, r.seq = some j → j ≤ k) :
    tipSeq rows = k := by
  have hsome : (rows.filterMap (fun row => row.seq)).max? = some k := by
    refine List.max?_eq_some_iff.mpr ⟨List.mem_filterMap.mpr ⟨row, hrow, hk⟩, ?_⟩
    intro j hj
    obtain ⟨r, hr, hrj⟩ := List.mem_filterMap.mp hj
    exact hmax r hr j hrj
  rw [tipSeq, hsome]
  rfl

theorem tipSeq_eq_zero {rows : List AuditLog} (h : ∀ r ∈ rows, r.seq = none) :
    tipSeq rows = 0 := by
  have hnil : rows.filterMap (fun row => row.seq) = [] := List.filterMap_eq_nil_iff.mpr h
  rw [tipSeq, hnil]
  rfl

/-- Whatever the table holds, sealing advances the highest `seq` by one. -/
theorem tipSeq_seal (rows : List AuditLog) (entry : AuditLog) (hash : Option String) :
    tipSeq (rows ++ [entry.seal (tipSeq rows) hash]) = tipSeq rows + 1 := by
  have hrow : entry.seal (tipSeq rows) hash ∈ rows ++ [entry.seal (tipSeq rows) hash] := by simp
  refine tipSeq_eq hrow rfl ?_
  intro r hr j hj
  rcases List.mem_append.mp hr with hr | hr
  · have := le_tipSeq hr hj
    omega
  · obtain rfl := List.mem_singleton.mp hr
    exact (Option.some.inj hj).symm.le

/-! ## Well chained tables -/

/-- The sequence numbers of the first `n` entries. -/
def seqs (n : Nat) : List (Option Int) := (List.range n).map (fun i : Nat => some ((i : Int) + 1))

theorem seqs_succ (n : Nat) : seqs (n + 1) = seqs n ++ [some ((n : Int) + 1)] := by
  simp [seqs, List.range_succ]

theorem mem_seqs {n : Nat} {s : Option Int} :
    s ∈ seqs n ↔ ∃ k : Int, s = some k ∧ 1 ≤ k ∧ k ≤ n := by
  simp only [seqs, List.mem_map, List.mem_range]
  constructor
  · rintro ⟨i, hi, rfl⟩
    exact ⟨i + 1, rfl, by omega, by omega⟩
  · rintro ⟨k, rfl, hk1, hkn⟩
    exact ⟨(k - 1).toNat, by omega, by congr 1; omega⟩

theorem nodup_seqs (n : Nat) : (seqs n).Nodup := by
  refine List.Nodup.map ?_ List.nodup_range
  intro i j h
  have hij : (i : Int) + 1 = (j : Int) + 1 := Option.some.inj h
  omega

theorem pairwise_seqs (n : Nat) :
    (seqs n).Pairwise (fun s t => ∃ i j : Int, s = some i ∧ t = some j ∧ i < j) := by
  refine List.pairwise_map.mpr (List.pairwise_lt_range.imp ?_)
  intro i j hij
  exact ⟨i + 1, j + 1, rfl, rfl, by omega⟩

/-- One row comes before another in the chain. -/
def SeqLt (a b : AuditLog) : Prop := ∃ i j : Int, a.seq = some i ∧ b.seq = some j ∧ i < j

/-- Sealed rows in strict order of their sequence numbers are visited in that order. -/
theorem sealedRows_visit_of_increasing {rows visit : List AuditLog}
    (hrows : (sealedRows rows).Pairwise SeqLt) (hv : VisitOrder rows visit) :
    sealedRows visit = sealedRows rows := by
  have hperm : (sealedRows visit).Perm (sealedRows rows) := hv.1.filter _
  have hsorted : (sealedRows rows).Pairwise seqLe := by
    refine hrows.imp ?_
    rintro a b ⟨i, j, hi, hj, hij⟩
    simpa [seqLe, hi, hj] using hij.le
  refine hperm.eq_of_pairwise ?_ (hv.2.filter _) hsorted
  intro a b ha hb hab hba
  -- of two rows one comes first, unless they are the same
  have : Std.Symm fun a b : AuditLog => SeqLt a b ∨ SeqLt b a := ⟨fun _ _ h => h.symm⟩
  have hcompare : a ≠ b → SeqLt a b ∨ SeqLt b a :=
    (hrows.imp fun h => Or.inl h : (sealedRows rows).Pairwise
      fun a b => SeqLt a b ∨ SeqLt b a).forall (hperm.mem_iff.mp ha) hb
  by_contra hne
  rcases hcompare hne with ⟨i, j, hi, hj, hij⟩ | ⟨i, j, hi, hj, hij⟩
  · simp only [seqLe, hi, hj] at hba
    omega
  · simp only [seqLe, hi, hj] at hab
    omega

structure WellChained (rows : List AuditLog) : Prop where
  seqs : (sealedRows rows).map (fun row => row.seq) = seqs (sealedRows rows).length
  linked : HashChain.Linked entryDigest none (links rows)
  unsealed : ∀ row ∈ rows, row.entryHash = none → row.seq = none

theorem wellChained_prechain {rows : List AuditLog}
    (h : ∀ row ∈ rows, row.seq = none ∧ row.entryHash = none) : WellChained rows := by
  have hsealed : sealedRows rows = [] := by
    simp only [sealedRows, List.filter_eq_nil_iff]
    intro row hrow
    simp [(h row hrow).2]
  have hlinks : links rows = [] := by
    rw [← List.length_eq_zero_iff, length_links, hsealed, List.length_nil]
  exact
    { seqs := by rw [hsealed]; rfl
      linked := by rw [hlinks]; trivial
      unsealed := fun row hrow _ => (h row hrow).1 }

namespace WellChained
variable {rows : List AuditLog} (h : WellChained rows)
include h

theorem mem_seq {row : AuditLog} (hrow : row ∈ sealedRows rows) :
    ∃ k : Int, row.seq = some k ∧ 1 ≤ k ∧ k ≤ (sealedRows rows).length := by
  have hmem : row.seq ∈ (sealedRows rows).map (fun row => row.seq) := List.mem_map_of_mem hrow
  rw [h.seqs] at hmem
  exact mem_seqs.mp hmem

/-- A row with a sequence number is sealed. -/
theorem mem_sealedRows {row : AuditLog} {j : Int} (hrow : row ∈ rows) (hj : row.seq = some j) :
    row ∈ sealedRows rows := by
  refine List.mem_filter.mpr ⟨hrow, ?_⟩
  cases hhash : row.entryHash with
  | none => rw [h.unsealed row hrow hhash] at hj; cases hj
  | some hash => rfl

/-- Rows with one sequence number are one row. -/
theorem eq_of_seq {a b : AuditLog} (ha : a ∈ sealedRows rows) (hb : b ∈ sealedRows rows)
    (hab : a.seq = b.seq) : a = b := by
  have hnodup : ((sealedRows rows).map (fun row => row.seq)).Nodup := by
    rw [h.seqs]
    exact nodup_seqs _
  exact List.inj_on_of_nodup_map hnodup ha hb hab

/-- The last sealed row carries the number of sealed rows. -/
theorem last_seq {init : List AuditLog} {last : AuditLog}
    (hlast : sealedRows rows = init ++ [last]) :
    last.seq = some ((init.length : Int) + 1) := by
  have hseqs := h.seqs
  rw [hlast, List.map_append, List.length_append, List.length_singleton, seqs_succ] at hseqs
  simpa using (List.append_inj' hseqs rfl).2

/-- The highest `seq` is the number of sealed rows. -/
theorem tipSeq_eq_length : tipSeq rows = (sealedRows rows).length := by
  rcases List.eq_nil_or_concat (sealedRows rows) with hnil | ⟨init, last, hlast⟩
  · have hnone : ∀ r ∈ rows, r.seq = none := by
      intro r hr
      cases hseq : r.seq with
      | none => rfl
      | some j =>
          have := h.mem_sealedRows hr hseq
          rw [hnil] at this
          cases this
    rw [tipSeq_eq_zero hnone, hnil]
    rfl
  · rw [List.concat_eq_append] at hlast
    have hlen : (sealedRows rows).length = init.length + 1 := by simp [hlast]
    have hmem : last ∈ rows := List.mem_of_mem_filter (show last ∈ sealedRows rows by simp [hlast])
    have hmax : ∀ r ∈ rows, ∀ j, r.seq = some j → j ≤ (init.length : Int) + 1 := by
      intro r hr j hj
      obtain ⟨k, hk, -, hkn⟩ := h.mem_seq (h.mem_sealedRows hr hj)
      rw [hj] at hk
      obtain rfl := Option.some.inj hk
      omega
    rw [tipSeq_eq hmem (h.last_seq hlast) hmax, hlen]
    simp

/-- The hash read at the tip is the chain's. -/
theorem tipHash_eq : tipHash rows (tipSeq rows) = HashChain.tip none (links rows) := by
  rw [h.tipSeq_eq_length, ← links_sealedRows rows, tipHash]
  rcases List.eq_nil_or_concat (sealedRows rows) with hnil | ⟨init, last, hlast⟩
  · rw [hnil, List.find?_eq_none.mpr, links_nil]
    · rfl
    · intro r hr
      cases hseq : r.seq with
      | none => simp
      | some j =>
          have := h.mem_sealedRows hr hseq
          rw [hnil] at this
          cases this
  · rw [List.concat_eq_append] at hlast
    have hlen : (sealedRows rows).length = init.length + 1 := by simp [hlast]
    have hlastSealed : last ∈ sealedRows rows := by simp [hlast]
    have hlastSeq : last.seq = some ((sealedRows rows).length : Int) := by
      rw [h.last_seq hlast, hlen]
      simp
    have hfind : rows.find? (fun row => row.seq = some ((sealedRows rows).length : Int)) =
        some last := by
      cases hf : rows.find? (fun row => row.seq = some ((sealedRows rows).length : Int)) with
      | none =>
          have := List.find?_eq_none.mp hf last (List.mem_of_mem_filter hlastSealed)
          simp [hlastSeq] at this
      | some r =>
          have hr : r.seq = some ((sealedRows rows).length : Int) := by
            simpa using List.find?_some hf
          have hrSealed := h.mem_sealedRows (List.mem_of_find?_eq_some hf) hr
          rw [h.eq_of_seq hrSealed hlastSealed (by rw [hr, hlastSeq])]
    obtain ⟨hash, hhash⟩ : ∃ hash, last.entryHash = some hash :=
      Option.isSome_iff_exists.mp (List.mem_filter.mp hlastSealed).2
    rw [hfind, hlast, links_append, links_cons_sealed [] hhash, links_nil,
      HashChain.tip_concat]
    exact hhash

/-- **Sealing one more entry keeps a table well chained.** -/
theorem append_seal (entry : AuditLog) :
    WellChained (rows ++ [entry.seal (tipSeq rows) (tipHash rows (tipSeq rows))]) := by
  rw [h.tipHash_eq]
  set hash := HashChain.tip none (links rows) with hhash
  have hsealed := sealedRows_seal entry (tipSeq rows) hash
  refine ⟨?_, ?_, ?_⟩
  · rw [sealedRows_append, hsealed, List.map_append, List.length_append, h.seqs,
      List.length_singleton, seqs_succ, ← h.tipSeq_eq_length]
    rfl
  · rw [links_append, links_seal, HashChain.linked_concat]
    exact ⟨h.linked, hhash, by rw [← hhash]⟩
  · intro row hrow hnone
    rcases List.mem_append.mp hrow with hrow | hrow
    · exact h.unsealed row hrow hnone
    · obtain rfl := List.mem_singleton.mp hrow
      cases hnone

/-! ### Consequences -/

/-- The `i`-th sealed row (from zero) has `seq = i + 1`, and its predecessor's hash is the
tip of the rows before it. -/
theorem getElem_sealedRows {i : Nat} (hi : i < (sealedRows rows).length) :
    (sealedRows rows)[i].seq = some ((i : Int) + 1) ∧
      (sealedRows rows)[i].prevHash =
        HashChain.tip none (links ((sealedRows rows).take i)) := by
  have hseq : ((sealedRows rows).map (fun row => row.seq))[i]? = (AdminPlatform.Audit.seqs
      (sealedRows rows).length)[i]? := by rw [h.seqs]
  have hsplit : links rows = links ((sealedRows rows).take i) ++
      links ((sealedRows rows)[i] :: (sealedRows rows).drop (i + 1)) := by
    rw [← links_append, List.getElem_cons_drop, List.take_append_drop, links_sealedRows]
  obtain ⟨hash, hhash⟩ : ∃ hash, (sealedRows rows)[i].entryHash = some hash :=
    Option.isSome_iff_exists.mp (List.mem_filter.mp (List.getElem_mem hi)).2
  have hlinked := h.linked
  rw [hsplit, HashChain.linked_append, links_cons_sealed _ hhash] at hlinked
  refine ⟨?_, hlinked.2.1⟩
  simpa [AdminPlatform.Audit.seqs, hi] using hseq

theorem exists_index {row : AuditLog} (hrow : row ∈ sealedRows rows) {k : Int}
    (hk : row.seq = some k) :
    ∃ (i : Nat) (hi : i < (sealedRows rows).length),
      (sealedRows rows)[i] = row ∧ k = (i : Int) + 1 := by
  obtain ⟨i, hi, rfl⟩ := List.getElem_of_mem hrow
  refine ⟨i, hi, rfl, ?_⟩
  rw [(h.getElem_sealedRows hi).1] at hk
  exact (Option.some.inj hk).symm

/-- The first sealed row has no predecessor. -/
theorem prevHash_first {row : AuditLog} (hrow : row ∈ sealedRows rows)
    (hseq : row.seq = some 1) : row.prevHash = none := by
  obtain ⟨i, hi, rfl, hone⟩ := h.exists_index hrow hseq
  obtain rfl : i = 0 := by omega
  exact (h.getElem_sealedRows hi).2

/-- Every other sealed row points at the row with the preceding `seq`. -/
theorem prevHash_succ {a b : AuditLog} (ha : a ∈ sealedRows rows) (hb : b ∈ sealedRows rows)
    {k : Int} (hka : a.seq = some k) (hkb : b.seq = some (k + 1)) :
    b.prevHash = a.entryHash := by
  obtain ⟨i, hi, hia, hik⟩ := h.exists_index ha hka
  obtain ⟨j, hj, rfl, hjk⟩ := h.exists_index hb hkb
  obtain rfl : j = i + 1 := by omega
  obtain ⟨hash, hhash⟩ : ∃ hash, a.entryHash = some hash :=
    Option.isSome_iff_exists.mp (List.mem_filter.mp ha).2
  rw [(h.getElem_sealedRows hj).2, List.take_succ_eq_append_getElem hi, hia, links_append,
    links_cons_sealed [] hhash, links_nil, HashChain.tip_concat, hhash]

/-- The sealed rows are in strict order of their sequence numbers. -/
theorem increasing : (sealedRows rows).Pairwise SeqLt := by
  have hseqs : ((sealedRows rows).map (fun row => row.seq)).Pairwise
      (fun s t => ∃ i j : Int, s = some i ∧ t = some j ∧ i < j) := by
    rw [h.seqs]
    exact pairwise_seqs _
  exact (List.pairwise_map.mp hseqs).imp fun hij => hij

/-- The sealed rows are visited in the order they were inserted. -/
theorem sealedRows_visit {visit : List AuditLog} (hv : VisitOrder rows visit) :
    sealedRows visit = sealedRows rows := sealedRows_visit_of_increasing h.increasing hv

/-- **A well chained table verifies**: no problems, and every sealed row counted, in
whatever order its query returns ties. -/
theorem verify_eq {visit : List AuditLog} (hv : VisitOrder rows visit) :
    verify visit = ((sealedRows rows).length, []) := by
  obtain ⟨hproblems, hcount, -⟩ := walk_spec visit
  have hlinks : links visit = links rows := by
    rw [← links_sealedRows visit, h.sealedRows_visit hv, links_sealedRows]
  have hnone : (walk visit).problems = [] := hproblems.mpr (by rw [hlinks]; exact h.linked)
  rw [verify, hnone, hcount, length_links, h.sealedRows_visit hv]

end WellChained

end AdminPlatform.Audit
