import AdminPlatform.Audit.Sealing

/-! # What a digest determines

The text that is hashed for a row is `prev_hash`, a bar and the canonical JSON of the row's
sealed fields. A predecessor's hash never contains a bar, canonical JSON is unambiguous and
a timestamp is determined by its text, so the pre-image determines the predecessor's hash
and every field (`preimage_injective`). With a hash function that does not collide on the
pre-images involved, a chain is therefore determined by its tip. -/

namespace AdminPlatform.Audit
open AdminPlatform.Lib

/-- The same sealed fields, as Python compares them: dictionaries regardless of key order. -/
structure SameFields (f g : ChainFields) : Prop where
  seq : f.seq = g.seq
  actor : f.actor = g.actor
  actorType : f.actorType = g.actorType
  action : f.action = g.action
  resourceType : f.resourceType = g.resourceType
  resourceId : f.resourceId = g.resourceId
  details : f.details.SameValue g.details
  url : f.url = g.url
  payload : f.payload.SameValue g.payload
  response : f.response.SameValue g.response
  requestId : f.requestId = g.requestId
  ipAddress : f.ipAddress = g.ipAddress
  userAgent : f.userAgent = g.userAgent
  createdAt : f.createdAt = g.createdAt

/-- A predecessor's hash as the code produces it: none, or 64 hexadecimal digits. -/
def Hexadecimal (prevHash : Option String) : Prop :=
  ∀ hash ∈ prevHash, hash.length = 64 ∧ ∀ c ∈ hash.toList, ∃ d < 16, c = Nat.digitChar d

theorem hexadecimal_none : Hexadecimal none := by
  intro hash hhash
  cases hhash

theorem hexadecimal_digest (prevHash : Option String) (fields : ChainFields) :
    Hexadecimal (some (entryDigest prevHash fields)) := by
  intro hash hhash
  rw [← Option.mem_some_iff.mp hhash, entryDigest, ← String.length_toList,
    Sha256.toList_hexdigest]
  exact ⟨Sha256.length_hexChars _, fun c hc => Sha256.mem_hexChars hc⟩

/-- A predecessor's hash that the text it is hashed in gives back. -/
structure Separated (prevHash : Option String) : Prop where
  bar : '|' ∉ (prevHash.getD "").toList
  written : prevHash ≠ some ""

theorem separated_of_length {p : Option String} (hlength : ∀ hash ∈ p, hash.length = 64)
    (hbar : ∀ hash ∈ p, '|' ∉ hash.toList) : Separated p := by
  cases p with
  | none => exact ⟨List.not_mem_nil, nofun⟩
  | some hash =>
      refine ⟨hbar hash rfl, fun hempty => ?_⟩
      have hlen := hlength hash rfl
      rw [Option.some.inj hempty] at hlen
      cases hlen

theorem Hexadecimal.separated {p : Option String} (h : Hexadecimal p) : Separated p := by
  refine separated_of_length (fun hash hhash => (h hash hhash).1) fun hash hhash hbar => ?_
  obtain ⟨d, hd, hc⟩ := (h hash hhash).2 '|' hbar
  have key : ∀ d < 16, '|' ≠ Nat.digitChar d := by decide
  exact key d hd hc

theorem Separated.eq_of_text {p q : Option String} (hp : Separated p) (hq : Separated q)
    (h : (p.getD "").toList = (q.getD "").toList) : p = q := by
  have htext : p.getD "" = q.getD "" := String.toList_inj.mp h
  cases p with
  | none =>
      cases q with
      | none => rfl
      | some hash => exact absurd (congrArg some htext.symm) hq.written
  | some hash =>
      cases q with
      | none => exact absurd (congrArg some htext) hp.written
      | some hash' => exact congrArg some htext

/-- A text splits in one way at its first bar. -/
theorem split_at_bar {xs ys r s : List Char} (hx : '|' ∉ xs) (hy : '|' ∉ ys)
    (h : xs ++ '|' :: r = ys ++ '|' :: s) : xs = ys ∧ r = s := by
  induction xs generalizing ys with
  | nil =>
      cases ys with
      | nil => exact ⟨rfl, (List.cons.inj h).2⟩
      | cons y ys => exact absurd (by simp [← (List.cons.inj h).1]) hy
  | cons x xs ih =>
      cases ys with
      | nil => exact absurd (by simp [(List.cons.inj h).1]) hx
      | cons y ys =>
          obtain ⟨rfl, hrest⟩ := List.cons.inj h
          obtain ⟨rfl, hrs⟩ := ih (fun hm => hx (List.mem_cons_of_mem _ hm))
            (fun hm => hy (List.mem_cons_of_mem _ hm)) hrest
          exact ⟨rfl, hrs⟩

/-! ## The canonical text of the sealed fields -/

theorem nodup_keys (f : ChainFields) : (f.items.map Prod.fst).Nodup := by
  simp [ChainFields.items]

theorem ofSeq_inj {m n : Option Int} (h : (ofSeq m).SameValue (ofSeq n)) : m = n := by
  cases m <;> cases n <;> simp_all [ofSeq, Json.SameValue, Json.sortKeys]

theorem str_inj {s t : String} (h : (Json.str s).SameValue (Json.str t)) : s = t := by
  simpa [Json.SameValue, Json.sortKeys] using h

/-- The fields of two dictionaries with one canonical text are the same. -/
theorem sameFields_of_sameValue {f g : ChainFields} (h : f.toJson.SameValue g.toJson) :
    SameFields f g := by
  have field : ∀ {k : String} {v w : Json}, f.toJson.get? k = some v →
      g.toJson.get? k = some w → v.SameValue w :=
    fun hv hw => Json.SameValue.get? (nodup_keys f) (nodup_keys g) h hv hw
  have hcreated := str_inj (field (k := "created_at") rfl rfl)
  exact
    { seq := ofSeq_inj (field (k := "seq") rfl rfl)
      actor := Json.ofOption_inj (field (k := "actor") rfl rfl)
      actorType := Json.ofOption_inj (field (k := "actor_type") rfl rfl)
      action := str_inj (field (k := "action") rfl rfl)
      resourceType := Json.ofOption_inj (field (k := "resource_type") rfl rfl)
      resourceId := Json.ofOption_inj (field (k := "resource_id") rfl rfl)
      details := field (k := "details") rfl rfl
      url := Json.ofOption_inj (field (k := "url") rfl rfl)
      payload := field (k := "payload") rfl rfl
      response := field (k := "response") rfl rfl
      requestId := Json.ofOption_inj (field (k := "request_id") rfl rfl)
      ipAddress := Json.ofOption_inj (field (k := "ip_address") rfl rfl)
      userAgent := Json.ofOption_inj (field (k := "user_agent") rfl rfl)
      createdAt := Datetime.str_inj (String.ofList_injective hcreated) }

/-- The text that `entry_digest` hashes, for any dictionary of fields. -/
def hashedText (prevHash : Option String) (fields : Json) : String :=
  String.ofList ((prevHash.getD "").toList ++ '|' :: fields.dumps)

/-- The text determines the predecessor's hash, and the fields up to the order of keys. -/
theorem hashedText_inj {p q : Option String} {a b : Json} (hp : Separated p) (hq : Separated q)
    (h : hashedText p a = hashedText q b) : p = q ∧ a.SameValue b := by
  obtain ⟨htext, hdumps⟩ := split_at_bar hp.bar hq.bar (String.ofList_injective h)
  exact ⟨hp.eq_of_text hq htext, Json.dumps_injective hdumps⟩

/-- **A pre-image determines the link it seals.** -/
theorem preimage_injective {p q : Option String} {f g : ChainFields} (hp : Hexadecimal p)
    (hq : Hexadecimal q) (h : preimage p f = preimage q g) : p = q ∧ SameFields f g := by
  have htext : hashedText p f.toJson = hashedText q g.toJson := h
  obtain ⟨hpq, hfields⟩ := hashedText_inj hp.separated hq.separated htext
  exact ⟨hpq, sameFields_of_sameValue hfields⟩

/-! ## Chains with one tip -/

/-- The texts hashed along a chain that starts from nothing. -/
def preimages (ls : List (HashChain.Link String ChainFields)) : List String :=
  (HashChain.positions none ls).map (fun position => preimage position.1 position.2)

/-- SHA-256 has no collision between two lists of texts. -/
def NoCollision (xs ys : List String) : Prop :=
  ∀ x ∈ xs, ∀ y ∈ ys,
    Sha256.sha256 (Sha256.encode x) = Sha256.sha256 (Sha256.encode y) →
      Sha256.encode x = Sha256.encode y

instance (xs ys : List String) : Decidable (NoCollision xs ys) := by
  unfold NoCollision; infer_instance

/-- Texts do not collide whose digests are told apart. -/
theorem noCollision_of_nodup {xs ys zs : List String} (h : (zs.map Sha256.hexdigest).Nodup)
    (hxs : xs ⊆ zs) (hys : ys ⊆ zs) : NoCollision xs ys := by
  intro x hx y hy hsame
  have hdigest : Sha256.hexdigest x = Sha256.hexdigest y :=
    congrArg (fun r => String.ofList (Sha256.hexChars r)) hsame
  rw [List.inj_on_of_nodup_map h (hxs hx) (hys hy) hdigest]

/-- The digests of what is hashed along a chain are the hashes of its links. -/
theorem hexdigests_preimages {ls : List (HashChain.Link String ChainFields)}
    (h : HashChain.Linked entryDigest none ls) :
    (preimages ls).map Sha256.hexdigest = ls.map HashChain.Link.hash := by
  rw [preimages, List.map_map]
  exact h.map_positions

/-- Every predecessor along a chain of digests is hexadecimal. -/
theorem hexadecimal_of_mem_positions {p : Option String}
    {ls : List (HashChain.Link String ChainFields)} (hp : Hexadecimal p)
    (h : HashChain.Linked entryDigest p ls) :
    ∀ a ∈ HashChain.positions p ls, Hexadecimal a.1 := by
  induction ls generalizing p with
  | nil => simp [HashChain.positions]
  | cons l ls ih =>
      obtain ⟨-, hhash, hrest⟩ := h
      intro a ha
      rcases List.mem_cons.mp ha with rfl | ha
      · exact hp
      · exact ih (hhash ▸ hexadecimal_digest p l.fields) hrest a ha

/-- **A digest determines the position** that it is hashed at in one of two chains. -/
theorem position_of_digest {xs ys : List (HashChain.Link String ChainFields)}
    (hx : HashChain.Linked entryDigest none xs) (hy : HashChain.Linked entryDigest none ys)
    (hcollision : NoCollision (preimages xs) (preimages ys)) :
    ∀ a ∈ HashChain.positions none xs, ∀ b ∈ HashChain.positions none ys,
      entryDigest a.1 a.2 = entryDigest b.1 b.2 → a.1 = b.1 ∧ SameFields a.2 b.2 := by
  intro a ha b hb hdigest
  have hsha := Sha256.hexdigest_eq hdigest
  have hencode : Sha256.encode (preimage a.1 a.2) = Sha256.encode (preimage b.1 b.2) :=
    hcollision _ (List.mem_map_of_mem ha) _ (List.mem_map_of_mem hb) hsha
  exact preimage_injective (hexadecimal_of_mem_positions hexadecimal_none hx a ha)
    (hexadecimal_of_mem_positions hexadecimal_none hy b hb) (Sha256.encode_injective hencode)

/-- **Two chains with one tip agree link by link.** -/
theorem agree_of_tip {xs ys : List (HashChain.Link String ChainFields)}
    (hx : HashChain.Linked entryDigest none xs) (hy : HashChain.Linked entryDigest none ys)
    (hcollision : NoCollision (preimages xs) (preimages ys))
    (htip : HashChain.tip none xs = HashChain.tip none ys) :
    List.Forall₂ (HashChain.Agree SameFields) xs ys :=
  HashChain.agree_of_tip (position_of_digest hx hy hcollision) hx hy htip

/-! ## Rows with one tip -/

/-- The `entry_hash` of the last sealed row. -/
def lastHash (rows : List AuditLog) : Option String :=
  (sealedRows rows).getLast?.bind (fun row => row.entryHash)

theorem tip_links (rows : List AuditLog) : HashChain.tip none (links rows) = lastHash rows := by
  rw [lastHash, ← links_sealedRows]
  rcases List.eq_nil_or_concat (sealedRows rows) with hnil | ⟨init, last, hlast⟩
  · rw [hnil]
    rfl
  · rw [List.concat_eq_append] at hlast
    have hsealed : last ∈ sealedRows rows := by simp [hlast]
    obtain ⟨hash, hhash⟩ : ∃ hash, last.entryHash = some hash :=
      Option.isSome_iff_exists.mp (List.mem_filter.mp hsealed).2
    rw [hlast, links_append, links_cons_sealed [] hhash, links_nil, HashChain.tip_concat]
    simp [hhash]

/-- Two rows are the same evidence: one link of the chain and the same sealed fields. -/
structure SameEvidence (a b : AuditLog) : Prop where
  fields : SameFields a.chainFields b.chainFields
  prevHash : a.prevHash = b.prevHash
  entryHash : a.entryHash = b.entryHash

theorem sameEvidence_of_agree {xs ys : List AuditLog}
    (hx : ∀ row ∈ xs, row.entryHash.isSome) (hy : ∀ row ∈ ys, row.entryHash.isSome)
    (h : List.Forall₂ (HashChain.Agree SameFields) (links xs) (links ys)) :
    List.Forall₂ SameEvidence xs ys := by
  induction xs generalizing ys with
  | nil =>
      cases ys with
      | nil => exact .nil
      | cons b ys =>
          obtain ⟨hash, hhash⟩ := Option.isSome_iff_exists.mp (hy b (by simp))
          rw [links_cons_sealed ys hhash] at h
          cases h
  | cons a xs ih =>
      obtain ⟨hashA, hhashA⟩ := Option.isSome_iff_exists.mp (hx a (by simp))
      rw [links_cons_sealed xs hhashA] at h
      cases ys with
      | nil => cases h
      | cons b ys =>
          obtain ⟨hashB, hhashB⟩ := Option.isSome_iff_exists.mp (hy b (by simp))
          rw [links_cons_sealed ys hhashB] at h
          obtain ⟨⟨hprev, hhash, hfields⟩, hrest⟩ := List.forall₂_cons.mp h
          have hab : a.entryHash = b.entryHash := by rw [hhashA, hhashB, show hashA = hashB from hhash]
          exact .cons ⟨hfields, hprev, hab⟩
            (ih (fun row hrow => hx row (List.mem_cons_of_mem _ hrow))
              (fun row hrow => hy row (List.mem_cons_of_mem _ hrow)) hrest)

theorem isSome_of_mem_sealedRows {rows : List AuditLog} :
    ∀ row ∈ sealedRows rows, row.entryHash.isSome :=
  fun _ hrow => (List.mem_filter.mp hrow).2

/-- **Two clean walks that end at one hash saw the same evidence.** -/
theorem sameEvidence_of_lastHash {rows rows' : List AuditLog}
    (hx : HashChain.Linked entryDigest none (links rows))
    (hy : HashChain.Linked entryDigest none (links rows'))
    (hcollision : NoCollision (preimages (links rows)) (preimages (links rows')))
    (hlast : lastHash rows = lastHash rows') :
    List.Forall₂ SameEvidence (sealedRows rows) (sealedRows rows') := by
  refine sameEvidence_of_agree isSome_of_mem_sealedRows isSome_of_mem_sealedRows ?_
  rw [links_sealedRows, links_sealedRows]
  exact agree_of_tip hx hy hcollision (by rw [tip_links, tip_links, hlast])

end AdminPlatform.Audit
