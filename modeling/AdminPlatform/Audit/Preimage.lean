import AdminPlatform.Audit.Evidence
import AdminPlatform.Lib.Instant
import AdminPlatform.Lib.Json.Value

/-! # The text that is hashed

`entry_digest` (`app/utils/audit_chain.py`) over the dictionary of `chain_fields`, with the
values a Python program holds in it: dictionaries of any depth, floats as doubles, and each
text or `None`. Two pairs of a predecessor's hash and such a dictionary have one text exactly
if the hashes are equal and the dictionaries are, up to the order of their keys
(`hashedText_eq_iff`). -/

namespace AdminPlatform.Audit
open AdminPlatform.Lib Json

/-! ## The dictionary -/

/-- The values of the dictionary that `chain_fields` returns. -/
structure SealedFields where
  seq : Option Int
  actor : Option String
  actorType : Option String
  action : Option String
  resourceType : Option String
  resourceId : Option String
  details : Option Dict
  url : Option String
  payload : Option Dict
  response : Option Dict
  requestId : Option String
  ipAddress : Option String
  userAgent : Option String
  createdAt : Datetime

namespace SealedFields

/-- The dictionary's items as `json.dumps` sees them; `default=str` writes the timestamp. -/
def items (f : SealedFields) : List (String × Json) :=
  [("seq", ofSeq f.seq), ("actor", ofOption f.actor), ("actor_type", ofOption f.actorType),
    ("action", ofOption f.action), ("resource_type", ofOption f.resourceType),
    ("resource_id", ofOption f.resourceId), ("details", (Value.ofDict f.details).toJson),
    ("url", ofOption f.url), ("payload", (Value.ofDict f.payload).toJson),
    ("response", (Value.ofDict f.response).toJson), ("request_id", ofOption f.requestId),
    ("ip_address", ofOption f.ipAddress), ("user_agent", ofOption f.userAgent),
    ("created_at", .str (String.ofList f.createdAt.str))]

def toJson (f : SealedFields) : Json := .obj f.items

/-- The fields of a row, whose action is there. -/
def chainFields (f : SealedFields) (action : String) : ChainFields :=
  { actor := f.actor
    actorType := f.actorType
    action := action
    resourceType := f.resourceType
    resourceId := f.resourceId
    details := (Value.ofDict f.details).toJson
    url := f.url
    payload := (Value.ofDict f.payload).toJson
    response := (Value.ofDict f.response).toJson
    requestId := f.requestId
    ipAddress := f.ipAddress
    userAgent := f.userAgent
    seq := f.seq
    createdAt := f.createdAt }

/-- It is the dictionary of the row, and its text is what the row's digest is of. -/
theorem entryDigest_chainFields {f : SealedFields} {action : String} (h : f.action = some action)
    (prevHash : Option String) :
    entryDigest prevHash (f.chainFields action) =
      Sha256.hexdigest (hashedText prevHash f.toJson) := by
  have hfields : (f.chainFields action).toJson = f.toJson := by
    rw [toJson, items, h]
    rfl
  rw [← hfields]
  rfl

/-- Equal up to the order of dictionary keys. -/
structure Same (f g : SealedFields) : Prop where
  seq : f.seq = g.seq
  actor : f.actor = g.actor
  actorType : f.actorType = g.actorType
  action : f.action = g.action
  resourceType : f.resourceType = g.resourceType
  resourceId : f.resourceId = g.resourceId
  details : (Value.ofDict f.details).Same (Value.ofDict g.details)
  url : f.url = g.url
  payload : (Value.ofDict f.payload).Same (Value.ofDict g.payload)
  response : (Value.ofDict f.response).Same (Value.ofDict g.response)
  requestId : f.requestId = g.requestId
  ipAddress : f.ipAddress = g.ipAddress
  userAgent : f.userAgent = g.userAgent
  createdAt : f.createdAt = g.createdAt

theorem nodup_keys (f : SealedFields) : (f.items.map Prod.fst).Nodup := by
  simp [items]

theorem same_of_sameValue {f g : SealedFields} (h : f.toJson.SameValue g.toJson) : f.Same g := by
  have field : ∀ {k : String} {v w : Json}, f.toJson.get? k = some v →
      g.toJson.get? k = some w → v.SameValue w :=
    fun hv hw => Json.SameValue.get? (nodup_keys f) (nodup_keys g) h hv hw
  have hcreated := str_inj (field (k := "created_at") rfl rfl)
  have hdetails : (Value.ofDict f.details).toJson.SameValue (Value.ofDict g.details).toJson :=
    field (k := "details") rfl rfl
  have hpayload : (Value.ofDict f.payload).toJson.SameValue (Value.ofDict g.payload).toJson :=
    field (k := "payload") rfl rfl
  have hresponse : (Value.ofDict f.response).toJson.SameValue (Value.ofDict g.response).toJson :=
    field (k := "response") rfl rfl
  exact
    { seq := ofSeq_inj (field (k := "seq") rfl rfl)
      actor := ofOption_inj (field (k := "actor") rfl rfl)
      actorType := ofOption_inj (field (k := "actor_type") rfl rfl)
      action := ofOption_inj (field (k := "action") rfl rfl)
      resourceType := ofOption_inj (field (k := "resource_type") rfl rfl)
      resourceId := ofOption_inj (field (k := "resource_id") rfl rfl)
      details := Value.sameValue_ofDict_iff.mp hdetails
      url := ofOption_inj (field (k := "url") rfl rfl)
      payload := Value.sameValue_ofDict_iff.mp hpayload
      response := Value.sameValue_ofDict_iff.mp hresponse
      requestId := ofOption_inj (field (k := "request_id") rfl rfl)
      ipAddress := ofOption_inj (field (k := "ip_address") rfl rfl)
      userAgent := ofOption_inj (field (k := "user_agent") rfl rfl)
      createdAt := Datetime.str_inj (String.ofList_injective hcreated) }

theorem sameValue_of_same {f g : SealedFields} (h : f.Same g) : f.toJson.SameValue g.toJson := by
  have hdict : ∀ {d e : Option Dict}, (Value.ofDict d).Same (Value.ofDict e) →
      (Value.ofDict d).toJson.sortKeys = (Value.ofDict e).toJson.sortKeys :=
    Value.sameValue_ofDict_iff.mpr
  have hdetails := hdict h.details
  have hpayload := hdict h.payload
  have hresponse := hdict h.response
  show sortKeys (toJson f) = sortKeys (toJson g)
  simp only [toJson, items, sortKeys, sortKeysFields, h.seq, h.actor, h.actorType, h.action,
    h.resourceType, h.resourceId, h.url, h.requestId, h.ipAddress, h.userAgent, h.createdAt,
    hdetails, hpayload, hresponse]

end SealedFields

/-! ## The text -/

def hexDigits : List Char := "0123456789abcdefABCDEF".toList

/-- None, or 64 hexadecimal digits. -/
def IsHash (prevHash : Option String) : Prop :=
  ∀ hash ∈ prevHash, hash.length = 64 ∧ ∀ c ∈ hash.toList, c ∈ hexDigits

theorem IsHash.separated {p : Option String} (h : IsHash p) : Separated p := by
  refine separated_of_length (fun hash hhash => (h hash hhash).1) fun hash hhash hbar => ?_
  exact absurd ((h hash hhash).2 '|' hbar) (by decide)

/-- **The hashed text is injective**, up to the order of dictionary keys: no edit of a sealed
field or of the link leaves it as it is. -/
theorem hashedText_eq_iff {p q : Option String} (hp : IsHash p) (hq : IsHash q)
    (f g : SealedFields) :
    hashedText p f.toJson = hashedText q g.toJson ↔ p = q ∧ f.Same g := by
  constructor
  · intro h
    obtain ⟨hpq, hfields⟩ := hashedText_inj hp.separated hq.separated h
    exact ⟨hpq, SealedFields.same_of_sameValue hfields⟩
  · rintro ⟨rfl, hsame⟩
    have hdumps : f.toJson.dumps = g.toJson.dumps :=
      congrArg Json.render (SealedFields.sameValue_of_same hsame)
    rw [hashedText, hashedText, hdumps]

/-! ## Keys in another order -/

def oneTenth : Value := .float ⟨false, 0x3fb999999999999a, by decide⟩

/-- The details of a row, and the same details with their keys in another order. -/
def sampleDetails : Dict where
  items := [("score", oneTenth), ("role", .dict [("code", .str "S1"), ("write", .bool true)])]
  distinct := by simp [oneTenth, Value.Distinct, Value.DistinctFields]

def reorderedDetails : Dict where
  items := [("role", .dict [("write", .bool true), ("code", .str "S1")]), ("score", oneTenth)]
  distinct := by simp [oneTenth, Value.Distinct, Value.DistinctFields]

def sampleSealed (details : Dict) : SealedFields :=
  { seq := some 1
    actor := none
    actorType := none
    action := some "role.update"
    resourceType := none
    resourceId := none
    details := some details
    url := none
    payload := none
    response := none
    requestId := none
    ipAddress := none
    userAgent := none
    createdAt := Instant.datetime (Instant.seconds 1709251199) }

theorem same_reorderedDetails :
    (sampleSealed sampleDetails).Same (sampleSealed reorderedDetails) := by
  have hrole : Value.Same (.dict [("code", .str "S1"), ("write", .bool true)])
      (.dict [("write", .bool true), ("code", .str "S1")]) :=
    .dict (.cons (.str _) (.cons (.bool _) .nil)) (.swap _ _ _)
  have hdetails : (Value.dict sampleDetails.items).Same (.dict reorderedDetails.items) :=
    .dict (.cons (.float _) (.cons hrole .nil)) (.swap _ _ _)
  exact ⟨rfl, rfl, rfl, rfl, rfl, rfl, hdetails, rfl, .none, .none, rfl, rfl, rfl, rfl⟩

def sampleHash : Option String := some (String.ofList (List.replicate 64 'A'))

theorem isHash_sampleHash : IsHash sampleHash := by
  rintro hash ⟨⟩
  constructor
  · rw [← String.length_toList, String.toList_ofList, List.length_replicate]
  · intro c hc
    rw [String.toList_ofList] at hc
    rw [List.eq_of_mem_replicate hc]
    decide

theorem hashedText_eq_iff_sampleHash :
    hashedText sampleHash (sampleSealed sampleDetails).toJson =
        hashedText sampleHash (sampleSealed reorderedDetails).toJson ∧
      hashedText sampleHash (sampleSealed sampleDetails).toJson ≠
        hashedText none (sampleSealed sampleDetails).toJson := by
  have hnone : IsHash none := nofun
  refine ⟨(hashedText_eq_iff isHash_sampleHash isHash_sampleHash _ _).mpr
    ⟨rfl, same_reorderedDetails⟩, fun h => ?_⟩
  cases ((hashedText_eq_iff isHash_sampleHash hnone _ _).mp h).1

end AdminPlatform.Audit
