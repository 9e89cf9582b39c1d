import AdminPlatform.Lib.Datetime
import AdminPlatform.Lib.HashChain
import AdminPlatform.Lib.Json.Unambiguous
import AdminPlatform.Lib.Sha256
import AdminPlatform.Lib.Uuid

/-! # Audit entries and the walk that verifies them

The rows of `audit_logs` and `audit_intents` (`app/models/audit_log.py`,
`app/models/audit_intent.py`), the digest that seals a row (`app/utils/audit_chain.py`) and
the verification walk (`app/database/scripts/verify_audit_chain.py`).

The walk is connected to the abstract hash chain of `Lib.HashChain` by `walk_spec`: it
reports no problem exactly when the sealed rows, in the order it visits them, are linked. -/

namespace AdminPlatform.Audit
open AdminPlatform.Lib

/-! ## Rows -/

/-- The redacted event fields, the keys of an intent's `payload`. A `dict | None` column is
a JSON value, `null` for `None`. -/
structure AuditFields where
  actor : Option String
  actorType : Option String
  action : String
  resourceType : Option String
  resourceId : Option String
  details : Json
  url : Option String
  payload : Json
  response : Json
  requestId : Option String
  ipAddress : Option String
  userAgent : Option String
  deriving DecidableEq

/-- A row of `audit_intents`. -/
structure AuditIntent where
  id : Uuid
  payload : AuditFields
  createdAt : Datetime
  deriving DecidableEq

/-- The dictionary `chain_fields` returns: what the hash chain seals. -/
structure ChainFields extends AuditFields where
  seq : Option Int
  createdAt : Datetime
  deriving DecidableEq

/-- A row of `audit_logs`. -/
structure AuditLog extends ChainFields where
  id : Uuid
  prevHash : Option String
  entryHash : Option String
  deriving DecidableEq

def AuditLog.chainFields (row : AuditLog) : ChainFields := row.toChainFields

/-! ## The digest -/

/-- A nullable integer as JSON. -/
def ofSeq : Option Int → Json
  | some n => .int n
  | none => .null

/-- The dictionary's items as `json.dumps` sees them; `default=str` writes the timestamp. -/
def ChainFields.items (f : ChainFields) : List (String × Json) :=
  [("seq", ofSeq f.seq), ("actor", .ofOption f.actor), ("actor_type", .ofOption f.actorType),
    ("action", .str f.action), ("resource_type", .ofOption f.resourceType),
    ("resource_id", .ofOption f.resourceId), ("details", f.details), ("url", .ofOption f.url),
    ("payload", f.payload), ("response", f.response), ("request_id", .ofOption f.requestId),
    ("ip_address", .ofOption f.ipAddress), ("user_agent", .ofOption f.userAgent),
    ("created_at", .str (String.ofList f.createdAt.str))]

def ChainFields.toJson (f : ChainFields) : Json := .obj f.items

/-- `f"{prev_hash or ''}|{canonical}"`. -/
def preimage (prevHash : Option String) (fields : ChainFields) : String :=
  String.ofList ((prevHash.getD "").toList ++ '|' :: fields.toJson.dumps)

def entryDigest (prevHash : Option String) (fields : ChainFields) : String :=
  Sha256.hexdigest (preimage prevHash fields)

def AuditLog.computeEntryHash (row : AuditLog) (prevHash : Option String) : String :=
  entryDigest prevHash row.chainFields

/-! ## Sealed rows as links -/

/-- The link a sealed row is; rows without a hash predate the chain. -/
def AuditLog.link? (row : AuditLog) : Option (HashChain.Link String ChainFields) :=
  row.entryHash.map (fun hash => ⟨row.prevHash, hash, row.chainFields⟩)

theorem link?_eq_some {row : AuditLog} {prev : Option String} {hash : String}
    {fields : ChainFields} (h : row.link? = some ⟨prev, hash, fields⟩) :
    row.prevHash = prev ∧ row.entryHash = some hash ∧ row.chainFields = fields := by
  obtain ⟨hash', hhash, hlink⟩ := Option.map_eq_some_iff.mp h
  cases hlink
  exact ⟨rfl, hhash, rfl⟩

def sealedRows (rows : List AuditLog) : List AuditLog :=
  rows.filter (fun row => row.entryHash.isSome)

def links (rows : List AuditLog) : List (HashChain.Link String ChainFields) :=
  rows.filterMap AuditLog.link?

@[simp] theorem links_nil : links [] = [] := rfl

theorem links_cons_unsealed {row : AuditLog} (rows : List AuditLog)
    (h : row.entryHash = none) : links (row :: rows) = links rows := by
  simp [links, AuditLog.link?, h]

theorem links_cons_sealed {row : AuditLog} {hash : String} (rows : List AuditLog)
    (h : row.entryHash = some hash) :
    links (row :: rows) = ⟨row.prevHash, hash, row.chainFields⟩ :: links rows := by
  simp [links, AuditLog.link?, h]

@[simp] theorem links_append (xs ys : List AuditLog) : links (xs ++ ys) = links xs ++ links ys :=
  List.filterMap_append

@[simp] theorem sealedRows_append (xs ys : List AuditLog) :
    sealedRows (xs ++ ys) = sealedRows xs ++ sealedRows ys :=
  List.filter_append xs ys

theorem links_sealedRows (rows : List AuditLog) : links (sealedRows rows) = links rows := by
  induction rows with
  | nil => rfl
  | cons row rows ih =>
      cases h : row.entryHash with
      | none => simpa [sealedRows, links_cons_unsealed rows h, h] using ih
      | some hash =>
          have hcons : sealedRows (row :: rows) = row :: sealedRows rows := by
            simp [sealedRows, h]
          rw [hcons, links_cons_sealed _ h, links_cons_sealed _ h, ih]

/-- Sealed rows and their links correspond one to one. -/
theorem length_links (rows : List AuditLog) : (links rows).length = (sealedRows rows).length := by
  induction rows with
  | nil => rfl
  | cons row rows ih =>
      cases h : row.entryHash with
      | none => simpa [sealedRows, links_cons_unsealed rows h, h] using ih
      | some hash => simpa [sealedRows, links_cons_sealed rows h, h] using ih

/-! ## The verification walk -/

/-- The walk's running variables. -/
structure Walk where
  problems : List String
  sealedCount : Nat
  prevHash : Option String

def seqText : Option Int → String
  | some n => toString n
  | none => "None"

def linkProblem (row : AuditLog) : String :=
  "seq " ++ seqText row.seq ++ ": prev_hash does not link to the previous entry"

def hashProblem (row : AuditLog) : String :=
  "seq " ++ seqText row.seq ++ ": entry_hash does not match the row's sealed fields"

/-- The loop body: one visited row. -/
def verifyRow (w : Walk) (row : AuditLog) : Walk :=
  match row.entryHash with
  | none => w
  | some hash =>
      let linked := if row.prevHash ≠ w.prevHash then [linkProblem row] else []
      let expected := entryDigest w.prevHash row.chainFields
      let hashed := if hash ≠ expected then [hashProblem row] else []
      { problems := w.problems ++ linked ++ hashed
        sealedCount := w.sealedCount + 1
        prevHash := some hash }

def walk (rows : List AuditLog) : Walk := rows.foldl verifyRow ⟨[], 0, none⟩

/-- `verify()` over the rows its query returns: the sealed count and the problems. -/
def verify (rows : List AuditLog) : Nat × List String :=
  ((walk rows).sealedCount, (walk rows).problems)

/-- `ORDER BY seq`: ascending, NULLs last. -/
def seqLe (a b : AuditLog) : Prop :=
  match a.seq, b.seq with
  | some m, some n => m ≤ n
  | none, some _ => False
  | _, none => True

/-- `visit` is an answer to `SELECT … ORDER BY seq` on `table`; ties come in any order. -/
def VisitOrder (table visit : List AuditLog) : Prop := visit.Perm table ∧ visit.Pairwise seqLe

theorem verifyRow_problems_nil {w : Walk} {row : AuditLog} {hash : String}
    (h : row.entryHash = some hash) :
    (verifyRow w row).problems = [] ↔ w.problems = [] ∧ row.prevHash = w.prevHash ∧
      hash = entryDigest w.prevHash row.chainFields := by
  simp only [verifyRow, h, List.append_eq_nil_iff, and_assoc]
  refine and_congr Iff.rfl (and_congr ?_ ?_)
  · split <;> simp_all
  · split <;> simp_all

/-- **The walk is the chain condition.** From running variables `w`, a walk over `rows`
ends without problems exactly when it had none before and the sealed rows are linked. -/
theorem foldl_verifyRow (rows : List AuditLog) (w : Walk) :
    ((rows.foldl verifyRow w).problems = [] ↔
        w.problems = [] ∧ HashChain.Linked entryDigest w.prevHash (links rows)) ∧
      (rows.foldl verifyRow w).sealedCount = w.sealedCount + (links rows).length ∧
      (rows.foldl verifyRow w).prevHash = HashChain.tip w.prevHash (links rows) := by
  induction rows generalizing w with
  | nil => simp [HashChain.Linked]
  | cons row rows ih =>
      cases h : row.entryHash with
      | none =>
          have hw : verifyRow w row = w := by simp [verifyRow, h]
          rw [List.foldl_cons, links_cons_unsealed rows h, hw]
          exact ih w
      | some hash =>
          obtain ⟨hproblems, hcount, hprev⟩ := ih (verifyRow w row)
          have hw : (verifyRow w row).prevHash = some hash := by simp [verifyRow, h]
          have hn : (verifyRow w row).sealedCount = w.sealedCount + 1 := by simp [verifyRow, h]
          rw [List.foldl_cons, links_cons_sealed rows h]
          refine ⟨?_, ?_, ?_⟩
          · rw [hproblems, verifyRow_problems_nil h, hw]
            simp only [HashChain.Linked, and_assoc]
          · rw [hcount, hn, List.length_cons]
            omega
          · rw [hprev, hw]
            rfl

/-- What `verify` answers, in terms of the chain of sealed rows. -/
theorem walk_spec (rows : List AuditLog) :
    ((walk rows).problems = [] ↔ HashChain.Linked entryDigest none (links rows)) ∧
      (walk rows).sealedCount = (links rows).length ∧
      (walk rows).prevHash = HashChain.tip none (links rows) := by
  simpa [walk] using foldl_verifyRow rows ⟨[], 0, none⟩

end AdminPlatform.Audit
