import AdminPlatform.Services.Audit

/-! # What masking hides, and what it leaves

Two events may differ in the values under sensitive keys and nowhere else. `redact` maps
exactly such events to one another (`redact_eq_iff`), so the values it masks have no
influence on what is queued; and a value agrees with its own redaction (`agree_redact`),
which is the frame: shape, key order and every other leaf are as they were. -/

namespace AdminPlatform.Audit
open AdminPlatform.Lib

/-! ## Agreement outside the sensitive keys -/

mutual
/-- The same value, except for what is stored under sensitive keys, at any depth. -/
def Agree : Json → Json → Prop
  | .obj xs, .obj ys => AgreeDict xs ys
  | .arr xs, .arr ys => AgreeItems xs ys
  | x, y => x = y

/-- As many items, which agree one by one. -/
def AgreeItems : List Json → List Json → Prop
  | [], [] => True
  | x :: xs, y :: ys => Agree x y ∧ AgreeItems xs ys
  | _, _ => False

/-- The same keys in the same order; the values agree unless their key is sensitive. -/
def AgreeDict : List (String × Json) → List (String × Json) → Prop
  | [], [] => True
  | (k, v) :: xs, (l, w) :: ys => (k = l ∧ (k ∈ sensitiveKeys ∨ Agree v w)) ∧ AgreeDict xs ys
  | _, _ => False
end

/-- The masked items agree with the items. -/
structure AuditEvent.Agree (e₁ e₂ : AuditEvent) : Prop where
  action : e₁.action = e₂.action
  resourceType : e₁.resourceType = e₂.resourceType
  resourceId : e₁.resourceId = e₂.resourceId
  details : Audit.Agree e₁.details e₂.details
  payload : Audit.Agree e₁.payload e₂.payload
  response : Audit.Agree e₁.response e₂.response

/-! ## Masking identifies what agrees -/

theorem masked_eq_iff (k : String) (v w : Json) :
    (if k ∈ sensitiveKeys then Json.str "***" else redactValue v) =
      (if k ∈ sensitiveKeys then Json.str "***" else redactValue w) ↔
    k ∈ sensitiveKeys ∨ redactValue v = redactValue w := by
  by_cases hk : k ∈ sensitiveKeys
  · simp [hk]
  · simp [hk]

mutual
/-- **Two values have one redaction exactly when they agree** outside the sensitive keys. -/
theorem redactValue_eq_iff : ∀ x y : Json, redactValue x = redactValue y ↔ Agree x y
  | .obj xs, y => by
      cases y with
      | obj ys => rw [redactValue, redactValue, Json.obj.injEq, Agree, redactDict_eq_iff xs ys]
      | _ => simp [redactValue, Agree]
  | .arr xs, y => by
      cases y with
      | arr ys => rw [redactValue, redactValue, Json.arr.injEq, Agree, redactItems_eq_iff xs ys]
      | _ => simp [redactValue, Agree]
  | .null, y => by cases y <;> simp [redactValue, Agree]
  | .bool b, y => by cases y <;> simp [redactValue, Agree]
  | .int n, y => by cases y <;> simp [redactValue, Agree]
  | .float t, y => by cases y <;> simp [redactValue, Agree]
  | .str s, y => by cases y <;> simp [redactValue, Agree]

theorem redactItems_eq_iff : ∀ xs ys : List Json,
    redactItems xs = redactItems ys ↔ AgreeItems xs ys
  | [], [] => by simp [AgreeItems]
  | [], _ :: _ => by simp [redactItems, AgreeItems]
  | _ :: _, [] => by simp [redactItems, AgreeItems]
  | x :: xs, y :: ys => by
      rw [redactItems, redactItems, AgreeItems, List.cons.injEq, redactValue_eq_iff x y,
        redactItems_eq_iff xs ys]

theorem redactDict_eq_iff : ∀ xs ys : List (String × Json),
    redactDict xs = redactDict ys ↔ AgreeDict xs ys
  | [], [] => by simp [AgreeDict]
  | [], _ :: _ => by simp [redactDict, AgreeDict]
  | _ :: _, [] => by simp [redactDict, AgreeDict]
  | (k, v) :: xs, (l, w) :: ys => by
      rw [redactDict, redactDict, AgreeDict, List.cons.injEq, Prod.mk.injEq,
        redactDict_eq_iff xs ys]
      refine and_congr_left fun _ => and_congr_right fun hkey => ?_
      subst hkey
      rw [masked_eq_iff, redactValue_eq_iff v w]
end

theorem redact_eq_iff (x y : Json) : redact x = redact y ↔ Agree x y := redactValue_eq_iff x y

/-! ## Masking leaves the rest alone -/

mutual
/-- **The frame**: a value agrees with its redaction. -/
theorem agree_redactValue : ∀ x : Json, Agree x (redactValue x)
  | .obj kvs => by
      rw [redactValue, Agree]
      exact agreeDict_redactDict kvs
  | .arr xs => by
      rw [redactValue, Agree]
      exact agreeItems_redactItems xs
  | .null => by simp [redactValue, Agree]
  | .bool b => by simp [redactValue, Agree]
  | .int n => by simp [redactValue, Agree]
  | .float t => by simp [redactValue, Agree]
  | .str s => by simp [redactValue, Agree]

theorem agreeItems_redactItems : ∀ xs : List Json, AgreeItems xs (redactItems xs)
  | [] => by simp [redactItems, AgreeItems]
  | x :: xs => by
      rw [redactItems, AgreeItems]
      exact ⟨agree_redactValue x, agreeItems_redactItems xs⟩

theorem agreeDict_redactDict : ∀ kvs : List (String × Json), AgreeDict kvs (redactDict kvs)
  | [] => by simp [redactDict, AgreeDict]
  | (k, v) :: kvs => by
      rw [redactDict, AgreeDict]
      refine ⟨⟨rfl, ?_⟩, agreeDict_redactDict kvs⟩
      by_cases hk : k ∈ sensitiveKeys
      · exact .inl hk
      · rw [if_neg hk]
        exact .inr (agree_redactValue v)
end

theorem agree_redact (x : Json) : Agree x (redact x) := agree_redactValue x

/-- Masking twice is masking once: a redaction agrees with the value it came from. -/
theorem redact_redact (x : Json) : redact (redact x) = redact x :=
  ((redact_eq_iff x (redact x)).mpr (agree_redact x)).symm

mutual
/-- What a value holds under sensitive keys, outermost first. -/
def secrets : Json → List Json
  | .obj kvs => secretsDict kvs
  | .arr xs => secretsItems xs
  | _ => []

def secretsItems : List Json → List Json
  | [] => []
  | x :: xs => secrets x ++ secretsItems xs

def secretsDict : List (String × Json) → List Json
  | [] => []
  | (k, v) :: kvs => (if k ∈ sensitiveKeys then [v] else secrets v) ++ secretsDict kvs
end

mutual
/-- Under every sensitive key of a redaction stands the mask. -/
theorem secrets_redactValue : ∀ x y : Json, y ∈ secrets (redactValue x) → y = .str "***"
  | .obj kvs, y => by
      rw [redactValue, secrets]
      exact secretsDict_redactDict kvs y
  | .arr xs, y => by
      rw [redactValue, secrets]
      exact secretsItems_redactItems xs y
  | .null, y => by simp [redactValue, secrets]
  | .bool b, y => by simp [redactValue, secrets]
  | .int n, y => by simp [redactValue, secrets]
  | .float t, y => by simp [redactValue, secrets]
  | .str s, y => by simp [redactValue, secrets]

theorem secretsItems_redactItems : ∀ (xs : List Json) (y : Json),
    y ∈ secretsItems (redactItems xs) → y = .str "***"
  | [], y => by simp [redactItems, secretsItems]
  | x :: xs, y => by
      rw [redactItems, secretsItems, List.mem_append]
      rintro (h | h)
      · exact secrets_redactValue x y h
      · exact secretsItems_redactItems xs y h

theorem secretsDict_redactDict : ∀ (kvs : List (String × Json)) (y : Json),
    y ∈ secretsDict (redactDict kvs) → y = .str "***"
  | [], y => by simp [redactDict, secretsDict]
  | (k, v) :: kvs, y => by
      rw [redactDict, secretsDict, List.mem_append]
      rintro (h | h)
      · by_cases hk : k ∈ sensitiveKeys
        · rw [if_pos hk, if_pos hk] at h
          exact List.mem_singleton.mp h
        · rw [if_neg hk, if_neg hk] at h
          exact secrets_redactValue v y h
      · exact secretsDict_redactDict kvs y h
end

/-! ## The queued payload -/

/-- **What is queued is determined by what the events agree on**, and by nothing less. -/
theorem record_eq_iff (e₁ e₂ : AuditEvent) (actor : Option AuditActor)
    (metadata : Option RequestMetadata) :
    record e₁ actor metadata = record e₂ actor metadata ↔ e₁.Agree e₂ := by
  constructor
  · intro h
    rw [record, record, AuditFields.mk.injEq] at h
    obtain ⟨-, -, haction, htype, hid, hdetails, -, hpayload, hresponse, -⟩ := h
    exact ⟨haction, htype, hid, (redact_eq_iff _ _).mp hdetails,
      (redact_eq_iff _ _).mp hpayload, (redact_eq_iff _ _).mp hresponse⟩
  · intro h
    rw [record, record, h.action, h.resourceType, h.resourceId,
      (redact_eq_iff _ _).mpr h.details, (redact_eq_iff _ _).mpr h.payload,
      (redact_eq_iff _ _).mpr h.response]

/-- `details.setdefault("error_code", code)`, on a copy of `event.details or {}`. -/
def setdefaultErrorCode (code : String) : Json → Json
  | .obj kvs =>
      if "error_code" ∈ kvs.map Prod.fst then .obj kvs
      else .obj (kvs ++ [("error_code", .str code)])
  | _ => .obj [("error_code", .str code)]

/-- The event `record_failure` records: the error's code is merged into the details. -/
def AuditEvent.failure (event : AuditEvent) (code : String) : AuditEvent :=
  { event with details := setdefaultErrorCode code event.details }

theorem redactDict_append (xs ys : List (String × Json)) :
    redactDict (xs ++ ys) = redactDict xs ++ redactDict ys := by
  induction xs with
  | nil => simp [redactDict]
  | cons x xs ih =>
      obtain ⟨k, v⟩ := x
      rw [List.cons_append, redactDict, redactDict, ih, List.cons_append]

/-- Items that agree have one list of keys. -/
theorem keys_redactDict (kvs : List (String × Json)) :
    (redactDict kvs).map Prod.fst = kvs.map Prod.fst := by
  induction kvs with
  | nil => simp [redactDict]
  | cons x kvs ih =>
      obtain ⟨k, v⟩ := x
      rw [redactDict, List.map_cons, List.map_cons, ih]

/-- The redaction of details with the code is that of the details, with the code. -/
theorem redact_setdefaultErrorCode (code : String) (x : Json) :
    redact (setdefaultErrorCode code x) = setdefaultErrorCode code (redact x) := by
  have hcode : redactDict [("error_code", Json.str code)] = [("error_code", Json.str code)] := by
    have hkey : "error_code" ∉ sensitiveKeys := by decide
    rw [redactDict, if_neg hkey, redactValue, redactDict]
    all_goals intros; contradiction
  cases x with
  | obj kvs =>
      rw [redact, redact, redactValue, setdefaultErrorCode, setdefaultErrorCode, keys_redactDict]
      split
      · rw [redactValue]
      · rw [redactValue, redactDict_append, hcode]
  | _ => simp [redact, redactValue, setdefaultErrorCode, hcode]

/-- A failure's event hides what its event hides. -/
theorem AuditEvent.Agree.failure {e₁ e₂ : AuditEvent} (h : e₁.Agree e₂) (code : String) :
    (e₁.failure code).Agree (e₂.failure code) := by
  refine ⟨h.action, h.resourceType, h.resourceId, ?_, h.payload, h.response⟩
  refine (redact_eq_iff _ _).mp ?_
  show redact (setdefaultErrorCode code e₁.details) = redact (setdefaultErrorCode code e₂.details)
  rw [redact_setdefaultErrorCode, redact_setdefaultErrorCode, (redact_eq_iff _ _).mpr h.details]

/-- **Secrets do not influence the audit trail.** Two events, or two failures, queue one
payload exactly when they agree outside the sensitive keys, and recording either leaves the
same database; a redaction agrees with its value, holds the mask under every sensitive key
and is its own redaction. -/
theorem secrets_have_no_influence :
    (∀ e₁ e₂ actor metadata,
      record e₁ actor metadata = record e₂ actor metadata ↔ e₁.Agree e₂) ∧
    (∀ e₁ e₂, e₁.Agree e₂ → ∀ req s code,
      (AuditService.record req e₁).run s = (AuditService.record req e₂).run s ∧
      (AuditService.record req (e₁.failure code)).run s =
        (AuditService.record req (e₂.failure code)).run s) ∧
    ∀ x, Agree x (redact x) ∧ (∀ y ∈ secrets (redact x), y = .str "***") ∧
      redact (redact x) = redact x := by
  refine ⟨record_eq_iff, ?_, ?_⟩
  · intro e₁ e₂ h req s code
    refine ⟨?_, ?_⟩
    · rw [AuditService.record, AuditService.record, (record_eq_iff e₁ e₂ _ _).mpr h]
    · rw [AuditService.record, AuditService.record,
        (record_eq_iff (e₁.failure code) (e₂.failure code) _ _).mpr (h.failure code)]
  · intro x
    exact ⟨agree_redact x, secrets_redactValue x, redact_redact x⟩

/-- An event whose details hold a password, in a dictionary in a list of lists. -/
def nestedSecret (password : String) : AuditEvent where
  action := "user.update"
  resourceType := some "user"
  resourceId := none
  details := .obj [("batch", .arr [.arr [.obj [("name", .str "Bob"), ("password", .str password)]]])]
  payload := .null
  response := .null

theorem secrets_have_no_influence_nested :
    record (nestedSecret "s3cret") none none = record (nestedSecret "other") none none := by
  refine (secrets_have_no_influence.1 _ _ none none).mpr ⟨rfl, rfl, rfl, ?_, ?_, ?_⟩
  all_goals simp [nestedSecret, Agree, AgreeDict, AgreeItems, sensitiveKeys]

end AdminPlatform.Audit
