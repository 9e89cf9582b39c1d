import AdminPlatform.Audit.Promotion

/-! # Recording events

From a request to a queued intent: the middleware that notes the HTTP facts
(`app/middleware/request_context.py`), the masking of credentials (`app/utils/redact.py`)
and `record` (`app/services/audit_service.py`), which queues an event as an intent.

The intake stores every field in one JSON column, without a bound; the promotion writes the
same fields to bounded columns. `promotable_iff` says which arrivals can be promoted. -/

namespace AdminPlatform.Audit
open AdminPlatform.Lib

/-! ## The request -/

/-- What the middleware reads of a request: the URL path, the peer's host, two headers. -/
structure HttpRequest where
  path : String
  client : Option String
  requestIdHeader : Option String
  userAgentHeader : Option String

structure AuditActor where
  actor : String
  actorType : String

structure RequestMetadata where
  url : Option String
  ipAddress : Option String
  userAgent : Option String
  requestId : Option String

/-- `request.headers.get(HEADER_REQUEST_ID) or str(uuid.uuid4())`. -/
def requestIdOf (request : HttpRequest) (fresh : Uuid) : String :=
  match request.requestIdHeader with
  | some header => if header = "" then fresh.str else header
  | none => fresh.str

/-- The facts `RequestContextMiddleware.dispatch` notes. -/
def dispatch (request : HttpRequest) (fresh : Uuid) : RequestMetadata :=
  { url := some request.path
    ipAddress := request.client
    userAgent := request.userAgentHeader
    requestId := some (requestIdOf request fresh) }

/-! ## Masking -/

def sensitiveKeys : List String :=
  ["password", "new_password", "confirm_password", "hashed_password", "access_token",
    "refresh_token", "otp"]

mutual
def redactValue : Json → Json
  | .obj kvs => .obj (redactDict kvs)
  | .arr xs => .arr (redactItems xs)
  | value => value

def redactItems : List Json → List Json
  | [] => []
  | x :: xs => redactValue x :: redactItems xs

def redactDict : List (String × Json) → List (String × Json)
  | [] => []
  | (k, v) :: kvs =>
      (k, if k ∈ sensitiveKeys then .str "***" else redactValue v) :: redactDict kvs
end

/-- `redact` of a `dict | None`. -/
def redact (data : Json) : Json := redactValue data

/-! ## The event -/

structure AuditEvent where
  action : String
  resourceType : Option String
  resourceId : Option String
  details : Json
  payload : Json
  response : Json

/-- The payload `record` builds from the event, the actor and the request's facts. -/
def record (event : AuditEvent) (actor : Option AuditActor)
    (metadata : Option RequestMetadata) : AuditFields :=
  { actor := actor.map (fun a => a.actor)
    actorType := actor.map (fun a => a.actorType)
    action := event.action
    resourceType := event.resourceType
    resourceId := event.resourceId
    details := redact event.details
    url := metadata.bind (fun m => m.url)
    payload := redact event.payload
    response := redact event.response
    requestId := metadata.bind (fun m => m.requestId)
    ipAddress := metadata.bind (fun m => m.ipAddress)
    userAgent := metadata.bind (fun m => m.userAgent) }

/-- One event reaching `record`: outside a request (`request := none`) there are no HTTP
facts. The identifiers are those `uuid4` draws. -/
structure Arrival where
  event : AuditEvent
  actor : Option AuditActor
  request : Option HttpRequest
  requestUuid : Uuid
  intentId : Uuid
  recordedAt : Datetime

/-- The intent `create_audit_intent` queues; its JSON column takes any payload. -/
def Arrival.intent (a : Arrival) : AuditIntent :=
  { id := a.intentId
    payload :=
      record a.event a.actor (a.request.map (fun request => dispatch request a.requestUuid))
    createdAt := a.recordedAt }

/-! ## Which arrivals fit -/

/-- The inputs are within the columns they end up in. -/
structure Arrival.Bounded (a : Arrival) : Prop where
  actor : ∀ actor ∈ a.actor,
    VarChar emailMaxLength actor.actor ∧ VarChar actorTypeMaxLength actor.actorType
  action : VarChar actionMaxLength a.event.action
  resourceType : NullableVarChar resourceTypeMaxLength a.event.resourceType
  resourceId : NullableVarChar resourceIdMaxLength a.event.resourceId
  request : ∀ request ∈ a.request,
    VarChar urlMaxLength request.path ∧
      NullableVarChar requestIdMaxLength request.requestIdHeader ∧
      NullableVarChar ipAddressMaxLength request.client ∧
      NullableVarChar userAgentMaxLength request.userAgentHeader

theorem varChar_uuid (u : Uuid) : VarChar requestIdMaxLength u.str := by
  refine ⟨?_, ?_⟩
  · rw [← String.length_toList, Uuid.str, String.toList_ofList, Uuid.length_chars]
    decide
  · rw [Uuid.str, String.toList_ofList]
    intro hnul
    rcases Uuid.mem_chars hnul with hdash | ⟨d, hd, hdigit⟩
    · exact absurd hdash (by decide)
    · have key : ∀ d < 16, Char.ofNat 0 ≠ Nat.digitChar d := by decide
      exact key d hd hdigit

/-- The generated id always fits, so the request id fits when the header does. -/
theorem varChar_requestId (request : HttpRequest) (fresh : Uuid) :
    VarChar requestIdMaxLength (requestIdOf request fresh) ↔
      NullableVarChar requestIdMaxLength request.requestIdHeader := by
  have hempty : VarChar requestIdMaxLength "" := by decide
  unfold requestIdOf
  cases h : request.requestIdHeader with
  | none => exact iff_of_true (varChar_uuid fresh) (by simp [NullableVarChar])
  | some header =>
      by_cases hheader : header = ""
      · subst hheader
        simpa [NullableVarChar, varChar_uuid fresh] using hempty
      · simp [NullableVarChar, hheader]

/-- The HTTP facts of a request fit exactly when the request is within their bounds. -/
theorem fits_dispatch_iff (request : HttpRequest) (fresh : Uuid) :
    (NullableVarChar urlMaxLength (dispatch request fresh).url ∧
      NullableVarChar requestIdMaxLength (dispatch request fresh).requestId ∧
      NullableVarChar ipAddressMaxLength (dispatch request fresh).ipAddress ∧
      NullableVarChar userAgentMaxLength (dispatch request fresh).userAgent) ↔
    VarChar urlMaxLength request.path ∧
      NullableVarChar requestIdMaxLength request.requestIdHeader ∧
      NullableVarChar ipAddressMaxLength request.client ∧
      NullableVarChar userAgentMaxLength request.userAgentHeader := by
  rw [← varChar_requestId request fresh]
  simp [dispatch, NullableVarChar]

theorem nullableVarChar_none (n : Nat) : NullableVarChar n none := by simp [NullableVarChar]

/-- **The columns accept an arrival exactly when its inputs are bounded.** -/
theorem fits_intent_iff (a : Arrival) : Fits a.intent.payload ↔ a.Bounded := by
  obtain ⟨event, actor, request, fresh, id, time⟩ := a
  have hactor :
      (NullableVarChar emailMaxLength (actor.map (fun a => a.actor)) ∧
        NullableVarChar actorTypeMaxLength (actor.map (fun a => a.actorType))) ↔
      ∀ a ∈ actor, VarChar emailMaxLength a.actor ∧ VarChar actorTypeMaxLength a.actorType := by
    cases actor <;> simp [NullableVarChar]
  constructor
  · rintro ⟨ha, hat, haction, htype, hid, hurl, hrequest, hip, hagent⟩
    refine ⟨hactor.mp ⟨ha, hat⟩, haction, htype, hid, ?_⟩
    intro r hr
    obtain rfl : request = some r := hr
    exact (fits_dispatch_iff r fresh).mp ⟨hurl, hrequest, hip, hagent⟩
  · intro h
    obtain ⟨ha, hat⟩ := hactor.mpr h.actor
    refine ⟨ha, hat, h.action, h.resourceType, h.resourceId, ?_⟩
    cases request with
    | none =>
        exact ⟨nullableVarChar_none _, nullableVarChar_none _, nullableVarChar_none _,
          nullableVarChar_none _⟩
    | some r => exact (fits_dispatch_iff r fresh).mpr (h.request r rfl)

/-! ## Which outboxes can be promoted -/

/-- A pass commits and takes something off the outbox. -/
def Shrinks (o : SelectOrder) (newId : Uuid → Uuid) (t : AuditTables) : Prop :=
  ∃ n t', promoteBatch o newId t = (.ok n, t') ∧ t'.outbox.length < t.outbox.length

/-- A pass over an outbox that is not empty gets through exactly when its batch fits. -/
theorem shrinks_iff (o : SelectOrder) (newId : Uuid → Uuid) (t : AuditTables)
    (hne : t.outbox ≠ []) :
    Shrinks o newId t ↔ ∀ i ∈ o.batch t.outbox, Fits i.payload := by
  constructor
  · rintro ⟨n, t', hpass, -⟩ i hi
    by_contra hnot
    rw [promoteBatch_error o newId t hi hnot] at hpass
    cases hpass
  · intro hall
    obtain ⟨i, hi⟩ := List.exists_mem_of_ne_nil _ (mt o.batch_eq_nil.mp hne)
    exact ⟨_, _, promoteBatch_ok o newId t hne hall,
      deleteBatch_shrinks hi (o.mem_of_mem_batch hi)⟩

/-- Whatever `record` queued, its rows fit, and every pass over it gets through. -/
def NeverBlocks (arrivals : List Arrival) : Prop :=
  (∀ a ∈ arrivals, ∀ id, Fits (a.intent.toEntry id).toAuditFields) ∧
    ∀ o newId logs, arrivals ≠ [] →
      Shrinks o newId { outbox := arrivals.map Arrival.intent, logs := logs }

/-- **When queued intents cannot block the trail.** Whatever events reach `record`, in
whatever requests: the rows built from them fit and every pass over them commits and
shrinks the outbox if and only if the inputs are within the columns' bounds. -/
theorem neverBlocks_iff (arrivals : List Arrival) :
    NeverBlocks arrivals ↔ ∀ a ∈ arrivals, a.Bounded := by
  constructor
  · rintro ⟨hfits, -⟩ a ha
    exact (fits_intent_iff a).mp (hfits a ha a.intentId)
  · intro hbounded
    refine ⟨fun a ha _ => (fits_intent_iff a).mpr (hbounded a ha), ?_⟩
    intro o newId logs hne
    refine (shrinks_iff o newId _ (by simpa using hne)).mpr ?_
    intro i hi
    obtain ⟨a, ha, rfl⟩ := List.mem_map.mp (o.mem_of_mem_batch hi)
    exact (fits_intent_iff a).mpr (hbounded a ha)

/-- A request nobody has authenticated, whose `X-Request-ID` has 256 characters. -/
def longRequestId : Arrival :=
  { event :=
      { action := "auth.login.failure", resourceType := some "auth", resourceId := none
        details := .null, payload := .null, response := .null }
    actor := some { actor := "nobody@example.com", actorType := "admin" }
    request := some
      { path := "/api/v1/auth/login", client := some "203.0.113.7"
        requestIdHeader := some (String.ofList (List.replicate 256 'a')), userAgentHeader := none }
    requestUuid := .ofNat 7
    intentId := .ofNat 1
    recordedAt := sampleTime }

/-- Its intent is queued, and every pass that selects it fails and changes nothing. -/
theorem longRequestId_blocks :
    ¬ NeverBlocks [longRequestId] ∧ ∀ o newId logs,
      promoteBatch o newId { outbox := [longRequestId.intent], logs := logs } =
        (.error .dataError, { outbox := [longRequestId.intent], logs := logs }) := by
  have hnot : ¬ Fits longRequestId.intent.payload := by
    intro hfits
    obtain ⟨-, hrequestId, -⟩ := ((fits_intent_iff longRequestId).mp hfits).request _ rfl
    have hlength := (hrequestId _ rfl).1
    rw [← String.length_toList, String.toList_ofList, List.length_replicate] at hlength
    exact absurd hlength (by decide)
  refine ⟨fun h => hnot (h.1 longRequestId (by simp) longRequestId.intentId), ?_⟩
  intro o newId logs
  refine promoteBatch_error o newId _ ?_ hnot
  rw [SelectOrder.batch, List.perm_singleton.mp (o.perm [longRequestId.intent])]
  exact List.mem_singleton.mpr rfl

end AdminPlatform.Audit
