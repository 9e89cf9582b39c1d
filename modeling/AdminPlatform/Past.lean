import AdminPlatform.Lib.History
import AdminPlatform.Services.Audit

/-! # What a request has done by now

The past of a request is what it has read and committed, each with the state the database was in
at that moment. A `Db.Policy` says which writes are lawful after which pasts; that a request
keeps to it is shown by following the request (`keeps_query_bind`, `keeps_commit_bind`,
`keeps_save_bind`, `keeps_record_bind`), and is then so whatever other requests do in between
and wherever a statement fails. -/

namespace AdminPlatform
open AdminPlatform.Lib

abbrev Past := List (Program.Done Sql Database)

namespace Past

/-- The request executed a statement in `s`. -/
def At (past : Past) (s : Database) : Prop := s ∈ past.map Program.Done.state

/-- The request executed a statement in a state that `P` holds of. -/
def Saw (past : Past) (P : Database → Prop) : Prop := ∃ s, past.At s ∧ P s

/-- The request has committed `w`. -/
def Wrote (past : Past) (w : Write) : Prop :=
  ∃ (β : Type) (answer : β) (s : Database),
    (⟨.commit w answer, s⟩ : Program.Done Sql Database) ∈ past

/-- The request has committed `w`, and had done what is in `before` by then. -/
def WroteAfter (past before : Past) (w : Write) : Prop :=
  ∃ (β : Type) (answer : β) (s : Database),
    (⟨.commit w answer, s⟩ : Program.Done Sql Database) :: before <:+ past

/-- The states the statements were executed in, in their order. -/
def states (past : Past) : List Database := (past.map Program.Done.state).reverse

/-- It is queries only. -/
def Reads (past : Past) : Prop := ∀ d ∈ past, ∃ q, d.stmt = .query q

/-- The request has committed nothing. -/
def Unwritten (past : Past) : Prop := ∀ w, ¬ past.Wrote w

variable {past later : Past}

theorem At.saw {s : Database} (h : past.At s) {P : Database → Prop} (hP : P s) : past.Saw P :=
  ⟨s, h, hP⟩

theorem At.mono {s : Database} (h : past.At s) (hlater : past <:+ later) : later.At s :=
  (hlater.map _).subset h

theorem Saw.mono {P : Database → Prop} (h : past.Saw P) (hlater : past <:+ later) :
    later.Saw P := by
  obtain ⟨s, hs, hP⟩ := h
  exact ⟨s, hs.mono hlater, hP⟩

theorem Wrote.mono {w : Write} (h : past.Wrote w) (hlater : past <:+ later) : later.Wrote w := by
  obtain ⟨β, answer, s, hs⟩ := h
  exact ⟨β, answer, s, hlater.subset hs⟩

theorem wrote_cons {β : Type} (w : Write) (answer : β) (s : Database) (past : Past) :
    Past.Wrote (⟨.commit w answer, s⟩ :: past) w :=
  ⟨β, answer, s, List.mem_cons_self⟩

theorem WroteAfter.mono {before : Past} {w : Write} (h : past.WroteAfter before w)
    (hlater : past <:+ later) : later.WroteAfter before w := by
  obtain ⟨β, answer, s, hs⟩ := h
  exact ⟨β, answer, s, hs.trans hlater⟩

theorem at_cons {β : Type} (c : Sql β) (s : Database) (past : Past) :
    Past.At (⟨c, s⟩ :: past) s :=
  List.mem_cons_self

/-- What holds in every state of the past holds in one that was seen. -/
theorem Saw.of_all {P Q : Database → Prop} (h : past.Saw P)
    (hall : ∀ d ∈ past, Q d.state) : ∃ s, P s ∧ Q s := by
  obtain ⟨s, hs, hP⟩ := h
  obtain ⟨d, hd, rfl⟩ := List.mem_map.mp hs
  exact ⟨_, hP, hall d hd⟩

theorem unwritten_nil : Past.Unwritten [] := by
  rintro w ⟨_, _, s, hs⟩
  cases hs

theorem Unwritten.query {β : Type} (h : past.Unwritten) (q : Database → β) (s : Database) :
    Past.Unwritten (⟨.query q, s⟩ :: past) := by
  rintro w ⟨γ, answer, u, hu⟩
  rcases List.mem_cons.mp hu with heq | hold
  · cases heq
  · exact h w ⟨γ, answer, u, hold⟩

end Past

namespace Db
variable {α β : Type}

/-- Which writes are lawful after which pasts. -/
abbrev Policy := Past → Write → Prop

/-- The guarantee a policy stands for: queries are free. -/
def Policy.guarantee (L : Policy) : Program.Guarantee Sql Database
  | _, _, .query _ => True
  | past, _, .commit w _ => L past w

/-- After `past` the request writes only what is lawful, and where it returns, `Q` holds of its
past and the result. -/
def Keeps (L : Policy) (p : Db α) (past : Past) (Q : Past → α → Prop := fun _ _ => True) : Prop :=
  Program.Keeps exec L.guarantee Q p past

section Keeps
variable {L : Policy} {past : Past} {Q : Past → α → Prop}

theorem keeps_pure (a : α) : (pure a : Db α).Keeps L past := trivial

theorem keeps_return {a : α} (h : Q past a) : (pure a : Db α).Keeps L past Q := h

theorem keeps_throw (e : Failure) : (throw e : Db α).Keeps L past Q := trivial

theorem Keeps.imp {L' : Policy} {p : Db α} (hp : p.Keeps L past Q)
    (h : ∀ later w, past <:+ later → L later w → L' later w) : p.Keeps L' past Q := by
  refine Program.Keeps.imp hp (fun later hlater β c hc => ?_) fun _ _ _ hQ => hQ
  cases c with
  | query q => trivial
  | commit w answer => exact h later w hlater hc

theorem Keeps.post {Q' : Past → α → Prop} {p : Db α} (hp : p.Keeps L past Q)
    (h : ∀ later a, past <:+ later → Q later a → Q' later a) : p.Keeps L past Q' :=
  Program.Keeps.imp hp (fun _ _ _ _ hc => hc) fun later hlater a => h later a hlater

theorem Keeps.bind {R : Past → β → Prop} {p : Db β} {f : β → Db α} (hp : p.Keeps L past R)
    (hf : ∀ later b, past <:+ later → R later b → (f b).Keeps L later Q) :
    (p >>= f).Keeps L past Q :=
  Program.Keeps.bind hp hf

theorem Keeps.drop {R : Past → α → Prop} {p : Db α} (hp : p.Keeps L past R) :
    (AdminPlatform.drop p).Keeps L past :=
  hp.bind fun _ _ _ _ => keeps_pure ()

theorem Keeps.tryCatch {p : Db α} {h : Failure → Db α} (hp : p.Keeps L past Q)
    (hh : ∀ later e, past <:+ later → (h e).Keeps L later Q) :
    (tryCatch p h : Db α).Keeps L past Q :=
  Program.Keeps.tryCatch hp hh

/-- A query is added to the past, with the state it answered from. -/
theorem keeps_query_bind_cons {q : Database → β} {f : β → Db α}
    (h : ∀ s, (f (q s)).Keeps L (⟨.query q, s⟩ :: past) Q) : (query q >>= f).Keeps L past Q := by
  refine ⟨trivial, fun s b s' hsem => ?_, fun e => trivial⟩
  obtain ⟨⟨⟩, rfl⟩ := Prod.mk.inj hsem
  exact h s

/-- A query: the request has then seen the state it answered from. -/
theorem keeps_query_bind {q : Database → β} {f : β → Db α}
    (h : ∀ (later : Past) s, past <:+ later → later.At s → (f (q s)).Keeps L later Q) :
    (query q >>= f).Keeps L past Q :=
  keeps_query_bind_cons fun s => h _ s (List.suffix_cons _ _) (Past.at_cons _ s past)

/-- A commit: the request has then written it. -/
theorem keeps_commit_bind {w : Write} {f : Unit → Db α} (hw : L past w)
    (h : ∀ later : Past, past <:+ later → later.Wrote w → (f ()).Keeps L later Q) :
    (commit w >>= f).Keeps L past Q := by
  refine ⟨hw, fun s b s' _ => ?_, fun e => trivial⟩
  exact h _ (List.suffix_cons _ _) (Past.wrote_cons w b s past)

theorem keeps_commit {w : Write} (hw : L past w) : (commit w).Keeps L past :=
  ⟨hw, fun _ _ _ _ => trivial, fun _ => trivial⟩

/-- A commit that reads the row again, as it is by then. -/
theorem keeps_save_bind {γ : Type} [Row γ] {w : Write} {table : Database → Table γ}
    {k : Row.Key γ} {f : γ → Db α} (hw : L past w)
    (h : ∀ (later : Past) s row, past <:+ later → later.Wrote w → later.At s →
      (table s).find? k = some row → (f row).Keeps L later Q) :
    (save w table k >>= f).Keeps L past Q := by
  have hsave : save w table k >>= f = commit w >>= fun _ => refresh table k >>= f :=
    Program.bind_bind _ _ _
  rw [hsave]
  refine keeps_commit_bind hw fun written hwritten hwrote => ?_
  rw [refresh, Program.bind_bind]
  refine keeps_query_bind fun later s hlater hat => ?_
  cases hrow : (table s).find? k with
  | none => exact keeps_throw _
  | some row => exact h later s row (hwritten.trans hlater) (hwrote.mono hlater) hat hrow

/-- `if condition: …` that does not come back. -/
theorem keeps_when_bind {c : Bool} {p : Db Unit} {f : Unit → Db α}
    (hp : c = true → (p >>= f).Keeps L past Q) (h : c = false → (f ()).Keeps L past Q) :
    (when c p >>= f).Keeps L past Q := by
  cases c
  · exact h rfl
  · exact hp rfl

/-- `if condition: raise …`. -/
theorem keeps_check_bind {c : Bool} {e : AppError} {f : Unit → Db α}
    (h : c = false → (f ()).Keeps L past Q) : (when c (raise e) >>= f).Keeps L past Q :=
  keeps_when_bind (fun _ => keeps_throw _) h

theorem Keeps.when {p : Db Unit} (hp : p.Keeps L past) (c : Bool) : (when c p).Keeps L past := by
  cases c
  · exact keeps_pure ()
  · exact hp

/-- A part that only reads. -/
theorem keeps_of_reading {p : Db α} (hp : p.Writes fun _ => False) : p.Keeps L past := by
  refine Program.Keeps.of_within hp fun later _ β c hc => ?_
  cases c with
  | query q => trivial
  | commit w answer => exact hc.elim

theorem keeps_reading_bind {p : Db β} {f : β → Db α} (hp : p.Writes fun _ => False)
    (h : ∀ later b, past <:+ later → (f b).Keeps L later Q) : (p >>= f).Keeps L past Q :=
  (keeps_of_reading hp).bind fun later b hlater _ => h later b hlater

end Keeps
end Db

namespace AuditService

/-- The intent an event is queued as. -/
def intent (req : Request) (event : Audit.AuditEvent) : Audit.AuditIntent where
  id := req.intentId
  payload := Audit.record event req.actor req.metadata
  createdAt := Instant.datetime req.now

variable {L : Db.Policy} {past : Past}

theorem keeps_record {req : Request} {event : Audit.AuditEvent}
    (h : L past (.insertIntent (intent req event))) : (record req event).Keeps L past := by
  refine Db.Keeps.tryCatch ?_ fun _ _ _ => Db.keeps_pure ()
  exact Db.keeps_save_bind h fun _ _ _ _ _ _ _ => Db.keeps_pure ()

theorem keeps_record_bind {α : Type} {req : Request} {event : Audit.AuditEvent}
    {f : Unit → Db α} {Q : Past → α → Prop} (h : L past (.insertIntent (intent req event)))
    (hf : ∀ later, past <:+ later → (f ()).Keeps L later Q) :
    (record req event >>= f).Keeps L past Q :=
  (keeps_record h).bind fun later _ hlater _ => hf later hlater

end AuditService
end AdminPlatform
