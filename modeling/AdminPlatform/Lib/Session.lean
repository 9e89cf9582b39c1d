import AdminPlatform.Lib.Program

/-! # Sessions that break

The statements of a program may share a session with a hidden state: once a statement has
failed, every later one on the session fails, whatever it asks. `broken` is that semantics
over an ordinary one, for a kind of statement that is made to fail (it *trips*).

A straight program, which has no handler and issues no such statement, does not notice
(`run_broken`); and of a program that gets to one, nothing is left that still issues a
statement (`run_broken_issue`). -/

namespace AdminPlatform.Lib.Program
variable {Stmt : Type → Type} {ε σ α β : Type}

/-- The state, and whether the session has failed. -/
structure Session (σ : Type) where
  state : σ
  failed : Bool

/-- A statement that trips raises `fault`; a session that has failed raises `pending`. -/
def broken (sem : Semantics Stmt ε σ) (trips : ∀ {β : Type}, Stmt β → Bool) (fault pending : ε) :
    Semantics Stmt ε (Session σ)
  | _, c, t =>
      if t.failed then (.error pending, t)
      else if trips c then (.error fault, { t with failed := true })
      else
        match sem c t.state with
        | (.ok b, s) => (.ok b, { state := s, failed := false })
        | (.error e, s) => (.error e, { state := s, failed := true })

/-- A program whose statements do not trip, and which raises what they raise. -/
def Straight (trips : ∀ {β : Type}, Stmt β → Bool) : Program Stmt ε α → Prop
  | .pure _ => True
  | .throw _ => True
  | .call c k => trips c = false ∧ (∀ e, k (.error e) = .throw e) ∧ ∀ b, Straight trips (k (.ok b))

/-- The run of the program gets to a statement that trips. -/
def Reaches (sem : Semantics Stmt ε σ) (trips : ∀ {β : Type}, Stmt β → Bool) :
    Program Stmt ε α → σ → Prop
  | .pure _, _ => False
  | .throw _, _ => False
  | .call c k, s => trips c = true ∨ Reaches sem trips (k (sem c s).1) (sem c s).2

section Straight
variable {trips : ∀ {β : Type}, Stmt β → Bool}

theorem straight_issue {c : Stmt α} (h : trips c = false) :
    Straight trips (issue c : Program Stmt ε α) :=
  ⟨h, fun _ => rfl, fun _ => trivial⟩

theorem Straight.bind {x : Program Stmt ε α} {f : α → Program Stmt ε β} (hx : Straight trips x)
    (hf : ∀ a, Straight trips (f a)) : Straight trips (x >>= f) := by
  show Straight trips (Program.bind x f)
  induction x with
  | pure a => exact hf a
  | throw e => trivial
  | call c k ih =>
      obtain ⟨hc, herror, hok⟩ := hx
      refine ⟨hc, fun e => ?_, fun b => ih _ (hok b)⟩
      show Program.bind (k (.error e)) f = .throw e
      rw [herror]
      rfl

/-- **A straight program does not notice** how its statements would fail. -/
theorem Straight.run_broken {x : Program Stmt ε α} (hx : Straight trips x)
    (sem : Semantics Stmt ε σ) (fault pending : ε) (s : σ) :
    ∃ failed, run (broken sem trips fault pending) x ⟨s, false⟩ =
        ((run sem x s).1, ⟨(run sem x s).2, failed⟩) ∧
      ∀ a, (run sem x s).1 = .ok a → failed = false := by
  induction x generalizing s with
  | pure a => exact ⟨false, rfl, fun _ _ => rfl⟩
  | throw e => exact ⟨false, rfl, fun _ _ => rfl⟩
  | call c k ih =>
      obtain ⟨hc, herror, hok⟩ := hx
      rcases hsem : sem c s with ⟨e | b, s'⟩
      · have hbroken : broken sem trips fault pending c ⟨s, false⟩ = (.error e, ⟨s', true⟩) := by
          simp [broken, hc, hsem]
        refine ⟨true, ?_, fun a ha => ?_⟩
        · rw [run, hbroken, run, hsem, herror]
          rfl
        · rw [run, hsem, herror] at ha
          cases ha
      · have hbroken : broken sem trips fault pending c ⟨s, false⟩ = (.ok b, ⟨s', false⟩) := by
          simp [broken, hc, hsem]
        rw [run, hbroken, run, hsem]
        exact ih _ (hok b) s'

variable {sem : Semantics Stmt ε σ} {fault pending : ε}

theorem Straight.not_reaches {x : Program Stmt ε α} (hx : Straight trips x) (s : σ) :
    ¬ Reaches sem trips x s := by
  induction x generalizing s with
  | pure a => exact id
  | throw e => exact id
  | call c k ih =>
      obtain ⟨hc, herror, hok⟩ := hx
      rintro (h | h)
      · rw [hc] at h
        cases h
      · change Reaches sem trips (k (sem c s).1) (sem c s).2 at h
        rcases hsem : sem c s with ⟨e | b, s'⟩
        · rw [hsem, herror] at h
          exact h
        · rw [hsem] at h
          exact ih _ (hok b) s' h

/-- What a sequence reaches. -/
theorem reaches_bind {x : Program Stmt ε α} {f : α → Program Stmt ε β} {s : σ} :
    Reaches sem trips (x >>= f) s ↔
      Reaches sem trips x s ∨ ∃ a s', run sem x s = (.ok a, s') ∧ Reaches sem trips (f a) s' := by
  show Reaches sem trips (Program.bind x f) s ↔ _
  induction x generalizing s with
  | pure a => simp [Program.bind, Reaches, run]
  | throw e => simp [Program.bind, Reaches, run]
  | call c k ih => rw [Program.bind, Reaches, Reaches, ih, run, or_assoc]

/-- On a failed session no statement is answered. -/
theorem run_broken_issue (c : Stmt α) (f : α → Program Stmt ε β) (s : σ) :
    run (broken sem trips fault pending) (issue c >>= f) ⟨s, true⟩ =
      (.error pending, ⟨s, true⟩) := by
  have hissue : run (broken sem trips fault pending) (issue c) ⟨s, true⟩ =
      (.error pending, ⟨s, true⟩) := by
    rw [run_issue]
    rfl
  exact run_bind_error hissue

end Straight
end AdminPlatform.Lib.Program
