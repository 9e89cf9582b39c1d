import AdminPlatform.Lib.Machine
import Mathlib.Logic.Function.Basic

/-! # Programs of atomic statements

A `Program` issues statements against a shared state one at a time and continues with each
one's answer; a statement, like the program itself, may raise. `Stmt β` are the statements
that answer a `β`, and a `Semantics` says what each does to the state.

The same program has two meanings:
* `run` executes it alone, from its first statement to its last;
* `interleave` is the machine in which any number of programs take turns, one statement
  at a time.

For the first there are rules to compute with (`run_bind` and its kin), a rule for properties
that every statement keeps (`run_keeps`) and one for the errors a program can end in
(`run_raises`); for the second an inversion of one turn (`turn_inv`). Statements may also be
made to fail (`faulty`), or whole parts of a program (`strike`). -/

namespace AdminPlatform.Lib

inductive Program (Stmt : Type → Type) (ε α : Type) : Type 1
  | pure (a : α)
  | throw (e : ε)
  | call {β : Type} (c : Stmt β) (k : Except ε β → Program Stmt ε α)

/-- What each statement does: its answer and the state it leaves. -/
abbrev Semantics (Stmt : Type → Type) (ε σ : Type) : Type 1 :=
  ∀ {β : Type}, Stmt β → σ → Except ε β × σ

namespace Program
variable {Stmt : Type → Type} {ε σ α β : Type}

/-- Go on with `f`, unless the program raised. -/
def bind : Program Stmt ε α → (α → Program Stmt ε β) → Program Stmt ε β
  | .pure a, f => f a
  | .throw e, _ => .throw e
  | .call c k, f => .call c (fun r => bind (k r) f)

/-- `try … except`: go on with `h` where the program raised. -/
def catching : Program Stmt ε α → (ε → Program Stmt ε α) → Program Stmt ε α
  | .pure a, _ => .pure a
  | .throw e, h => h e
  | .call c k, h => .call c (fun r => catching (k r) h)

instance : Monad (Program Stmt ε) where
  pure := .pure
  bind := bind

instance : MonadExcept ε (Program Stmt ε) where
  throw := .throw
  tryCatch := catching

/-- Issue one statement and hand on its answer, or what it raised. -/
def issue (c : Stmt α) : Program Stmt ε α :=
  .call c fun
    | .ok a => .pure a
    | .error e => .throw e

/-- Execute a program alone. -/
def run (sem : Semantics Stmt ε σ) : Program Stmt ε α → σ → Except ε α × σ
  | .pure a, s => (.ok a, s)
  | .throw e, s => (.error e, s)
  | .call c k, s => run sem (k (sem c s).1) (sem c s).2

section Run
variable (sem : Semantics Stmt ε σ)

@[simp] theorem run_pure (a : α) (s : σ) :
    run sem (Pure.pure a : Program Stmt ε α) s = (.ok a, s) := rfl

@[simp] theorem run_throw (e : ε) (s : σ) :
    run sem (MonadExcept.throw e : Program Stmt ε α) s = (.error e, s) := rfl

/-- A statement alone. -/
@[simp] theorem run_issue (c : Stmt α) (s : σ) : run sem (issue c) s = sem c s := by
  rw [issue, run]
  rcases h : sem c s with ⟨r, s'⟩
  cases r <;> rfl

/-- A sequence: the rest runs where the first part ended, unless that raised. -/
theorem run_bind (x : Program Stmt ε α) (f : α → Program Stmt ε β) (s : σ) :
    run sem (x >>= f) s =
      match run sem x s with
      | (.ok a, s') => run sem (f a) s'
      | (.error e, s') => (.error e, s') := by
  induction x generalizing s with
  | pure a => rfl
  | throw e => rfl
  | call c k ih => exact ih (sem c s).1 (sem c s).2

theorem run_tryCatch (x : Program Stmt ε α) (h : ε → Program Stmt ε α) (s : σ) :
    run sem (MonadExcept.tryCatch x h) s =
      match run sem x s with
      | (.ok a, s') => (.ok a, s')
      | (.error e, s') => run sem (h e) s' := by
  induction x generalizing s with
  | pure a => rfl
  | throw e => rfl
  | call c k ih => exact ih (sem c s).1 (sem c s).2

variable {sem} {x : Program Stmt ε α} {f : α → Program Stmt ε β} {s s' : σ}

theorem run_bind_ok {a : α} (h : run sem x s = (.ok a, s')) :
    run sem (x >>= f) s = run sem (f a) s' := by
  rw [run_bind, h]

theorem run_bind_error {e : ε} (h : run sem x s = (.error e, s')) :
    run sem (x >>= f) s = (.error e, s') := by
  rw [run_bind, h]

theorem run_tryCatch_ok {h : ε → Program Stmt ε α} {a : α} (hx : run sem x s = (.ok a, s')) :
    run sem (MonadExcept.tryCatch x h) s = (.ok a, s') := by
  rw [run_tryCatch, hx]

theorem run_tryCatch_error {h : ε → Program Stmt ε α} {e : ε}
    (hx : run sem x s = (.error e, s')) :
    run sem (MonadExcept.tryCatch x h) s = run sem (h e) s' := by
  rw [run_tryCatch, hx]

/-- **Inversion of a sequence.** -/
theorem run_bind_inv {r : Except ε β} (h : run sem (x >>= f) s = (r, s')) :
    (∃ a u, run sem x s = (.ok a, u) ∧ run sem (f a) u = (r, s')) ∨
      ∃ e, run sem x s = (.error e, s') ∧ r = .error e := by
  rw [run_bind] at h
  rcases hx : run sem x s with ⟨a | e, u⟩
  · rw [hx] at h
    obtain ⟨rfl, rfl⟩ := Prod.mk.inj h
    exact .inr ⟨_, rfl, rfl⟩
  · rw [hx] at h
    exact .inl ⟨_, u, rfl, h⟩

end Run

theorem bind_pure (x : Program Stmt ε α) : x >>= Pure.pure = x := by
  show bind x .pure = x
  induction x with
  | pure a => rfl
  | throw e => rfl
  | call c k ih =>
      rw [bind]
      exact congrArg _ (funext ih)

/-- Sequences nest either way. -/
theorem bind_bind {γ : Type} (x : Program Stmt ε α) (f : α → Program Stmt ε β)
    (g : β → Program Stmt ε γ) : (x >>= f) >>= g = x >>= fun a => f a >>= g := by
  show bind (bind x f) g = bind x fun a => bind (f a) g
  induction x with
  | pure a => rfl
  | throw e => rfl
  | call c k ih =>
      rw [bind, bind, bind]
      exact congrArg _ (funext ih)

/-- No statement is left to issue. -/
def Ended : Program Stmt ε α → Prop
  | .call _ _ => False
  | _ => True

instance : (p : Program Stmt ε α) → Decidable p.Ended
  | .pure _ => isTrue trivial
  | .throw _ => isTrue trivial
  | .call _ _ => isFalse id

/-- The program came to its end without raising. -/
def Returned : Program Stmt ε α → Prop
  | .pure _ => True
  | _ => False

instance : (p : Program Stmt ε α) → Decidable p.Returned
  | .pure _ => isTrue trivial
  | .throw _ => isFalse id
  | .call _ _ => isFalse id

theorem Returned.ended {p : Program Stmt ε α} (h : p.Returned) : p.Ended := by
  cases p with
  | pure a => trivial
  | throw e => trivial
  | call c k => exact h

/-! ## Properties that every statement keeps -/

/-- Every statement the program can come to issue satisfies `P`. -/
def Within (P : ∀ {β : Type}, Stmt β → Prop) : Program Stmt ε α → Prop
  | .pure _ => True
  | .throw _ => True
  | .call c k => P c ∧ ∀ r, Within P (k r)

section Within
variable {P : ∀ {β : Type}, Stmt β → Prop}

@[simp] theorem within_pure (a : α) : Within P (Pure.pure a : Program Stmt ε α) := trivial

@[simp] theorem within_throw (e : ε) : Within P (MonadExcept.throw e : Program Stmt ε α) :=
  trivial

@[simp] theorem within_issue {c : Stmt α} : Within P (issue c : Program Stmt ε α) ↔ P c :=
  ⟨fun h => h.1, fun h => ⟨h, fun r => by cases r <;> trivial⟩⟩

theorem Within.imp {Q : ∀ {β : Type}, Stmt β → Prop} {x : Program Stmt ε α} (hx : Within P x)
    (h : ∀ {β : Type} (c : Stmt β), P c → Q c) : Within Q x := by
  induction x with
  | pure a => trivial
  | throw e => trivial
  | call c k ih => exact ⟨h c hx.1, fun r => ih r (hx.2 r)⟩

theorem Within.bind {x : Program Stmt ε α} {f : α → Program Stmt ε β} (hx : Within P x)
    (hf : ∀ a, Within P (f a)) : Within P (x >>= f) := by
  induction x with
  | pure a => exact hf a
  | throw e => trivial
  | call c k ih => exact ⟨hx.1, fun r => ih r (hx.2 r)⟩

theorem Within.tryCatch {x : Program Stmt ε α} {h : ε → Program Stmt ε α} (hx : Within P x)
    (hh : ∀ e, Within P (h e)) : Within P (MonadExcept.tryCatch x h) := by
  induction x with
  | pure a => trivial
  | throw e => exact hh e
  | call c k ih => exact ⟨hx.1, fun r => ih r (hx.2 r)⟩

/-- **The frame rule.** What every statement of a program keeps, the program keeps. -/
theorem run_keeps {I : σ → Prop} {sem : Semantics Stmt ε σ}
    (hstmt : ∀ {β : Type} (c : Stmt β) s, P c → I s → I (sem c s).2)
    {x : Program Stmt ε α} (hx : Within P x) {s : σ} (hs : I s) : I (run sem x s).2 := by
  induction x generalizing s with
  | pure a => exact hs
  | throw e => exact hs
  | call c k ih => exact ih _ (hx.2 _) (hstmt c s hx.1 hs)

/-- A program runs alike where its statements do the same. -/
theorem run_congr {sem sem' : Semantics Stmt ε σ}
    (hstmt : ∀ {β : Type} (c : Stmt β) s, P c → sem c s = sem' c s)
    {x : Program Stmt ε α} (hx : Within P x) (s : σ) : run sem x s = run sem' x s := by
  induction x generalizing s with
  | pure a => rfl
  | throw e => rfl
  | call c k ih =>
      rw [run, run, hstmt c s hx.1]
      exact ih _ (hx.2 _) _

end Within

/-! ## What a program can raise -/

/-- Every error the program can end in satisfies `E`, as long as those of its statements do. -/
def Raising (E : ε → Prop) : Program Stmt ε α → Prop
  | .pure _ => True
  | .throw e => E e
  | .call _ k => ∀ r, (∀ e, r = .error e → E e) → Raising E (k r)

section Raising
variable {E : ε → Prop}

theorem raising_pure (a : α) : Raising E (Pure.pure a : Program Stmt ε α) := trivial

theorem raising_issue (c : Stmt α) : Raising E (issue c : Program Stmt ε α) := by
  intro r hr
  cases r with
  | ok a => trivial
  | error e => exact hr e rfl

theorem Raising.bind {x : Program Stmt ε α} {f : α → Program Stmt ε β} (hx : Raising E x)
    (hf : ∀ a, Raising E (f a)) : Raising E (x >>= f) := by
  induction x with
  | pure a => exact hf a
  | throw e => exact hx
  | call c k ih => exact fun r hr => ih r (hx r hr)

/-- What a handler raises: whatever it catches does not matter. -/
theorem raising_tryCatch (x : Program Stmt ε α) {h : ε → Program Stmt ε α}
    (hh : ∀ e, Raising E (h e)) : Raising E (MonadExcept.tryCatch x h) := by
  induction x with
  | pure a => trivial
  | throw e => exact hh e
  | call c k ih => exact fun r _ => ih r

/-- **What a run raises.** -/
theorem run_raises {sem : Semantics Stmt ε σ}
    (hstmt : ∀ {β : Type} (c : Stmt β) s e, (sem c s).1 = .error e → E e)
    {x : Program Stmt ε α} (hx : Raising E x) {s : σ} {e : ε} (h : (run sem x s).1 = .error e) :
    E e := by
  induction x generalizing s with
  | pure a => cases h
  | throw e' =>
      obtain rfl : e' = e := Except.error.inj h
      exact hx
  | call c k ih => exact ih _ (hx _ fun e he => hstmt c s e he) h

end Raising

/-! ## A part that raises -/

/-- Which part of a program raises, and what. -/
structure Fault (κ ε : Type) where
  part : κ
  error : ε

/-- A part under a fault: the one that is struck raises and has no effect. -/
def strike {κ : Type} [DecidableEq κ] (fault : Option (Fault κ ε)) (part : κ)
    (x : Program Stmt ε α) : Program Stmt ε α :=
  match fault.filter (fun f => f.part = part) with
  | some f => .throw f.error
  | none => x

@[simp] theorem strike_none {κ : Type} [DecidableEq κ] (part : κ) (x : Program Stmt ε α) :
    strike none part x = x := rfl

/-- **A part is struck or it is as it was.** -/
theorem strike_cases {κ : Type} [DecidableEq κ] (fault : Option (Fault κ ε)) (part : κ)
    (x : Program Stmt ε α) :
    (∃ e, fault = some ⟨part, e⟩ ∧ strike fault part x = .throw e) ∨
      ((∀ e, fault ≠ some ⟨part, e⟩) ∧ strike fault part x = x) := by
  unfold strike
  cases h : fault.filter (fun f => f.part = part) with
  | some f =>
      obtain ⟨hfault, hpart⟩ := Option.filter_eq_some_iff.mp h
      obtain rfl := of_decide_eq_true hpart
      exact .inl ⟨f.error, hfault, rfl⟩
  | none =>
      refine .inr ⟨fun e hfault => ?_, rfl⟩
      rw [hfault, Option.filter_eq_none_iff] at h
      exact h _ rfl (decide_eq_true rfl)

/-! ## Statements that fail -/

/-- Each statement takes the next of the given failures; one that fails does nothing else. -/
def faulty (sem : Semantics Stmt ε σ) : Semantics Stmt ε (List (Option ε) × σ)
  | _, c, (faults, s) =>
      match faults.headD none with
      | some e => (.error e, (faults.tail, s))
      | none => ((sem c s).1, (faults.tail, (sem c s).2))

/-- The next `n` statements do not fail. -/
def sound : Nat → List (Option ε) → Bool
  | 0, _ => true
  | n + 1, faults => (faults.headD none).isNone && sound n faults.tail

theorem sound_succ (n : Nat) (faults : List (Option ε)) :
    sound (n + 1) faults = (sound 1 faults && sound n faults.tail) := by
  simp [sound]

theorem sound_of_succ {n : Nat} {faults : List (Option ε)} (h : sound (n + 1) faults = true) :
    sound n faults = true := by
  induction n generalizing faults with
  | zero => rfl
  | succ n ih =>
      obtain ⟨hhead, htail⟩ := Bool.and_eq_true_iff.mp h
      exact Bool.and_eq_true_iff.mpr ⟨hhead, ih htail⟩

section Faulty
variable {sem : Semantics Stmt ε σ} {faults : List (Option ε)} {s : σ}

/-- Without failures, a program runs as it does alone. -/
theorem run_faulty_nil (x : Program Stmt ε α) (s : σ) :
    run (faulty sem) x ([], s) = ((run sem x s).1, ([], (run sem x s).2)) := by
  induction x generalizing s with
  | pure a => rfl
  | throw e => rfl
  | call c k ih => exact ih (sem c s).1 (sem c s).2

/-- **A statement fails or does what it does.** -/
theorem run_faulty_issue (c : Stmt α) (faults : List (Option ε)) (s : σ) :
    (∃ e, sound 1 faults = false ∧
      run (faulty sem) (issue c) (faults, s) = (.error e, (faults.tail, s))) ∨
      (sound 1 faults = true ∧
        run (faulty sem) (issue c) (faults, s) =
          ((sem c s).1, (faults.tail, (sem c s).2))) := by
  rw [run_issue, faulty, sound, sound]
  cases faults.headD none with
  | some e => exact .inl ⟨e, rfl, rfl⟩
  | none => exact .inr ⟨rfl, rfl⟩

/-- **The frame rule**, wherever statements fail. -/
theorem run_faulty_keeps {P : ∀ {β : Type}, Stmt β → Prop} {I : σ → Prop}
    (hstmt : ∀ {β : Type} (c : Stmt β) s, P c → I s → I (sem c s).2)
    {x : Program Stmt ε α} (hx : Within P x) (hs : I s) :
    I (run (faulty sem) x (faults, s)).2.2 := by
  refine run_keeps (I := fun u : List (Option ε) × σ => I u.2) (fun c u hc hu => ?_) hx hs
  rw [faulty]
  split
  · exact hu
  · exact hstmt c u.2 hc hu

end Faulty

/-! ## Programs that take turns -/

/-- Programs over one shared state, each where it stands. -/
structure Threads (Stmt : Type → Type) (ε σ ι : Type) where
  shared : σ
  thread : ι → Program Stmt ε Unit

variable {ι : Type} [DecidableEq ι]

/-- One statement of one thread. -/
def turn (sem : Semantics Stmt ε σ) (i : ι) (t : Threads Stmt ε σ ι) :
    Option (Threads Stmt ε σ ι) :=
  match t.thread i with
  | .call c k =>
      some
        { shared := (sem c t.shared).2
          thread := Function.update t.thread i (k (sem c t.shared).1) }
  | _ => none

/-- The machine in which threads take turns, one statement at a time. -/
def interleave (sem : Semantics Stmt ε σ) (init : Threads Stmt ε σ ι → Prop) :
    Machine (Threads Stmt ε σ ι) ι where
  init := init
  step := turn sem

theorem turn_call {sem : Semantics Stmt ε σ} {i : ι} {t : Threads Stmt ε σ ι} {c : Stmt β}
    {k : Except ε β → Program Stmt ε Unit} (h : t.thread i = .call c k) :
    turn sem i t =
      some ⟨(sem c t.shared).2, Function.update t.thread i (k (sem c t.shared).1)⟩ := by
  rw [turn, h]

/-- What follows a statement: the rest of the program where it answers, else what it raised. -/
theorem issue_bind (c : Stmt β) (f : β → Program Stmt ε α) :
    ∃ k, issue c >>= f = .call c k ∧ (∀ b, k (.ok b) = f b) ∧ ∀ e, k (.error e) = .throw e :=
  ⟨_, rfl, fun _ => rfl, fun _ => rfl⟩

theorem turn_issue_ok {sem : Semantics Stmt ε σ} {i : ι} {t : Threads Stmt ε σ ι} {c : Stmt β}
    {f : β → Program Stmt ε Unit} {b : β} {s' : σ} (h : t.thread i = issue c >>= f)
    (hc : sem c t.shared = (.ok b, s')) :
    turn sem i t = some ⟨s', Function.update t.thread i (f b)⟩ := by
  obtain ⟨k, hk, hok, -⟩ := issue_bind (ε := ε) c f
  rw [turn_call (h.trans hk), hc, hok]

theorem turn_issue_error {sem : Semantics Stmt ε σ} {i : ι} {t : Threads Stmt ε σ ι}
    {c : Stmt β} {f : β → Program Stmt ε Unit} {e : ε} {s' : σ} (h : t.thread i = issue c >>= f)
    (hc : sem c t.shared = (.error e, s')) :
    turn sem i t = some ⟨s', Function.update t.thread i (.throw e)⟩ := by
  obtain ⟨k, hk, -, herror⟩ := issue_bind (ε := ε) c f
  rw [turn_call (h.trans hk), hc, herror]

/-- **Inversion of a turn.** -/
theorem turn_inv {sem : Semantics Stmt ε σ} {i : ι} {t t' : Threads Stmt ε σ ι}
    (h : turn sem i t = some t') :
    ∃ (β : Type) (c : Stmt β) (k : Except ε β → Program Stmt ε Unit), t.thread i = .call c k ∧
      t'.shared = (sem c t.shared).2 ∧
      t'.thread = Function.update t.thread i (k (sem c t.shared).1) := by
  unfold turn at h
  split at h
  · obtain rfl := Option.some.inj h
    exact ⟨_, _, _, ‹_›, rfl, rfl⟩
  · cases h

end Program
end AdminPlatform.Lib
