import AdminPlatform.Lib.History

/-! # What a program has done when it ends

`Keeps` asks of a program that returns what it has done by then. `Ends` asks it of a program that
raises, too. A statement may fail only as `F` says; where it cannot fail, the program goes on
with its answer, so what has to be done before the end may be done by such a statement in spite
of a handler that would swallow its error. -/

namespace AdminPlatform.Lib.Program
variable {Stmt : Type → Type} {ε σ α β ι : Type}

/-- Whatever its statements are answered, or fail with under `F`: the past and the outcome that
the program ends with are of `R`. -/
def Ends (F : ∀ {β : Type}, Stmt β → ε → Prop) (R : List (Done Stmt σ) → Except ε α → Prop) :
    Program Stmt ε α → List (Done Stmt σ) → Prop
  | .pure a, past => R past (.ok a)
  | .throw e, past => R past (.error e)
  | .call c k, past => (∀ s b, Ends F R (k (.ok b)) (⟨c, s⟩ :: past)) ∧
      ∀ e, F c e → Ends F R (k (.error e)) past

/-- How a program has ended, if it has. -/
def outcome : Program Stmt ε α → Option (Except ε α)
  | .pure a => some (.ok a)
  | .throw e => some (.error e)
  | .call _ _ => none

section Ends
variable {F : ∀ {β : Type}, Stmt β → ε → Prop} {R : List (Done Stmt σ) → Except ε α → Prop}
  {past : List (Done Stmt σ)}

theorem Ends.outcome {p : Program Stmt ε α} (hp : Ends F R p past) {r : Except ε α}
    (h : p.outcome = some r) : R past r := by
  cases p with
  | pure a =>
      obtain rfl := Option.some.inj h
      exact hp
  | throw e =>
      obtain rfl := Option.some.inj h
      exact hp
  | call c k => cases h

theorem ends_of_forall (h : ∀ past r, R past r) (p : Program Stmt ε α) : Ends F R p past := by
  induction p generalizing past with
  | pure a => exact h _ _
  | throw e => exact h _ _
  | call c k ih => exact ⟨fun s b => ih _, fun e _ => ih _⟩

/-- A part of which nothing is asked. -/
theorem ends_true (p : Program Stmt ε α) : Ends F (fun _ _ => True) p past :=
  ends_of_forall (fun _ _ => trivial) p

/-- What is asked of the end may be replaced by what follows from it, after such a past. -/
theorem Ends.imp {R' : List (Done Stmt σ) → Except ε α → Prop} {p : Program Stmt ε α}
    (hp : Ends F R p past) (h : ∀ later r, past <:+ later → R later r → R' later r) :
    Ends F R' p past := by
  induction p generalizing past with
  | pure a => exact h _ _ (List.suffix_refl _) hp
  | throw e => exact h _ _ (List.suffix_refl _) hp
  | call c k ih =>
      refine ⟨fun s b => ih _ (hp.1 s b) fun later r hlater => ?_, fun e he => ih _ (hp.2 e he) h⟩
      exact h later r ((List.suffix_cons _ _).trans hlater)

/-- The errors a program raises, wherever the statements fail with such. -/
theorem Raising.ends {E : ε → Prop} {p : Program Stmt ε α} (hp : Raising E p)
    (hF : ∀ {β : Type} (c : Stmt β) e, F c e → E e) :
    Ends F (fun _ r => ∀ e, r = .error e → E e) p past := by
  induction p generalizing past with
  | pure a => exact nofun
  | throw e =>
      intro e' he
      obtain rfl : e = e' := Except.error.inj he
      exact hp
  | call c k ih =>
      refine ⟨fun s b => ih _ (hp _ nofun), fun e he => ih _ (hp _ fun e' he' => ?_)⟩
      obtain rfl : e = e' := Except.error.inj he'
      exact hF c e he

/-- A sequence ends where its first part raises, or where the rest ends. -/
theorem Ends.bind {Q : List (Done Stmt σ) → Except ε β → Prop} {x : Program Stmt ε β}
    {f : β → Program Stmt ε α} (hx : Ends F Q x past)
    (hok : ∀ later b, past <:+ later → Q later (.ok b) → Ends F R (f b) later)
    (herror : ∀ later e, past <:+ later → Q later (.error e) → R later (.error e)) :
    Ends F R (x >>= f) past := by
  show Ends F R (Program.bind x f) past
  induction x generalizing past with
  | pure b => exact hok _ b (List.suffix_refl _) hx
  | throw e => exact herror _ e (List.suffix_refl _) hx
  | call c k ih =>
      refine ⟨fun s b => ?_, fun e he => ih _ (hx.2 e he) hok herror⟩
      exact ih _ (hx.1 s b) (fun later b hlater => hok later b ((List.suffix_cons _ _).trans hlater))
        fun later e hlater => herror later e ((List.suffix_cons _ _).trans hlater)

/-- A handler ends the program where the body raises. -/
theorem Ends.tryCatch {Q : List (Done Stmt σ) → Except ε α → Prop} {x : Program Stmt ε α}
    {h : ε → Program Stmt ε α} (hx : Ends F Q x past)
    (hok : ∀ later a, past <:+ later → Q later (.ok a) → R later (.ok a))
    (herror : ∀ later e, past <:+ later → Q later (.error e) → Ends F R (h e) later) :
    Ends F R (MonadExcept.tryCatch x h) past := by
  show Ends F R (catching x h) past
  induction x generalizing past with
  | pure a => exact hok _ a (List.suffix_refl _) hx
  | throw e => exact herror _ e (List.suffix_refl _) hx
  | call c k ih =>
      refine ⟨fun s b => ?_, fun e he => ih _ (hx.2 e he) hok herror⟩
      exact ih _ (hx.1 s b) (fun later a hlater => hok later a ((List.suffix_cons _ _).trans hlater))
        fun later e hlater => herror later e ((List.suffix_cons _ _).trans hlater)

end Ends

/-! ## Among threads -/

section Threads
variable [DecidableEq ι] {F : ∀ {β : Type}, Stmt β → ε → Prop}
  {R : ι → List (Done Stmt σ) → Except ε Unit → Prop} {sem : Semantics Stmt ε σ}
  {init : (ι → Program Stmt ε Unit) → Prop}
  {t : List (Threads Stmt ε σ ι × (ι × Option ε))} {p : ι → Program Stmt ε Unit}

/-- At this turn the statement of the thread fails: a fault strikes it, or the state refuses it. -/
def Failed (sem : Semantics Stmt ε σ) (i : ι) (q : Threads Stmt ε σ ι × (ι × Option ε))
    (c : Stmt β) (e : ε) : Prop :=
  q.2.1 = i ∧ (∃ k, q.1.thread i = .call c k) ∧
    (q.2.2 = some e ∨ q.2.2 = none ∧ (sem c q.1.shared).1 = .error e)

/-- **A thread that has ended has done what it had to**, whatever else changes the state between
its turns, as long as its statements fail only as they may. -/
theorem ends_done (hinit : ∀ p, init p → ∀ i, Ends F (R i) (p i) [])
    (h : Turns sem init t p) (i : ι)
    (hfails : ∀ q ∈ t, ∀ {β : Type} (c : Stmt β) e, Failed sem i q c e → F c e) :
    Ends F (R i) (p i) (done sem i t) := by
  induction h with
  | start h0 => exact hinit _ h0 i
  | @turn t p s l u _ hs ih =>
      have ih := ih fun q hq => hfails q (List.mem_append_left _ hq)
      rw [done_append]
      rcases thread_of_turn hs i with ⟨hthread, hdone⟩ | ⟨hown, β, c, k, hcall, hcase⟩
      · rw [hthread, hdone]
        exact ih
      rw [hcall] at ih
      rcases hcase with ⟨b, s', -, hthread, hdone⟩ | ⟨e, hwhy, hthread, hdone⟩
      · rw [hthread, hdone]
        exact ih.1 s b
      · rw [hthread, hdone]
        refine ih.2 e (hfails _ (List.mem_append_right _ List.mem_cons_self) c e ?_)
        exact ⟨hown, ⟨k, hcall⟩, hwhy⟩

end Threads
end AdminPlatform.Lib.Program
