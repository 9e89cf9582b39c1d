import AdminPlatform.Lib.Rely

/-! # What a statement hands on to the next

Some statements of a program carry on what the statement right before them has left: `carries`
says what a statement takes for given, `hands` what one leaves for the next. A program
`HandsOn` if whatever its next statement carries has just been handed to it, by a statement
that answered. Nothing is carried past a failure.

The rules follow the program (`Orderly.bind`, `Orderly.tryCatch`, `handsOn_issue_bind`); among
programs that take turns, a turn hands to the one whose turn it is only (`HandsOn.turn_inv`). -/

namespace AdminPlatform.Lib.Program
variable {Stmt : Type → Type} {ε σ α β γ ι : Type}

/-- What the next statement carries. -/
def due (carries : ∀ {β : Type}, Stmt β → Option γ) : Program Stmt ε α → Option γ
  | .call c _ => carries c
  | _ => none

/-- Whatever is carried has just been handed on. -/
def HandsOn (carries hands : ∀ {β : Type}, Stmt β → Option γ) : Program Stmt ε α → Prop
  | .call c k =>
      (∀ b, ∀ g ∈ due carries (k (.ok b)), hands c = some g) ∧
        (∀ e, due carries (k (.error e)) = none) ∧ ∀ r, HandsOn carries hands (k r)
  | _ => True

section HandsOn
variable {carries hands : ∀ {β : Type}, Stmt β → Option γ}

/-- What follows carries nothing, so what is due is due in the first part. -/
theorem due_bind {x : Program Stmt ε β} {f : β → Program Stmt ε α}
    (hf : ∀ b, due carries (f b) = none) : due carries (x >>= f) = due carries x := by
  cases x with
  | pure b => exact hf b
  | throw e => rfl
  | call c k => rfl

theorem due_tryCatch {x : Program Stmt ε α} {h : ε → Program Stmt ε α}
    (hh : ∀ e, due carries (h e) = none) :
    due carries (MonadExcept.tryCatch x h) = due carries x := by
  cases x with
  | pure a => rfl
  | throw e => exact hh e
  | call c k => rfl

theorem HandsOn.bind {x : Program Stmt ε β} {f : β → Program Stmt ε α}
    (hx : HandsOn carries hands x) (hf : ∀ b, HandsOn carries hands (f b))
    (hnext : ∀ b, due carries (f b) = none) : HandsOn carries hands (x >>= f) := by
  show HandsOn carries hands (Program.bind x f)
  induction x with
  | pure b => exact hf b
  | throw e => trivial
  | call c k ih =>
      obtain ⟨hok, herror, hrest⟩ := hx
      have hdue : ∀ r, due carries (Program.bind (k r) f) = due carries (k r) :=
        fun r => due_bind hnext
      refine ⟨fun b g hg => hok b g ?_, fun e => ?_, fun r => ih r (hrest r)⟩
      · rwa [hdue] at hg
      · rw [hdue]
        exact herror e

theorem HandsOn.tryCatch {x : Program Stmt ε α} {h : ε → Program Stmt ε α}
    (hx : HandsOn carries hands x) (hh : ∀ e, HandsOn carries hands (h e))
    (hnext : ∀ e, due carries (h e) = none) :
    HandsOn carries hands (MonadExcept.tryCatch x h) := by
  show HandsOn carries hands (catching x h)
  induction x with
  | pure a => trivial
  | throw e => exact hh e
  | call c k ih =>
      obtain ⟨hok, herror, hrest⟩ := hx
      have hdue : ∀ r, due carries (catching (k r) h) = due carries (k r) :=
        fun r => due_tryCatch hnext
      refine ⟨fun b g hg => hok b g ?_, fun e => ?_, fun r => ih r (hrest r)⟩
      · rwa [hdue] at hg
      · rw [hdue]
        exact herror e

/-- A statement hands on to what follows it. -/
theorem handsOn_issue_bind {c : Stmt β} {f : β → Program Stmt ε α}
    (hnext : ∀ b, ∀ g ∈ due carries (f b), hands c = some g)
    (hf : ∀ b, HandsOn carries hands (f b)) :
    HandsOn carries hands ((issue c : Program Stmt ε β) >>= f) := by
  refine ⟨hnext, fun e => rfl, fun r => ?_⟩
  cases r with
  | ok b => exact hf b
  | error e => trivial

/-- A program whose statements carry nothing. -/
theorem due_of_within {P : ∀ {β : Type}, Stmt β → Prop} {x : Program Stmt ε α} (hx : Within P x)
    (hP : ∀ {β : Type} (c : Stmt β), P c → carries c = none) : due carries x = none := by
  cases x with
  | pure a => rfl
  | throw e => rfl
  | call c k => exact hP c hx.1

theorem handsOn_of_within {P : ∀ {β : Type}, Stmt β → Prop} {x : Program Stmt ε α}
    (hx : Within P x) (hP : ∀ {β : Type} (c : Stmt β), P c → carries c = none) :
    HandsOn carries hands x := by
  induction x with
  | pure a => trivial
  | throw e => trivial
  | call c k ih =>
      have hnone : ∀ r, due carries (k r) = none := fun r => due_of_within (hx.2 r) hP
      refine ⟨fun b g hg => ?_, fun e => hnone _, fun r => ih r (hx.2 r)⟩
      rw [hnone] at hg
      cases hg

/-- It hands on, and starts with nothing due. -/
structure Orderly (carries hands : ∀ {β : Type}, Stmt β → Option γ) (x : Program Stmt ε α) :
    Prop where
  handsOn : HandsOn carries hands x
  due : due carries x = none

theorem orderly_of_within {P : ∀ {β : Type}, Stmt β → Prop} {x : Program Stmt ε α}
    (hx : Within P x) (hP : ∀ {β : Type} (c : Stmt β), P c → carries c = none) :
    Orderly carries hands x := ⟨handsOn_of_within hx hP, due_of_within hx hP⟩

theorem Orderly.bind {x : Program Stmt ε β} {f : β → Program Stmt ε α}
    (hx : Orderly carries hands x) (hf : ∀ b, Orderly carries hands (f b)) :
    Orderly carries hands (x >>= f) := by
  have hnext : ∀ b, Program.due carries (f b) = none := fun b => (hf b).due
  exact ⟨hx.handsOn.bind (fun b => (hf b).handsOn) hnext, (due_bind hnext).trans hx.due⟩

theorem Orderly.tryCatch {x : Program Stmt ε α} {h : ε → Program Stmt ε α}
    (hx : Orderly carries hands x) (hh : ∀ e, Orderly carries hands (h e)) :
    Orderly carries hands (MonadExcept.tryCatch x h) := by
  have hnext : ∀ e, Program.due carries (h e) = none := fun e => (hh e).due
  exact ⟨hx.handsOn.tryCatch (fun e => (hh e).handsOn) hnext, (due_tryCatch hnext).trans hx.due⟩

/-- **Inversion of a turn** among programs that hand on: the others stay where they are, and
what is due next was handed on by the statement of this turn. -/
theorem HandsOn.turn_inv [DecidableEq ι] {sem : Semantics Stmt ε σ}
    {t t' : Threads Stmt ε σ ι} (ht : ∀ i, HandsOn carries hands (t.thread i)) {l : ι × Option ε}
    (hturn : faultyTurn sem l t = some t') :
    (∀ i, HandsOn carries hands (t'.thread i)) ∧ (∀ i, i ≠ l.1 → t'.thread i = t.thread i) ∧
      ∀ g ∈ due carries (t'.thread l.1), ∃ (β : Type) (c : Stmt β)
        (k : Except ε β → Program Stmt ε Unit) (b : β), l.2 = none ∧ t.thread l.1 = .call c k ∧
          hands c = some g ∧ sem c t.shared = (.ok b, t'.shared) := by
  have hothers : ∀ {rest : Program Stmt ε Unit},
      t'.thread = Function.update t.thread l.1 rest → HandsOn carries hands rest →
      (∀ i, HandsOn carries hands (t'.thread i)) ∧ ∀ i, i ≠ l.1 → t'.thread i = t.thread i := by
    intro rest hthread hrest
    rw [hthread]
    refine ⟨fun i => ?_, fun i hi => Function.update_of_ne hi _ _⟩
    by_cases hi : i = l.1
    · subst hi
      rwa [Function.update_self]
    · rw [Function.update_of_ne hi]
      exact ht i
  unfold faultyTurn at hturn
  split at hturn
  · rename_i hnone
    obtain ⟨β, c, k, hcall, hshared, hthread⟩ := Program.turn_inv hturn
    have hhands := ht l.1
    rw [hcall] at hhands
    obtain ⟨hok, herror, hrest⟩ := hhands
    obtain ⟨hall, hsame⟩ := hothers hthread (hrest _)
    refine ⟨hall, hsame, fun g hg => ?_⟩
    rw [hthread, Function.update_self] at hg
    rcases hsem : sem c t.shared with ⟨e | b, u⟩
    · rw [hsem, herror] at hg
      cases hg
    · rw [hsem] at hg hshared
      exact ⟨β, c, k, b, hnone, hcall, hok b g hg, by rw [hsem, hshared]⟩
  · rename_i e _
    split at hturn
    · rename_i β c k hcall
      obtain rfl := Option.some.inj hturn
      have hhands := ht l.1
      rw [hcall] at hhands
      obtain ⟨hok, herror, hrest⟩ := hhands
      obtain ⟨hall, hsame⟩ := hothers rfl (hrest _)
      refine ⟨hall, hsame, fun g hg => ?_⟩
      simp only [Function.update_self, herror] at hg
      cases hg
    · cases hturn

end HandsOn
end AdminPlatform.Lib.Program
