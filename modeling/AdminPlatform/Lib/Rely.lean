import AdminPlatform.Lib.Program

/-! # Programs under interference

Between the statements of a program others change the shared state. What they leave is an
invariant and, from one state to the next, a relation (the *rely*); what the program is to
keep to is which statements it may issue in which states (the *guarantee*). A program is
`Under` such an interference from a state on if it issues no other statements, whatever the
others do in between, and wherever a statement of it fails.

The rules follow the program (`Under.bind`, `Under.tryCatch`, `under_issue`). Programs that
take turns and are all under one interference stay so, as long as each turn keeps to it
(`Threads.Sound.turn_inv`). -/

namespace AdminPlatform.Lib.Program
variable {Stmt : Type → Type} {ε σ α β ι : Type}

/-- What others may do, and what a program may do itself. -/
structure Interference (Stmt : Type → Type) (σ : Type) where
  inv : σ → Prop
  rely : σ → σ → Prop
  refl : ∀ s, rely s s
  trans : ∀ {s u v}, rely s u → rely u v → rely s v
  allows : ∀ {β : Type}, Stmt β → σ → Prop

/-- From `s` on the program issues what is allowed, and ends in a result that `Q` holds of. -/
def Under (J : Interference Stmt σ) (sem : Semantics Stmt ε σ) (Q : α → σ → Prop) :
    Program Stmt ε α → σ → Prop
  | .pure a, s => ∀ u, J.inv u → J.rely s u → Q a u
  | .throw _, _ => True
  | .call c k, s => ∀ u, J.inv u → J.rely s u → J.allows c u ∧
      (J.rely u (sem c u).2 → Under J sem Q (k (sem c u).1) (sem c u).2) ∧
      ∀ e, Under J sem Q (k (.error e)) u

section Under
variable {J : Interference Stmt σ} {sem : Semantics Stmt ε σ} {Q : α → σ → Prop} {s : σ}

/-- Interference before the program is nothing new to it. -/
theorem Under.mono {p : Program Stmt ε α} (h : Under J sem Q p s) {u : σ} (hu : J.rely s u) :
    Under J sem Q p u := by
  cases p with
  | pure a => exact fun v hv huv => h v hv (J.trans hu huv)
  | throw e => trivial
  | call c k => exact fun v hv huv => h v hv (J.trans hu huv)

/-- A program is under an interference if it is from every state the others may leave first. -/
theorem under_of_later {p : Program Stmt ε α}
    (h : ∀ u, J.inv u → J.rely s u → Under J sem Q p u) : Under J sem Q p s := by
  cases p with
  | pure a => exact fun u hu hsu => h u hu hsu u hu (J.refl u)
  | throw e => trivial
  | call c k => exact fun u hu hsu => h u hu hsu u hu (J.refl u)

/-- One statement: what it answers is still so after more interference. -/
theorem under_issue {c : Stmt α} (h : ∀ u, J.inv u → J.rely s u → J.allows c u ∧
    ∀ a u', sem c u = (.ok a, u') → J.rely u u' → ∀ v, J.inv v → J.rely u' v → Q a v) :
    Under J sem Q (issue c) s := by
  intro u hu hsu
  obtain ⟨hallows, hanswer⟩ := h u hu hsu
  refine ⟨hallows, fun hself => ?_, fun e => trivial⟩
  beta_reduce at hself ⊢
  rcases hsem : sem c u with ⟨e | a, u'⟩ <;> rw [hsem] at hself
  · trivial
  · exact fun v hv huv => hanswer a u' hsem hself v hv huv

theorem Under.bind {Q' : β → σ → Prop} {x : Program Stmt ε β} {f : β → Program Stmt ε α}
    (hx : Under J sem Q' x s)
    (hf : ∀ b u, J.inv u → J.rely s u → Q' b u → Under J sem Q (f b) u) :
    Under J sem Q (x >>= f) s := by
  show Under J sem Q (Program.bind x f) s
  induction x generalizing s with
  | pure b => exact under_of_later fun u hu hsu => hf b u hu hsu (hx u hu hsu)
  | throw e => trivial
  | call c k ih =>
      intro u hu hsu
      obtain ⟨hallows, hok, herror⟩ := hx u hu hsu
      refine ⟨hallows, fun hself => ih _ (hok hself) ?_, fun e => ih _ (herror e) ?_⟩
      · exact fun b v hv huv => hf b v hv (J.trans hsu (J.trans hself huv))
      · exact fun b v hv huv => hf b v hv (J.trans hsu huv)

/-- A handler may be entered in any state the others and the program leave. -/
theorem Under.tryCatch {x : Program Stmt ε α} {h : ε → Program Stmt ε α}
    (hx : Under J sem Q x s) (hh : ∀ e u, Under J sem Q (h e) u) :
    Under J sem Q (MonadExcept.tryCatch x h) s := by
  show Under J sem Q (catching x h) s
  induction x generalizing s with
  | pure a => exact hx
  | throw e => exact hh e s
  | call c k ih =>
      intro u hu hsu
      obtain ⟨hallows, hok, herror⟩ := hx u hu hsu
      exact ⟨hallows, fun hself => ih _ (hok hself), fun e => ih _ (herror e)⟩

/-- A program whose statements are allowed anywhere. -/
theorem under_of_within {P : ∀ {β : Type}, Stmt β → Prop} {p : Program Stmt ε α}
    (hp : Within P p) (hP : ∀ {β : Type} (c : Stmt β) u, P c → J.allows c u) :
    Under J sem (fun _ _ => True) p s := by
  induction p generalizing s with
  | pure a => exact fun _ _ _ => trivial
  | throw e => trivial
  | call c k ih =>
      intro u _ _
      exact ⟨hP c u hp.1, fun _ => ih _ (hp.2 _), fun e => ih _ (hp.2 _)⟩

end Under

/-! ## Taking turns, and failing -/

variable [DecidableEq ι]

/-- One statement of one thread, which may fail and then changes nothing. -/
def faultyTurn (sem : Semantics Stmt ε σ) (l : ι × Option ε) (t : Threads Stmt ε σ ι) :
    Option (Threads Stmt ε σ ι) :=
  match l.2 with
  | none => turn sem l.1 t
  | some e =>
      match t.thread l.1 with
      | .call _ k => some { t with thread := Function.update t.thread l.1 (k (.error e)) }
      | _ => none

/-- The machine in which threads take turns and may fail at any statement. -/
def faultyInterleave (sem : Semantics Stmt ε σ) (init : Threads Stmt ε σ ι → Prop) :
    Machine (Threads Stmt ε σ ι) (ι × Option ε) where
  init := init
  step := faultyTurn sem

/-- The state keeps the invariant, and every thread is under the interference. -/
structure Threads.Sound (J : Interference Stmt σ) (sem : Semantics Stmt ε σ)
    (t : Threads Stmt ε σ ι) : Prop where
  inv : J.inv t.shared
  thread : ∀ i, Under J sem (fun _ _ => True) (t.thread i) t.shared

/-- **Inversion of a turn** among programs under an interference: nothing is changed, or an
allowed statement was issued; and they stay under it, if the turn keeps to it. -/
theorem Threads.Sound.turn_inv {J : Interference Stmt σ} {sem : Semantics Stmt ε σ}
    {t t' : Threads Stmt ε σ ι} (ht : t.Sound J sem) {l : ι × Option ε}
    (hturn : faultyTurn sem l t = some t') :
    (t'.shared = t.shared ∨ ∃ (β : Type) (c : Stmt β) (k : Except ε β → Program Stmt ε Unit),
      l.2 = none ∧ t.thread l.1 = .call c k ∧ J.allows c t.shared ∧
        t'.shared = (sem c t.shared).2) ∧
      (J.inv t'.shared → J.rely t.shared t'.shared → t'.Sound J sem) := by
  have hothers : ∀ {rest : Program Stmt ε Unit},
      t'.thread = Function.update t.thread l.1 rest → J.rely t.shared t'.shared →
      Under J sem (fun _ _ => True) rest t'.shared →
      ∀ i, Under J sem (fun _ _ => True) (t'.thread i) t'.shared := by
    intro rest hthread hrely hrest i
    rw [hthread]
    by_cases hi : i = l.1
    · subst hi
      rwa [Function.update_self]
    · rw [Function.update_of_ne hi]
      exact (ht.thread i).mono hrely
  unfold faultyTurn at hturn
  split at hturn
  · rename_i hnone
    obtain ⟨β, c, k, hcall, hshared, hthread⟩ := Program.turn_inv hturn
    have hunder := ht.thread l.1
    rw [hcall] at hunder
    obtain ⟨hallows, hok, -⟩ := hunder t.shared ht.inv (J.refl _)
    rw [← hshared] at hok
    exact ⟨.inr ⟨β, c, k, hnone, hcall, hallows, hshared⟩, fun hinv hrely =>
      ⟨hinv, hothers hthread hrely (hok hrely)⟩⟩
  · rename_i e _
    split at hturn
    · rename_i β c k hcall
      obtain rfl := Option.some.inj hturn
      have hunder := ht.thread l.1
      rw [hcall] at hunder
      obtain ⟨-, -, herror⟩ := hunder t.shared ht.inv (J.refl _)
      exact ⟨.inl rfl, fun hinv hrely => ⟨hinv, hothers rfl hrely (herror e)⟩⟩
    · cases hturn

end AdminPlatform.Lib.Program
