import AdminPlatform.Lib.History

/-! # Errors that come before the deeds

Who is answered with an error of some kinds is to conclude that nothing was done. A program
`Spares` what `P` does not allow if it ends in such an error only where every statement that was
answered is one that `P` allows. `G` are the errors that promise nothing, and those of the
statements are among them.

Nothing has to be taken back then: what may be refused comes first (`Within.bind_spares`), and
after a statement that is not allowed nothing is refused any more (`Raising.spares`). -/

namespace AdminPlatform.Lib.Program
variable {Stmt : Type → Type} {ε σ α β ι : Type}

/-- After each statement it is allowed and the rest spares, or the rest does not refuse. -/
def Spares (P : ∀ {β : Type}, Stmt β → Prop) (G : ε → Prop) : Program Stmt ε α → Prop
  | .pure _ => True
  | .throw _ => True
  | .call c k =>
      (∀ b, (P c ∧ Spares P G (k (.ok b))) ∨ Raising G (k (.ok b))) ∧
        ∀ e, G e → Spares P G (k (.error e))

section Spares
variable {P : ∀ {β : Type}, Stmt β → Prop} {G : ε → Prop}

/-- Errors that are not caught, and those of the handlers of such as are. -/
theorem Raising.tryCatch {x : Program Stmt ε α} {h : ε → Program Stmt ε α} (hx : Raising G x)
    (hh : ∀ e, G e → Raising G (h e)) : Raising G (MonadExcept.tryCatch x h) := by
  induction x with
  | pure a => trivial
  | throw e => exact hh e hx
  | call c k ih => exact fun r hr => ih r (hx r hr)

/-- A program that does not refuse. -/
theorem Raising.spares {x : Program Stmt ε α} (hx : Raising G x) : Spares P G x := by
  induction x with
  | pure a => trivial
  | throw e => trivial
  | call c k ih =>
      have herror : ∀ e, G e → Raising G (k (.error e)) := by
        intro e he
        refine hx (.error e) fun e' heq => ?_
        obtain rfl : e = e' := Except.error.inj heq
        exact he
      exact ⟨fun b => .inr (hx (.ok b) nofun), fun e he => ih _ (herror e he)⟩

/-- A program of allowed statements. -/
theorem Within.spares {x : Program Stmt ε α} (hx : Within P x) : Spares P G x := by
  induction x with
  | pure a => trivial
  | throw e => trivial
  | call c k ih => exact ⟨fun b => .inl ⟨hx.1, ih _ (hx.2 _)⟩, fun e _ => ih _ (hx.2 _)⟩

/-- What may be refused comes first. -/
theorem Within.bind_spares {x : Program Stmt ε α} {f : α → Program Stmt ε β} (hx : Within P x)
    (hf : ∀ a, Spares P G (f a)) : Spares P G (x >>= f) := by
  show Spares P G (Program.bind x f)
  induction x with
  | pure a => exact hf a
  | throw e => trivial
  | call c k ih => exact ⟨fun b => .inl ⟨hx.1, ih _ (hx.2 _)⟩, fun e _ => ih _ (hx.2 _)⟩

/-- What comes after does not refuse. -/
theorem Spares.bind {x : Program Stmt ε α} {f : α → Program Stmt ε β} (hx : Spares P G x)
    (hf : ∀ a, Raising G (f a)) : Spares P G (x >>= f) := by
  show Spares P G (Program.bind x f)
  induction x with
  | pure a => exact (hf a).spares
  | throw e => trivial
  | call c k ih =>
      refine ⟨fun b => ?_, fun e he => ih _ (hx.2 e he)⟩
      rcases hx.1 b with ⟨hc, hk⟩ | hk
      · exact .inl ⟨hc, ih _ hk⟩
      · exact .inr (hk.bind hf)

/-- A handler may refuse where the body has not done anything yet: where it has, it ends in an
error that promises nothing. -/
theorem Spares.tryCatch {x : Program Stmt ε α} {h : ε → Program Stmt ε α} (hx : Spares P G x)
    (hh : ∀ e, Spares P G (h e)) (hgood : ∀ e, G e → Raising G (h e)) :
    Spares P G (MonadExcept.tryCatch x h) := by
  show Spares P G (catching x h)
  induction x with
  | pure a => trivial
  | throw e => exact hh e
  | call c k ih =>
      refine ⟨fun b => ?_, fun e he => ih _ (hx.2 e he)⟩
      rcases hx.1 b with ⟨hc, hk⟩ | hk
      · exact .inl ⟨hc, ih _ hk⟩
      · exact .inr (hk.tryCatch hgood)

end Spares

/-! ## Among threads -/

section Threads
variable [DecidableEq ι] {P : ι → ∀ {β : Type}, Stmt β → Prop} {G : ε → Prop}
  {sem : Semantics Stmt ε σ} {init : (ι → Program Stmt ε Unit) → Prop}
  {t : List (Threads Stmt ε σ ι × (ι × Option ε))} {p : ι → Program Stmt ε Unit} {i : ι}

/-- **A thread that is refused has done only what is allowed**, whatever else changes the state
between its turns. -/
theorem spares_done (hinit : ∀ p, init p → ∀ i, Spares (P i) G (p i))
    (hsem : ∀ {β : Type} (c : Stmt β) s e, (sem c s).1 = .error e → G e)
    (h : Turns sem init t p) (hfaults : ∀ q ∈ t, ∀ e, q.2.2 = some e → G e) (i : ι) :
    (Spares (P i) G (p i) ∧ ∀ d ∈ done sem i t, P i d.stmt) ∨ Raising G (p i) := by
  induction h with
  | start h0 => exact .inl ⟨hinit _ h0 i, nofun⟩
  | @turn t p s l u _ hs ih =>
      have ih := ih fun q hq => hfaults q (List.mem_append_left _ hq)
      rw [done_append]
      rcases thread_of_turn hs i with ⟨hthread, hdone⟩ | ⟨-, β, c, k, hcall, hcase⟩
      · rw [hthread, hdone]
        exact ih
      rw [hcall] at ih
      rcases hcase with ⟨b, s', -, hthread, hdone⟩ | ⟨e, hwhy, hthread, hdone⟩
      · rw [hthread, hdone]
        rcases ih with ⟨hspares, hpast⟩ | hraising
        · refine (hspares.1 b).imp_left fun ⟨hc, hk⟩ => ⟨hk, ?_⟩
          exact List.forall_mem_cons.mpr ⟨hc, hpast⟩
        · exact .inr (hraising (.ok b) nofun)
      · have he : G e := by
          rcases hwhy with hfault | ⟨-, herror⟩
          · exact hfaults _ (List.mem_append_right _ List.mem_cons_self) e hfault
          · exact hsem c s e herror
        rw [hthread, hdone]
        rcases ih with ⟨hspares, hpast⟩ | hraising
        · exact .inl ⟨hspares.2 e he, hpast⟩
        · refine .inr (hraising (.error e) fun e' heq => ?_)
          obtain rfl : e = e' := Except.error.inj heq
          exact he

theorem allowed_of_throw (hinit : ∀ p, init p → ∀ i, Spares (P i) G (p i))
    (hsem : ∀ {β : Type} (c : Stmt β) s e, (sem c s).1 = .error e → G e)
    (h : Turns sem init t p) (hfaults : ∀ q ∈ t, ∀ e, q.2.2 = some e → G e) {e : ε}
    (hend : p i = .throw e) (he : ¬ G e) : ∀ d ∈ done sem i t, P i d.stmt := by
  rcases spares_done hinit hsem h hfaults i with ⟨-, hpast⟩ | hraising
  · exact hpast
  · rw [hend] at hraising
    exact absurd hraising he

end Threads
end AdminPlatform.Lib.Program
