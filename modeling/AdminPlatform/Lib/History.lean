import AdminPlatform.Lib.Rely
import Mathlib.Data.List.Basic

/-! # What a program has done before

A program is free to issue a statement because of what it issued before: it has checked
something, or written something. `Done` is a statement that was answered, with the state it
was executed in, and a *past* is the list of those, the newest first.

A program `Keeps` to a guarantee if, whatever its statements are answered, each is one that the
guarantee allows after the past it has by then. The rules follow the program (`Keeps.bind`,
`Keeps.tryCatch`); nothing is asked of the states in between, so others may have changed
everything.

Among programs that take turns and may fail at any statement, `done` reads the past of a
thread off the trace. Every thread keeps to its guarantee on it (`keeps_done`), whatever else
changes the state between the turns; and where nothing else does, what every allowed statement
keeps, given that it held in the states of the past, holds throughout (`Run.guaranteed`). -/

namespace AdminPlatform.Lib.Program
variable {Stmt : Type → Type} {ε σ α β ι : Type}

/-- A statement that was answered, and the state it was executed in. -/
structure Done (Stmt : Type → Type) (σ : Type) : Type 1 where
  {β : Type}
  stmt : Stmt β
  state : σ

/-- After which pasts a statement may be issued. -/
abbrev Guarantee (Stmt : Type → Type) (σ : Type) : Type 1 :=
  List (Done Stmt σ) → ∀ {β : Type}, Stmt β → Prop

/-- After `past` the program issues what is allowed, and where it returns, `Q` holds of the past
and the result. -/
def Keeps (sem : Semantics Stmt ε σ) (allows : Guarantee Stmt σ)
    (Q : List (Done Stmt σ) → α → Prop) : Program Stmt ε α → List (Done Stmt σ) → Prop
  | .pure a, past => Q past a
  | .throw _, _ => True
  | .call c k, past => allows past c ∧
      (∀ s b s', sem c s = (.ok b, s') → Keeps sem allows Q (k (.ok b)) (⟨c, s⟩ :: past)) ∧
      ∀ e, Keeps sem allows Q (k (.error e)) past

section Keeps
variable {sem : Semantics Stmt ε σ} {allows : Guarantee Stmt σ}
  {Q : List (Done Stmt σ) → α → Prop} {past : List (Done Stmt σ)}

theorem keeps_pure {a : α} (h : Q past a) :
    Keeps sem allows Q (Pure.pure a : Program Stmt ε α) past := h

theorem keeps_throw (e : ε) : Keeps sem allows Q (MonadExcept.throw e : Program Stmt ε α) past :=
  trivial

/-- What is allowed, and what is asked of the result, may be replaced by what follows from it
after the past the program starts with. -/
theorem Keeps.imp {allows' : Guarantee Stmt σ} {Q' : List (Done Stmt σ) → α → Prop}
    {p : Program Stmt ε α} (hp : Keeps sem allows Q p past)
    (hallows : ∀ later, past <:+ later → ∀ {β : Type} (c : Stmt β), allows later c →
      allows' later c)
    (hQ : ∀ later, past <:+ later → ∀ a, Q later a → Q' later a) :
    Keeps sem allows' Q' p past := by
  induction p generalizing past with
  | pure a => exact hQ past (List.suffix_refl _) a hp
  | throw e => trivial
  | call c k ih =>
      obtain ⟨hallowed, hok, herror⟩ := hp
      refine ⟨hallows past (List.suffix_refl _) c hallowed, fun s b s' hsem => ?_, fun e => ?_⟩
      · have hlater : ∀ later, (⟨c, s⟩ :: past) <:+ later → past <:+ later :=
          fun later h => (List.suffix_cons _ _).trans h
        exact ih _ (hok s b s' hsem) (fun later h => hallows later (hlater later h))
          fun later h => hQ later (hlater later h)
      · exact ih _ (herror e) hallows hQ

/-- A sequence: the rest starts with the past of the first part. -/
theorem Keeps.bind {R : List (Done Stmt σ) → β → Prop} {x : Program Stmt ε β}
    {f : β → Program Stmt ε α} (hx : Keeps sem allows R x past)
    (hf : ∀ later b, past <:+ later → R later b → Keeps sem allows Q (f b) later) :
    Keeps sem allows Q (x >>= f) past := by
  show Keeps sem allows Q (Program.bind x f) past
  induction x generalizing past with
  | pure b => exact hf past b (List.suffix_refl _) hx
  | throw e => trivial
  | call c k ih =>
      obtain ⟨hallowed, hok, herror⟩ := hx
      refine ⟨hallowed, fun s b s' hsem => ?_, fun e => ?_⟩
      · exact ih _ (hok s b s' hsem) fun later b' hlater =>
          hf later b' ((List.suffix_cons _ _).trans hlater)
      · exact ih _ (herror e) hf

/-- A handler starts with whatever past the body had by then. -/
theorem Keeps.tryCatch {x : Program Stmt ε α} {h : ε → Program Stmt ε α}
    (hx : Keeps sem allows Q x past)
    (hh : ∀ later e, past <:+ later → Keeps sem allows Q (h e) later) :
    Keeps sem allows Q (MonadExcept.tryCatch x h) past := by
  show Keeps sem allows Q (catching x h) past
  induction x generalizing past with
  | pure a => exact hx
  | throw e => exact hh past e (List.suffix_refl _)
  | call c k ih =>
      obtain ⟨hallowed, hok, herror⟩ := hx
      refine ⟨hallowed, fun s b s' hsem => ?_, fun e => ?_⟩
      · exact ih _ (hok s b s' hsem) fun later e hlater =>
          hh later e ((List.suffix_cons _ _).trans hlater)
      · exact ih _ (herror e) hh

/-- A program whose statements are allowed after any such past. -/
theorem Keeps.of_within {P : ∀ {β : Type}, Stmt β → Prop} {p : Program Stmt ε α}
    (hp : Within P p) (hP : ∀ later, past <:+ later → ∀ {β : Type} (c : Stmt β), P c →
      allows later c) : Keeps sem allows (fun _ _ => True) p past := by
  induction p generalizing past with
  | pure a => trivial
  | throw e => trivial
  | call c k ih =>
      refine ⟨hP past (List.suffix_refl _) c hp.1, fun s b s' _ => ?_, fun e => ?_⟩
      · exact ih _ (hp.2 _) fun later hlater => hP later ((List.suffix_cons _ _).trans hlater)
      · exact ih _ (hp.2 _) hP

end Keeps

/-! ## The past of a thread -/

section Threads
variable [DecidableEq ι]

/-- What a turn adds to the past of a thread. -/
def doneBy (sem : Semantics Stmt ε σ) (i : ι) (p : Threads Stmt ε σ ι × (ι × Option ε)) :
    Option (Done Stmt σ) :=
  match p.2.2, p.1.thread i with
  | none, .call c _ => if p.2.1 = i ∧ (sem c p.1.shared).1.isOk then some ⟨c, p.1.shared⟩ else none
  | _, _ => none

/-- The past of a thread, after a trace. -/
def done (sem : Semantics Stmt ε σ) (i : ι) (t : List (Threads Stmt ε σ ι × (ι × Option ε))) :
    List (Done Stmt σ) :=
  (t.filterMap (doneBy sem i)).reverse

variable {sem : Semantics Stmt ε σ} {i : ι} {t : List (Threads Stmt ε σ ι × (ι × Option ε))}
  {u : Threads Stmt ε σ ι} {l : ι × Option ε}

theorem done_append (p : Threads Stmt ε σ ι × (ι × Option ε)) :
    done sem i (t ++ [p]) = (doneBy sem i p).toList ++ done sem i t := by
  rw [done, List.filterMap_append, List.reverse_append]
  cases h : doneBy sem i p <;> simp [h, done]

/-- A past only grows. -/
theorem done_suffix (p : Threads Stmt ε σ ι × (ι × Option ε)) :
    done sem i t <:+ done sem i (t ++ [p]) := by
  rw [done_append]
  exact List.suffix_append _ _

/-- What a turn adds to a past was the thread's to issue, and did not fail. -/
theorem doneBy_eq_some {p : Threads Stmt ε σ ι × (ι × Option ε)} {d : Done Stmt σ}
    (h : doneBy sem i p = some d) :
    p.2 = (i, none) ∧ p.1.shared = d.state ∧ ∃ k, p.1.thread i = .call d.stmt k := by
  obtain ⟨u, j, fault⟩ := p
  unfold doneBy at h
  split at h
  · rename_i β c k hfault hcall
    split at h
    · rename_i hown
      obtain rfl := Option.some.inj h
      obtain rfl : j = i := hown.1
      obtain rfl : fault = none := hfault
      exact ⟨rfl, rfl, k, hcall⟩
    · cases h
  · cases h

/-- **What a thread has done it did in the run**, at a turn of its own that did not fail. -/
theorem mem_done {d : Done Stmt σ} (h : d ∈ done sem i t) :
    ∃ p ∈ t, p.2 = (i, none) ∧ p.1.shared = d.state ∧ ∃ k, p.1.thread i = .call d.stmt k := by
  obtain ⟨p, hp, hdone⟩ := List.mem_filterMap.mp (List.mem_reverse.mp h)
  exact ⟨p, hp, doneBy_eq_some hdone⟩

/-- The states of a past are states of the trace, in their order. -/
theorem states_done_sublist (i : ι) (t : List (Threads Stmt ε σ ι × (ι × Option ε))) :
    ((done sem i t).map Done.state).reverse.Sublist (t.map fun p => p.1.shared) := by
  rw [done, List.map_reverse, List.reverse_reverse]
  induction t with
  | nil => exact .slnil
  | cons p t ih =>
      cases h : doneBy sem i p with
      | none =>
          rw [List.filterMap_cons_none h]
          exact ih.cons _
      | some d =>
          rw [List.filterMap_cons_some h, List.map_cons, List.map_cons, ← (doneBy_eq_some h).2.1]
          exact ih.cons_cons _

/-- A turn of another thread, and one that failed, adds nothing. -/
theorem doneBy_eq_none (h : l.1 ≠ i ∨ l.2.isSome) : doneBy sem i (u, l) = none := by
  unfold doneBy
  split
  · rename_i hfault _
    rw [if_neg]
    rintro ⟨hown, -⟩
    rcases h with hother | hfails
    · exact hother hown
    · rw [hfault] at hfails
      cases hfails
  · rfl

/-- A statement that answers is added. -/
theorem doneBy_ok {c : Stmt β} {k : Except ε β → Program Stmt ε Unit} {b : β} {s' : σ}
    (hcall : u.thread i = .call c k) (hsem : sem c u.shared = (.ok b, s')) :
    doneBy sem i (u, (i, none)) = some ⟨c, u.shared⟩ := by
  unfold doneBy
  rw [hcall]
  simp [hsem, Except.isOk, Except.toBool]

theorem doneBy_error {c : Stmt β} {k : Except ε β → Program Stmt ε Unit} {e : ε} {s' : σ}
    (hcall : u.thread i = .call c k) (hsem : sem c u.shared = (.error e, s')) :
    doneBy sem i (u, (i, none)) = none := by
  unfold doneBy
  rw [hcall]
  simp [hsem, Except.isOk, Except.toBool]

/-- **What a turn does to a thread.** It is another's, or the thread's statement answers and is
done, or its statement fails and adds nothing. -/
theorem thread_of_turn {p : ι → Program Stmt ε Unit} {s : σ} (h : faultyTurn sem l ⟨s, p⟩ = some u)
    (i : ι) :
    (u.thread i = p i ∧ doneBy sem i (⟨s, p⟩, l) = none) ∨
      l.1 = i ∧ ∃ (β : Type) (c : Stmt β) (k : Except ε β → Program Stmt ε Unit),
        p i = .call c k ∧
          ((∃ b s', sem c s = (.ok b, s') ∧ u.thread i = k (.ok b) ∧
              doneBy sem i (⟨s, p⟩, l) = some ⟨c, s⟩) ∨
            ∃ e, (l.2 = some e ∨ l.2 = none ∧ (sem c s).1 = .error e) ∧
              u.thread i = k (.error e) ∧ doneBy sem i (⟨s, p⟩, l) = none) := by
  obtain ⟨j, fault⟩ := l
  by_cases hown : j = i
  · subst hown
    unfold faultyTurn at h
    split at h
    · rename_i hfault
      obtain rfl : fault = none := hfault
      obtain ⟨β, c, k, hcall, -, hthread⟩ := Program.turn_inv h
      refine .inr ⟨rfl, β, c, k, hcall, ?_⟩
      rw [hthread, Function.update_self]
      rcases hsem : sem c s with ⟨e | b, s'⟩
      · exact .inr ⟨e, .inr ⟨rfl, rfl⟩, rfl, doneBy_error hcall hsem⟩
      · exact .inl ⟨b, s', rfl, rfl, doneBy_ok hcall hsem⟩
    · rename_i e hfault
      obtain rfl : fault = some e := hfault
      split at h
      · rename_i β c k hcall
        obtain rfl := Option.some.inj h
        refine .inr ⟨rfl, β, c, k, hcall, .inr ⟨e, .inl rfl, ?_, doneBy_eq_none (.inr rfl)⟩⟩
        exact Function.update_self ..
      · cases h
  · refine .inl ⟨?_, doneBy_eq_none (.inl hown)⟩
    unfold faultyTurn at h
    split at h
    · obtain ⟨β, c, k, -, -, hthread⟩ := Program.turn_inv h
      rw [hthread, Function.update_of_ne (Ne.symm hown)]
    · split at h
      · obtain rfl := Option.some.inj h
        exact Function.update_of_ne (Ne.symm hown) ..
      · cases h

/-- What a turn adds to a past it has done: the state is what the statement left. -/
theorem shared_of_doneBy {d : Done Stmt σ} {u' : Threads Stmt ε σ ι}
    (hdone : doneBy sem i (u, l) = some d) (hturn : faultyTurn sem l u = some u') :
    d.state = u.shared ∧ (sem d.stmt d.state).1.isOk = true ∧
      u'.shared = (sem d.stmt d.state).2 := by
  obtain ⟨j, fault⟩ := l
  unfold doneBy at hdone
  split at hdone
  · rename_i β c k hfault hcall
    split at hdone
    · rename_i hown
      obtain rfl := Option.some.inj hdone
      obtain rfl : fault = none := hfault
      obtain rfl : j = i := hown.1
      obtain ⟨γ, c', k', hcall', hshared, -⟩ := Program.turn_inv (show turn sem j u = some u' from hturn)
      rw [hcall] at hcall'
      cases hcall'
      exact ⟨rfl, hown.2, hshared⟩
    · cases hdone
  · cases hdone

/-! ### Turns -/

/-- The turns of threads, among whatever else changes the state: a turn is made in any state. -/
inductive Turns (sem : Semantics Stmt ε σ) (init : (ι → Program Stmt ε Unit) → Prop) :
    List (Threads Stmt ε σ ι × (ι × Option ε)) → (ι → Program Stmt ε Unit) → Prop
  | start {p} : init p → Turns sem init [] p
  | turn {t p s l u} : Turns sem init t p → faultyTurn sem l ⟨s, p⟩ = some u →
      Turns sem init (t ++ [(⟨s, p⟩, l)]) u.thread

section Turns
variable {allows : ι → Guarantee Stmt σ} {init : (ι → Program Stmt ε Unit) → Prop}
  {p : ι → Program Stmt ε Unit}

/-- **A thread keeps to its guarantee**, at every point: with the past it has there. -/
theorem keeps_done (hinit : ∀ p, init p → ∀ i, Keeps sem (allows i) (fun _ _ => True) (p i) [])
    (h : Turns sem init t p) (i : ι) :
    Keeps sem (allows i) (fun _ _ => True) (p i) (done sem i t) := by
  induction h with
  | start h0 => exact hinit _ h0 i
  | turn _ hs ih =>
      rw [done_append]
      rcases thread_of_turn hs i with ⟨hthread, hdone⟩ | ⟨-, β, c, k, hcall, hcase⟩
      · rw [hthread, hdone]
        exact ih
      rw [hcall] at ih
      rcases hcase with ⟨b, s', hsem, hthread, hdone⟩ | ⟨e, -, hthread, hdone⟩
      · rw [hthread, hdone]
        exact ih.2.1 _ b s' hsem
      · rw [hthread, hdone]
        exact ih.2.2 e

/-- **What a thread is about to issue is allowed**, after its past. -/
theorem allowed_of_call
    (hinit : ∀ p, init p → ∀ i, Keeps sem (allows i) (fun _ _ => True) (p i) [])
    (h : Turns sem init t p) {c : Stmt β} {k : Except ε β → Program Stmt ε Unit}
    (hcall : p i = .call c k) : allows i (done sem i t) c := by
  have hkeeps := keeps_done hinit h i
  rw [hcall] at hkeeps
  exact hkeeps.1

/-- **What a thread has done was allowed**, after what it had done before. -/
theorem allowed_of_done
    (hinit : ∀ p, init p → ∀ i, Keeps sem (allows i) (fun _ _ => True) (p i) [])
    (h : Turns sem init t p) (i : ι) :
    ∀ d ∈ done sem i t, ∃ before, d :: before <:+ done sem i t ∧ allows i before d.stmt := by
  induction h with
  | start h0 => exact nofun
  | @turn t p s l u ht hs ih =>
      intro d hd
      rw [done_append] at hd
      rcases List.mem_append.mp hd with hnew | hold
      · have hdone := Option.mem_toList.mp hnew
        obtain ⟨-, -, k, hcall⟩ := doneBy_eq_some hdone
        refine ⟨done sem i t, ?_, allowed_of_call hinit ht hcall⟩
        rw [done_append, hdone]
        exact List.suffix_refl _
      · obtain ⟨before, hbefore, hallowed⟩ := ih d hold
        exact ⟨before, hbefore.trans (done_suffix _), hallowed⟩

/-- One turn changes the state by an allowed statement, which the thread has done by then if it
was answered, or not at all. -/
theorem shared_of_turn
    (hinit : ∀ p, init p → ∀ i, Keeps sem (allows i) (fun _ _ => True) (p i) [])
    (h : Turns sem init t p) {s : σ} (hs : faultyTurn sem l ⟨s, p⟩ = some u) :
    u.shared = s ∨ ∃ (β : Type) (c : Stmt β),
      allows l.1 (done sem l.1 t) c ∧ u.shared = (sem c s).2 ∧
        ∀ b, (sem c s).1 = .ok b → done sem l.1 (t ++ [(⟨s, p⟩, l)]) = ⟨c, s⟩ :: done sem l.1 t := by
  obtain ⟨i, fault⟩ := l
  unfold faultyTurn at hs
  split at hs
  · rename_i hfault
    obtain rfl : fault = none := hfault
    obtain ⟨β, c, k, hcall, hshared, -⟩ := Program.turn_inv hs
    refine .inr ⟨β, c, allowed_of_call hinit h hcall, hshared, fun b hb => ?_⟩
    rw [done_append, doneBy_ok hcall (Prod.ext hb rfl)]
    rfl
  · split at hs
    · obtain rfl := Option.some.inj hs
      exact .inl rfl
    · cases hs

end Turns

/-! ### Runs -/

variable {allows : ι → Guarantee Stmt σ} {init : Threads Stmt ε σ ι → Prop}

/-- In a run nothing else changes the state. -/
theorem turns_of_run (hrun : (faultyInterleave sem init).Run t u) :
    Turns sem (fun p => ∃ s, init ⟨s, p⟩) t u.thread := by
  induction hrun with
  | @start u h0 => exact .start ⟨u.shared, h0⟩
  | step _ hs ih => exact .turn ih hs

omit [DecidableEq ι] in
/-- Threads that keep to what they are allowed from every initial state. -/
theorem keeps_of_init
    (hinit : ∀ t, init t → ∀ i, Keeps sem (allows i) (fun _ _ => True) (t.thread i) [])
    (p : ι → Program Stmt ε Unit) (hp : ∃ s, init ⟨s, p⟩) (i : ι) :
    Keeps sem (allows i) (fun _ _ => True) (p i) [] := by
  obtain ⟨s, hp⟩ := hp
  exact hinit _ hp i

/-- **Histories from guarantees.** What holds initially, is kept as pasts grow, and by every
statement that is allowed after the past of its thread and then added to it, holds of the state a
run ends in and the pasts of its threads. -/
theorem Run.traced {K : σ → (ι → List (Done Stmt σ)) → Prop}
    (hrun : (faultyInterleave sem init).Run t u)
    (hinit : ∀ t, init t →
      K t.shared (fun _ => []) ∧ ∀ i, Keeps sem (allows i) (fun _ _ => True) (t.thread i) [])
    (hmono : ∀ s f g, (∀ i, f i <:+ g i) → K s f → K s g)
    (hstep : ∀ i f g {β : Type} (c : Stmt β) s, allows i (f i) c →
      (∀ b, (sem c s).1 = .ok b → g i = ⟨c, s⟩ :: f i) → (∀ i, f i <:+ g i) → K s f →
      K (sem c s).2 g) :
    K u.shared fun i => done sem i t := by
  induction hrun with
  | start h0 => exact (hinit _ h0).1
  | @step t u l u' hr hs ih =>
      rcases shared_of_turn (keeps_of_init fun t h => (hinit t h).2) (turns_of_run hr) hs with
        hsame | ⟨β, c, hallowed, hshared, hdone⟩
      · rw [hsame]
        exact hmono _ (fun i => done sem i t) _ (fun i => done_suffix _) ih
      · rw [hshared]
        exact hstep l.1 (fun i => done sem i t) _ c _ hallowed hdone (fun i => done_suffix _) ih

/-- **Invariants from guarantees.** What holds initially and is kept by every statement that is
allowed after a past in whose states it held, holds in every state of a run. -/
theorem Run.guaranteed {I : σ → Prop} (hrun : (faultyInterleave sem init).Run t u)
    (hinit : ∀ t, init t → I t.shared ∧ ∀ i, Keeps sem (allows i) (fun _ _ => True) (t.thread i) [])
    (hstep : ∀ i past {β : Type} (c : Stmt β) s, (∀ d ∈ past, I d.state) → allows i past c → I s →
      I (sem c s).2) :
    ∀ v ∈ Machine.visited t u, I v.shared := by
  induction hrun with
  | @start u h0 =>
      intro v hv
      obtain rfl : v = u := by simpa [Machine.visited] using hv
      exact (hinit v h0).1
  | @step t u l u' hr hs ih =>
      have hbefore : ∀ p ∈ t, I p.1.shared :=
        fun p hp => ih p.1 (List.mem_append_left _ (List.mem_map_of_mem hp))
      have hu : I u.shared := ih u (by simp [Machine.visited])
      have hpast : ∀ d ∈ done sem l.1 t, I d.state := by
        intro d hd
        obtain ⟨p, hp, -, hstate, -⟩ := mem_done hd
        exact hstate ▸ hbefore p hp
      have hu' : I u'.shared := by
        rcases shared_of_turn (keeps_of_init fun t h => (hinit t h).2) (turns_of_run hr) hs with
          hsame | ⟨β, c, hallowed, hshared, -⟩
        · rw [hsame]
          exact hu
        · rw [hshared]
          exact hstep l.1 _ c u.shared hpast hallowed hu
      intro v hv
      simp only [Machine.visited, List.map_append, List.map_cons, List.map_nil, List.mem_append,
        List.mem_singleton] at hv ih
      rcases hv with hv | rfl
      · exact ih v hv
      · exact hu'

/-- **Histories of states from guarantees.** A preorder that every allowed statement follows
relates every state of a run to those after it. -/
theorem Run.pairwise {R : σ → σ → Prop} (hrefl : ∀ s, R s s)
    (htrans : ∀ s s' s'', R s s' → R s' s'' → R s s'')
    (hrun : (faultyInterleave sem init).Run t u)
    (hinit : ∀ t, init t → ∀ i, Keeps sem (allows i) (fun _ _ => True) (t.thread i) [])
    (hstep : ∀ i past {β : Type} (c : Stmt β) s, allows i past c → R s (sem c s).2) :
    (Machine.visited t u).Pairwise fun v w => R v.shared w.shared := by
  refine Machine.Run.pairwise (R := fun v w : Threads Stmt ε σ ι => R v.shared w.shared)
    (fun v => hrefl v.shared) (fun _ _ _ => htrans _ _ _) ?_ hrun
  intro t v l w hr hs
  rcases shared_of_turn (keeps_of_init hinit) (turns_of_run hr) hs with
    hsame | ⟨β, c, hallowed, hshared, -⟩
  · rw [hsame]
    exact hrefl _
  · rw [hshared]
    exact hstep l.1 _ c v.shared hallowed

end Threads
end AdminPlatform.Lib.Program
