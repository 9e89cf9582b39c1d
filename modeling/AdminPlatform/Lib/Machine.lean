import Mathlib.Data.List.Basic

/-! # Labelled machines, their runs and their invariants

A `Machine` takes labelled steps: the label names who moves and how (it carries every
choice the environment makes), and `step` is a partial function, `none` when the label is
not enabled in the state. So a machine is executable, and its nondeterminism is the choice
of labels.

A `Run` keeps its trace, the list of (state before, label) pairs, because two kinds of
statement are made about runs: that something holds in every state reached
(`Run.invariant`), and that it holds in every state reached *exactly when* every step
meets a condition on the state before it (`Run.always_iff`). -/

namespace AdminPlatform.Lib

structure Machine (σ Λ : Type*) where
  init : σ → Prop
  step : Λ → σ → Option σ

namespace Machine
variable {σ Λ : Type*} {M : Machine σ Λ}

/-- `M.Run t s`: from an initial state, the steps of the trace `t` lead to `s`. -/
inductive Run (M : Machine σ Λ) : List (σ × Λ) → σ → Prop
  | start {s} : M.init s → Run M [] s
  | step {t s l s'} : Run M t s → M.step l s = some s' → Run M (t ++ [(s, l)]) s'

/-- A state some run ends in. -/
def Reachable (M : Machine σ Λ) (s : σ) : Prop := ∃ t, M.Run t s

/-- Every state of a run, the last one included. -/
def visited (t : List (σ × Λ)) (s : σ) : List σ := t.map Prod.fst ++ [s]

/-- Fire a list of labels from a state. -/
def exec (M : Machine σ Λ) : List Λ → σ → Option σ
  | [], s => some s
  | l :: ls, s => (M.step l s).bind (M.exec ls)

/-! ## Invariants -/

/-- **The invariant rule.** What holds initially and is kept by every step that meets
`ok` holds at the end of every run whose steps all meet `ok`. -/
theorem Run.invariant_while {I : σ → Prop} {ok : σ → Λ → Prop}
    (hinit : ∀ s, M.init s → I s)
    (hstep : ∀ s l s', I s → ok s l → M.step l s = some s' → I s')
    {t : List (σ × Λ)} {s : σ} (h : M.Run t s) (hok : ∀ p ∈ t, ok p.1 p.2) : I s := by
  induction h with
  | start h0 => exact hinit _ h0
  | @step t s l s' _ hs ih =>
      have hlast : ok s l := hok (s, l) (by simp)
      have hbefore : ∀ p ∈ t, ok p.1 p.2 := fun p hp => hok p (by simp [hp])
      exact hstep s l s' (ih hbefore) hlast hs

theorem Run.invariant {I : σ → Prop} (hinit : ∀ s, M.init s → I s)
    (hstep : ∀ s l s', I s → M.step l s = some s' → I s')
    {t : List (σ × Λ)} {s : σ} (h : M.Run t s) : I s := by
  have hstep' : ∀ s l s', I s → True → M.step l s = some s' → I s' :=
    fun s l s' hI _ => hstep s l s' hI
  exact h.invariant_while hinit hstep' (fun _ _ => trivial)

theorem Reachable.invariant {I : σ → Prop} (hinit : ∀ s, M.init s → I s)
    (hstep : ∀ s l s', I s → M.step l s = some s' → I s')
    {s : σ} (h : M.Reachable s) : I s := by
  obtain ⟨t, ht⟩ := h
  exact ht.invariant hinit hstep

/-- Every step of a run is made from a state it reached. -/
theorem Run.step_of_mem {t : List (σ × Λ)} {s : σ} (h : M.Run t s) {p : σ × Λ} (hp : p ∈ t) :
    M.Reachable p.1 ∧ ∃ u, M.step p.2 p.1 = some u := by
  induction h with
  | start h0 => cases hp
  | @step t s l s' hr hs ih =>
      rcases List.mem_append.mp hp with hp | hp
      · exact ih hp
      · obtain rfl := List.mem_singleton.mp hp
        exact ⟨⟨t, hr⟩, s', hs⟩

/-- It then holds in every state on the way as well. -/
theorem Run.always_while {I : σ → Prop} {ok : σ → Λ → Prop}
    (hinit : ∀ s, M.init s → I s)
    (hstep : ∀ s l s', I s → ok s l → M.step l s = some s' → I s')
    {t : List (σ × Λ)} {s : σ} (h : M.Run t s) (hok : ∀ p ∈ t, ok p.1 p.2) :
    ∀ u ∈ visited t s, I u := by
  induction h with
  | @start s h0 =>
      intro u hu
      obtain rfl : u = s := by simpa [visited] using hu
      exact hinit u h0
  | @step t s l s' hr hs ih =>
      have hbefore : ∀ p ∈ t, ok p.1 p.2 := fun p hp => hok p (by simp [hp])
      intro u hu
      simp only [visited, List.map_append, List.map_cons, List.map_nil, List.mem_append,
        List.mem_singleton] at hu ih
      rcases hu with hu | rfl
      · exact ih hbefore u hu
      · exact (Run.step hr hs).invariant_while hinit hstep hok

theorem Run.always {I : σ → Prop} (hinit : ∀ s, M.init s → I s)
    (hstep : ∀ s l s', I s → M.step l s = some s' → I s')
    {t : List (σ × Λ)} {s : σ} (h : M.Run t s) : ∀ u ∈ visited t s, I u := by
  have hstep' : ∀ s l s', I s → True → M.step l s = some s' → I s' :=
    fun s l s' hI _ => hstep s l s' hI
  exact h.always_while hinit hstep' (fun _ _ => trivial)

/-- **The exactness rule.** Suppose `I` is an invariant, `P` holds initially, and on
`I`-states where `P` holds a step keeps `P` exactly when it meets `ok`. Then `P` holds in
every state of a run exactly when every step of the run meets `ok`. -/
theorem Run.always_iff {I P : σ → Prop} {ok : σ → Λ → Prop}
    (hinit : ∀ s, M.init s → I s ∧ P s)
    (hI : ∀ s l s', I s → M.step l s = some s' → I s')
    (hP : ∀ s l s', I s → P s → M.step l s = some s' → (P s' ↔ ok s l))
    {t : List (σ × Λ)} {s : σ} (h : M.Run t s) :
    (∀ u ∈ visited t s, P u) ↔ ∀ p ∈ t, ok p.1 p.2 := by
  induction h with
  | @start s h0 => simp [visited, (hinit s h0).2]
  | @step t s l s' hr hs ih =>
      have hIs : I s := hr.invariant (fun u hu => (hinit u hu).1) hI
      have hmem : ∀ u, u ∈ visited (t ++ [(s, l)]) s' ↔ u ∈ visited t s ∨ u = s' := by
        intro u; simp [visited, or_assoc]
      constructor
      · intro hall p hp
        have hprefix : ∀ u ∈ visited t s, P u := fun u hu => hall u ((hmem u).mpr (.inl hu))
        rcases List.mem_append.mp hp with hp | hp
        · exact ih.mp hprefix p hp
        · obtain rfl : p = (s, l) := by simpa using hp
          have hPs : P s := hprefix s (by simp [visited])
          exact (hP s l s' hIs hPs hs).mp (hall s' ((hmem s').mpr (.inr rfl)))
      · intro hok u hu
        have hprefix := ih.mpr (fun p hp => hok p (by simp [hp]))
        rcases (hmem u).mp hu with hu | rfl
        · exact hprefix u hu
        · have hPs : P s := hprefix s (by simp [visited])
          exact (hP s l u hIs hPs hs).mpr (hok (s, l) (by simp))

/-- **The exactness rule, through an invariant.** Suppose `J` holds initially, is kept by the
steps that meet `ok` and implies `P`, and only such steps lead from a `J`-state to one where `P`
holds. Then `P` holds in every state of a run exactly when every step of the run meets `ok`. -/
theorem Run.always_iff_while {J P : σ → Prop} {ok : σ → Λ → Prop}
    (hinit : ∀ s, M.init s → J s) (hJP : ∀ s, J s → P s)
    (hstep : ∀ s l s', J s → ok s l → M.step l s = some s' → J s')
    (honly : ∀ s l s', J s → M.step l s = some s' → P s' → ok s l)
    {t : List (σ × Λ)} {s : σ} (h : M.Run t s) :
    (∀ u ∈ visited t s, P u) ↔ ∀ p ∈ t, ok p.1 p.2 := by
  constructor
  · intro hall
    -- the steps so far meet `ok`, so `J` holds still
    suffices hboth : J s ∧ ∀ p ∈ t, ok p.1 p.2 from hboth.2
    induction h with
    | @start s h0 => exact ⟨hinit s h0, nofun⟩
    | @step t s l s' hr hs ih =>
        obtain ⟨hJ, hbefore⟩ := ih fun u hu => hall u (by simp [visited] at hu ⊢; tauto)
        have hok : ok s l := honly s l s' hJ hs (hall s' (by simp [visited]))
        refine ⟨hstep s l s' hJ hok hs, fun p hp => ?_⟩
        rcases List.mem_append.mp hp with hp | hp
        · exact hbefore p hp
        · obtain rfl := List.mem_singleton.mp hp
          exact hok
  · exact fun hok u hu => hJP u (h.always_while hinit hstep hok u hu)

/-- **The history rule.** A preorder that every step of a run follows relates every state of the
run to those after it. -/
theorem Run.pairwise {R : σ → σ → Prop} (hrefl : ∀ s, R s s)
    (htrans : ∀ s s' s'', R s s' → R s' s'' → R s s'')
    (hstep : ∀ t s l s', M.Run t s → M.step l s = some s' → R s s')
    {t : List (σ × Λ)} {s : σ} (h : M.Run t s) : (visited t s).Pairwise R := by
  -- every state visited is related to the last one as well
  suffices hall : (visited t s).Pairwise R ∧ ∀ u ∈ visited t s, R u s from hall.1
  induction h with
  | @start s h0 =>
      refine ⟨List.pairwise_singleton _ _, fun u hu => ?_⟩
      obtain rfl : u = s := by simpa [visited] using hu
      exact hrefl _
  | @step t s l s' hr hs ih =>
      obtain ⟨hpairs, hlast⟩ := ih
      have hvisited : visited (t ++ [(s, l)]) s' = visited t s ++ [s'] := by simp [visited]
      have hbefore : ∀ u ∈ visited t s, R u s' :=
        fun u hu => htrans _ _ _ (hlast u hu) (hstep t s l s' hr hs)
      rw [hvisited, List.pairwise_append]
      refine ⟨⟨hpairs, List.pairwise_singleton _ _, fun u hu v hv => ?_⟩, fun u hu => ?_⟩
      · rw [List.mem_singleton.mp hv]
        exact hbefore u hu
      · rcases List.mem_append.mp hu with hu | hu
        · exact hbefore u hu
        · rw [List.mem_singleton.mp hu]
          exact hrefl _

/-! ## Firing labels -/

theorem exec_append (M : Machine σ Λ) (ls ms : List Λ) (s : σ) :
    M.exec (ls ++ ms) s = (M.exec ls s).bind (M.exec ms) := by
  induction ls generalizing s with
  | nil => rfl
  | cons l ls ih =>
      simp only [List.cons_append, exec]
      cases M.step l s with
      | none => rfl
      | some u => exact ih u

/-- The trace that firing a list of labels leaves behind. -/
def trace (M : Machine σ Λ) : List Λ → σ → List (σ × Λ)
  | [], _ => []
  | l :: ls, s => (s, l) :: ((M.step l s).map (M.trace ls)).getD []

theorem Run.of_exec {ls : List Λ} {t : List (σ × Λ)} {s s' : σ} (h : M.Run t s)
    (he : M.exec ls s = some s') : M.Run (t ++ M.trace ls s) s' := by
  induction ls generalizing t s with
  | nil =>
      obtain rfl : s = s' := by simpa [exec] using he
      simpa [trace] using h
  | cons l ls ih =>
      obtain ⟨u, hu, he⟩ := Option.bind_eq_some_iff.mp he
      have hrest := ih (.step h hu) he
      rw [List.append_assoc, List.singleton_append] at hrest
      rwa [trace, hu, Option.map_some, Option.getD_some]

theorem map_snd_trace {ls : List Λ} {s s' : σ} (he : M.exec ls s = some s') :
    (M.trace ls s).map Prod.snd = ls := by
  induction ls generalizing s with
  | nil => rfl
  | cons l ls ih =>
      obtain ⟨u, hu, he⟩ := Option.bind_eq_some_iff.mp he
      rw [trace, hu, Option.map_some, Option.getD_some, List.map_cons, ih he]

theorem reachable_of_exec {ls : List Λ} {s s' : σ} (h0 : M.init s)
    (he : M.exec ls s = some s') : M.Reachable s' := by
  exact ⟨_, Run.of_exec (.start h0) he⟩

end Machine
end AdminPlatform.Lib
