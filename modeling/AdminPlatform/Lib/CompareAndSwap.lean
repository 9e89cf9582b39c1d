import Mathlib.Data.List.Nodup
import Mathlib.Logic.Function.Basic
import Mathlib.Logic.Relation

/-! # Read, compute, compare and swap

Clients share one cell. Each reads it once and works out, from the value it saw, whether to
refuse or what to write; and it writes by compare and swap, which fails where the cell holds
another value by then.

Whatever the order of their moves, the cell ends as if the clients that did not fail had been
served one after another (`serial_of_reachable`). Programs that write without comparing have
this property as long as every write finds the value its client saw: then they move as these
clients do. -/

namespace AdminPlatform.Lib.CompareAndSwap

/-- How far a client has come. -/
inductive Client (σ : Type*)
  | idle
  | holding (seen : σ)
  | wrote
  | refused
  | failed

/-- A cell and its clients. -/
structure Cell (σ ι : Type*) where
  value : σ
  client : ι → Client σ

variable {σ ι : Type*}

/-- Client `i` comes to be `p`, and the cell to hold `x`. -/
def Cell.put [DecidableEq ι] (c : Cell σ ι) (x : σ) (i : ι) (p : Client σ) : Cell σ ι :=
  ⟨x, Function.update c.client i p⟩

/-- One move of one client; `f i x` is what client `i` writes after it saw `x`. -/
inductive Move [DecidableEq ι] (f : ι → σ → Option σ) : Cell σ ι → Cell σ ι → Prop
  | hold {c : Cell σ ι} {i : ι} {y : σ} : c.client i = .idle → f i c.value = some y →
      Move f c (c.put c.value i (.holding c.value))
  | refuse {c : Cell σ ι} {i : ι} : c.client i = .idle → f i c.value = none →
      Move f c (c.put c.value i .refused)
  | swap {c : Cell σ ι} {i : ι} {y : σ} : c.client i = .holding c.value → f i c.value = some y →
      Move f c (c.put y i .wrote)
  | fail {c : Cell σ ι} {i : ι} {seen : σ} : c.client i = .holding seen → seen ≠ c.value →
      Move f c (c.put c.value i .failed)

/-! ## Serving the clients one after another -/

/-- The value after client `i` has been served. -/
def apply (f : ι → σ → Option σ) (x : σ) (i : ι) : σ := (f i x).getD x

/-- The value after the clients have been served in order. -/
def serve (f : ι → σ → Option σ) (x : σ) (order : List ι) : σ := order.foldl (apply f) x

/-- The clients that write when they are served in order. -/
def writers (f : ι → σ → Option σ) : σ → List ι → List ι
  | _, [] => []
  | x, i :: order =>
      if (f i x).isSome then i :: writers f (apply f x i) order
      else writers f (apply f x i) order

section Serve
variable {f : ι → σ → Option σ} {x y : σ} {i : ι}

@[simp] theorem serve_nil : serve f x [] = x := rfl

@[simp] theorem serve_cons (order : List ι) :
    serve f x (i :: order) = serve f (apply f x i) order := rfl

theorem serve_concat (order : List ι) : serve f x (order ++ [i]) = apply f (serve f x order) i := by
  rw [serve, List.foldl_append]
  rfl

theorem apply_some (h : f i x = some y) : apply f x i = y := by
  rw [apply, h, Option.getD_some]

theorem apply_none (h : f i x = none) : apply f x i = x := by
  rw [apply, h, Option.getD_none]

theorem writers_cons_some {order : List ι} (h : f i x = some y) :
    writers f x (i :: order) = i :: writers f y order := by
  rw [writers, h, if_pos Option.isSome_some, apply_some h]

theorem writers_cons_none {order : List ι} (h : f i x = none) :
    writers f x (i :: order) = writers f x order := by
  rw [writers, h, apply_none h]
  rfl

theorem writers_concat (order : List ι) :
    writers f x (order ++ [i]) =
      writers f x order ++ if (f i (serve f x order)).isSome then [i] else [] := by
  induction order generalizing x with
  | nil => rfl
  | cons j order ih =>
      rw [List.cons_append]
      cases hj : f j x with
      | none => rw [writers_cons_none hj, writers_cons_none hj, ih, serve_cons, apply_none hj]
      | some y =>
          rw [writers_cons_some hj, writers_cons_some hj, ih, serve_cons, apply_some hj,
            List.cons_append]

end Serve

/-! ## Every order of moves is serial -/

/-- Client `i` has been served: its reading and writing count as one step. -/
def Cell.served (c : Cell σ ι) (i : ι) : Prop := c.client i = .wrote ∨ c.client i = .refused

/-- The cell is as if the clients served had come in the given order, and those among them that
would have written are those that wrote. -/
structure Serial (f : ι → σ → Option σ) (x : σ) (c : Cell σ ι) (order : List ι) : Prop where
  nodup : order.Nodup
  mem : ∀ i, i ∈ order ↔ c.served i
  value : c.value = serve f x order
  wrote : ∀ i, c.client i = .wrote ↔ i ∈ writers f x order

section Moves
variable [DecidableEq ι] {f : ι → σ → Option σ} {x : σ} {c c' : Cell σ ι} {order : List ι}

theorem client_put (c : Cell σ ι) (x : σ) (i j : ι) (p : Client σ) :
    (c.put x i p).client j = if j = i then p else c.client j := Function.update_apply _ _ _ _

theorem served_put_of_not {i : ι} {p : Client σ} (hi : ¬ c.served i)
    (hp : p ≠ .wrote ∧ p ≠ .refused) (j : ι) : (c.put x i p).served j ↔ c.served j := by
  unfold Cell.served
  rw [client_put]
  split
  · rename_i hj
    subst hj
    exact iff_of_false (not_or.mpr hp) hi
  · exact Iff.rfl

theorem served_put {i : ι} {p : Client σ} (hp : p = .wrote ∨ p = .refused) (j : ι) :
    (c.put x i p).served j ↔ c.served j ∨ j = i := by
  unfold Cell.served
  rw [client_put]
  split
  · rename_i hj
    exact iff_of_true hp (.inr hj)
  · rename_i hj
    simp [hj]

/-- A move that serves nobody. -/
theorem Serial.stay (h : Serial f x c order) {i : ι} {p : Client σ} (hi : ¬ c.served i)
    (hp : p ≠ .wrote ∧ p ≠ .refused) : Serial f x (c.put c.value i p) order := by
  refine ⟨h.nodup, fun j => (h.mem j).trans (served_put_of_not hi hp j).symm, h.value,
    fun j => ?_⟩
  rw [client_put, ← h.wrote]
  split
  · rename_i hj
    subst hj
    exact iff_of_false hp.1 fun hwrote => hi (.inl hwrote)
  · exact Iff.rfl

/-- A move that serves client `i`, which comes last in the order. -/
theorem Serial.append (h : Serial f x c order) {i : ι} {p : Client σ} (hi : ¬ c.served i)
    (hp : p = if (f i c.value).isSome then .wrote else .refused) :
    Serial f x (c.put (apply f c.value i) i p) (order ++ [i]) := by
  have hnew : i ∉ order := fun hmem => hi ((h.mem i).mp hmem)
  have hserved : p = .wrote ∨ p = .refused := by
    rw [hp]
    split
    · exact .inl rfl
    · exact .inr rfl
  refine ⟨?_, fun j => ?_, ?_, fun j => ?_⟩
  · exact List.nodup_append.mpr ⟨h.nodup, List.nodup_singleton i, fun a ha b hb hab =>
      hnew (List.mem_singleton.mp hb ▸ hab ▸ ha)⟩
  · rw [List.mem_append, List.mem_singleton, h.mem, served_put hserved]
  · rw [serve_concat, ← h.value]
    rfl
  · rw [client_put, writers_concat, List.mem_append, ← h.wrote, ← h.value]
    split
    · rename_i hj
      subst hj
      rw [hp]
      have hbefore : ¬ c.client j = .wrote := fun hwrote => hi (.inl hwrote)
      split <;> simp [hbefore]
    · rename_i hj
      split <;> simp [hj]

/-- One move keeps a cell serial. -/
theorem Serial.move (h : Serial f x c order) (hmove : Move f c c') :
    ∃ order', Serial f x c' order' := by
  cases hmove with
  | @hold i y hidle hf =>
      refine ⟨order, h.stay ?_ ⟨nofun, nofun⟩⟩
      rintro (hw | hr) <;> simp_all
  | @refuse i hidle hf =>
      have hi : ¬ c.served i := by rintro (hw | hr) <;> simp_all
      have hserial := h.append hi (p := .refused) (by rw [hf]; rfl)
      rw [apply_none hf] at hserial
      exact ⟨_, hserial⟩
  | @swap i y hhold hf =>
      have hi : ¬ c.served i := by rintro (hw | hr) <;> simp_all
      have hserial := h.append hi (p := .wrote) (by rw [hf]; rfl)
      rw [apply_some hf] at hserial
      exact ⟨_, hserial⟩
  | @fail i seen hhold hne =>
      refine ⟨order, h.stay ?_ ⟨nofun, nofun⟩⟩
      rintro (hw | hr) <;> simp_all

/-- **Every order of moves is serial.** -/
theorem serial_of_reachable {c₀ : Cell σ ι} (hidle : ∀ i, c₀.client i = .idle)
    (h : Relation.ReflTransGen (Move f) c₀ c) : ∃ order, Serial f c₀.value c order := by
  induction h with
  | refl =>
      refine ⟨[], List.nodup_nil, fun i => ?_, rfl, fun i => ?_⟩
      · simp [Cell.served, hidle]
      · simp [writers, hidle]
  | tail _ hmove ih =>
      obtain ⟨order, hserial⟩ := ih
      exact hserial.move hmove

end Moves
end AdminPlatform.Lib.CompareAndSwap
