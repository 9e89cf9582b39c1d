import Mathlib.Algebra.Order.Monoid.Unbundled.Basic
import Mathlib.Data.List.NodupEquivFin
import Mathlib.Order.Monotone.Basic
import Mathlib.Tactic.GCongr

/-! # Events with a bounded rate

A list of times, newest first. It is `Spaced m d` when any event is at least `d` later than
the `m`-th one before it. That is a statement about neighbours, so it is kept event by event
(`Spaced.cons`); what follows from it is about every window: no half-open interval of length
`d`, whichever of its ends is the open one, holds more than `m` of the events. -/

namespace AdminPlatform.Lib

variable {α : Type*} [LinearOrder α]

/-- Times are listed newest first. -/
def NewestFirst (times : List α) : Prop := times.Pairwise (fun new old => old ≤ new)

theorem NewestFirst.cons {times : List α} {now : α} (h : NewestFirst times)
    (hnow : ∀ t ∈ times, t ≤ now) : NewestFirst (now :: times) :=
  List.pairwise_cons.mpr ⟨hnow, h⟩

theorem NewestFirst.getElem?_le {times : List α} (h : NewestFirst times) {i j : Nat} {new old : α}
    (hij : i ≤ j) (hnew : times[i]? = some new) (hold : times[j]? = some old) : old ≤ new := by
  rcases Nat.lt_or_eq_of_le hij with hlt | rfl
  · obtain ⟨hi, rfl⟩ := List.getElem?_eq_some_iff.mp hnew
    obtain ⟨hj, rfl⟩ := List.getElem?_eq_some_iff.mp hold
    exact List.pairwise_iff_getElem.mp h i j hi hj hlt
  · rw [hnew] at hold
    exact (Option.some.inj hold).ge

variable [Add α]

/-- Each event is at least `d` later than the `m`-th before it. -/
def Spaced (m : Nat) (d : α) (times : List α) : Prop :=
  ∀ i new old, times[i]? = some new → times[i + m]? = some old → old + d ≤ new

namespace Spaced
variable {m : Nat} {d : α} {times : List α}

theorem nil : Spaced m d ([] : List α) := by
  intro i new old hnew
  simp at hnew

/-- One more event, at least `d` later than the `m`-th before it. -/
theorem cons {now : α} (h : Spaced m d times)
    (hnow : ∀ old, (now :: times)[m]? = some old → old + d ≤ now) :
    Spaced m d (now :: times) := by
  intro i new old hnew hold
  cases i with
  | zero =>
      obtain rfl : now = new := by simpa using hnew
      exact hnow old (by simpa using hold)
  | succ i =>
      rw [Nat.add_right_comm] at hold
      exact h i new old (by simpa using hnew) (by simpa using hold)

/-- The same for events chosen from the list: between the first and the `m`-th after it there
are at least as many in the list. -/
theorem of_sublist {chosen : List α} (h : Spaced m d times) (horder : NewestFirst times)
    [AddRightMono α] (hsub : chosen.Sublist times) {new old : α}
    (hnew : chosen[0]? = some new) (hold : chosen[m]? = some old) : old + d ≤ new := by
  obtain ⟨f, hf⟩ := List.sublist_iff_exists_orderEmbedding_getElem?_eq.mp hsub
  rw [hf] at hnew hold
  have hfar : f 0 + m ≤ f m := by
    rw [Nat.add_comm]
    exact f.strictMono.add_le_nat m 0
  obtain ⟨hlen, -⟩ := List.getElem?_eq_some_iff.mp hold
  obtain ⟨mid, hmid⟩ : ∃ mid, times[f 0 + m]? = some mid :=
    ⟨_, List.getElem?_eq_getElem (hfar.trans_lt hlen)⟩
  calc old + d ≤ mid + d := by gcongr; exact horder.getElem?_le hfar hmid hold
    _ ≤ new := h _ new mid hnew hmid

/-- **No window holds too many.** A condition that no two events `d` apart both meet is met by
at most `m` of them. -/
theorem length_filter_le [AddRightMono α] (h : Spaced m d times) (horder : NewestFirst times)
    (p : α → Bool) (hp : ∀ new old, p new = true → p old = true → ¬ old + d ≤ new) :
    (times.filter p).length ≤ m := by
  by_contra hmany
  push Not at hmany
  have hmem : ∀ {i : Nat} {t : α}, (times.filter p)[i]? = some t → p t = true := fun ht =>
    (List.mem_filter.mp (List.mem_of_getElem? ht)).2
  obtain ⟨old, hold⟩ : ∃ old, (times.filter p)[m]? = some old :=
    ⟨_, List.getElem?_eq_getElem hmany⟩
  obtain ⟨new, hnew⟩ : ∃ new, (times.filter p)[0]? = some new :=
    ⟨_, List.getElem?_eq_getElem (by omega)⟩
  exact hp new old (hmem hnew) (hmem hold)
    (h.of_sublist horder List.filter_sublist hnew hold)

/-- Windows open at their later end. -/
theorem length_Ico_le [AddRightMono α] (h : Spaced m d times) (horder : NewestFirst times)
    (t : α) : (times.filter (fun x => t ≤ x ∧ x < t + d)).length ≤ m := by
  refine h.length_filter_le horder _ fun new old hnew hold hfar => ?_
  have hlt := (of_decide_eq_true hnew).2
  have hle : t + d ≤ old + d := by gcongr; exact (of_decide_eq_true hold).1
  exact absurd (hlt.trans_le (hle.trans hfar)) (lt_irrefl _)

/-- Windows open at their earlier end. -/
theorem length_Ioc_le [AddRightMono α] [AddRightStrictMono α] (h : Spaced m d times)
    (horder : NewestFirst times) (t : α) :
    (times.filter (fun x => t < x ∧ x ≤ t + d)).length ≤ m := by
  refine h.length_filter_le horder _ fun new old hnew hold hfar => ?_
  have hle := (of_decide_eq_true hnew).2
  have hlt : t + d < old + d := by gcongr; exact (of_decide_eq_true hold).1
  exact absurd (hlt.trans_le (hfar.trans hle)) (lt_irrefl _)

end Spaced
end AdminPlatform.Lib
