import AdminPlatform.Lib.Spacing
import Mathlib.Algebra.Order.Monoid.Unbundled.Basic
import Mathlib.Data.List.Basic

/-! # Fixed windows

A rate limiter that remembers one window, its start and how many requests it has counted.
A request at or after the end of the window begins a new one; within the window it is counted
as long as there is room, and refused afterwards.

Two things are asked of it. Which sequences of requests pass without a refusal: those that
are cut into windows with room for all of theirs (`all_decisions_iff`). And what the requests
that passed look like to someone who knows nothing of the windows: any `2 * m` of them in a
row span the length of a window (`Counted.spaced`). -/

namespace AdminPlatform.Lib.FixedWindow

structure Window (α : Type*) where
  start : α
  count : Nat
  deriving DecidableEq, Repr

section Decisions
variable {α : Type*} [LinearOrder α] [Add α]

/-- The window after a request, `none` where the request is refused. -/
def next (m : Nat) (d now : α) : Option (Window α) → Option (Window α)
  | none => some ⟨now, 1⟩
  | some w =>
      if w.start + d ≤ now then some ⟨now, 1⟩
      else if m ≤ w.count then none
      else some ⟨w.start, w.count + 1⟩

/-- Which requests pass, by their times. -/
def decisions (m : Nat) (d : α) : Option (Window α) → List α → List Bool
  | _, [] => []
  | w, now :: later =>
      match next m d now w with
      | none => false :: decisions m d w later
      | some w' => true :: decisions m d (some w') later

theorem length_decisions (m : Nat) (d : α) (w : Option (Window α)) (times : List α) :
    (decisions m d w times).length = times.length := by
  induction times generalizing w with
  | nil => rfl
  | cons now later ih =>
      rw [decisions]
      split
      · rw [List.length_cons, List.length_cons, ih]
      · rw [List.length_cons, List.length_cons, ih]

/-- The times that fall into the window begun at `start`, and the windows after it, each with
the times that fall into it. -/
def cut (d : α) : α → List α → List α × List (List α)
  | _, [] => ([], [])
  | start, now :: later =>
      if start + d ≤ now then ([], (now :: (cut d now later).1) :: (cut d now later).2)
      else (now :: (cut d start later).1, (cut d start later).2)

/-- The windows of a sequence of times. -/
def windows (d : α) : List α → List (List α)
  | [] => []
  | now :: later => (now :: (cut d now later).1) :: (cut d now later).2

/-- There is room for every time: in the window that runs for those it has left, in a new one
for `m`, or for the one that begins it. -/
def Fits (m : Nat) (d : α) : Option (Window α) → List α → Prop
  | none, times => ∀ window ∈ windows d times, window.length ≤ max m 1
  | some w, times =>
      (cut d w.start times).1.length ≤ m - w.count ∧
        ∀ window ∈ (cut d w.start times).2, window.length ≤ max m 1

variable {m : Nat} {d now : α} {w : Window α} {later : List α}

/-- A request that begins a window leaves room for one less. -/
theorem fits_begin : Fits m d (some ⟨now, 1⟩) later ↔
    ∀ window ∈ (now :: (cut d now later).1) :: (cut d now later).2, window.length ≤ max m 1 := by
  rw [List.forall_mem_cons, List.length_cons, Fits]
  refine and_congr_left' ?_
  show (cut d now later).1.length ≤ m - 1 ↔ _
  omega

theorem fits_cons_none : Fits m d none (now :: later) ↔ Fits m d (some ⟨now, 1⟩) later :=
  fits_begin.symm

theorem fits_cons_ended (h : w.start + d ≤ now) :
    Fits m d (some w) (now :: later) ↔ Fits m d (some ⟨now, 1⟩) later := by
  rw [fits_begin, Fits, cut, if_pos h]
  exact and_iff_right (Nat.zero_le _)

theorem fits_cons_running (h : ¬ w.start + d ≤ now) :
    Fits m d (some w) (now :: later) ↔
      ¬ m ≤ w.count ∧ Fits m d (some ⟨w.start, w.count + 1⟩) later := by
  rw [Fits, Fits, cut, if_neg h, ← and_assoc]
  refine and_congr_left' ?_
  show (cut d w.start later).1.length + 1 ≤ m - w.count ↔
    ¬ m ≤ w.count ∧ (cut d w.start later).1.length ≤ m - (w.count + 1)
  omega

/-- **A sequence passes without a refusal** exactly where there is room for every time. -/
theorem all_decisions_iff (w : Option (Window α)) (times : List α) :
    (∀ passed ∈ decisions m d w times, passed = true) ↔ Fits m d w times := by
  induction times generalizing w with
  | nil => cases w <;> simp [decisions, Fits, windows, cut]
  | cons now later ih =>
      cases w with
      | none =>
          rw [fits_cons_none, ← ih]
          simp [decisions, next]
      | some w =>
          by_cases hended : w.start + d ≤ now
          · rw [fits_cons_ended hended, ← ih]
            simp [decisions, next, hended]
          · rw [fits_cons_running hended, ← ih]
            by_cases hfull : m ≤ w.count
            · simp [decisions, next, hended, hfull]
            · simp [decisions, next, hended, hfull]

end Decisions

/-! ## What has passed -/

section History
variable {α : Type*} [LinearOrder α] [Add α]

/-- The requests that passed, newest first, and the window they left: it has counted the
newest ones, the first of these at its start, and `m` before that first one lies a whole window
back. -/
structure Counted (m : Nat) (d : α) (times : List α) (w : Window α) : Prop where
  order : NewestFirst times
  pos : 1 ≤ w.count
  le : w.count ≤ m
  begun : times[w.count - 1]? = some w.start
  before : ∀ old, times[w.count - 1 + m]? = some old → old + d ≤ w.start
  spaced : Spaced (2 * m - 1) d times

/-- The starts of the windows that the requests were counted in, newest first. -/
structure Started (d : α) (starts : List α) (w : Window α) : Prop where
  last : starts.head? = some w.start
  order : NewestFirst starts
  apart : starts.Pairwise (fun new old => new = old ∨ old + d ≤ new)

variable {m : Nat} {d now : α} {w w' : Window α} {times starts : List α}

/-- **The first request** begins a window. -/
theorem Counted.first (hm : 1 ≤ m) (h : next m d now none = some w') :
    Counted m d [now] w' := by
  obtain rfl := Option.some.inj h
  have hfar : ∀ i, 1 ≤ i → ∀ old, [now][i]? = some old → old + d ≤ now := by
    intro i hi old hold
    have hlt := (List.getElem?_eq_some_iff.mp hold).1
    exact absurd hlt (by simp only [List.length_singleton]; omega)
  exact
    { order := List.pairwise_singleton _ _
      pos := le_rfl
      le := hm
      begun := rfl
      before := hfar _ (by omega)
      spaced := Spaced.nil.cons (hfar _ (by omega)) }

/-- A request that begins a window: the one before is a whole window back, and so is all that
was counted before its first. -/
theorem Counted.begin [AddRightMono α] (h : Counted m d times w) (hnow : ∀ t ∈ times, t ≤ now)
    (hended : w.start + d ≤ now) : Counted m d (now :: times) ⟨now, 1⟩ := by
  have hm : 1 ≤ m := h.pos.trans h.le
  -- what is `m` places back is before the window that has ended
  have hfar : ∀ i, m ≤ i → ∀ old, (now :: times)[i]? = some old → old + d ≤ now := by
    intro i hi old hold
    obtain ⟨j, rfl⟩ : ∃ j, i = j + 1 := ⟨i - 1, by omega⟩
    rw [List.getElem?_cons_succ] at hold
    have hle : old ≤ w.start := h.order.getElem?_le (by have := h.le; omega) h.begun hold
    calc old + d ≤ w.start + d := by gcongr
      _ ≤ now := hended
  exact
    { order := h.order.cons hnow
      pos := le_rfl
      le := hm
      begun := rfl
      before := hfar _ (by omega)
      spaced := h.spaced.cons (hfar _ (by omega)) }

/-- A request that is counted: at most `m` are now in the window, and what is `m` before its
first is a whole window back. -/
theorem Counted.count [AddRightMono α] (h : Counted m d times w) (hnow : ∀ t ∈ times, t ≤ now)
    (hroom : ¬ m ≤ w.count) : Counted m d (now :: times) ⟨w.start, w.count + 1⟩ := by
  have hpos := h.pos
  have hshift : ∀ i, (now :: times)[w.count + i]? = times[w.count - 1 + i]? := by
    intro i
    rw [show w.count + i = w.count - 1 + i + 1 by omega, List.getElem?_cons_succ]
  have hstart : w.start ≤ now := hnow _ (List.mem_of_getElem? h.begun)
  refine
    { order := h.order.cons hnow
      pos := Nat.le_add_left _ _
      le := Nat.lt_of_not_le hroom
      begun := (hshift 0).trans h.begun
      before := fun old hold => h.before old ((hshift m).symm.trans hold)
      spaced := h.spaced.cons fun old hold => ?_ }
  -- what is `2 * m - 1` before this one is not after what is `m` before the first
  have hold' : times[2 * m - 1 - 1]? = some old := by
    rwa [show 2 * m - 1 = 2 * m - 1 - 1 + 1 by omega, List.getElem?_cons_succ] at hold
  have hlt := (List.getElem?_eq_some_iff.mp hold').1
  obtain ⟨mid, hmid⟩ : ∃ mid, times[w.count - 1 + m]? = some mid :=
    ⟨_, List.getElem?_eq_getElem (by omega)⟩
  have hle : old ≤ mid := h.order.getElem?_le (by omega) hmid hold'
  calc old + d ≤ mid + d := by gcongr
    _ ≤ w.start := h.before mid hmid
    _ ≤ now := hstart

/-- **One more request** that passes. -/
theorem Counted.next [AddRightMono α] (h : Counted m d times w) (hnow : ∀ t ∈ times, t ≤ now)
    (hnext : next m d now (some w) = some w') : Counted m d (now :: times) w' := by
  rw [FixedWindow.next] at hnext
  split at hnext
  · rename_i hended
    obtain rfl := Option.some.inj hnext
    exact h.begin hnow hended
  · split at hnext
    · cases hnext
    · rename_i hroom
      obtain rfl := Option.some.inj hnext
      exact h.count hnow hroom

theorem Started.first : Started d [w.start] w where
  last := rfl
  order := List.pairwise_singleton _ _
  apart := List.pairwise_singleton _ _

/-- **A window starts** where the last one did, or a whole window later. -/
theorem Started.next [AddRightMono α] (h : Started d starts w) (hnow : w.start ≤ now)
    (hnext : FixedWindow.next m d now (some w) = some w') :
    Started d (w'.start :: starts) w' := by
  obtain ⟨older, rfl⟩ : ∃ older, starts = w.start :: older := List.head?_eq_some_iff.mp h.last
  have hlast : ∀ old ∈ w.start :: older, old ≤ w.start := by
    intro old hold
    rcases List.mem_cons.mp hold with rfl | hold
    · exact le_rfl
    · exact (List.pairwise_cons.mp h.order).1 old hold
  rw [FixedWindow.next] at hnext
  split at hnext
  · rename_i hended
    obtain rfl := Option.some.inj hnext
    refine ⟨rfl, h.order.cons fun old hold => (hlast old hold).trans hnow, ?_⟩
    refine List.pairwise_cons.mpr ⟨fun old hold => .inr ?_, h.apart⟩
    calc old + d ≤ w.start + d := by gcongr; exact hlast old hold
      _ ≤ now := hended
  · split at hnext
    · cases hnext
    · obtain rfl := Option.some.inj hnext
      refine ⟨rfl, h.order.cons hlast, List.pairwise_cons.mpr ⟨fun old hold => ?_, h.apart⟩⟩
      rcases List.mem_cons.mp hold with rfl | hold
      · exact .inl rfl
      · exact (List.pairwise_cons.mp h.apart).1 old hold

end History
end AdminPlatform.Lib.FixedWindow
