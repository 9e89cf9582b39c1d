import Mathlib.Data.List.Induction
import Mathlib.Data.List.Nodup
import Mathlib.Data.List.Sort

/-! # Keeping the most recent entries

A log to which entries are added at the end, each later than those before it. Sorting it by
time, newest first, reverses it; and deleting what is not among the newest `n`, by key, drops
the oldest ones. -/

namespace AdminPlatform.Lib

variable {α β τ : Type*} [LinearOrder τ]

/-- Entries stand in the order of their times, no two at one time. -/
def Chronological (time : α → τ) (log : List α) : Prop :=
  log.Pairwise fun a b => time a < time b

/-- The order of `ORDER BY time DESC`. -/
def newestFirst (time : α → τ) (log : List α) : List α :=
  log.insertionSort fun a b => time b ≤ time a

section Added
variable {time : α → τ} {log : List α} {a b : α}

/-- An entry that has to stand before `a` is put before it. -/
theorem orderedInsert_append_of_le {older : List α} (h : time a ≤ time b) (newer : List α) :
    List.orderedInsert (fun x y => time y ≤ time x) b (newer ++ a :: older) =
      List.orderedInsert (fun x y => time y ≤ time x) b newer ++ a :: older := by
  induction newer with
  | nil => exact if_pos h
  | cons c newer ih =>
      rw [List.cons_append, List.orderedInsert_cons, List.orderedInsert_cons, ih]
      split <;> rfl

/-- An entry that is older than all before it and `a` is put behind them. -/
theorem orderedInsert_append_of_lt {newer older : List α} (h : ∀ c ∈ newer, time b < time c) :
    List.orderedInsert (fun x y => time y ≤ time x) b (newer ++ older) =
      newer ++ List.orderedInsert (fun x y => time y ≤ time x) b older := by
  induction newer with
  | nil => rfl
  | cons c newer ih =>
      have hc : ¬ time c ≤ time b := not_le.mpr (h c List.mem_cons_self)
      rw [List.cons_append, List.orderedInsert_cons, if_neg hc,
        ih fun d hd => h d (List.mem_cons_of_mem c hd), List.cons_append]

/-- The entries no older than `a`, newest first. -/
def noOlder (time : α → τ) (a : α) (log : List α) : List α :=
  newestFirst time (log.filter fun b => time a ≤ time b)

/-- The entries older than `a`, newest first. -/
def older (time : α → τ) (a : α) (log : List α) : List α :=
  newestFirst time (log.filter fun b => time b < time a)

theorem time_le_of_mem_noOlder (h : b ∈ noOlder time a log) : time a ≤ time b := by
  have hmem := (List.mem_insertionSort _).mp h
  simpa using (List.mem_filter.mp hmem).2

theorem mem_of_mem_noOlder (h : b ∈ noOlder time a log) : b ∈ log :=
  (List.mem_filter.mp ((List.mem_insertionSort _).mp h)).1

theorem length_noOlder (log : List α) :
    (noOlder time a log).length = (log.filter fun b => time a ≤ time b).length :=
  List.length_insertionSort _ _

theorem newestFirst_cons (time : α → τ) (b : α) (log : List α) :
    newestFirst time (b :: log) =
      List.orderedInsert (fun x y => time y ≤ time x) b (newestFirst time log) := rfl

theorem noOlder_cons_of_le (h : time a ≤ time b) :
    noOlder time a (b :: log) =
      List.orderedInsert (fun x y => time y ≤ time x) b (noOlder time a log) := by
  rw [noOlder, List.filter_cons_of_pos (by simpa using h), newestFirst_cons, noOlder]

theorem noOlder_cons_of_lt (h : time b < time a) :
    noOlder time a (b :: log) = noOlder time a log := by
  rw [noOlder, List.filter_cons_of_neg (by simpa using h), noOlder]

theorem older_cons_of_le (h : time a ≤ time b) :
    older time a (b :: log) = older time a log := by
  rw [older, List.filter_cons_of_neg (by simpa using h), older]

theorem older_cons_of_lt (h : time b < time a) :
    older time a (b :: log) =
      List.orderedInsert (fun x y => time y ≤ time x) b (older time a log) := by
  rw [older, List.filter_cons_of_pos (by simpa using h), newestFirst_cons, older]

theorem time_lt_of_mem_older (h : b ∈ older time a log) : time b < time a := by
  have hmem := (List.mem_insertionSort _).mp h
  simpa using (List.mem_filter.mp hmem).2

/-- Sorting puts the entries no older than `a` first. -/
theorem newestFirst_eq_append (time : α → τ) (a : α) (log : List α) :
    newestFirst time log = noOlder time a log ++ older time a log := by
  induction log with
  | nil => rfl
  | cons b log ih =>
      rw [newestFirst_cons, ih]
      rcases le_or_gt (time a) (time b) with hb | hb
      · rw [noOlder_cons_of_le hb, older_cons_of_le hb]
        cases hold : older time a log with
        | nil => rw [List.append_nil, List.append_nil]
        | cons c rest =>
            have hc : time c < time a := time_lt_of_mem_older (hold ▸ List.mem_cons_self)
            exact orderedInsert_append_of_le (hc.le.trans hb) _
      · rw [noOlder_cons_of_lt hb, older_cons_of_lt hb]
        exact orderedInsert_append_of_lt fun c hc => hb.trans_le (time_le_of_mem_noOlder hc)

/-- **Where an entry that is added comes**: behind those no older than it. -/
theorem newestFirst_append (time : α → τ) (a : α) (log : List α) :
    newestFirst time (log ++ [a]) = noOlder time a log ++ a :: older time a log := by
  induction log with
  | nil => rfl
  | cons b log ih =>
      rw [List.cons_append, newestFirst_cons, ih]
      rcases le_or_gt (time a) (time b) with hb | hb
      · rw [noOlder_cons_of_le hb, older_cons_of_le hb]
        exact orderedInsert_append_of_le hb _
      · rw [noOlder_cons_of_lt hb, older_cons_of_lt hb,
          orderedInsert_append_of_lt fun c hc => hb.trans_le (time_le_of_mem_noOlder hc),
          List.orderedInsert_cons, if_neg (not_le.mpr hb)]

/-- An entry behind at least `n` others leaves the newest `n` as they were. -/
theorem take_newestFirst_append_of_le {n : ℕ} (h : n ≤ (noOlder time a log).length) :
    (newestFirst time (log ++ [a])).take n = (newestFirst time log).take n := by
  rw [newestFirst_append, newestFirst_eq_append time a log, List.take_append_of_le_length h,
    List.take_append_of_le_length h]

/-- An entry behind fewer than `n` others is one of the newest `n`. -/
theorem mem_take_newestFirst_append {n : ℕ} (h : (noOlder time a log).length < n) :
    a ∈ (newestFirst time (log ++ [a])).take n := by
  obtain ⟨k, hk⟩ := Nat.exists_eq_add_of_lt h
  rw [newestFirst_append, List.take_append, List.mem_append]
  right
  rw [show n - (noOlder time a log).length = k + 1 by omega, List.take_succ_cons]
  exact List.mem_cons_self

end Added

namespace Chronological
variable {time : α → τ} {log : List α}

theorem append {a : α} (h : Chronological time log) (ha : ∀ b ∈ log, time b < time a) :
    Chronological time (log ++ [a]) :=
  List.pairwise_append.mpr ⟨h, List.pairwise_singleton _ _, fun b hb c hc => by
    rw [List.mem_singleton.mp hc]
    exact ha b hb⟩

theorem sublist {log' : List α} (h : Chronological time log) (hsub : log'.Sublist log) :
    Chronological time log' := List.Pairwise.sublist hsub h

/-- Sorting a log to which a newer entry was added puts that entry first. -/
theorem newestFirst_append {a : α} (ha : ∀ b ∈ log, time b < time a) :
    newestFirst time (log ++ [a]) = a :: newestFirst time log := by
  have hnone : noOlder time a log = [] := by
    refine List.eq_nil_iff_forall_not_mem.mpr fun b hb => ?_
    exact absurd (time_le_of_mem_noOlder hb) (not_le.mpr (ha b (mem_of_mem_noOlder hb)))
  rw [Lib.newestFirst_append, newestFirst_eq_append time a log, hnone]
  rfl

/-- **Newest first is the reverse order.** -/
theorem newestFirst_eq (h : Chronological time log) : newestFirst time log = log.reverse := by
  induction log using List.reverseRecOn with
  | nil => rfl
  | append_singleton log a ih =>
      obtain ⟨hlog, -, hlast⟩ := List.pairwise_append.mp h
      rw [newestFirst_append fun b hb => hlast b hb a (List.mem_singleton_self a), ih hlog,
        List.reverse_append, List.reverse_singleton, List.singleton_append]

end Chronological

/-- **What is left when all but the newest `n` are deleted by key.** -/
theorem filter_mem_newest [DecidableEq β] {key : α → β} {log : List α} (h : (log.map key).Nodup)
    (n : Nat) :
    log.filter (fun a => key a ∈ (log.reverse.take n).map key) = (log.reverse.take n).reverse := by
  rw [List.take_reverse, List.reverse_reverse]
  generalize log.length - n = k
  have hsplit := List.take_append_drop k log
  have hdisjoint : ∀ a ∈ log.take k, key a ∉ ((log.drop k).reverse).map key := by
    intro a ha hmem
    rw [← hsplit, List.map_append] at h
    rw [List.map_reverse, List.mem_reverse] at hmem
    exact (List.disjoint_of_nodup_append h) (List.mem_map_of_mem ha) hmem
  have hold : (log.take k).filter (fun a => key a ∈ ((log.drop k).reverse).map key) = [] := by
    simpa [List.filter_eq_nil_iff] using hdisjoint
  have hnew : (log.drop k).filter (fun a => key a ∈ ((log.drop k).reverse).map key) =
      log.drop k := by
    refine List.filter_eq_self.mpr fun a ha => decide_eq_true ?_
    exact List.mem_map_of_mem (List.mem_reverse.mpr ha)
  calc log.filter (fun a => key a ∈ ((log.drop k).reverse).map key)
      = (log.take k ++ log.drop k).filter
          (fun a => key a ∈ ((log.drop k).reverse).map key) := by rw [hsplit]
    _ = log.drop k := by rw [List.filter_append, hold, hnew, List.nil_append]

end AdminPlatform.Lib
