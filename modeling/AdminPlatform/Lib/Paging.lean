import Mathlib.Data.List.Nodup
import Mathlib.Data.List.Sort

/-! # Pages of an ordered result

`ORDER BY` with `OFFSET` and `LIMIT`: a page is a slice of the rows in an order the `ORDER BY`
allows. Which of those orders is up to the database, and it may choose anew for each page.

The pages together hold every row once, whatever is chosen, if and only if no two rows that
tie stand on two sides of a page boundary (`pages_perm_iff`): where they do not, every choice
agrees on what the first pages hold (`take_perm`); where they do, swapping the two between one
query and the next shows one of them twice (`not_perm_of_tie`). -/

namespace AdminPlatform.Lib.Paging

/-- The rows of a page, the first of which is page 1. -/
def slice {α : Type} (page limit : ℕ) (rows : List α) : List α :=
  (rows.drop ((page - 1) * limit)).take limit

def totalPages (totalItems limit : ℕ) : ℕ := (totalItems + limit - 1) / limit

/-- A way to order rows that an `ORDER BY` allows: rows that tie may come either way. -/
structure OrderBy {α : Type} (le : α → α → Prop) where
  pick : List α → List α
  perm : ∀ rows, (pick rows).Perm rows
  sorted : ∀ rows, (pick rows).Pairwise le

/-- `ORDER BY key`. -/
def Ascending {α κ : Type} [LE κ] (key : α → κ) (a b : α) : Prop := key a ≤ key b

/-- `ORDER BY key DESC`. -/
def Descending {α κ : Type} [LE κ] (key : α → κ) (a b : α) : Prop := key b ≤ key a

section Keys
variable {α κ : Type} [LinearOrder κ] (key : α → κ)

instance : DecidableRel (Ascending key) := fun a b => inferInstanceAs (Decidable (key a ≤ key b))
instance : Std.Total (Ascending key) := ⟨fun a b => le_total (key a) (key b)⟩
instance : IsTrans α (Ascending key) := ⟨fun _ _ _ => le_trans⟩
instance : DecidableRel (Descending key) := fun a b => inferInstanceAs (Decidable (key b ≤ key a))
instance : Std.Total (Descending key) := ⟨fun a b => le_total (key b) (key a)⟩
instance : IsTrans α (Descending key) := ⟨fun _ _ _ hab hbc => le_trans hbc hab⟩

end Keys

/-- What pages 1 to the last show together, in the order the database picks for each. -/
def pages {α : Type} {le : α → α → Prop} (orders : ℕ → OrderBy le) (limit : ℕ)
    (rows : List α) : List α :=
  (List.range (totalPages rows.length limit)).flatMap fun i =>
    slice (i + 1) limit ((orders (i + 1)).pick rows)

/-- No two rows that tie stand on two sides of a page boundary. -/
def Untied {α : Type} (le : α → α → Prop) [DecidableRel le] (limit : ℕ) (rows : List α) : Prop :=
  ∀ k, 0 < k → ∀ a ∈ (rows.insertionSort le)[k * limit - 1]?,
    ∀ b ∈ (rows.insertionSort le)[k * limit]?, ¬ le b a

/-! ## The number of pages -/

theorem length_le_totalPages_mul {limit : ℕ} (hlimit : 1 ≤ limit) (n : ℕ) :
    n ≤ totalPages n limit * limit := by
  have h : n + limit - 1 < (n + limit - 1) / limit * limit + limit := Nat.lt_div_mul_add hlimit
  unfold totalPages
  omega

theorem lt_totalPages {limit k n : ℕ} (hlimit : 1 ≤ limit) (h : k * limit < n) :
    k < totalPages n limit := by
  unfold totalPages
  refine (Nat.le_div_iff_mul_le hlimit).mpr ?_
  rw [Nat.succ_mul]
  omega

section Pages
variable {α : Type} {le : α → α → Prop} [DecidableRel le] [Std.Total le] [IsTrans α le]
variable {rows xs ys : List α} {limit : ℕ}

/-- An order every `ORDER BY` may answer: the rows sorted, and ties as they were. -/
def OrderBy.stable (le : α → α → Prop) [DecidableRel le] [Std.Total le] [IsTrans α le] :
    OrderBy le where
  pick rows := rows.insertionSort le
  perm rows := rows.perm_insertionSort le
  sorted rows := List.pairwise_insertionSort le rows

/-- Another one: the rows sorted, and ties the other way round. -/
def OrderBy.reversed (le : α → α → Prop) [DecidableRel le] [Std.Total le] [IsTrans α le] :
    OrderBy le where
  pick rows := rows.reverse.insertionSort le
  perm rows := (rows.reverse.perm_insertionSort le).trans rows.reverse_perm
  sorted rows := List.pairwise_insertionSort le rows.reverse

/-! ## Without ties at the boundaries -/

omit [DecidableRel le] [Std.Total le] [IsTrans α le] in
/-- What holds of the smaller rows holds of a prefix of sorted rows. -/
theorem filter_eq_take {p : α → Bool} (hsorted : xs.Pairwise le)
    (hdown : ∀ a b, le a b → p b = true → p a = true) :
    xs.filter p = xs.take (xs.countP p) := by
  induction xs with
  | nil => rfl
  | cons x xs ih =>
      obtain ⟨hx, hxs⟩ := List.pairwise_cons.mp hsorted
      cases hp : p x with
      | true => rw [List.filter_cons_of_pos hp, List.countP_cons_of_pos hp, List.take_succ_cons, ih hxs]
      | false =>
          have hnone : ∀ y ∈ xs, ¬ p y = true := by
            intro y hy hpy
            rw [hdown x y (hx y hy) hpy] at hp
            cases hp
          rw [List.filter_cons_of_neg (by simp [hp]), List.countP_cons_of_neg (by simp [hp]),
            List.countP_eq_zero.mpr hnone, List.filter_eq_nil_iff.mpr hnone]
          rfl

omit [DecidableRel le] [IsTrans α le] in
/-- Of two rows in order, the one that comes first is not after the other. -/
theorem le_of_getElem? (hsorted : xs.Pairwise le) {i j : ℕ} (hij : i ≤ j) {x y : α}
    (hx : xs[i]? = some x) (hy : xs[j]? = some y) : le x y := by
  obtain ⟨hi, rfl⟩ := List.getElem?_eq_some_iff.mp hx
  obtain ⟨hj, rfl⟩ := List.getElem?_eq_some_iff.mp hy
  rcases Nat.lt_or_eq_of_le hij with hlt | rfl
  · exact List.pairwise_iff_getElem.mp hsorted i j hi hj hlt
  · exact Std.Refl.refl _

/-- The rows up to the one before the boundary are as many as stand before it. -/
theorem countP_eq (hys : ys.Pairwise le) {n : ℕ} {a b : α} (hpos : 0 < n)
    (ha : ys[n - 1]? = some a) (hb : ys[n]? = some b) (hnot : ¬ le b a) :
    ys.countP (fun x => le x a) = n := by
  -- at the boundary: all before it are at most `a`, all after it at least `b`
  have hbefore : (ys.take n).countP (fun x => le x a) = n := by
    have hlen : (ys.take n).length = n := by
      obtain ⟨hn, -⟩ := List.getElem?_eq_some_iff.mp hb
      exact List.length_take_of_le (Nat.le_of_lt hn)
    rw [List.countP_eq_length.mpr ?_, hlen]
    intro x hx
    obtain ⟨i, hi, rfl⟩ := List.mem_take_iff_getElem.mp hx
    exact decide_eq_true (le_of_getElem? hys (by omega) (List.getElem?_eq_getElem _) ha)
  have hafter : (ys.drop n).countP (fun x => le x a) = 0 := by
    refine List.countP_eq_zero.mpr fun x hx hle => hnot ?_
    obtain ⟨i, hi, hxi⟩ := List.mem_drop_iff_getElem.mp hx
    have hb' := le_of_getElem? hys (Nat.le_add_right n i) hb (List.getElem?_eq_some_iff.mpr ⟨_, hxi⟩)
    exact IsTrans.trans _ _ _ hb' (of_decide_eq_true hle)
  rw [← List.take_append_drop n ys, List.countP_append, hbefore, hafter]
  rfl

/-- **Where the rows on two sides of a boundary do not tie**, every order has the same rows
before it. -/
theorem take_perm (hperm : xs.Perm ys) (hxs : xs.Pairwise le) (hys : ys.Pairwise le) {n : ℕ}
    (huntied : ∀ a ∈ ys[n - 1]?, ∀ b ∈ ys[n]?, ¬ le b a) : (xs.take n).Perm (ys.take n) := by
  rcases Nat.eq_zero_or_pos n with rfl | hpos
  · simp
  rcases Nat.lt_or_ge n ys.length with hlt | hge
  · obtain ⟨a, ha⟩ : ∃ a, ys[n - 1]? = some a := ⟨_, List.getElem?_eq_getElem (by omega)⟩
    obtain ⟨b, hb⟩ : ∃ b, ys[n]? = some b := ⟨_, List.getElem?_eq_getElem hlt⟩
    have hcount := countP_eq hys hpos ha hb (huntied a ha b hb)
    have hdown : ∀ x y, le x y → decide (le y a) = true → decide (le x a) = true := by
      intro x y hxy hy
      exact decide_eq_true (IsTrans.trans _ _ _ hxy (of_decide_eq_true hy))
    have hfilter := hperm.filter (fun x => decide (le x a))
    rwa [filter_eq_take hxs hdown, filter_eq_take hys hdown, hperm.countP_eq, hcount] at hfilter
  · rw [List.take_of_length_le hge, List.take_of_length_le (hperm.length_eq ▸ hge)]
    exact hperm

/-- The first pages together, whatever is picked for each. -/
theorem flatMap_slice_perm {order : ℕ → List α} (hperm : ∀ i, (order i).Perm ys)
    (hsorted : ∀ i, (order i).Pairwise le) (hys : ys.Pairwise le)
    (huntied : ∀ k, 0 < k → ∀ a ∈ ys[k * limit - 1]?, ∀ b ∈ ys[k * limit]?, ¬ le b a) (n : ℕ) :
    ((List.range n).flatMap fun i => slice (i + 1) limit (order i)).Perm
      (ys.take (n * limit)) := by
  -- the first `k` pages hold the same elements in every order
  have htake : ∀ k i, ((order i).take (k * limit)).Perm (ys.take (k * limit)) := by
    intro k i
    rcases Nat.eq_zero_or_pos k with rfl | hk
    · simp
    · exact take_perm (hperm i) (hsorted i) hys (huntied k hk)
  induction n with
  | zero => simp
  | succ n ih =>
      have hslice : (order n).take (n * limit) ++ slice (n + 1) limit (order n) =
          (order n).take ((n + 1) * limit) := by
        rw [slice, Nat.add_sub_cancel, Nat.succ_mul, List.take_add]
      rw [List.range_succ, List.flatMap_append, List.flatMap_singleton]
      exact ((ih.trans (htake n n).symm).append_right _).trans (hslice ▸ htake (n + 1) n)

theorem pages_perm (huntied : Untied le limit rows) (hlimit : 1 ≤ limit)
    (orders : ℕ → OrderBy le) : (pages orders limit rows).Perm rows := by
  have hstable := (OrderBy.stable le).perm rows
  have hall := flatMap_slice_perm (fun i => ((orders (i + 1)).perm rows).trans hstable.symm)
    (fun i => (orders (i + 1)).sorted rows) ((OrderBy.stable le).sorted rows) huntied
    (totalPages rows.length limit)
  refine hall.trans ?_
  rw [List.take_of_length_le]
  · exact hstable
  · rw [hstable.length_eq]
    exact length_le_totalPages_mul hlimit _

/-! ## A tie at a boundary -/

omit [DecidableRel le] [Std.Total le] [IsTrans α le] in
/-- Two neighbours that tie may come the other way round. -/
theorem pairwise_swap {before after : List α} {a b : α} (hle : le b a)
    (h : (before ++ a :: b :: after).Pairwise le) :
    (before ++ b :: a :: after).Pairwise le := by
  simp only [List.pairwise_append, List.pairwise_cons, List.mem_cons, forall_eq_or_imp] at h ⊢
  obtain ⟨hbefore, ⟨⟨-, ha⟩, hb, hafter⟩, hcross⟩ := h
  refine ⟨hbefore, ⟨⟨hle, hb⟩, ha, hafter⟩, fun x hx => ?_⟩
  obtain ⟨hxa, hxb, hrest⟩ := hcross x hx
  exact ⟨hxb, hxa, hrest⟩

/-- The database may pick any order of the rows that is sorted. -/
theorem exists_orderBy (hperm : xs.Perm rows) (hsorted : xs.Pairwise le) :
    ∃ order : OrderBy le, order.pick rows = xs := by
  classical
  refine ⟨{ pick := fun r => if r = rows then xs else (OrderBy.stable le).pick r
            perm := fun r => ?_, sorted := fun r => ?_ }, if_pos rfl⟩
  · by_cases h : r = rows
    · rw [if_pos h, h]
      exact hperm
    · rw [if_neg h]
      exact (OrderBy.stable le).perm r
  · by_cases h : r = rows
    · rw [if_pos h]
      exact hsorted
    · rw [if_neg h]
      exact (OrderBy.stable le).sorted r

/-- Two neighbours of a list, and what stands before and after them. -/
theorem eq_append_of_getElem? {n : ℕ} {a b : α} (ha : xs[n]? = some a)
    (hb : xs[n + 1]? = some b) :
    ∃ before after, xs = before ++ a :: b :: after ∧ before.length = n := by
  obtain ⟨hn, rfl⟩ := List.getElem?_eq_some_iff.mp ha
  obtain ⟨hn', rfl⟩ := List.getElem?_eq_some_iff.mp hb
  refine ⟨xs.take n, xs.drop (n + 2), ?_, List.length_take_of_le (Nat.le_of_lt hn)⟩
  rw [← List.drop_eq_getElem_cons, ← List.drop_eq_getElem_cons, List.take_append_drop]

theorem mem_slice {n i : ℕ} {a : α} (ha : xs[i]? = some a) (hfrom : n * limit ≤ i)
    (hto : i < (n + 1) * limit) : a ∈ slice (n + 1) limit xs := by
  rw [Nat.succ_mul] at hto
  refine List.mem_iff_getElem?.mpr ⟨i - n * limit, ?_⟩
  rw [slice, Nat.add_sub_cancel, List.getElem?_take_of_lt (by omega), List.getElem?_drop,
    Nat.add_sub_cancel' hfrom, ha]

/-- **A tie at a boundary**: picked one way for the page before it and the other way for the
page after it, a row is on both. -/
theorem not_perm_of_tie (hnodup : rows.Nodup) (hlimit : 1 ≤ limit) {k : ℕ} (hk : 0 < k) {a b : α}
    (ha : (rows.insertionSort le)[k * limit - 1]? = some a)
    (hb : (rows.insertionSort le)[k * limit]? = some b) (hle : le b a) :
    ∃ orders : ℕ → OrderBy le, ¬ (pages orders limit rows).Perm rows := by
  obtain ⟨n, hn⟩ : ∃ n, k * limit = n + 1 :=
    ⟨k * limit - 1, (Nat.sub_add_cancel (Nat.mul_pos hk hlimit)).symm⟩
  rw [hn] at hb
  rw [hn, Nat.add_sub_cancel] at ha
  obtain ⟨before, after, hsplit, hlength⟩ := eq_append_of_getElem? ha hb
  have hperm := (OrderBy.stable le).perm rows
  have hsorted := (OrderBy.stable le).sorted rows
  obtain ⟨swapped, hswapped⟩ : ∃ order : OrderBy le,
      order.pick rows = before ++ b :: a :: after := by
    refine exists_orderBy ?_ ?_
    · exact ((List.Perm.swap a b after).append_left before).trans (hsplit ▸ hperm)
    · exact pairwise_swap hle (hsplit ▸ hsorted)
  refine ⟨fun i => if i ≤ k then OrderBy.stable le else swapped, fun hall => ?_⟩
  obtain ⟨-, hdisjoint⟩ := List.nodup_flatMap.mp (hall.nodup_iff.mpr hnodup)
  obtain ⟨j, rfl⟩ : ∃ j, k = j + 1 := ⟨k - 1, (Nat.sub_add_cancel hk).symm⟩
  have hlast : j + 1 < totalPages rows.length limit := by
    refine lt_totalPages hlimit ?_
    rw [hn, ← hperm.length_eq]
    exact (List.getElem?_eq_some_iff.mp hb).1
  -- page `j + 1` ends with `a`, and page `j + 2` starts with it
  have hpages := List.pairwise_iff_getElem.mp hdisjoint j (j + 1) (by simp; omega)
    (by simpa using hlast) (Nat.lt_succ_self j)
  simp only [List.getElem_range, Function.onFun, Nat.succ_le_succ_iff, Nat.le_refl,
    Nat.not_succ_le_self, if_true, if_false, hswapped] at hpages
  have hmul : (j + 1) * limit = j * limit + limit := Nat.succ_mul _ _
  have hmul' : (j + 1 + 1) * limit = (j + 1) * limit + limit := Nat.succ_mul _ _
  have hfirst : (before ++ b :: a :: after)[n + 1]? = some a := by
    rw [List.getElem?_append_right (by omega), hlength, Nat.add_sub_cancel_left]
    rfl
  exact hpages (mem_slice ha (by omega) (by omega)) (mem_slice hfirst (by omega) (by omega))

/-- **The pages together hold every row once**, whatever order is picked for each, if and only
if no two rows that tie stand on two sides of a page boundary. -/
theorem pages_perm_iff (hnodup : rows.Nodup) (hlimit : 1 ≤ limit) :
    (∀ orders : ℕ → OrderBy le, (pages orders limit rows).Perm rows) ↔ Untied le limit rows := by
  constructor
  · intro h k hk a ha b hb hle
    obtain ⟨orders, hnot⟩ := not_perm_of_tie hnodup hlimit hk ha hb hle
    exact hnot (h orders)
  · exact fun huntied => pages_perm huntied hlimit

end Pages
end AdminPlatform.Lib.Paging
