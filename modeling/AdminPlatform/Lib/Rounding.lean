import Mathlib.Data.Int.Log
import Mathlib.Data.Rat.Floor
import Mathlib.Tactic.Linarith

/-! # Rounding to a grid, and shortest decimals

A `grid` is an increasing sequence of numbers that can be represented. `RoundsTo` says which of
them a number is rounded to: the nearest, and of two the one at an even position. It is at most
one (`RoundsTo.unique`).

`shortest` writes a point of the grid in decimal, with as few digits as are rounded to it. A
number of digits is enough once decimals of that length lie closer than the points around
(`exists_candidate`). -/

namespace AdminPlatform.Lib.Rounding

/-! ## To the nearest -/

section Nearest
variable {K : Type*} [Field K] [LinearOrder K] [IsStrictOrderedRing K] {grid : ℕ → K}

def midpoint (grid : ℕ → K) (n : ℕ) : K := (grid n + grid (n + 1)) / 2

/-- `v` is rounded to a point after the `n`-th; halfway it is if the `n`-th is odd. -/
def Past (grid : ℕ → K) (n : ℕ) (v : K) : Prop :=
  midpoint grid n < v ∨ midpoint grid n = v ∧ n % 2 = 1

/-- `v` is rounded to the `n`-th point. -/
def RoundsTo (grid : ℕ → K) : ℕ → K → Prop
  | 0, v => ¬ Past grid 0 v
  | n + 1, v => Past grid n v ∧ ¬ Past grid (n + 1) v

instance (n : ℕ) (v : K) : Decidable (Past grid n v) := inferInstanceAs (Decidable (_ ∨ _))

instance (n : ℕ) (v : K) : Decidable (RoundsTo grid n v) :=
  match n with
  | 0 => inferInstanceAs (Decidable (¬ _))
  | _ + 1 => inferInstanceAs (Decidable (_ ∧ _))

theorem lt_midpoint (hgrid : StrictMono grid) (n : ℕ) :
    grid n < midpoint grid n ∧ midpoint grid n < grid (n + 1) := by
  have hstep := hgrid (Nat.lt_succ_self n)
  constructor
  · rw [midpoint, lt_div_iff₀ two_pos]
    linarith
  · rw [midpoint, div_lt_iff₀ two_pos]
    linarith

theorem midpoint_strictMono (hgrid : StrictMono grid) : StrictMono (midpoint grid) :=
  strictMono_nat_of_lt_succ fun n =>
    (lt_midpoint hgrid n).2.trans (lt_midpoint hgrid (n + 1)).1

theorem Past.anti (hgrid : StrictMono grid) {m n : ℕ} (hmn : m ≤ n) {v : K}
    (h : Past grid n v) : Past grid m v := by
  rcases hmn.lt_or_eq with hlt | rfl
  · have hmid := midpoint_strictMono hgrid hlt
    rcases h with hpast | ⟨hhalf, -⟩
    · exact .inl (hmid.trans hpast)
    · exact .inl (hhalf ▸ hmid)
  · exact h

omit [IsStrictOrderedRing K] in
theorem RoundsTo.not_past {n : ℕ} {v : K} (h : RoundsTo grid n v) : ¬ Past grid n v := by
  cases n with
  | zero => exact h
  | succ n => exact h.2

theorem RoundsTo.past (hgrid : StrictMono grid) {m n : ℕ} (hmn : m < n) {v : K}
    (h : RoundsTo grid n v) : Past grid m v := by
  cases n with
  | zero => exact absurd hmn (Nat.not_lt_zero m)
  | succ n => exact h.1.anti hgrid (Nat.lt_succ_iff.mp hmn)

/-- **A number is rounded to one point.** -/
theorem RoundsTo.unique (hgrid : StrictMono grid) {m n : ℕ} {v : K} (hm : RoundsTo grid m v)
    (hn : RoundsTo grid n v) : m = n := by
  rcases lt_trichotomy m n with hlt | heq | hgt
  · exact absurd (hn.past hgrid hlt) hm.not_past
  · exact heq
  · exact absurd (hm.past hgrid hgt) hn.not_past

/-- Of two numbers around a point, closer to each other than the points around it, one at least
is rounded to it. -/
theorem roundsTo_or (hgrid : StrictMono grid) {n : ℕ} {low high : K} (hlow : low ≤ grid (n + 1))
    (hhigh : grid (n + 1) < high) (hclose : (high - low) * 2 < grid (n + 2) - grid n) :
    RoundsTo grid (n + 1) low ∨ RoundsTo grid (n + 1) high := by
  obtain ⟨hleft, hbelow⟩ := lt_midpoint hgrid n
  obtain ⟨habove, -⟩ := lt_midpoint hgrid (n + 1)
  by_contra hneither
  obtain ⟨hnotLow, hnotHigh⟩ := not_or.mp hneither
  -- the lower one is not past the gap below, and the upper one is past the gap above
  have hlowNot : ¬ Past grid n low := by
    intro hpast
    refine hnotLow ⟨hpast, ?_⟩
    rintro (hlt | ⟨heq, -⟩)
    · exact absurd (hlt.trans_le hlow) (not_lt.mpr habove.le)
    · exact absurd (heq ▸ hlow) (not_le.mpr habove)
  have hhighPast : Past grid (n + 1) high := by
    by_contra hpast
    exact hnotHigh ⟨.inl (hbelow.trans hhigh), hpast⟩
  have hlowLe : low ≤ midpoint grid n := not_lt.mp fun h => hlowNot (.inl h)
  have hhighLe : midpoint grid (n + 1) ≤ high := by
    rcases hhighPast with hlt | ⟨heq, -⟩
    · exact hlt.le
    · exact heq.le
  have hsum : midpoint grid (n + 1) - midpoint grid n = (grid (n + 2) - grid n) / 2 := by
    rw [midpoint, midpoint]
    ring
  linarith

end Nearest

/-! ## Shortest decimals -/

/-- The distance of decimals of `k` digits around `v`. -/
def unit (v : ℚ) (k : ℕ) : ℚ := 10 ^ (Int.log 10 v + 1 - k)

theorem unit_pos (v : ℚ) (k : ℕ) : 0 < unit v k := zpow_pos (by norm_num) _

/-- The decimal of `k` digits under `v` is `low v k` units. -/
def low (v : ℚ) (k : ℕ) : ℕ := ⌊v / unit v k⌋₊

theorem low_le {v : ℚ} (hv : 0 ≤ v) (k : ℕ) : low v k * unit v k ≤ v :=
  (le_div_iff₀ (unit_pos v k)).mp (Nat.floor_le (div_nonneg hv (unit_pos v k).le))

theorem lt_low_succ (v : ℚ) (k : ℕ) : v < (low v k + 1 : ℕ) * unit v k := by
  have hfloor := Nat.lt_floor_add_one (v / unit v k)
  rw [div_lt_iff₀ (unit_pos v k)] at hfloor
  rw [Nat.cast_add_one]
  exact hfloor

/-- The decimal of `k` digits that is rounded to the `n`-th point, in units. Of two it is the
closer one, and of two that are equally close the even one. -/
def candidate (grid : ℕ → ℚ) (n k : ℕ) : Option ℕ :=
  let v := grid n
  let down := low v k
  let rest := (v - down * unit v k) * 2
  if RoundsTo grid n (down * unit v k) then
    if RoundsTo grid n ((down + 1 : ℕ) * unit v k) ∧
        (unit v k < rest ∨ unit v k = rest ∧ down % 2 = 1) then some (down + 1)
    else some down
  else if RoundsTo grid n ((down + 1 : ℕ) * unit v k) then some (down + 1)
  else none

/-- A candidate is rounded to the point. -/
theorem roundsTo_of_candidate {grid : ℕ → ℚ} {n k d : ℕ} (h : candidate grid n k = some d) :
    RoundsTo grid n (d * unit (grid n) k) := by
  unfold candidate at h
  dsimp only at h
  split at h
  · rename_i hlow
    split at h
    · rename_i hhigh
      obtain rfl := Option.some.inj h
      exact hhigh.1
    · obtain rfl := Option.some.inj h
      exact hlow
  · split at h
    · rename_i hhigh
      obtain rfl := Option.some.inj h
      exact hhigh
    · cases h

/-- **Enough digits.** -/
theorem exists_candidate {grid : ℕ → ℚ} (hgrid : StrictMono grid) (hzero : 0 ≤ grid 0) {n k : ℕ}
    (hclose : unit (grid (n + 1)) k * 2 < grid (n + 2) - grid n) :
    ∃ d, candidate grid (n + 1) k = some d := by
  have hpos : 0 ≤ grid (n + 1) := hzero.trans (hgrid.monotone (Nat.zero_le _))
  have hgap : (((low (grid (n + 1)) k + 1 : ℕ) : ℚ) * unit (grid (n + 1)) k -
      low (grid (n + 1)) k * unit (grid (n + 1)) k) * 2 < grid (n + 2) - grid n := by
    rw [Nat.cast_add_one, add_mul, one_mul, add_sub_cancel_left]
    exact hclose
  have hor := roundsTo_or hgrid (low_le hpos k) (lt_low_succ (grid (n + 1)) k) hgap
  unfold candidate
  dsimp only
  split
  · split
    · exact ⟨_, rfl⟩
    · exact ⟨_, rfl⟩
  · rename_i hlow
    rw [if_pos (hor.resolve_left hlow)]
    exact ⟨_, rfl⟩

/-- The first candidate, of up to `most` digits: its units, and the power of ten they are. -/
def shortest (grid : ℕ → ℚ) (most n : ℕ) : Option (ℕ × ℤ) :=
  (List.range most).findSome? fun i =>
    (candidate grid n (i + 1)).map fun d => (d, Int.log 10 (grid n) + 1 - (i + 1 : ℕ))

/-- **The shortest decimal is rounded to the point.** -/
theorem roundsTo_of_shortest {grid : ℕ → ℚ} {most n d : ℕ} {e : ℤ}
    (h : shortest grid most n = some (d, e)) : RoundsTo grid n (d * 10 ^ e) := by
  obtain ⟨i, -, hfound⟩ := List.exists_of_findSome?_eq_some h
  obtain ⟨d', hcandidate, heq⟩ := Option.map_eq_some_iff.mp hfound
  obtain ⟨rfl, rfl⟩ := Prod.mk.inj heq
  exact roundsTo_of_candidate hcandidate

theorem exists_shortest {grid : ℕ → ℚ} (hgrid : StrictMono grid) (hzero : 0 ≤ grid 0)
    {most n : ℕ} (hclose : unit (grid (n + 1)) (most + 1) * 2 < grid (n + 2) - grid n) :
    ∃ d e, shortest grid (most + 1) (n + 1) = some (d, e) := by
  obtain ⟨d, hd⟩ := exists_candidate hgrid hzero hclose
  cases hfound : shortest grid (most + 1) (n + 1) with
  | some found => exact ⟨found.1, found.2, rfl⟩
  | none =>
      have hnone := List.findSome?_eq_none_iff.mp hfound most (List.mem_range.mpr (by omega))
      rw [hd] at hnone
      cases hnone

end AdminPlatform.Lib.Rounding
