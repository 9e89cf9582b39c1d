import AdminPlatform.Roles.Expansion
import AdminPlatform.Screens.Codes

/-! # The order of the permissions a role shows

The permissions of a role are shown by the sort order of their screens, then by the numbers of
the codes, codes without a number last, and the read of a screen before its write (`Before`).
The sort key writes a number as its decimal numeral filled with zeros to eight digits, which is
ordered as the numbers are only up to eight digits. So the order is kept exactly where no
number is overtaken by the wider numeral of a larger one (`canonical_iff`). -/

namespace AdminPlatform.RoleService
open AdminPlatform.Lib AdminPlatform.Lib.Paging AdminPlatform.Schemas ScreenRepository

/-! ## The canonical order -/

/-- A permission that the rows grant, as its sort order, code and operation: a write implies
the read. -/
inductive Grants (rows : List PermissionRow) : Nat × String × String → Prop
  | read {code sortOrder read write} : (code, sortOrder, read, write) ∈ rows →
      (read || write) = true → Grants rows (sortOrder, code, "R")
  | write {code sortOrder read} : (code, sortOrder, read, true) ∈ rows →
      Grants rows (sortOrder, code, "W")

/-- Codes with a number come in the order of their numbers, before codes without. -/
def CodeBefore (code code' : String) : Prop :=
  match numericSuffix code, numericSuffix code' with
  | some a, some b => a < b
  | some _, none => True
  | none, _ => False

/-- The canonical order of permissions. -/
inductive Before : Nat × String × String → Nat × String × String → Prop
  | sortOrder {o o' c c' p p'} : o < o' → Before (o, c, p) (o', c', p')
  | code {o c c' p p'} : CodeBefore c c' → Before (o, c, p) (o, c', p')
  | operation {o c} : Before (o, c, "R") (o, c, "W")

/-- The permissions of the rows are shown in their canonical order: whatever the order of the
rows, each permission they grant once, and one before another where it is to come before. -/
structure Canonical (rows : List PermissionRow) : Prop where
  perm : ∀ rows', rows'.Perm rows → expandPermissions rows' = expandPermissions rows
  mem : ∀ p, p ∈ expandPermissions rows ↔ ∃ g, Grants rows g ∧ p = g.2.1 ++ "." ++ g.2.2
  nodup : (expandPermissions rows).Nodup
  order : ∀ g g', Grants rows g → Grants rows g' → Before g g' →
    List.Sublist [g.2.1 ++ "." ++ g.2.2, g'.2.1 ++ "." ++ g'.2.2] (expandPermissions rows)

/-- Two codes with numbers, of one sort order and with something granted on each: the numeral
of the larger number, filled with zeros to eight digits, comes first. -/
def Overtaken (rows : List PermissionRow) : Prop :=
  ∃ sortOrder code code' a b, Grants rows (sortOrder, code, "R") ∧
    Grants rows (sortOrder, code', "R") ∧ numericSuffix code = some a ∧
    numericSuffix code' = some b ∧ Decimal.Overtakes 8 a b

/-! ## The sort key -/

section Key
variable {code code' : String} {a b : Nat}

theorem screenCodeKey_some (h : numericSuffix code = some a) :
    screenCodeKey code = (0, String.ofList (Decimal.padded 8 a), code) := by
  rw [screenCodeKey, h]
  rfl

theorem screenCodeKey_none (h : numericSuffix code = none) :
    screenCodeKey code = (1, "", code) := by
  rw [screenCodeKey, h]

/-- Filled numerals tell two numbers apart. -/
theorem padded_lt_of_overtakes (h : Decimal.Overtakes 8 a b) :
    Decimal.padded 8 b < Decimal.padded 8 a := by
  rcases lt_trichotomy (Decimal.padded 8 a) (Decimal.padded 8 b) with hlt | heq | hgt
  · exact absurd h ((Decimal.padded_lt_iff h.1).mp hlt)
  · exact absurd (Decimal.padded_injective 8 heq) (ne_of_lt h.1)
  · exact hgt

theorem permissionKey_lt_of_sortOrder {o o' : Nat} {p p' : String} (h : o < o') :
    permissionKey (o, code, p) < permissionKey (o', code', p') :=
  Prod.Lex.toLex_lt_toLex.mpr (.inl h)

/-- Of one sort order, codes with numbers are sorted by the filled numerals. -/
theorem permissionKey_lt_of_padded {o : Nat} {p p' : String} (ha : numericSuffix code = some a)
    (hb : numericSuffix code' = some b) (h : Decimal.padded 8 a < Decimal.padded 8 b) :
    permissionKey (o, code, p) < permissionKey (o, code', p') := by
  unfold permissionKey
  rw [screenCodeKey_some ha, screenCodeKey_some hb]
  refine Prod.Lex.toLex_lt_toLex.mpr (.inr ⟨rfl, ?_⟩)
  refine Prod.Lex.toLex_lt_toLex.mpr (.inr ⟨rfl, ?_⟩)
  refine Prod.Lex.toLex_lt_toLex.mpr (.inl ?_)
  rwa [String.lt_iff_toList_lt, String.toList_ofList, String.toList_ofList]

/-- A code without a number is sorted after those with one. -/
theorem permissionKey_lt_of_none {o : Nat} {p p' : String} (ha : numericSuffix code = some a)
    (hnone : numericSuffix code' = none) :
    permissionKey (o, code, p) < permissionKey (o, code', p') := by
  unfold permissionKey
  rw [screenCodeKey_some ha, screenCodeKey_none hnone]
  refine Prod.Lex.toLex_lt_toLex.mpr (.inr ⟨rfl, ?_⟩)
  exact Prod.Lex.toLex_lt_toLex.mpr (.inl Nat.zero_lt_one)

/-- The read of a screen is sorted before its write. -/
theorem permissionKey_read_lt_write {o : Nat} :
    permissionKey (o, code, "R") < permissionKey (o, code, "W") := by
  refine Prod.Lex.toLex_lt_toLex.mpr (.inr ⟨rfl, ?_⟩)
  refine Prod.Lex.toLex_lt_toLex.mpr (.inr ⟨rfl, ?_⟩)
  refine Prod.Lex.toLex_lt_toLex.mpr (.inr ⟨rfl, ?_⟩)
  have hoperation : "R" < "W" := by decide
  exact Prod.Lex.toLex_lt_toLex.mpr (.inr ⟨rfl, hoperation⟩)

/-- **The key follows the canonical order** but for numbers that are overtaken. -/
theorem permissionKey_lt {g g' : Nat × String × String} (hbefore : Before g g')
    (hnot : g.1 = g'.1 → ∀ a b, numericSuffix g.2.1 = some a → numericSuffix g'.2.1 = some b →
      ¬ Decimal.Overtakes 8 a b) :
    permissionKey g < permissionKey g' := by
  cases hbefore with
  | sortOrder hlt => exact permissionKey_lt_of_sortOrder hlt
  | @code o c c' p p' hcode =>
      unfold CodeBefore at hcode
      cases ha : numericSuffix c with
      | none =>
          rw [ha] at hcode
          exact hcode.elim
      | some a =>
          cases hb : numericSuffix c' with
          | none => exact permissionKey_lt_of_none ha hb
          | some b =>
              rw [ha, hb] at hcode
              have hpadded := (Decimal.padded_lt_iff hcode).mpr (hnot rfl a b ha hb)
              exact permissionKey_lt_of_padded ha hb hpadded
  | operation => exact permissionKey_read_lt_write

end Key

/-! ## What is shown -/

section Shown
variable {rows : List PermissionRow}

theorem mem_flatMap_entries {g : Nat × String × String} :
    g ∈ rows.flatMap entries ↔ Grants rows g := by
  rw [List.mem_flatMap]
  constructor
  · rintro ⟨⟨code, sortOrder, read, write⟩, hrow, hg⟩
    rcases List.mem_append.mp hg with hread | hwrite
    · split at hread
      · rename_i hgrants
        obtain rfl := List.mem_singleton.mp hread
        exact .read hrow hgrants
      · cases hread
    · split at hwrite
      · rename_i hgrants
        obtain rfl := List.mem_singleton.mp hwrite
        subst hgrants
        exact .write hrow
      · cases hwrite
  · intro h
    cases h with
    | read hrow hgrants =>
        refine ⟨_, hrow, List.mem_append_left _ ?_⟩
        rw [if_pos hgrants]
        exact List.mem_singleton_self _
    | write hrow => exact ⟨_, hrow, List.mem_append_right _ (List.mem_singleton_self _)⟩

/-- Whatever is granted on a code, its read is. -/
theorem Grants.toRead {o : Nat} {code p : String} (h : Grants rows (o, code, p)) :
    Grants rows (o, code, "R") := by
  cases h with
  | read hrow hgrants => exact .read hrow hgrants
  | write hrow => exact .read hrow (Bool.or_true _)

theorem Grants.row {o : Nat} {code p : String} (h : Grants rows (o, code, p)) :
    ∃ read write, (code, o, read, write) ∈ rows := by
  cases h with
  | read hrow _ => exact ⟨_, _, hrow⟩
  | write hrow => exact ⟨_, _, hrow⟩

theorem mem_expandPermissions_iff_grants {p : String} :
    p ∈ expandPermissions rows ↔ ∃ g, Grants rows g ∧ p = g.2.1 ++ "." ++ g.2.2 := by
  rw [expandPermissions_eq, List.mem_map]
  constructor
  · rintro ⟨g, hg, rfl⟩
    exact ⟨g, mem_flatMap_entries.mp ((List.mem_insertionSort _).mp hg), rfl⟩
  · rintro ⟨g, hg, rfl⟩
    exact ⟨g, (List.mem_insertionSort _).mpr (mem_flatMap_entries.mpr hg), rfl⟩

/-- Where a list is sorted by a key, what has the smaller key comes first. -/
theorem pair_sublist_of_key_lt {α κ : Type*} [LinearOrder κ] {key : α → κ} {l : List α} {x y : α}
    (hl : l.Pairwise fun a b => key a ≤ key b) (hx : x ∈ l) (hy : y ∈ l) (h : key x < key y) :
    List.Sublist [x, y] l := by
  induction l with
  | nil => cases hx
  | cons a l ih =>
      obtain ⟨hfirst, hrest⟩ := List.pairwise_cons.mp hl
      rcases List.mem_cons.mp hx with rfl | hxl
      · have hyl : y ∈ l := by
          rcases List.mem_cons.mp hy with rfl | hyl
          · exact absurd h (lt_irrefl _)
          · exact hyl
        exact (List.singleton_sublist.mpr hyl).cons_cons x
      · rcases List.mem_cons.mp hy with rfl | hyl
        · exact absurd (hfirst x hxl) (not_le_of_gt h)
        · exact (ih hrest hxl hyl).cons a

/-- Without repetition, one of two comes first. -/
theorem not_pair_sublist_swap {α : Type*} {l : List α} {x y : α} (hnodup : l.Nodup)
    (hxy : List.Sublist [x, y] l) (hyx : List.Sublist [y, x] l) : False := by
  induction l with
  | nil => cases hxy
  | cons a l ih =>
      obtain ⟨hnew, hrest⟩ := List.nodup_cons.mp hnodup
      cases hxy with
      | cons _ hxy =>
          cases hyx with
          | cons _ hyx => exact ih hrest hxy hyx
          | cons_cons _ hx => exact hnew (hxy.subset (by simp))
      | cons_cons _ hy =>
          cases hyx with
          | cons _ hyx => exact hnew (hyx.subset (by simp))
          | cons_cons _ hx => exact hnew (hx.subset (by simp))

/-- What has the smaller key is shown first. -/
theorem shown_of_key_lt {g g' : Nat × String × String} (hg : Grants rows g)
    (hg' : Grants rows g') (h : permissionKey g < permissionKey g') :
    List.Sublist [g.2.1 ++ "." ++ g.2.2, g'.2.1 ++ "." ++ g'.2.2] (expandPermissions rows) := by
  have hsorted := List.pairwise_insertionSort
    (fun a b => permissionKey a ≤ permissionKey b) (rows.flatMap entries)
  have hpair := pair_sublist_of_key_lt hsorted
    ((List.mem_insertionSort _).mpr (mem_flatMap_entries.mpr hg))
    ((List.mem_insertionSort _).mpr (mem_flatMap_entries.mpr hg')) h
  rw [expandPermissions_eq]
  exact hpair.map entryText

/-- **The canonical order is shown** exactly where no number is overtaken by the wider numeral
of a larger one. -/
theorem canonical_iff (hcodes : (rows.map Prod.fst).Nodup) :
    Canonical rows ↔ ¬ Overtaken rows := by
  have hnodup := nodup_expandPermissions hcodes
  constructor
  · rintro hcanonical ⟨o, c, c', a, b, hg, hg', ha, hb, hover⟩
    have hbefore : Before (o, c, "R") (o, c', "R") := by
      refine .code ?_
      rw [CodeBefore, ha, hb]
      exact hover.1
    have hshown := hcanonical.order _ _ hg hg' hbefore
    have hkey : permissionKey (o, c', "R") < permissionKey (o, c, "R") :=
      permissionKey_lt_of_padded hb ha (padded_lt_of_overtakes hover)
    exact not_pair_sublist_swap hnodup hshown (shown_of_key_lt hg' hg hkey)
  · intro hnot
    refine ⟨fun _ hperm => expandPermissions_perm hperm, fun _ => mem_expandPermissions_iff_grants,
      hnodup, fun g g' hg hg' hbefore => shown_of_key_lt hg hg' (permissionKey_lt hbefore ?_)⟩
    intro hsort a b ha hb hover
    obtain ⟨o, c, p⟩ := g
    obtain ⟨o', c', p'⟩ := g'
    obtain rfl : o = o' := hsort
    exact hnot ⟨o, c, c', a, b, hg.toRead, hg'.toRead, ha, hb, hover⟩

/-- Numbers of up to eight digits are not overtaken. -/
theorem not_overtaken_of_eight_digits
    (h : ∀ row ∈ rows, ∀ n ∈ numericSuffix row.1, n < 10 ^ 8) : ¬ Overtaken rows := by
  rintro ⟨o, c, c', a, b, -, hg', -, hb, hover⟩
  obtain ⟨read, write, hrow⟩ := hg'.row
  have hsmall : b < 10 ^ 8 := h _ hrow b hb
  exact Decimal.not_overtakes_of_fits ((Decimal.length_toDigits_le (by decide)).mpr hsmall) hover

end Shown

/-- S2 is shown before S10. -/
theorem canonical_iff_two_digits :
    Canonical [("S10", 0, true, true), ("S2", 0, true, false)] :=
  (canonical_iff (by decide)).mpr (not_overtaken_of_eight_digits (by decide))

/-- **S100000000 is shown before S99999999.** -/
theorem not_canonical_nine_digits :
    ScreenCodeStr "S99999999" ∧ ScreenCodeStr "S100000000" ∧
      ¬ Canonical [("S99999999", 0, true, false), ("S100000000", 0, true, false)] := by
  refine ⟨by decide, by decide, fun hcanonical => ?_⟩
  have ha : numericSuffix "S99999999" = some 99999999 := by decide
  have hb : numericSuffix "S100000000" = some 100000000 := by decide
  have hbefore : CodeBefore "S99999999" "S100000000" := by
    rw [CodeBefore, ha, hb]
    norm_num
  have hshown := hcanonical.order (0, "S99999999", "R") (0, "S100000000", "R")
    (.read List.mem_cons_self rfl)
    (.read (List.mem_cons_of_mem _ List.mem_cons_self) rfl) (.code hbefore)
  have hrun : expandPermissions [("S99999999", 0, true, false), ("S100000000", 0, true, false)] =
      ["S100000000.R", "S99999999.R"] := by decide
  rw [hrun] at hshown
  exact absurd hshown (by decide)

end AdminPlatform.RoleService
