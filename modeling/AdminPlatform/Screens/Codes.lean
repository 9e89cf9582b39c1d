import AdminPlatform.Lib.Decimal
import AdminPlatform.Schemas.Fields

/-! # Generated screen codes

`next_screen_code` numbers a new screen one past the largest number that a code of the form
`S` and digits writes. The result is always new (`nextCode_fresh`), and a slug. It is one
character too long for the column exactly when the largest code of that form is there
(`fits_nextCode_iff`). -/

namespace AdminPlatform.ScreenRepository
open AdminPlatform.Lib AdminPlatform.Schemas AdminPlatform.RoleService

/-! ## The number of a code -/

/-- **The number of a code**: it is `S` and digits, and this is the number they write. -/
theorem numericSuffix_eq_some {code : String} {n : Nat} :
    numericSuffix code = some n ↔
      ∃ ds, ds ≠ [] ∧ Decimal.IsDigits ds ∧ code.toList = 'S' :: ds ∧ Decimal.value ds = n := by
  have hfold : ∀ ds : List Char,
      ds.foldl (fun n c => n * 10 + (c.toNat - '0'.toNat)) 0 = Decimal.value ds := by
    intro ds
    rw [Decimal.value, Nat.ofDigitChars_eq_foldl]
    simp only [Nat.mul_comm]
  unfold numericSuffix
  split
  · rename_i d ds hlist
    rw [hfold]
    constructor
    · intro h
      split at h
      · rename_i hdigits
        exact ⟨d :: ds, List.cons_ne_nil _ _, List.all_eq_true.mp hdigits, hlist,
          Option.some.inj h⟩
      · cases h
    · rintro ⟨ds', -, hdigits, hcode, hvalue⟩
      obtain rfl : d :: ds = ds' := (List.cons.inj (hlist.symm.trans hcode)).2
      rw [if_pos (List.all_eq_true.mpr hdigits), hvalue]
  · rename_i hother
    constructor
    · intro h
      cases h
    · rintro ⟨ds, hne, -, hcode, -⟩
      cases ds with
      | nil => exact absurd rfl hne
      | cons d ds => exact absurd hcode (hother d ds)

/-- The code numbered `n`. -/
def numbered (n : Nat) : String := s!"S{n}"

theorem toList_numbered (n : Nat) : (numbered n).toList = 'S' :: Nat.toDigits 10 n := by
  simp [numbered, toString, Nat.repr]

theorem length_numbered_pos (n : Nat) : 1 ≤ (numbered n).length := by
  rw [← String.length_toList, toList_numbered, List.length_cons]
  exact Nat.succ_pos _

@[simp] theorem numericSuffix_numbered (n : Nat) : numericSuffix (numbered n) = some n :=
  numericSuffix_eq_some.mpr ⟨_, Nat.toDigits_ne_nil, Decimal.isDigits_toDigits n,
    toList_numbered n, Decimal.value_toDigits n⟩

theorem isAlphanumeric_of_isDigit {c : Char} (h : c.isDigit = true) :
    isAlphanumeric c = true := by
  rw [isAlphanumeric, Bool.or_eq_true]
  exact .inr h

/-- A numbered code is one group of alphanumerics. -/
theorem isSlug_numbered (n : Nat) : isSlug (numbered n).toList = true := by
  have hgroup : ∀ c ∈ (numbered n).toList, isAlphanumeric c = true := by
    intro c hc
    rw [toList_numbered] at hc
    rcases List.mem_cons.mp hc with rfl | hc
    · rfl
    · exact isAlphanumeric_of_isDigit (Decimal.isDigits_toDigits n c hc)
  have hhyphen : ∀ c ∈ (numbered n).toList, (c == '-') = false := by
    intro c hc
    refine beq_eq_false_iff_ne.mpr fun heq => ?_
    exact absurd (heq ▸ hgroup c hc) (by decide)
  have hne : (numbered n).toList ≠ [] := by simp [toList_numbered]
  rw [isSlug, List.splitOn_eq_splitOnP, List.splitOnP_eq_singleton hhyphen]
  simp only [List.all_cons, List.all_nil, Bool.and_true, Bool.and_eq_true]
  exact ⟨decide_eq_true hne, List.all_eq_true.mpr hgroup⟩

/-! ## The next code -/

/-- The largest number of a code, `0` where none has one. -/
def maxSuffix (codes : List String) : Nat := (codes.filterMap numericSuffix).foldl max 0

/-- The code that `next_screen_code` renders from the codes there are. -/
def nextCode (codes : List String) : String := numbered (maxSuffix codes + 1)

theorem run_nextScreenCode (s : Database) :
    nextScreenCode.run s = (.ok (nextCode (s.screens.rows.map Screen.code)), s) := by
  rw [nextCode, maxSuffix, List.filterMap_map]
  rfl

section Codes
variable {codes : List String} {code : String} {n : Nat}

/-- The largest number is `0` or that of a code. -/
theorem maxSuffix_attained (codes : List String) :
    maxSuffix codes = 0 ∨ ∃ code ∈ codes, numericSuffix code = some (maxSuffix codes) := by
  have hmax : maxSuffix codes = max 0 ((codes.filterMap numericSuffix).max?.getD 0) :=
    List.foldl_max
  cases hlargest : (codes.filterMap numericSuffix).max? with
  | none => exact .inl (by rw [hmax, hlargest]; rfl)
  | some n =>
      rw [hlargest, Option.getD_some, Nat.zero_max] at hmax
      obtain ⟨code, hcode, hn⟩ := List.mem_filterMap.mp (List.max?_mem hlargest)
      exact .inr ⟨code, hcode, hmax ▸ hn⟩

theorem le_maxSuffix (hcode : code ∈ codes) (hn : numericSuffix code = some n) :
    n ≤ maxSuffix codes := by
  have hmem : n ∈ codes.filterMap numericSuffix := List.mem_filterMap.mpr ⟨code, hcode, hn⟩
  have hmax : maxSuffix codes = max 0 ((codes.filterMap numericSuffix).max?.getD 0) :=
    List.foldl_max
  rw [hmax, List.max?_eq_some_max (List.ne_nil_of_mem hmem), Option.getD_some, Nat.zero_max]
  exact List.le_max_of_mem hmem

/-- **The next code has a larger number** than every code there is. -/
theorem lt_suffix_nextCode (hcode : code ∈ codes) (hn : numericSuffix code = some n) :
    ∃ m, numericSuffix (nextCode codes) = some m ∧ n < m :=
  ⟨_, numericSuffix_numbered _, Nat.lt_succ_of_le (le_maxSuffix hcode hn)⟩

/-- **The next code is new.** -/
theorem nextCode_fresh (codes : List String) : nextCode codes ∉ codes := by
  intro hmem
  obtain ⟨m, hm, hlt⟩ := lt_suffix_nextCode hmem (numericSuffix_numbered _)
  obtain rfl := Option.some.inj ((numericSuffix_numbered _).symm.trans hm)
  exact lt_irrefl _ hlt

/-- The largest code of the form `S` and digits that a request may give: 49 nines. -/
def lastCode : String := String.ofList ('S' :: List.replicate 49 '9')

theorem numericSuffix_lastCode : numericSuffix lastCode = some (10 ^ 49 - 1) :=
  numericSuffix_eq_some.mpr ⟨List.replicate 49 '9', List.cons_ne_nil _ _,
    Decimal.isDigits_replicate rfl 49, String.toList_ofList, Decimal.value_replicate_nine 49⟩

/-- A code that a request may give has at most 49 digits. -/
theorem digits_of_accepted (hcode : ScreenCodeStr code) (hn : numericSuffix code = some n) :
    ∃ ds, Decimal.IsDigits ds ∧ ds.length ≤ 49 ∧ code = String.ofList ('S' :: ds) ∧
      Decimal.value ds = n := by
  obtain ⟨ds, -, hdigits, hlist, hvalue⟩ := numericSuffix_eq_some.mp hn
  have hmax := hcode.max_length
  rw [← String.length_toList, hlist, List.length_cons, screenCodeMaxLength] at hmax
  refine ⟨ds, hdigits, by omega, ?_, hvalue⟩
  rw [← hlist, String.ofList_toList]

/-- Only the last code has the largest number. -/
theorem eq_lastCode (hcode : ScreenCodeStr code) (hn : numericSuffix code = some n)
    (hlarge : 10 ^ 49 ≤ n + 1) : code = lastCode := by
  obtain ⟨ds, hdigits, hlength, hds, rfl⟩ := digits_of_accepted hcode hn
  have hnines : ds = List.replicate 49 '9' :=
    Decimal.eq_replicate_nine hdigits hlength hlarge
  exact hds.trans (congrArg (fun cs => String.ofList ('S' :: cs)) hnines)

theorem length_nextCode_le : (nextCode codes).length ≤ screenCodeMaxLength ↔
    maxSuffix codes + 1 < 10 ^ 49 := by
  rw [← String.length_toList, nextCode, toList_numbered, List.length_cons, screenCodeMaxLength,
    Nat.succ_le_succ_iff]
  exact Decimal.length_toDigits_le (by decide)

/-- **The next code fits** unless the last one is taken. -/
theorem fits_nextCode_iff (hcodes : ∀ code ∈ codes, ScreenCodeStr code) :
    ScreenCodeStr (nextCode codes) ↔ lastCode ∉ codes := by
  have hfits : ScreenCodeStr (nextCode codes) ↔ maxSuffix codes + 1 < 10 ^ 49 := by
    rw [← length_nextCode_le]
    exact ⟨ScreenCodeStr.max_length, fun hmax =>
      ⟨length_numbered_pos _, hmax, isSlug_numbered _⟩⟩
  rw [hfits]
  constructor
  · intro hsmall hlast
    have hle := le_maxSuffix hlast numericSuffix_lastCode
    omega
  · intro hlast
    rcases maxSuffix_attained codes with hzero | ⟨code, hcode, hn⟩
    · rw [hzero]
      norm_num
    · by_contra hlarge
      exact hlast (eq_lastCode (hcodes code hcode) hn (not_lt.mp hlarge) ▸ hcode)

end Codes
end AdminPlatform.ScreenRepository
