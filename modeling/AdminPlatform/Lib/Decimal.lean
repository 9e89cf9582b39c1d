import Mathlib.Data.String.Basic
import Mathlib.Tactic.Positivity

/-! # Decimal numerals

The number a list of digits writes, and numerals filled with zeros to a width. Two lists of
digits of one length are ordered as their numbers are (`lt_iff_value_lt`). Where the second is
longer, the first is compared with the leading digits only (`lt_iff_of_length_lt`), so filling
to a width keeps the order of the numbers that fit the width, and of a number that does not
exactly where it is not overtaken (`padded_lt_iff`). -/

namespace AdminPlatform.Lib.Decimal

/-! ## The number of a list of digits -/

/-- The number that the digits write. -/
def value (cs : List Char) : Nat := Nat.ofDigitChars 10 cs 0

/-- A list of decimal digits. -/
def IsDigits (cs : List Char) : Prop := ∀ c ∈ cs, c.isDigit = true

theorem IsDigits.head {c : Char} {cs : List Char} (h : IsDigits (c :: cs)) : c.isDigit = true :=
  h c List.mem_cons_self

theorem IsDigits.tail {c : Char} {cs : List Char} (h : IsDigits (c :: cs)) : IsDigits cs :=
  fun d hd => h d (List.mem_cons_of_mem _ hd)

theorem IsDigits.append {xs ys : List Char} (hx : IsDigits xs) (hy : IsDigits ys) :
    IsDigits (xs ++ ys) :=
  fun c hc => (List.mem_append.mp hc).elim (hx c) (hy c)

theorem IsDigits.take {cs : List Char} (h : IsDigits cs) (m : Nat) : IsDigits (cs.take m) :=
  fun c hc => h c (List.mem_of_mem_take hc)

theorem IsDigits.drop {cs : List Char} (h : IsDigits cs) (m : Nat) : IsDigits (cs.drop m) :=
  fun c hc => h c (List.mem_of_mem_drop hc)

theorem isDigits_replicate {c : Char} (hc : c.isDigit = true) (n : Nat) :
    IsDigits (List.replicate n c) :=
  fun _ hd => (List.eq_of_mem_replicate hd).symm ▸ hc

theorem isDigits_toDigits (n : Nat) : IsDigits (Nat.toDigits 10 n) :=
  fun _ hc => Nat.isDigit_of_mem_toDigits (by decide) (by decide) hc

/-- A digit is at most nine, and is where it stands among the digits. -/
theorem digit_toNat {c : Char} (h : c.isDigit = true) : 48 ≤ c.toNat ∧ c.toNat ≤ 57 := by
  rw [Char.isDigit, Bool.and_eq_true] at h
  obtain ⟨hlow, hhigh⟩ := h
  exact ⟨of_decide_eq_true hlow, of_decide_eq_true hhigh⟩

@[simp] theorem value_nil : value [] = 0 := by simp [value]

theorem value_append (xs ys : List Char) :
    value (xs ++ ys) = 10 ^ ys.length * value xs + value ys := by
  unfold value
  rw [Nat.ofDigitChars_append, Nat.ofDigitChars_eq_ofDigitChars_zero]

theorem value_cons (c : Char) (cs : List Char) :
    value (c :: cs) = 10 ^ cs.length * (c.toNat - 48) + value cs := by
  have h := value_append [c] cs
  have hone : value [c] = c.toNat - 48 := by simp [value, Nat.ofDigitChars_cons]
  rwa [hone] at h

@[simp] theorem value_toDigits (n : Nat) : value (Nat.toDigits 10 n) = n :=
  Nat.ofDigitChars_ten_toDigits

/-- `n` digits write a number under `10 ^ n`. -/
theorem value_lt {cs : List Char} (h : IsDigits cs) : value cs < 10 ^ cs.length := by
  induction cs with
  | nil => simp
  | cons c cs ih =>
      have hrest := ih h.tail
      obtain ⟨-, hnine⟩ := digit_toNat h.head
      have hlead : 10 ^ cs.length * (c.toNat - 48) ≤ 10 ^ cs.length * 9 :=
        Nat.mul_le_mul_left _ (by omega)
      rw [value_cons, List.length_cons, pow_succ]
      omega

/-- **Of one length, digits are ordered as their numbers.** -/
theorem lt_iff_value_lt {xs ys : List Char} (hx : IsDigits xs) (hy : IsDigits ys)
    (hlength : xs.length = ys.length) : xs < ys ↔ value xs < value ys := by
  induction xs generalizing ys with
  | nil =>
      obtain rfl := List.length_eq_zero_iff.mp hlength.symm
      simp
  | cons x xs ih =>
      cases ys with
      | nil => cases hlength
      | cons y ys =>
          have hlen : xs.length = ys.length := Nat.succ.inj hlength
          have hxs := value_lt hx.tail
          have hys := value_lt hy.tail
          obtain ⟨hx0, -⟩ := digit_toNat hx.head
          obtain ⟨hy0, -⟩ := digit_toNat hy.head
          rw [List.cons_lt_cons_iff, value_cons, value_cons, ih hx.tail hy.tail hlen, hlen]
          rw [hlen] at hxs
          rcases lt_trichotomy x.toNat y.toNat with hlt | heq | hgt
          · -- the leading digit decides
            have hlead : 10 ^ ys.length * (x.toNat - 48 + 1) ≤ 10 ^ ys.length * (y.toNat - 48) :=
              Nat.mul_le_mul_left _ (by omega)
            rw [Nat.mul_add, Nat.mul_one] at hlead
            have hchar : x < y := hlt
            simp only [hchar, true_or, true_iff]
            omega
          · have hchar : x = y := Char.toNat_inj.mp heq
            simp [hchar]
          · have hlead : 10 ^ ys.length * (y.toNat - 48 + 1) ≤ 10 ^ ys.length * (x.toNat - 48) :=
              Nat.mul_le_mul_left _ (by omega)
            rw [Nat.mul_add, Nat.mul_one] at hlead
            have hchar : ¬ x < y := lt_asymm (show y < x from hgt)
            have hne : x ≠ y := fun h => by simp [h] at hgt
            simp only [hchar, hne, false_and, or_self, false_iff]
            omega

theorem value_replicate_zero (n : Nat) : value (List.replicate n '0') = 0 := by
  rw [value, Nat.ofDigitChars_replicate_zero, Nat.mul_zero]

/-- Zeros in front do not count. -/
theorem value_zeros_append (n : Nat) (cs : List Char) :
    value (List.replicate n '0' ++ cs) = value cs := by
  rw [value_append, value_replicate_zero, Nat.mul_zero, Nat.zero_add]

theorem value_append_zeros (n : Nat) (cs : List Char) :
    value (cs ++ List.replicate n '0') = 10 ^ n * value cs := by
  rw [value_append, value_replicate_zero, List.length_replicate, Nat.add_zero]

/-- Digits of one length that write one number are the same. -/
theorem value_inj {xs ys : List Char} (hx : IsDigits xs) (hy : IsDigits ys)
    (hlength : xs.length = ys.length) (hvalue : value xs = value ys) : xs = ys := by
  rcases lt_trichotomy xs ys with hlt | heq | hgt
  · exact absurd ((lt_iff_value_lt hx hy hlength).mp hlt) (by omega)
  · exact heq
  · exact absurd ((lt_iff_value_lt hy hx hlength.symm).mp hgt) (by omega)

/-- The leading digits of a number. -/
theorem value_take {cs : List Char} (h : IsDigits cs) (m : Nat) :
    value (cs.take m) = value cs / 10 ^ (cs.length - m) := by
  have hrest := value_lt (h.drop m)
  have hsplit := value_append (cs.take m) (cs.drop m)
  rw [List.take_append_drop] at hsplit
  rw [List.length_drop] at hrest hsplit
  rw [hsplit, Nat.mul_add_div (by positivity), Nat.div_eq_of_lt hrest, Nat.add_zero]

/-- A list against a longer one is compared with its start. -/
theorem lt_append_iff {xs ys zs : List Char} (hlength : xs.length = ys.length) (hzs : zs ≠ []) :
    xs < ys ++ zs ↔ ¬ ys < xs := by
  induction xs generalizing ys with
  | nil =>
      obtain rfl := List.length_eq_zero_iff.mp hlength.symm
      cases zs with
      | nil => exact absurd rfl hzs
      | cons z zs => simp
  | cons x xs ih =>
      cases ys with
      | nil => cases hlength
      | cons y ys =>
          rw [List.cons_append, List.cons_lt_cons_iff, List.cons_lt_cons_iff,
            ih (Nat.succ.inj hlength)]
          rcases lt_trichotomy x y with hlt | rfl | hgt
          · simp [hlt, lt_asymm hlt, hlt.ne']
          · simp
          · simp [hgt, lt_asymm hgt, hgt.ne']

/-- **Digits against a longer list of digits** are compared with its leading ones. -/
theorem lt_iff_of_length_lt {xs ys : List Char} (hx : IsDigits xs) (hy : IsDigits ys)
    (hlength : xs.length < ys.length) :
    xs < ys ↔ value xs ≤ value ys / 10 ^ (ys.length - xs.length) := by
  have hlead : xs.length = (ys.take xs.length).length := by
    rw [List.length_take]
    omega
  have hrest : ys.drop xs.length ≠ [] := by
    rw [ne_eq, List.drop_eq_nil_iff]
    omega
  calc xs < ys
      ↔ xs < ys.take xs.length ++ ys.drop xs.length := by rw [List.take_append_drop]
    _ ↔ ¬ ys.take xs.length < xs := lt_append_iff hlead hrest
    _ ↔ ¬ value (ys.take xs.length) < value xs := by
        rw [lt_iff_value_lt (hy.take _) hx hlead.symm]
    _ ↔ _ := by rw [value_take hy, not_lt]

/-! ## Numerals -/

theorem value_replicate_nine (n : Nat) : value (List.replicate n '9') = 10 ^ n - 1 := by
  induction n with
  | zero => simp
  | succ n ih =>
      have hpos : 0 < 10 ^ n := by positivity
      have hnine : '9'.toNat - 48 = 9 := rfl
      rw [List.replicate_succ, value_cons, ih, List.length_replicate, hnine, pow_succ]
      omega

/-- The largest number of `w` digits is written with nines only. -/
theorem eq_replicate_nine {cs : List Char} {w : Nat} (h : IsDigits cs) (hlength : cs.length ≤ w)
    (hlarge : 10 ^ w ≤ value cs + 1) : cs = List.replicate w '9' := by
  have hlt := value_lt h
  have hpos : 0 < 10 ^ cs.length := by positivity
  -- fewer digits do not write so large a number
  have hall : cs.length = w := by
    rcases hlength.lt_or_eq with hshort | hall
    · have hpow : 10 ^ (cs.length + 1) ≤ 10 ^ w := Nat.pow_le_pow_right (by decide) hshort
      rw [pow_succ] at hpow
      omega
    · exact hall
  rw [hall] at hlt
  refine value_inj h (isDigits_replicate rfl w) ?_ ?_
  · rw [hall, List.length_replicate]
  · rw [value_replicate_nine]
    omega

/-- The numeral of `n` is at most `w` digits exactly for `n` under `10 ^ w`. -/
theorem length_toDigits_le {n w : Nat} (hw : 0 < w) :
    (Nat.toDigits 10 n).length ≤ w ↔ n < 10 ^ w :=
  Nat.length_toDigits_le_iff (by decide) hw

theorem length_toDigits_mono {a b : Nat} (h : a ≤ b) :
    (Nat.toDigits 10 a).length ≤ (Nat.toDigits 10 b).length := by
  have hpos : 0 < (Nat.toDigits 10 b).length := Nat.length_toDigits_pos
  exact (length_toDigits_le hpos).mpr
    (lt_of_le_of_lt h ((length_toDigits_le hpos).mp le_rfl))

/-- The numeral of `n`, filled with zeros to a width. -/
def padded (w n : Nat) : List Char :=
  List.replicate (w - (Nat.toDigits 10 n).length) '0' ++ Nat.toDigits 10 n

/-- The width of the filled numeral: wider numbers are not cut. -/
def width (w n : Nat) : Nat := max w (Nat.toDigits 10 n).length

theorem width_mono {w a b : Nat} (h : a ≤ b) : width w a ≤ width w b :=
  max_le_max le_rfl (length_toDigits_mono h)

theorem length_padded (w n : Nat) : (padded w n).length = width w n := by
  rw [padded, width, List.length_append, List.length_replicate]
  omega

theorem isDigits_padded (w n : Nat) : IsDigits (padded w n) :=
  (isDigits_replicate rfl _).append (isDigits_toDigits n)

@[simp] theorem value_padded (w n : Nat) : value (padded w n) = n := by
  rw [padded, value_zeros_append, value_toDigits]

theorem padded_injective (w : Nat) : Function.Injective (padded w) := by
  intro a b h
  rw [← value_padded w a, h, value_padded]

/-- The numeral of a larger number comes first: it is wider, and its leading digits are those
of a number under `a`. -/
def Overtakes (w a b : Nat) : Prop :=
  a < b ∧ width w a < width w b ∧ b / 10 ^ (width w b - width w a) < a

instance (w a b : Nat) : Decidable (Overtakes w a b) := by
  unfold Overtakes; infer_instance

/-- Numbers that fit the width are never overtaken. -/
theorem not_overtakes_of_fits {w a b : Nat} (hb : (Nat.toDigits 10 b).length ≤ w) :
    ¬ Overtakes w a b := by
  rintro ⟨hlt, hwidth, -⟩
  have ha := length_toDigits_mono hlt.le
  rw [width, width] at hwidth
  omega

/-- **Filled numerals are ordered as the numbers**, but for those that are overtaken. -/
theorem padded_lt_iff {w a b : Nat} (h : a < b) :
    padded w a < padded w b ↔ ¬ Overtakes w a b := by
  rcases (width_mono h.le : width w a ≤ width w b).lt_or_eq with hwidth | hwidth
  · have hlength : (padded w a).length < (padded w b).length := by
      rwa [length_padded, length_padded]
    rw [lt_iff_of_length_lt (isDigits_padded w a) (isDigits_padded w b) hlength, value_padded,
      value_padded, length_padded, length_padded, Overtakes]
    constructor
    · rintro hle ⟨-, -, hover⟩
      omega
    · intro hnot
      by_contra hover
      exact hnot ⟨h, hwidth, by omega⟩
  · have hlength : (padded w a).length = (padded w b).length := by
      rwa [length_padded, length_padded]
    rw [lt_iff_value_lt (isDigits_padded w a) (isDigits_padded w b) hlength, value_padded,
      value_padded]
    exact iff_of_true h fun hover => absurd hover.2.1 (by omega)

end AdminPlatform.Lib.Decimal
