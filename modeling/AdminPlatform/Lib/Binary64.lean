import AdminPlatform.Lib.Decimal
import AdminPlatform.Lib.Json.Basic
import AdminPlatform.Lib.Rounding
import Mathlib.Data.List.DropRight

/-! # Doubles and their text

A finite IEEE 754 double, and the text `repr` gives it: the shortest decimal that is rounded to
the double, in scientific notation outside `1e-4 ≤ x < 1e16`. Seventeen digits are always enough
(`dtoa_spec`), and reading the text as a number and rounding that gives the double back
(`roundsTo_read_unsigned`), so the text determines the double (`repr_injective`). -/

namespace AdminPlatform.Lib

/-- The sign of a finite double, and its exponent and fraction bits as one number. -/
structure Binary64 where
  negative : Bool
  bits : ℕ
  finite : bits < 0x7ff * 2 ^ 52
  deriving DecidableEq

namespace Binary64
open Rounding

/-! ## The doubles without sign -/

def significand (bits : ℕ) : ℕ := if bits < 2 ^ 52 then bits else 2 ^ 52 + bits % 2 ^ 52

def exponent (bits : ℕ) : ℤ := max (bits / 2 ^ 52 : ℕ) 1 - 1075

def magnitude (bits : ℕ) : ℚ := significand bits * 2 ^ exponent bits

theorem significand_lt (bits : ℕ) : significand bits < 2 ^ 53 := by
  unfold significand
  split <;> omega

/-- The next significand, or the first one of the next exponent. -/
theorem significand_succ (bits : ℕ) :
    (exponent (bits + 1) = exponent bits ∧ significand (bits + 1) = significand bits + 1) ∨
      (exponent (bits + 1) = exponent bits + 1 ∧
        2 * significand (bits + 1) = significand bits + 1) := by
  unfold exponent significand
  split <;> split <;> omega

theorem magnitude_succ (bits : ℕ) :
    magnitude (bits + 1) = magnitude bits + 2 ^ exponent bits := by
  rcases significand_succ bits with ⟨hexponent, hsignificand⟩ | ⟨hexponent, hsignificand⟩
  · rw [magnitude, magnitude, hexponent, hsignificand, Nat.cast_add_one, add_mul, one_mul]
  · have hcast : (2 : ℚ) * significand (bits + 1) = significand bits + 1 := by
      exact_mod_cast hsignificand
    calc (significand (bits + 1) : ℚ) * 2 ^ exponent (bits + 1)
        = 2 * significand (bits + 1) * 2 ^ exponent bits := by
          rw [hexponent, zpow_add_one₀ two_ne_zero]
          ring
      _ = magnitude bits + 2 ^ exponent bits := by
          rw [hcast, magnitude, add_mul, one_mul]

theorem magnitude_strictMono : StrictMono magnitude :=
  strictMono_nat_of_lt_succ fun bits => by
    rw [magnitude_succ]
    exact lt_add_of_pos_right _ (zpow_pos two_pos _)

theorem magnitude_zero : magnitude 0 = 0 := by
  rw [magnitude, show significand 0 = 0 from rfl, Nat.cast_zero, zero_mul]

/-- Decimals of seventeen digits are closer to each other than doubles are. -/
theorem unit_magnitude_lt (bits : ℕ) :
    unit (magnitude (bits + 1)) 17 * 2 < magnitude (bits + 2) - magnitude bits := by
  have hpos : 0 < magnitude (bits + 1) := by
    rw [← magnitude_zero]
    exact magnitude_strictMono (Nat.succ_pos bits)
  have hunit : unit (magnitude (bits + 1)) 17 * 10 ^ 16 ≤
      significand (bits + 1) * 2 ^ exponent (bits + 1) := by
    calc unit (magnitude (bits + 1)) 17 * 10 ^ 16
        = 10 ^ Int.log 10 (magnitude (bits + 1)) := by
          rw [unit, ← zpow_natCast, ← zpow_add₀ (by norm_num)]
          congr 1
          push_cast
          ring
      _ ≤ magnitude (bits + 1) := Int.zpow_log_le_self (by norm_num) hpos
  have hgap : magnitude (bits + 2) - magnitude bits =
      2 ^ exponent (bits + 1) + 2 ^ exponent bits := by
    rw [magnitude_succ (bits + 1), magnitude_succ bits]
    ring
  have hpow : (0 : ℚ) < 2 ^ exponent bits := zpow_pos two_pos _
  rw [hgap]
  rcases significand_succ bits with ⟨hexponent, -⟩ | ⟨hexponent, hsignificand⟩
  · have hlt : (significand (bits + 1) : ℚ) < 2 ^ 53 := by
      exact_mod_cast significand_lt (bits + 1)
    have hscaled := mul_lt_mul_of_pos_right hlt hpow
    rw [hexponent] at hunit ⊢
    linarith
  -- at the first significand of an exponent the gap below is half the gap above
  · have hlt : (significand bits : ℚ) < 2 ^ 53 := by
      exact_mod_cast significand_lt bits
    have hcast : (2 : ℚ) * significand (bits + 1) = significand bits + 1 := by
      exact_mod_cast hsignificand
    have hscaled := mul_lt_mul_of_pos_right hlt hpow
    have hvalue : (significand (bits + 1) : ℚ) * 2 ^ exponent (bits + 1) =
        significand bits * 2 ^ exponent bits + 2 ^ exponent bits :=
      magnitude_succ bits
    rw [hvalue] at hunit
    rw [hexponent, zpow_add_one₀ two_ne_zero]
    linarith

/-! ## Digits -/

/-- The shortest decimal that is rounded to the double, as digits with no zero at the end and
the position of the point: `0.d₁d₂…` times ten to it. -/
def dtoa (bits : ℕ) : List Char × ℤ :=
  if bits = 0 then (['0'], 1)
  else
    match shortest magnitude 17 bits with
    | some (d, e) =>
        ((Nat.toDigits 10 d).rdropWhile (· == '0'), e + (Nat.toDigits 10 d).length)
    | none => ([], 0)  -- never reached

/-- The number that digits and the position of a point write. -/
def worth (digits : List Char) (point : ℤ) : ℚ :=
  Decimal.value digits * 10 ^ (point - digits.length)

theorem isDigits_dtoa (bits : ℕ) : Decimal.IsDigits (dtoa bits).1 := by
  unfold dtoa
  split
  · exact Decimal.isDigits_replicate rfl 1
  · split
    · rename_i d e _
      intro c hc
      exact Decimal.isDigits_toDigits d c ((List.rdropWhile_prefix _ _).subset hc)
    · exact nofun

/-- Zeros at the end do not count. -/
theorem worth_rdropWhile (cs : List Char) (e : ℤ) :
    worth (cs.rdropWhile (· == '0')) (e + cs.length) = Decimal.value cs * 10 ^ e := by
  obtain ⟨n, hn⟩ : ∃ n, cs.rtakeWhile (· == '0') = List.replicate n '0' := by
    refine ⟨_, List.eq_replicate_of_mem fun c hc => ?_⟩
    simpa using List.mem_rtakeWhile_imp hc
  have hsplit : cs.rdropWhile (· == '0') ++ List.replicate n '0' = cs := by
    rw [← hn]
    exact List.rdropWhile_append_rtakeWhile
  generalize cs.rdropWhile (· == '0') = ds at hsplit
  subst hsplit
  have hpoint : e + (ds ++ List.replicate n '0').length - ds.length = n + e := by
    rw [List.length_append, List.length_replicate]
    push_cast
    ring
  rw [worth, hpoint, Decimal.value_append_zeros, zpow_add₀ (by norm_num), zpow_natCast]
  push_cast
  ring

/-- **The digits of a double** are rounded to it, and there are some. -/
theorem dtoa_spec (bits : ℕ) :
    (dtoa bits).1 ≠ [] ∧ RoundsTo magnitude bits (worth (dtoa bits).1 (dtoa bits).2) := by
  have hzero : RoundsTo magnitude 0 0 := by
    have hmid := (lt_midpoint magnitude_strictMono 0).1
    rw [magnitude_zero] at hmid
    rintro (hlt | ⟨-, hodd⟩)
    · exact absurd hlt (not_lt.mpr hmid.le)
    · cases hodd
  unfold dtoa
  split
  · rename_i hbits
    subst hbits
    refine ⟨List.cons_ne_nil _ _, ?_⟩
    have hvalue : Decimal.value ['0'] = 0 := Decimal.value_replicate_zero 1
    rw [worth, hvalue, Nat.cast_zero, zero_mul]
    exact hzero
  · rename_i hbits
    obtain ⟨m, rfl⟩ := Nat.exists_eq_succ_of_ne_zero hbits
    obtain ⟨d, e, hshortest⟩ :=
      exists_shortest magnitude_strictMono magnitude_zero.ge (unit_magnitude_lt m)
    have hrounds := roundsTo_of_shortest hshortest
    rw [hshortest]
    refine ⟨fun hnil => ?_, ?_⟩
    -- only zero is written with zeros only
    · have hnil : (Nat.toDigits 10 d).rdropWhile (· == '0') = [] := hnil
      have hworth := worth_rdropWhile (Nat.toDigits 10 d) e
      rw [hnil, worth, Decimal.value_nil, Decimal.value_toDigits, Nat.cast_zero,
        zero_mul] at hworth
      rw [← hworth] at hrounds
      exact hbits (hrounds.unique magnitude_strictMono hzero)
    · rw [worth_rdropWhile, Decimal.value_toDigits]
      exact hrounds

/-! ## The text -/

def exponentText (e : ℤ) : List Char :=
  (if e < 0 then '-' else '+') :: Decimal.padded 2 e.natAbs

/-- `d.ddde±xx`. -/
def scientific (digits : List Char) (point : ℤ) : List Char :=
  digits.take 1 ++ ((if digits.length ≤ 1 then [] else '.' :: digits.drop 1) ++
    'e' :: exponentText (point - 1))

/-- `0.00ddd`, `dd.ddd` or `ddd00.0`. -/
def positional (digits : List Char) (point : ℤ) : List Char :=
  if point ≤ 0 then ['0'] ++ '.' :: (List.replicate (-point).toNat '0' ++ digits)
  else if point < digits.length then
    digits.take point.toNat ++ '.' :: digits.drop point.toNat
  else digits ++ List.replicate (point.toNat - digits.length) '0' ++ '.' :: ['0']

def unsigned (bits : ℕ) : List Char :=
  let (digits, point) := dtoa bits
  if point ≤ -4 ∨ 16 < point then scientific digits point else positional digits point

/-- `float.__repr__`. -/
def repr (x : Binary64) : List Char := (if x.negative then ['-'] else []) ++ unsigned x.bits

/-! ## Reading the text -/

def readExponent : List Char → ℤ
  | 'e' :: '-' :: cs => -Decimal.value cs
  | 'e' :: '+' :: cs => Decimal.value cs
  | _ => 0

/-- The number with the digits `whole` before what is left of a text. -/
def readRest (whole : List Char) : List Char → ℚ
  | '.' :: cs =>
      let fraction := cs.takeWhile Char.isDigit
      Decimal.value (whole ++ fraction) *
        10 ^ (readExponent (cs.dropWhile Char.isDigit) - fraction.length)
  | cs => Decimal.value whole * 10 ^ readExponent cs

/-- The number that a text without sign writes. -/
def read (cs : List Char) : ℚ :=
  readRest (cs.takeWhile Char.isDigit) (cs.dropWhile Char.isDigit)

/-- Digits end where something else follows. -/
theorem digits_append {ds rest : List Char} (hds : Decimal.IsDigits ds)
    (hrest : ∀ c ∈ rest.head?, c.isDigit = false) :
    (ds ++ rest).takeWhile Char.isDigit = ds ∧ (ds ++ rest).dropWhile Char.isDigit = rest := by
  rw [List.takeWhile_append_of_pos hds, List.dropWhile_append_of_pos hds]
  cases rest with
  | nil => simp
  | cons c rest =>
      have hc : c.isDigit = false := hrest c rfl
      simp [hc]

theorem read_point {whole fraction rest : List Char} (hwhole : Decimal.IsDigits whole)
    (hfraction : Decimal.IsDigits fraction) (hrest : ∀ c ∈ rest.head?, c.isDigit = false) :
    read (whole ++ '.' :: (fraction ++ rest)) =
      Decimal.value (whole ++ fraction) * 10 ^ (readExponent rest - fraction.length) := by
  have hpoint : ∀ c ∈ ('.' :: (fraction ++ rest)).head?, c.isDigit = false := by
    rintro c ⟨⟩
    rfl
  obtain ⟨htake, hdrop⟩ := digits_append hwhole hpoint
  obtain ⟨htake', hdrop'⟩ := digits_append hfraction hrest
  rw [read, htake, hdrop, readRest, htake', hdrop']

theorem read_exponent {whole rest : List Char} (hwhole : Decimal.IsDigits whole) :
    read (whole ++ 'e' :: rest) = Decimal.value whole * 10 ^ readExponent ('e' :: rest) := by
  have hexponent : ∀ c ∈ ('e' :: rest).head?, c.isDigit = false := by
    rintro c ⟨⟩
    rfl
  obtain ⟨htake, hdrop⟩ := digits_append hwhole hexponent
  rw [read, htake, hdrop]
  rfl

theorem readExponent_exponentText (e : ℤ) : readExponent ('e' :: exponentText e) = e := by
  unfold exponentText
  split
  · show -((Decimal.value (Decimal.padded 2 e.natAbs) : ℕ) : ℤ) = e
    rw [Decimal.value_padded]
    omega
  · show ((Decimal.value (Decimal.padded 2 e.natAbs) : ℕ) : ℤ) = e
    rw [Decimal.value_padded]
    omega

theorem read_scientific {digits : List Char} (h : Decimal.IsDigits digits) (hne : digits ≠ [])
    (point : ℤ) : read (scientific digits point) = worth digits point := by
  obtain ⟨c, cs, rfl⟩ := List.exists_cons_of_ne_nil hne
  have hc : Decimal.IsDigits [c] := h.take 1
  unfold scientific worth
  split
  · rename_i hshort
    obtain rfl : cs = [] := List.length_eq_zero_iff.mp (by simpa using hshort)
    show read ([c] ++ 'e' :: exponentText (point - 1)) = _
    rw [read_exponent hc, readExponent_exponentText]
    rfl
  · show read ([c] ++ '.' :: (cs ++ 'e' :: exponentText (point - 1))) = _
    have hexponent : point - 1 - cs.length = point - (c :: cs).length := by
      rw [List.length_cons]
      push_cast
      ring
    have hrest : ∀ c ∈ ('e' :: exponentText (point - 1)).head?, c.isDigit = false := by
      rintro c ⟨⟩
      rfl
    rw [read_point hc h.tail hrest, readExponent_exponentText, hexponent]
    rfl

theorem read_positional {digits : List Char} (h : Decimal.IsDigits digits) (point : ℤ) :
    read (positional digits point) = worth digits point := by
  have hread : ∀ {whole fraction : List Char}, Decimal.IsDigits whole →
      Decimal.IsDigits fraction → read (whole ++ '.' :: fraction) =
        Decimal.value (whole ++ fraction) * 10 ^ (-(fraction.length : ℤ)) := by
    intro whole fraction hwhole hfraction
    have hnone : ∀ c ∈ ([] : List Char).head?, c.isDigit = false := nofun
    have hpoint := read_point hwhole hfraction hnone
    rwa [List.append_nil, show readExponent [] = 0 from rfl, zero_sub] at hpoint
  have hzeros : ∀ n, Decimal.IsDigits (List.replicate n '0') := Decimal.isDigits_replicate rfl
  have hzero : Decimal.IsDigits ['0'] := hzeros 1
  unfold positional worth
  split
  · rename_i hneg
    rw [hread hzero ((hzeros _).append h), ← List.append_assoc,
      show ['0'] ++ List.replicate (-point).toNat '0' =
        List.replicate ((-point).toNat + 1) '0' from rfl, Decimal.value_zeros_append,
      List.length_append, List.length_replicate]
    congr 2
    push_cast
    omega
  · split
    · rw [hread (h.take _) (h.drop _), List.take_append_drop, List.length_drop]
      congr 2
      omega
    · rw [hread (h.append (hzeros _)) hzero, List.append_assoc,
        show List.replicate (point.toNat - digits.length) '0' ++ ['0'] =
          List.replicate (point.toNat - digits.length + 1) '0' from
          List.replicate_succ'.symm, Decimal.value_append_zeros]
      have hexponent : point - digits.length =
          ((point.toNat - digits.length + 1 : ℕ) : ℤ) + -1 := by omega
      rw [hexponent, show -((['0'].length : ℕ) : ℤ) = -1 from rfl, zpow_add₀ (by norm_num),
        zpow_natCast]
      push_cast
      ring

/-- **`float(repr(x))` is `x`**, but for the sign. -/
theorem roundsTo_read_unsigned (bits : ℕ) : RoundsTo magnitude bits (read (unsigned bits)) := by
  obtain ⟨hne, hrounds⟩ := dtoa_spec bits
  have hread : read (unsigned bits) = worth (dtoa bits).1 (dtoa bits).2 := by
    unfold unsigned
    dsimp only
    split
    · exact read_scientific (isDigits_dtoa bits) hne _
    · exact read_positional (isDigits_dtoa bits) _
  rwa [hread]

/-! ## The text as a token -/

theorem isNumberChar_of_mem {ds : List Char} (h : Decimal.IsDigits ds) {c : Char} (hc : c ∈ ds) :
    isNumberChar c = true := by
  rw [isNumberChar, h c hc]
  rfl

theorem isNumberChar_exponentText (e : ℤ) : ∀ c ∈ exponentText e, isNumberChar c = true := by
  unfold exponentText
  intro c hc
  rcases List.mem_cons.mp hc with rfl | hc
  · split <;> rfl
  · exact isNumberChar_of_mem (Decimal.isDigits_padded 2 e.natAbs) hc

theorem isNumberChar_scientific {digits : List Char} (h : Decimal.IsDigits digits) (point : ℤ) :
    ∀ c ∈ scientific digits point, isNumberChar c = true := by
  unfold scientific
  intro c hc
  rcases List.mem_append.mp hc with hc | hc
  · exact isNumberChar_of_mem (h.take 1) hc
  rcases List.mem_append.mp hc with hc | hc
  · split at hc
    · cases hc
    · rcases List.mem_cons.mp hc with rfl | hc
      · rfl
      · exact isNumberChar_of_mem (h.drop 1) hc
  · rcases List.mem_cons.mp hc with rfl | hc
    · rfl
    · exact isNumberChar_exponentText _ c hc

theorem isNumberChar_positional {digits : List Char} (h : Decimal.IsDigits digits) (point : ℤ) :
    ∀ c ∈ positional digits point, isNumberChar c = true := by
  have hzeros : ∀ n, Decimal.IsDigits (List.replicate n '0') := Decimal.isDigits_replicate rfl
  have hpoint : ∀ {whole fraction : List Char}, Decimal.IsDigits whole →
      Decimal.IsDigits fraction → ∀ c ∈ whole ++ '.' :: fraction, isNumberChar c = true := by
    intro whole fraction hwhole hfraction c hc
    rcases List.mem_append.mp hc with hc | hc
    · exact isNumberChar_of_mem hwhole hc
    · rcases List.mem_cons.mp hc with rfl | hc
      · rfl
      · exact isNumberChar_of_mem hfraction hc
  unfold positional
  split
  · exact hpoint (hzeros 1) ((hzeros _).append h)
  · split
    · exact hpoint (h.take _) (h.drop _)
    · exact hpoint (h.append (hzeros _)) (hzeros 1)

theorem isNumberChar_unsigned (bits : ℕ) : ∀ c ∈ unsigned bits, isNumberChar c = true := by
  unfold unsigned
  dsimp only
  split
  · exact isNumberChar_scientific (isDigits_dtoa bits) _
  · exact isNumberChar_positional (isDigits_dtoa bits) _

/-- A point or an exponent sets the text apart from an integer's. -/
theorem exists_notInt_unsigned (bits : ℕ) : ∃ c ∈ unsigned bits, isIntChar c = false := by
  unfold unsigned
  dsimp only
  split
  · refine ⟨'e', ?_, rfl⟩
    simp [scientific]
  · refine ⟨'.', ?_, rfl⟩
    unfold positional
    split
    · simp
    · split <;> simp

/-- The text starts with a digit. -/
theorem unsigned_starts (bits : ℕ) : ∃ c cs, unsigned bits = c :: cs ∧ c.isDigit = true := by
  have hdigits := isDigits_dtoa bits
  obtain ⟨c, cs, hcons⟩ := List.exists_cons_of_ne_nil (dtoa_spec bits).1
  rw [hcons] at hdigits
  unfold unsigned
  dsimp only
  rw [hcons]
  split
  · exact ⟨c, _, rfl, hdigits.head⟩
  · unfold positional
    split
    · exact ⟨'0', _, rfl, rfl⟩
    · split
      · rename_i hpos _
        obtain ⟨n, hn⟩ := Nat.exists_eq_succ_of_ne_zero
          (show (dtoa bits).2.toNat ≠ 0 by omega)
        rw [hn]
        exact ⟨c, _, rfl, hdigits.head⟩
      · exact ⟨c, _, rfl, hdigits.head⟩

/-- The text of a double, as a JSON token. -/
def text (x : Binary64) : FloatText where
  text := repr x
  starts := by
    obtain ⟨c, cs, hcons, hc⟩ := unsigned_starts x.bits
    unfold repr
    split
    · rfl
    · rw [hcons, List.nil_append, List.head?_cons, Option.any_some, isNumberStart, hc]
      rfl
  number := by
    refine List.all_eq_true.mpr fun c hc => ?_
    rcases List.mem_append.mp hc with hc | hc
    · split at hc
      · obtain rfl := List.mem_singleton.mp hc
        rfl
      · cases hc
    · exact isNumberChar_unsigned x.bits c hc
  notInt := by
    obtain ⟨c, hc, hnot⟩ := exists_notInt_unsigned x.bits
    rw [List.all_eq_false]
    exact ⟨c, List.mem_append_right _ hc, by rw [hnot]; exact Bool.false_ne_true⟩

/-- **A double is determined by its text.** -/
theorem repr_injective : Function.Injective repr := by
  rintro ⟨s, m, hm⟩ ⟨t, n, hn⟩ h
  have hbits : unsigned m = unsigned n → m = n := by
    intro heq
    have hrounds := roundsTo_read_unsigned n
    rw [← heq] at hrounds
    exact (roundsTo_read_unsigned m).unique magnitude_strictMono hrounds
  have hminus : ∀ k cs, unsigned k ≠ '-' :: cs := by
    intro k cs heq
    obtain ⟨c, cs', hcons, hc⟩ := unsigned_starts k
    obtain ⟨rfl, -⟩ := List.cons.inj (hcons.symm.trans heq)
    cases hc
  cases s with
  | false =>
      cases t with
      | false => obtain rfl := hbits h; rfl
      | true => exact absurd h (hminus m _)
  | true =>
      cases t with
      | false => exact absurd h.symm (hminus n _)
      | true => obtain rfl := hbits (List.cons.inj h).2; rfl

theorem text_injective : Function.Injective text := fun _ _ h =>
  repr_injective (congrArg FloatText.text h)

example : repr ⟨true, 0x3fb999999999999a, by decide⟩ = "-0.1".toList := by decide +kernel

end Binary64
end AdminPlatform.Lib
