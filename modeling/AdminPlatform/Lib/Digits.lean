import Mathlib.Data.Nat.Digits.Defs
import Mathlib.Tactic.NormNum

/-! # Numerals of a fixed width

`fixedDigits b w n` writes the last `w` digits of `n` in base `b`, most significant first,
padding with zeros: hex escapes, hex digests, UUIDs and the parts of a timestamp are all
written this way. -/

namespace AdminPlatform.Lib

/-- The last `w` digits of `n` in base `b`. -/
def fixedDigits (b : Nat) : Nat → Nat → List Char
  | 0, _ => []
  | w + 1, n => fixedDigits b w (n / b) ++ [Nat.digitChar (n % b)]

@[simp] theorem length_fixedDigits (b w n : Nat) : (fixedDigits b w n).length = w := by
  induction w generalizing n with
  | zero => rfl
  | succ w ih => simp [fixedDigits, ih]

theorem digitChar_inj {a b : Nat} (ha : a < 16) (hb : b < 16)
    (h : Nat.digitChar a = Nat.digitChar b) : a = b := by
  have key : ∀ a < 16, ∀ b < 16, Nat.digitChar a = Nat.digitChar b → a = b := by decide
  exact key a ha b hb h

/-- Numerals of one width are equal exactly when the numbers agree modulo `b ^ w`. -/
theorem fixedDigits_mod_eq {b : Nat} (hb : 0 < b) (hb16 : b ≤ 16) {w n m : Nat}
    (h : fixedDigits b w n = fixedDigits b w m) : n % b ^ w = m % b ^ w := by
  induction w generalizing n m with
  | zero => simp [Nat.mod_one]
  | succ w ih =>
      obtain ⟨hinit, hlast⟩ := List.append_inj' h rfl
      have hdiv : n / b % b ^ w = m / b % b ^ w := ih hinit
      have hmod : n % b = m % b :=
        digitChar_inj (lt_of_lt_of_le (Nat.mod_lt _ hb) hb16)
          (lt_of_lt_of_le (Nat.mod_lt _ hb) hb16) (by simpa using hlast)
      rw [pow_succ', Nat.mod_mul, Nat.mod_mul, hmod, hdiv]

theorem fixedDigits_inj {b : Nat} (hb : 0 < b) (hb16 : b ≤ 16) {w n m : Nat}
    (hn : n < b ^ w) (hm : m < b ^ w) (h : fixedDigits b w n = fixedDigits b w m) : n = m := by
  have := fixedDigits_mod_eq hb hb16 h
  rwa [Nat.mod_eq_of_lt hn, Nat.mod_eq_of_lt hm] at this

/-- Every character of a numeral is a digit of its base. -/
theorem mem_fixedDigits {b : Nat} (hb : 0 < b) {w n : Nat} {c : Char}
    (h : c ∈ fixedDigits b w n) : ∃ d < b, c = Nat.digitChar d := by
  induction w generalizing n with
  | zero => simp [fixedDigits] at h
  | succ w ih =>
      rcases List.mem_append.mp h with h | h
      · exact ih h
      · exact ⟨n % b, Nat.mod_lt _ hb, by simpa using h⟩

/-- Equal concatenations that start with numerals of one width split at the numerals. -/
theorem fixedDigits_append_inj {b : Nat} (hb : 0 < b) (hb16 : b ≤ 16) {w n m : Nat}
    (hn : n < b ^ w) (hm : m < b ^ w) {r s : List Char}
    (h : fixedDigits b w n ++ r = fixedDigits b w m ++ s) : n = m ∧ r = s := by
  obtain ⟨hnum, hrest⟩ := List.append_inj h (by simp)
  exact ⟨fixedDigits_inj hb hb16 hn hm hnum, hrest⟩

end AdminPlatform.Lib
