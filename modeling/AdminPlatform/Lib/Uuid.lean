import AdminPlatform.Lib.Digits

/-! # UUIDs

A 128-bit identifier and its text: 32 hexadecimal digits in groups of 8, 4, 4, 4 and 12. -/

namespace AdminPlatform.Lib

structure Uuid where
  bits : Fin (2 ^ 128)
  deriving DecidableEq, Repr

namespace Uuid

/-- The identifier with the given number (modulo `2 ^ 128`). -/
def ofNat (n : Nat) : Uuid := ⟨Fin.ofNat _ n⟩

/-- The characters of `str(uuid)`. -/
def chars (u : Uuid) : List Char :=
  fixedDigits 16 8 (u.bits.val / 16 ^ 24) ++ ('-' ::
    (fixedDigits 16 4 (u.bits.val / 16 ^ 20) ++ ('-' ::
      (fixedDigits 16 4 (u.bits.val / 16 ^ 16) ++ ('-' ::
        (fixedDigits 16 4 (u.bits.val / 16 ^ 12) ++ ('-' ::
          fixedDigits 16 12 u.bits.val)))))))

def str (u : Uuid) : String := String.ofList u.chars

/-- The characters of `uuid.hex`. -/
def hex (u : Uuid) : List Char := fixedDigits 16 32 u.bits.val

theorem eq_of_bits {u v : Uuid} (h : u.bits = v.bits) : u = v := by
  cases u
  cases v
  exact congrArg _ h

theorem length_chars (u : Uuid) : u.chars.length = 36 := by
  simp [chars]

/-- A UUID's text holds hexadecimal digits and dashes only. -/
theorem mem_chars {u : Uuid} {c : Char} (h : c ∈ u.chars) :
    c = '-' ∨ ∃ d < 16, c = Nat.digitChar d := by
  simp only [chars, List.mem_append, List.mem_cons] at h
  rcases h with h | h | h | h | h | h | h | h | h <;>
    first
      | exact .inl h
      | exact .inr (mem_fixedDigits (by norm_num) h)

end Uuid
end AdminPlatform.Lib
