import AdminPlatform.Lib.Regex
import AdminPlatform.Roles.Grants

/-! # Request fields

`app/schemas/fields.py`: field types that several requests share, with the lengths of
`app/utils/limits.py`. -/

namespace AdminPlatform.Schemas
open AdminPlatform.Lib
open AdminPlatform.RoleService (isSlug)

def screenCodeMaxLength : Nat := 50

def nameMaxLength : Nat := 255

/-- `ScreenCodeStr`: 1 to 50 characters, in slug format. -/
structure ScreenCodeStr (value : String) : Prop where
  min_length : 1 ≤ value.length
  max_length : value.length ≤ screenCodeMaxLength
  format : isSlug value.toList = true

instance (value : String) : Decidable (ScreenCodeStr value) :=
  decidable_of_iff (1 ≤ value.length ∧ value.length ≤ screenCodeMaxLength ∧
      isSlug value.toList = true)
    ⟨fun ⟨hmin, hmax, hformat⟩ => ⟨hmin, hmax, hformat⟩,
      fun h => ⟨h.min_length, h.max_length, h.format⟩⟩

/-! ## Passwords -/

def passwordMinLength : Nat := 8

def passwordMaxLength : Nat := 13

def credentialStrengthRules : String :=
  "Password must be 8 to 13 characters and include an uppercase letter, a " ++
    "lowercase letter, a number, and a special character"

section Password
variable (u : CharClasses)

/-- `[^\w\s]`. -/
def isSpecial (c : Char) : Bool := !u.word c && !u.space c

/-- `(?=.*r)`. -/
def somewhere (r : Regex) : Regex := .ahead (.cat (.star .dot) r)

/-- `^(?=.*[a-z])(?=.*[A-Z])(?=.*\d)(?=.*[^\w\s]).{8,13}$`. -/
def passwordPattern : Regex :=
  .cat .start
    (.cat (somewhere (.range 'a' 'z'))
      (.cat (somewhere (.range 'A' 'Z'))
        (.cat (somewhere (.one u.digit))
          (.cat (somewhere (.one (isSpecial u)))
            (.cat (.repeated .dot 8 13) .finish)))))

/-- A password that is strong enough, else the `ValueError`. -/
def validatePasswordStrength (value : String) : Except String String :=
  if (passwordPattern u).fullmatch value then .ok value else .error credentialStrengthRules

/-- `PasswordStr`. -/
structure PasswordStr (value : String) : Prop where
  min_length : passwordMinLength ≤ value.length
  max_length : value.length ≤ passwordMaxLength
  strength : validatePasswordStrength u value = .ok value

end Password

end AdminPlatform.Schemas
