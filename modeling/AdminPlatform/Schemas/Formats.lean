import AdminPlatform.Lib.Recognizes
import AdminPlatform.Schemas.Fields

/-! # Field formats

`app/utils/validate.py`: the patterns of slugs and of permissions, and what they accept. The
role service takes a permission apart at its last dot without looking whether there is one. It
may, since the pattern accepts exactly what comes apart into a slug and an operation
(`permission_format`). -/

namespace AdminPlatform.Schemas
open AdminPlatform.Lib
open AdminPlatform.RoleService (isAlphanumeric isSlug rsplit)
open scoped Computability

/-! ## The patterns -/

/-- `[A-Za-z0-9]+(-[A-Za-z0-9]+)*`. -/
def slug : Regex :=
  .cat (.plus (.one isAlphanumeric))
    (.star (.cat (.one (· == '-')) (.plus (.one isAlphanumeric))))

/-- `SLUG_PATTERN`: `^[A-Za-z0-9]+(-[A-Za-z0-9]+)*$`. -/
def slugPattern : Regex := .cat .start (.cat slug .finish)

/-- `\.(R|W)`. -/
def operation : Regex := .cat (.one (· == '.')) (.one fun c => c == 'R' || c == 'W')

/-- `PERMISSION_PATTERN`: `^[A-Za-z0-9]+(-[A-Za-z0-9]+)*\.(R|W)$`. -/
def permissionPattern : Regex := .cat .start (.cat (.cat slug operation) .finish)

/-- The value, else the `ValueError`. -/
def validateSlugFormat (value fieldLabel : String) : Except String String :=
  if slugPattern.fullmatch value then .ok value
  else .error (fieldLabel ++ " must follow the valid format")

def validatePermissionFormat (value fieldLabel : String) : Except String String :=
  if permissionPattern.fullmatch value then .ok value
  else .error (fieldLabel ++ " must follow the format <screen-code>.<R|W>")

/-! ## Their languages -/

/-- Groups of alphanumerics. -/
def groups : Language Char := Regex.oneOf isAlphanumeric * (Regex.oneOf isAlphanumeric)∗

def slugs : Language Char := groups * (Regex.oneOf (· == '-') * groups)∗

def operations : Language Char :=
  Regex.oneOf (· == '.') * Regex.oneOf fun c => c == 'R' || c == 'W'

theorem recognizes_slug : Regex.Recognizes slug slugs :=
  Regex.recognizes_one.plus.cat (Regex.recognizes_one.cat Regex.recognizes_one.plus).star

theorem recognizes_operation : Regex.Recognizes operation operations :=
  Regex.recognizes_one.cat Regex.recognizes_one

/-- A slug is what splits at the hyphens into groups of alphanumerics. -/
theorem mem_slugs {w : List Char} : w ∈ slugs ↔ isSlug w = true := by
  rw [slugs, Regex.mem_separated, isSlug, List.all_eq_true]
  · refine forall_congr' fun g => imp_congr_right fun _ => ?_
    rw [groups, Regex.mem_oneOf_mul_kstar, Bool.and_eq_true, decide_eq_true_iff, List.all_eq_true]
  · intro g hg hhyphen
    exact absurd ((Regex.mem_oneOf_mul_kstar.mp hg).2 '-' hhyphen) (by decide)

theorem mem_operations {w : List Char} : w ∈ operations ↔ w = ['.', 'R'] ∨ w = ['.', 'W'] := by
  rw [operations, Language.mem_mul]
  constructor
  · rintro ⟨_, ⟨dot, hdot, rfl⟩, _, ⟨c, hc, rfl⟩, rfl⟩
    obtain rfl : dot = '.' := eq_of_beq hdot
    rcases Bool.or_eq_true_iff.mp hc with hc | hc
    · exact .inl (congrArg (fun c => ['.', c]) (eq_of_beq hc))
    · exact .inr (congrArg (fun c => ['.', c]) (eq_of_beq hc))
  · rintro (rfl | rfl)
    · exact ⟨_, ⟨'.', rfl, rfl⟩, _, ⟨'R', rfl, rfl⟩, rfl⟩
    · exact ⟨_, ⟨'.', rfl, rfl⟩, _, ⟨'W', rfl, rfl⟩, rfl⟩

/-! ## What is accepted -/

theorem fullmatch_slugPattern (value : String) :
    slugPattern.fullmatch value = isSlug value.toList :=
  Bool.eq_iff_iff.mpr (recognizes_slug.fullmatch_iff.trans mem_slugs)

/-- A permission is a slug, a dot, and `R` or `W`. -/
theorem fullmatch_permissionPattern_iff (value : String) :
    permissionPattern.fullmatch value = true ↔ ∃ code : String,
      isSlug code.toList = true ∧ (value = code ++ ".R" ∨ value = code ++ ".W") := by
  rw [permissionPattern, (recognizes_slug.cat recognizes_operation).fullmatch_iff, Language.mem_mul]
  constructor
  · rintro ⟨code, hcode, op, hop, heq⟩
    have hvalue := congrArg String.ofList heq
    rw [String.ofList_toList] at hvalue
    refine ⟨String.ofList code, ?_, ?_⟩
    · rw [String.toList_ofList]
      exact mem_slugs.mp hcode
    · rcases mem_operations.mp hop with rfl | rfl
      · exact .inl (by simp [← hvalue])
      · exact .inr (by simp [← hvalue])
  · rintro ⟨code, hcode, rfl | rfl⟩
    · exact ⟨code.toList, mem_slugs.mpr hcode, ['.', 'R'], mem_operations.mpr (.inl rfl), by simp⟩
    · exact ⟨code.toList, mem_slugs.mpr hcode, ['.', 'W'], mem_operations.mpr (.inr rfl), by simp⟩

/-- The format as the role service's model states it is what the pattern accepts. -/
theorem fullmatch_permissionPattern (value : String) :
    permissionPattern.fullmatch value = RoleService.validatePermissionFormat value := by
  rw [Bool.eq_iff_iff, fullmatch_permissionPattern_iff]
  constructor
  · rintro ⟨code, hcode, rfl | rfl⟩ <;> simp [RoleService.validatePermissionFormat, hcode]
  · intro h
    unfold RoleService.validatePermissionFormat at h
    split at h
    · rename_i op code hreverse
      obtain ⟨hop, hcode⟩ := Bool.and_eq_true_iff.mp h
      have hvalue : value = String.ofList (op :: '.' :: code).reverse := by
        rw [← hreverse, List.reverse_reverse, String.ofList_toList]
      refine ⟨String.ofList code.reverse, by simpa using hcode, ?_⟩
      rcases Bool.or_eq_true_iff.mp hop with hop | hop
      · obtain rfl := of_decide_eq_true hop
        exact .inl (by simp [hvalue])
      · obtain rfl := of_decide_eq_true hop
        exact .inr (by simp [hvalue])
    · cases h

/-- What comes apart at its last dot is its two parts with a dot between them. -/
theorem eq_of_rsplit {value code op : String} (h : rsplit value = some (code, op)) :
    value = code ++ "." ++ op := by
  dsimp only [rsplit] at h
  split at h
  · rename_i dot rest hdrop
    obtain ⟨rfl, rfl⟩ := Prod.mk.inj (Option.some.inj h)
    obtain rfl : dot = '.' := by
      have hhead := List.head?_dropWhile_not (· ≠ '.') value.toList.reverse
      rw [hdrop] at hhead
      simpa using hhead
    have hreverse := List.takeWhile_append_dropWhile (p := (· ≠ '.')) (l := value.toList.reverse)
    rw [hdrop] at hreverse
    have hchars := congrArg List.reverse hreverse
    rw [List.reverse_reverse] at hchars
    calc value = String.ofList value.toList := String.ofList_toList.symm
      _ = String.ofList _ := congrArg String.ofList hchars.symm
      _ = _ := by simp [String.append_assoc]
  · cases h

theorem validated_iff {accepted : Bool} {value message : String} :
    (if accepted then Except.ok value else .error message) = .ok value ↔ accepted = true := by
  cases accepted <;> simp

/-- **The pattern accepts exactly what the role service can take apart**: into a code that is a
slug, as those of screens are, and `R` or `W`. -/
theorem permission_format (value fieldLabel : String) :
    validatePermissionFormat value fieldLabel = .ok value ↔ ∃ code op,
      rsplit value = some (code, op) ∧ value = code ++ "." ++ op ∧
        validateSlugFormat code "Code" = .ok code ∧ (op = "R" ∨ op = "W") := by
  have hslug (code : String) :
      validateSlugFormat code "Code" = .ok code ↔ isSlug code.toList = true := by
    rw [validateSlugFormat, validated_iff, fullmatch_slugPattern]
  rw [validatePermissionFormat, validated_iff, fullmatch_permissionPattern_iff]
  constructor
  · rintro ⟨code, hcode, rfl | rfl⟩
    · have hrsplit := RoleService.rsplit_read code
      exact ⟨code, "R", hrsplit, eq_of_rsplit hrsplit, (hslug code).mpr hcode, .inl rfl⟩
    · have hrsplit := RoleService.rsplit_write code
      exact ⟨code, "W", hrsplit, eq_of_rsplit hrsplit, (hslug code).mpr hcode, .inr rfl⟩
  · rintro ⟨code, op, -, rfl, hcode, rfl | rfl⟩
    · exact ⟨code, (hslug code).mp hcode, .inl (by simp [String.append_assoc])⟩
    · exact ⟨code, (hslug code).mp hcode, .inr (by simp [String.append_assoc])⟩

end AdminPlatform.Schemas
