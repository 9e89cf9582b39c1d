import AdminPlatform.Core.Security
import AdminPlatform.Schemas.Fields

/-! # Passwords

The pattern of `PasswordStr` with its four lookaheads accepts the passwords that have what it
asks for (`passwordStr_iff`). An accepted password has at most 52 bytes, so bcrypt sees all of
it: no other text logs in with it, whatever of that text is cut off (`only_password_logs_in`). -/

namespace AdminPlatform.Passwords
open AdminPlatform.Lib AdminPlatform.Lib.Regex AdminPlatform.Schemas

/-! ## Strong passwords -/

/-- What a password has to have. -/
structure Strong (u : CharClasses) (value : String) : Prop where
  min_length : 8 ≤ value.length
  max_length : value.length ≤ 13
  no_newline : '\n' ∉ value.toList
  lower : ∃ c ∈ value.toList, c.isLower = true
  upper : ∃ c ∈ value.toList, c.isUpper = true
  digit : ∃ c ∈ value.toList, u.digit c = true
  special : ∃ c ∈ value.toList, u.word c = false ∧ u.space c = false

/-- A lookahead finds a character of a class wherever it is, up to a newline. -/
theorem exists_mem_ends_iff {p : Char → Bool} {pos : Position} (h : '\n' ∉ pos.rest) :
    (∃ next, next ∈ ends (.cat (.star .dot) (.one p)) pos) ↔ ∃ c ∈ pos.rest, p c = true := by
  constructor
  · rintro ⟨next, hnext⟩
    obtain ⟨mid, hmid, hone⟩ := mem_ends_cat.mp hnext
    obtain ⟨before, hrest, -, -⟩ := mem_ends_star_one.mp hmid
    obtain ⟨c, after, hcons, hc, -⟩ := mem_ends_one.mp hone
    rw [hrest, hcons]
    exact ⟨c, List.mem_append_right _ List.mem_cons_self, hc⟩
  · rintro ⟨c, hmem, hc⟩
    obtain ⟨before, after, hrest⟩ := List.append_of_mem hmem
    refine ⟨_, mem_ends_cat.mpr ⟨pos.after before (c :: after), mem_ends_star_one.mpr
      ⟨before, hrest, rfl, fun d hd => ?_⟩, mem_ends_one.mpr ⟨c, after, rfl, hc, rfl⟩⟩⟩
    have hne : d ≠ '\n' := by
      rintro rfl
      rw [hrest] at h
      exact h (List.mem_append_left _ hd)
    simpa using hne

/-- What the pattern matches as a whole. -/
theorem fullmatch_passwordPattern (u : CharClasses) (value : String) :
    (passwordPattern u).fullmatch value = true ↔
      ('\n' ∉ value.toList ∧ 8 ≤ value.length ∧ value.length ≤ 13) ∧
        (∃ c ∈ value.toList, c.isLower = true) ∧ (∃ c ∈ value.toList, c.isUpper = true) ∧
        (∃ c ∈ value.toList, u.digit c = true) ∧ ∃ c ∈ value.toList, isSpecial u c = true := by
  have hdot : (∀ c ∈ value.toList, (c != '\n') = true) ↔ '\n' ∉ value.toList := by
    constructor
    · intro hall hmem
      simpa using hall _ hmem
    · intro hnot c hmem
      have hne : c ≠ '\n' := fun h => hnot (h ▸ hmem)
      simpa using hne
  unfold passwordPattern somewhere range dot
  rw [fullmatch_iff, matchesRest_start_cat, matchesRest_ahead_cat, matchesRest_ahead_cat,
    matchesRest_ahead_cat, matchesRest_ahead_cat, matchesRest_repeated_finish, hdot,
    String.length_toList]
  by_cases hnewline : '\n' ∈ value.toList
  · simp [hnewline]
  have hfind : ∀ p : Char → Bool, (∃ next, next ∈ ends (.cat (.star (.one (· != '\n'))) (.one p))
      ⟨[], value.toList⟩) ↔ ∃ c ∈ value.toList, p c = true :=
    fun p => @exists_mem_ends_iff p ⟨[], value.toList⟩ hnewline
  rw [hfind, hfind, hfind, hfind]
  have hlower : ∀ c : Char, ('a' ≤ c && c ≤ 'z') = c.isLower := fun _ => rfl
  have hupper : ∀ c : Char, ('A' ≤ c && c ≤ 'Z') = c.isUpper := fun c =>
    (Bool.decide_and ('A' ≤ c) (c ≤ 'Z')).symm
  simp only [hlower, hupper]
  constructor
  · rintro ⟨-, hlower, hupper, hdigit, hspecial, hlength⟩
    exact ⟨hlength, hlower, hupper, hdigit, hspecial⟩
  · rintro ⟨hlength, hlower, hupper, hdigit, hspecial⟩
    exact ⟨trivial, hlower, hupper, hdigit, hspecial, hlength⟩

/-- **What `PasswordStr` accepts.** -/
theorem passwordStr_iff (u : CharClasses) (value : String) :
    PasswordStr u value ↔ Strong u value := by
  have hspecial : ∀ c, isSpecial u c = true ↔ u.word c = false ∧ u.space c = false := by
    intro c
    simp [isSpecial]
  have hvalid : validatePasswordStrength u value = .ok value ↔
      (passwordPattern u).fullmatch value = true := by
    unfold validatePasswordStrength
    split
    · rename_i hmatch
      exact iff_of_true rfl hmatch
    · rename_i hmatch
      exact iff_of_false nofun hmatch
  constructor
  · rintro ⟨hmin, hmax, hstrength⟩
    obtain ⟨⟨hnewline, -, -⟩, hlower, hupper, hdigit, c, hc, hclass⟩ :=
      (fullmatch_passwordPattern u value).mp (hvalid.mp hstrength)
    exact ⟨hmin, hmax, hnewline, hlower, hupper, hdigit, c, hc, (hspecial c).mp hclass⟩
  · rintro ⟨hmin, hmax, hnewline, hlower, hupper, hdigit, c, hc, hclass⟩
    refine ⟨hmin, hmax, hvalid.mpr ((fullmatch_passwordPattern u value).mpr ?_)⟩
    exact ⟨⟨hnewline, hmin, hmax⟩, hlower, hupper, hdigit, c, hc, (hspecial c).mpr hclass⟩

/-! ## The bytes of a password -/

/-- The bytes of a text before they are cut. -/
def bytes (text : String) : List UInt8 := text.toByteArray.data.toList

theorem truncate_eq (text : String) : truncate text = (bytes text).take bcryptMaxBytes := rfl

theorem bytes_inj {a b : String} (h : bytes a = bytes b) : a = b :=
  String.toByteArray_inj.mp (ByteArray.ext (Array.toList_inj.mp h))

theorem bytes_eq (text : String) : bytes text = text.toList.flatMap String.utf8EncodeChar := by
  rw [bytes, ← String.utf8Encode_toList, List.utf8Encode, List.toList_data_toByteArray]

/-- A character takes at most four bytes. -/
theorem length_bytes_le (text : String) : (bytes text).length ≤ 4 * text.length := by
  rw [bytes_eq, ← String.length_toList]
  induction text.toList with
  | nil => exact Nat.le_refl _
  | cons c cs ih =>
      rw [List.flatMap_cons, List.length_append, String.length_utf8EncodeChar, List.length_cons]
      have hc := c.utf8Size_le_four
      omega

/-- bcrypt is exact on inputs of at most 72 bytes. -/
def Exact (b : Bcrypt) : Prop :=
  ∀ x y salt, x.length ≤ bcryptMaxBytes → y.length ≤ bcryptMaxBytes →
    (b.checkpw x (b.hashpw y salt) = true ↔ x = y)

/-- A text that agrees with a short one up to the cut is that one. -/
theorem truncate_eq_iff {plain password : String} (h : (bytes password).length < bcryptMaxBytes) :
    truncate plain = truncate password ↔ plain = password := by
  constructor
  · intro heq
    rw [truncate_eq, truncate_eq, List.take_of_length_le h.le] at heq
    have hlength := congrArg List.length heq
    rw [List.length_take] at hlength
    have hshort : (bytes plain).length ≤ bcryptMaxBytes := by omega
    rw [List.take_of_length_le hshort] at heq
    exact bytes_inj heq
  · rintro rfl
    rfl

theorem verifyPassword_hashPassword_iff {b : Bcrypt} (hexact : Exact b) (salt : String)
    {plain password : String} (h : (bytes password).length < bcryptMaxBytes) :
    b.verifyPassword plain (b.hashPassword salt password) = true ↔ plain = password := by
  have hcut : ∀ text, (truncate text).length ≤ bcryptMaxBytes := fun text =>
    List.length_take_le _ _
  exact (hexact _ _ salt (hcut plain) (hcut password)).trans (truncate_eq_iff h)

/-- **Only the exact password logs in.** -/
theorem only_password_logs_in (u : CharClasses) (b : Bcrypt) (hexact : Exact b) :
    (∀ value, PasswordStr u value ↔ Strong u value) ∧
      ∀ password, PasswordStr u password → ∀ salt plain,
        b.verifyPassword plain (b.hashPassword salt password) = true ↔ plain = password := by
  refine ⟨passwordStr_iff u, fun password haccepted salt plain => ?_⟩
  refine verifyPassword_hashPassword_iff hexact salt ?_
  have hmax : password.length ≤ 13 := haccepted.max_length
  calc (bytes password).length ≤ 4 * password.length := length_bytes_le password
    _ ≤ 4 * 13 := Nat.mul_le_mul_left 4 hmax
    _ < bcryptMaxBytes := by decide

section Sample

/-- The classes of the ASCII characters. -/
def asciiClasses : CharClasses where
  word c := c.isAlphanum || c == '_'
  space := Char.isWhitespace
  digit := Char.isDigit

/-- The bytes of a password as characters stand for its hash. -/
def plainBcrypt : Bcrypt where
  hashpw password _ := String.ofList (password.map fun b => Char.ofNat b.toNat)
  checkpw password hashed := hashed.toList = password.map fun b => Char.ofNat b.toNat

theorem exact_plainBcrypt : Exact plainBcrypt := by
  intro x y salt _ _
  have hinj : Function.Injective fun b : UInt8 => Char.ofNat b.toNat := by
    intro a b h
    have hvalid : ∀ c : UInt8, (Char.ofNat c.toNat).toNat = c.toNat := by
      intro c
      have hc : c.toNat < 256 := c.toNat_lt
      rw [Char.ofNat, dif_pos (.inl (by omega))]
      rfl
    have hnat := congrArg Char.toNat h
    simp only [hvalid] at hnat
    exact UInt8.toNat_inj.mp hnat
  unfold plainBcrypt
  rw [decide_eq_true_eq, String.toList_ofList, List.map_inj_right hinj]
  exact eq_comm

theorem only_secret_logs_in :
    PasswordStr asciiClasses "Secret-2" ∧
      (plainBcrypt.verifyPassword "secret-2" (plainBcrypt.hashPassword "salt" "Secret-2") = true ↔
        "secret-2" = "Secret-2") := by
  have haccepted : PasswordStr asciiClasses "Secret-2" := ⟨by decide, by decide, by decide⟩
  have hexact : Exact plainBcrypt := exact_plainBcrypt
  exact ⟨haccepted, (only_password_logs_in asciiClasses plainBcrypt hexact).2 "Secret-2" haccepted
    "salt" "secret-2"⟩

end Sample

end AdminPlatform.Passwords
