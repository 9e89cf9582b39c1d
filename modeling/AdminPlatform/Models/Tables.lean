import AdminPlatform.Audit.Log
import AdminPlatform.Lib.Entity
import AdminPlatform.Lib.Instant
import AdminPlatform.Models.Enums

/-! # Tables

The rows of the platform's tables (`app/models/`), each with its primary key and its unique
columns. The rows that requests load as objects and write back are entities; the others are
only inserted, read and deleted.

The `updated_at` columns are left out: nothing under `app/` compares or writes them. -/

namespace AdminPlatform
open AdminPlatform.Lib

/-! ## Platform Admins -/

structure PlatformAdmin where
  id : Uuid
  email : String
  username : String
  hashedPassword : String
  status : Status
  failedLoginAttempts : Nat
  lockedUntil : Option Instant
  currentRefreshJti : Option String
  createdAt : Instant
  deriving DecidableEq, Repr

instance : Entity PlatformAdmin where
  Key := Uuid
  key := PlatformAdmin.id
  Clash a b := a.id = b.id ∨ a.email = b.email ∨ a.username = b.username
  decKey := inferInstance
  decClash _ _ := inferInstanceAs (Decidable (_ ∨ _ ∨ _))
  symm := by
    rintro a b (h | h | h)
    · exact .inl h.symm
    · exact .inr (.inl h.symm)
    · exact .inr (.inr h.symm)
  of_key := .inl
  merge loaded current stored :=
    { id := stored.id
      email := column loaded.email current.email stored.email
      username := column loaded.username current.username stored.username
      hashedPassword := column loaded.hashedPassword current.hashedPassword stored.hashedPassword
      status := column loaded.status current.status stored.status
      failedLoginAttempts :=
        column loaded.failedLoginAttempts current.failedLoginAttempts stored.failedLoginAttempts
      lockedUntil := column loaded.lockedUntil current.lockedUntil stored.lockedUntil
      currentRefreshJti :=
        column loaded.currentRefreshJti current.currentRefreshJti stored.currentRefreshJti
      createdAt := column loaded.createdAt current.createdAt stored.createdAt }
  key_merge _ _ _ := rfl
  merge_loaded loaded current h := by
    have hid : current.id = loaded.id := h
    simp [← hid]

@[simp] theorem key_platformAdmin (a : PlatformAdmin) : Row.key a = a.id := rfl

/-- A previous hashed password, kept to reject its reuse. -/
structure PasswordHistory where
  id : Uuid
  platformAdminId : Uuid
  hashedPassword : String
  createdAt : Instant
  deriving DecidableEq, Repr

instance : Row PasswordHistory where
  Key := Uuid
  key := PasswordHistory.id
  Clash a b := a.id = b.id
  decKey := inferInstance
  decClash a b := inferInstanceAs (Decidable (a.id = b.id))
  symm := Eq.symm
  of_key := id

/-- The state of password-reset codes for one email. -/
structure PasswordResetOtp where
  email : String
  expiresAt : Instant
  requestCount : Nat
  windowStartedAt : Instant
  verified : Bool
  deriving DecidableEq, Repr

instance : Entity PasswordResetOtp where
  Key := String
  key := PasswordResetOtp.email
  Clash a b := a.email = b.email
  decKey := inferInstance
  decClash a b := inferInstanceAs (Decidable (a.email = b.email))
  symm := Eq.symm
  of_key := id
  merge loaded current stored :=
    { email := stored.email
      expiresAt := column loaded.expiresAt current.expiresAt stored.expiresAt
      requestCount := column loaded.requestCount current.requestCount stored.requestCount
      windowStartedAt :=
        column loaded.windowStartedAt current.windowStartedAt stored.windowStartedAt
      verified := column loaded.verified current.verified stored.verified }
  key_merge _ _ _ := rfl
  merge_loaded loaded current h := by
    have hemail : current.email = loaded.email := h
    simp [← hemail]

@[simp] theorem key_passwordResetOtp (a : PasswordResetOtp) : Row.key a = a.email := rfl

/-! ## Roles and screens -/

/-- A named set of permissions. -/
structure Role where
  id : Uuid
  name : String
  description : Option String
  status : Status
  createdAt : Instant
  deriving DecidableEq, Repr

instance : Entity Role where
  Key := Uuid
  key := Role.id
  Clash a b := a.id = b.id ∨ a.name = b.name
  decKey := inferInstance
  decClash _ _ := inferInstanceAs (Decidable (_ ∨ _))
  symm := by
    rintro a b (h | h)
    · exact .inl h.symm
    · exact .inr h.symm
  of_key := .inl
  merge loaded current stored :=
    { id := stored.id
      name := column loaded.name current.name stored.name
      description := column loaded.description current.description stored.description
      status := column loaded.status current.status stored.status
      createdAt := column loaded.createdAt current.createdAt stored.createdAt }
  key_merge _ _ _ := rfl
  merge_loaded loaded current h := by
    have hid : current.id = loaded.id := h
    simp [← hid]

@[simp] theorem key_role (a : Role) : Row.key a = a.id := rfl

/-- A named area of the admin interface, identified by a stable code. -/
structure Screen where
  id : Uuid
  code : String
  name : String
  sortOrder : Nat
  status : Status
  createdAt : Instant
  deriving DecidableEq, Repr

instance : Entity Screen where
  Key := Uuid
  key := Screen.id
  Clash a b := a.id = b.id ∨ a.code = b.code
  decKey := inferInstance
  decClash _ _ := inferInstanceAs (Decidable (_ ∨ _))
  symm := by
    rintro a b (h | h)
    · exact .inl h.symm
    · exact .inr h.symm
  of_key := .inl
  merge loaded current stored :=
    { id := stored.id
      code := column loaded.code current.code stored.code
      name := column loaded.name current.name stored.name
      sortOrder := column loaded.sortOrder current.sortOrder stored.sortOrder
      status := column loaded.status current.status stored.status
      createdAt := column loaded.createdAt current.createdAt stored.createdAt }
  key_merge _ _ _ := rfl
  merge_loaded loaded current h := by
    have hid : current.id = loaded.id := h
    simp [← hid]

@[simp] theorem key_screen (a : Screen) : Row.key a = a.id := rfl

/-- What a role may do on a screen. -/
structure RoleScreen where
  roleId : Uuid
  screenCode : String
  read : Bool
  write : Bool
  createdAt : Instant
  deriving DecidableEq, Repr

instance : Row RoleScreen where
  Key := Uuid × String
  key a := (a.roleId, a.screenCode)
  Clash a b := (a.roleId, a.screenCode) = (b.roleId, b.screenCode)
  decKey := inferInstance
  decClash a b := inferInstanceAs (Decidable ((a.roleId, a.screenCode) = (b.roleId, b.screenCode)))
  symm := Eq.symm
  of_key := id

/-- A role an admin holds. -/
structure PlatformAdminRole where
  platformAdminId : Uuid
  roleId : Uuid
  createdAt : Instant
  deriving DecidableEq, Repr

instance : Row PlatformAdminRole where
  Key := Uuid × Uuid
  key a := (a.platformAdminId, a.roleId)
  Clash a b := (a.platformAdminId, a.roleId) = (b.platformAdminId, b.roleId)
  decKey := inferInstance
  decClash a b :=
    inferInstanceAs (Decidable ((a.platformAdminId, a.roleId) = (b.platformAdminId, b.roleId)))
  symm := Eq.symm
  of_key := id

/-! ## Exports and audit intents -/

/-- One export request, with its status and the metadata of its link. -/
structure Export where
  id : Uuid
  module : String
  reason : String
  fileFormat : String
  classification : String
  filters : Json
  status : ExportStatus
  rowCount : Option Nat
  filePath : Option String
  generationError : Option String
  expiresAt : Option Instant
  createdBy : String
  createdAt : Instant
  deriving DecidableEq

instance : Entity Export where
  Key := Uuid
  key := Export.id
  Clash a b := a.id = b.id
  decKey := inferInstance
  decClash a b := inferInstanceAs (Decidable (a.id = b.id))
  symm := Eq.symm
  of_key := id
  merge loaded current stored :=
    { id := stored.id
      module := column loaded.module current.module stored.module
      reason := column loaded.reason current.reason stored.reason
      fileFormat := column loaded.fileFormat current.fileFormat stored.fileFormat
      classification := column loaded.classification current.classification stored.classification
      filters := column loaded.filters current.filters stored.filters
      status := column loaded.status current.status stored.status
      rowCount := column loaded.rowCount current.rowCount stored.rowCount
      filePath := column loaded.filePath current.filePath stored.filePath
      generationError :=
        column loaded.generationError current.generationError stored.generationError
      expiresAt := column loaded.expiresAt current.expiresAt stored.expiresAt
      createdBy := column loaded.createdBy current.createdBy stored.createdBy
      createdAt := column loaded.createdAt current.createdAt stored.createdAt }
  key_merge _ _ _ := rfl
  merge_loaded loaded current h := by
    have hid : current.id = loaded.id := h
    simp [← hid]

@[simp] theorem key_export (a : Export) : Row.key a = a.id := rfl

instance : Row Audit.AuditIntent where
  Key := Uuid
  key := Audit.AuditIntent.id
  Clash a b := a.id = b.id
  decKey := inferInstance
  decClash a b := inferInstanceAs (Decidable (a.id = b.id))
  symm := Eq.symm
  of_key := id

end AdminPlatform
