import Mathlib.Data.String.Basic

/-! # Enumerations and column lengths

The closed vocabularies of the platform (`app/models/enums.py`), each with the value it is
stored and compared as, and the column lengths (`app/utils/limits.py`). -/

namespace AdminPlatform

inductive Status
  | active
  | inactive
  deriving DecidableEq, Repr

def Status.value : Status → String
  | .active => "active"
  | .inactive => "inactive"

/-- Export lifecycle: pending → ready; expired after 24h. -/
inductive ExportStatus
  | pending
  | ready
  | failed
  | expired
  deriving DecidableEq, Repr

def ExportStatus.value : ExportStatus → String
  | .pending => "pending"
  | .ready => "ready"
  | .failed => "failed"
  | .expired => "expired"

inductive ActorType
  | admin
  | system
  deriving DecidableEq, Repr

def ActorType.value : ActorType → String
  | .admin => "admin"
  | .system => "system"

inductive AuditAction
  | loginSuccess
  | loginFailure
  | loginLockout
  | refreshSuccess
  | refreshFailure
  | logout
  | otpRequested
  | otpThrottled
  | otpVerifySuccess
  | otpVerifyFailure
  | passwordResetSuccess
  | passwordResetFailure
  | userCreate
  | userUpdate
  | userReplace
  | userDelete
  | roleCreate
  | roleUpdate
  | roleDelete
  | screenCreate
  | screenUpdate
  | screenDelete
  | auditRead
  | accessDenied
  | exportGenerated
  | exportDownloaded
  deriving DecidableEq, Repr

def AuditAction.value : AuditAction → String
  | .loginSuccess => "auth.login.success"
  | .loginFailure => "auth.login.failure"
  | .loginLockout => "auth.login.lockout"
  | .refreshSuccess => "auth.refresh.success"
  | .refreshFailure => "auth.refresh.failure"
  | .logout => "auth.logout"
  | .otpRequested => "auth.password_reset.otp_requested"
  | .otpThrottled => "auth.password_reset.otp_throttled"
  | .otpVerifySuccess => "auth.password_reset.otp_verify_success"
  | .otpVerifyFailure => "auth.password_reset.otp_verify_failure"
  | .passwordResetSuccess => "auth.password_reset.success"
  | .passwordResetFailure => "auth.password_reset.failure"
  | .userCreate => "user.create"
  | .userUpdate => "user.update"
  | .userReplace => "user.replace"
  | .userDelete => "user.delete"
  | .roleCreate => "role.create"
  | .roleUpdate => "role.update"
  | .roleDelete => "role.delete"
  | .screenCreate => "screen.create"
  | .screenUpdate => "screen.update"
  | .screenDelete => "screen.delete"
  | .auditRead => "audit.read"
  | .accessDenied => "access.denied"
  | .exportGenerated => "export.generated"
  | .exportDownloaded => "export.downloaded"

inductive AuditResourceType
  | auth
  | user
  | role
  | screen
  | audit
  | export
  deriving DecidableEq, Repr

def AuditResourceType.value : AuditResourceType → String
  | .auth => "auth"
  | .user => "user"
  | .role => "role"
  | .screen => "screen"
  | .audit => "audit"
  | .export => "export"

/-- The permissions routes can require, written `<screen>.<R|W>`. -/
inductive PermissionName
  | usersRead
  | usersWrite
  | auditRead
  | rolesRead
  | rolesWrite
  | screensRead
  | screensWrite
  deriving DecidableEq, Repr

def PermissionName.value : PermissionName → String
  | .usersRead => "S1.R"
  | .usersWrite => "S1.W"
  | .auditRead => "S2.R"
  | .rolesRead => "S3.R"
  | .rolesWrite => "S3.W"
  | .screensRead => "S4.R"
  | .screensWrite => "S4.W"

/-! ## Column lengths -/

def emailMaxLength : Nat := 255
def displayNameMaxLength : Nat := 255
def actorTypeMaxLength : Nat := 255
def actionMaxLength : Nat := 255
def resourceTypeMaxLength : Nat := 255
def resourceIdMaxLength : Nat := 255
def urlMaxLength : Nat := 2048
def requestIdMaxLength : Nat := 255
def ipAddressMaxLength : Nat := 255
def userAgentMaxLength : Nat := 512
def auditHashMaxLength : Nat := 64

/-- A string PostgreSQL stores in a `VARCHAR(n)` column: not too long, and without the
character NUL, which its text types do not have. -/
def VarChar (n : Nat) (s : String) : Prop := s.length ≤ n ∧ Char.ofNat 0 ∉ s.toList

instance (n : Nat) (s : String) : Decidable (VarChar n s) := by
  unfold VarChar; infer_instance

/-- A value of a nullable `VARCHAR(n)` column. -/
def NullableVarChar (n : Nat) (s : Option String) : Prop := ∀ t ∈ s, VarChar n t

instance (n : Nat) (s : Option String) : Decidable (NullableVarChar n s) := by
  unfold NullableVarChar; infer_instance

end AdminPlatform
