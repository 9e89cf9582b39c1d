import AdminPlatform.Lib.Entity
import AdminPlatform.Lib.Json.Basic

/-! # Errors

The domain errors services raise (`app/exceptions/exceptions.py`), each with its status, its
stable result code, its message and the data it carries to the client.

`Failure` is whatever can end a request early: a domain error, or one of the errors of the
layers below, which the platform has no name of its own for. -/

namespace AdminPlatform
open AdminPlatform.Lib

inductive AppError
  | authentication
  | invalidCredentials
  | accountLocked
  | permissionDenied
  | accountInactive
  | userNotFound
  | roleNotFound
  | screenNotFound
  | emailExists
  | lastAdmin
  | roleNameExists
  | screenCodeExists
  | protectedResource
  | exportNotFound
  | exportExpired
  | exportTooLarge (rowCount maxRows : Nat)
  | invalidOtp
  | otpThrottled
  | passwordReuse
  | passwordResetFailed
  | validation (errors : List (String × String))
  deriving DecidableEq, Repr

namespace AppError

def statusCode : AppError → Nat
  | authentication | invalidCredentials | accountLocked => 401
  | permissionDenied | accountInactive => 403
  | userNotFound | roleNotFound | screenNotFound | exportNotFound => 404
  | emailExists | lastAdmin | roleNameExists | screenCodeExists | protectedResource => 409
  | exportExpired => 410
  | exportTooLarge _ _ => 413
  | validation _ => 422
  | otpThrottled => 429
  | invalidOtp | passwordReuse | passwordResetFailed => 400

def code : AppError → String
  | authentication => "E_401_NOT_AUTHENTICATED"
  | invalidCredentials => "E_401_AUTH_INVALID_CREDENTIALS"
  | accountLocked => "E_401_AUTH_ACCOUNT_LOCKED"
  | permissionDenied => "E_403_FORBIDDEN"
  | accountInactive => "E_403_AUTH_ACCOUNT_INACTIVE"
  | userNotFound => "E_404_USR_NOT_FOUND"
  | roleNotFound => "E_404_ROL_NOT_FOUND"
  | screenNotFound => "E_404_SCR_NOT_FOUND"
  | emailExists => "E_409_USR_EMAIL_EXISTS"
  | lastAdmin => "E_409_USR_LAST_ADMIN"
  | roleNameExists => "E_409_ROL_NAME_EXISTS"
  | screenCodeExists => "E_409_SCR_CODE_EXISTS"
  | protectedResource => "E_409_PROTECTED_RESOURCE"
  | exportNotFound => "E_404_EXPORT_NOT_FOUND"
  | exportExpired => "E_410_EXPORT_EXPIRED"
  | exportTooLarge _ _ => "E_413_EXPORT_TOO_LARGE"
  | invalidOtp => "E_400_AUTH_INVALID_OTP"
  | otpThrottled => "E_429_AUTH_OTP_THROTTLED"
  | passwordReuse => "E_400_AUTH_PASSWORD_REUSED"
  | passwordResetFailed => "E_400_AUTH_PASSWORD_RESET_FAILED"
  | validation _ => "E_422_VALIDATION_FAILED"

def message : AppError → String
  | authentication => "Your session has expired. Please login again."
  | invalidCredentials => "Invalid user credentials."
  | accountLocked =>
      "Your account has been temporarily locked. Please try again after 15 minutes"
  | permissionDenied => "You do not have permission to perform this action"
  | accountInactive => "User did not authorise to access the Admin Portal."
  | userNotFound => "User not found"
  | roleNotFound => "Role not found"
  | screenNotFound => "Screen not found"
  | emailExists => "Email is already registered"
  | lastAdmin => "Cannot deactivate the last active platform admin"
  | roleNameExists => "Role name already exists"
  | screenCodeExists => "Screen code already exists"
  | protectedResource => "This resource is protected and cannot be deleted or deactivated"
  | exportNotFound => "Export not found"
  | exportExpired => "The export link has expired. Please create a new export"
  | exportTooLarge _ _ =>
      "The export exceeds the maximum of 100,000 records. Narrow the filters and try again"
  | invalidOtp => "Invalid or expired OTP"
  | otpThrottled => "Too many OTP requests. Please try again later."
  | passwordReuse => "New password must not match a previous password"
  | passwordResetFailed => "Unable to reset password"
  | validation _ => "Validation failed"

/-- `field_errors`: (field, issue) pairs as the `data.errors` payload. -/
def fieldErrors (errors : List (String × String)) : Json :=
  .obj [("errors",
    .arr (errors.map fun e => .obj [("field", .str e.1), ("issue", .str e.2)]))]

/-- The data of an error, `null` where it has none. -/
def data : AppError → Json
  | emailExists => fieldErrors [("email", emailExists.message)]
  | roleNameExists => fieldErrors [("name", roleNameExists.message)]
  | screenCodeExists => fieldErrors [("code", screenCodeExists.message)]
  | exportTooLarge rowCount maxRows =>
      .obj [("row_count", .int rowCount), ("max_rows", .int maxRows)]
  | validation errors => fieldErrors errors
  | _ => .null

/-- Every result code begins with its status. -/
theorem statusCode_prefix (e : AppError) :
    ("E_" ++ toString e.statusCode ++ "_").toList <+: e.code.toList := by
  cases e with
  | exportTooLarge _ _ =>
      show ("E_" ++ toString 413 ++ "_").toList <+: "E_413_EXPORT_TOO_LARGE".toList
      exact ⟨_, rfl⟩
  | validation _ =>
      show ("E_" ++ toString 422 ++ "_").toList <+: "E_422_VALIDATION_FAILED".toList
      exact ⟨_, rfl⟩
  | _ => exact ⟨_, rfl⟩

end AppError

/-- What can end a request early. -/
inductive Failure
  | app (e : AppError)
  | database (e : DbError)
  /-- A token the platform has just made does not decode. -/
  | jwt
  /-- `ValueError` of the language itself. -/
  | value
  /-- `IllegalCharacterError`: a text that no cell of a spreadsheet can hold. -/
  | illegalCharacter
  deriving DecidableEq, Repr

end AdminPlatform
