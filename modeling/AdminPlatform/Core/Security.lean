import AdminPlatform.Lib.Instant
import AdminPlatform.Lib.Json.Basic
import AdminPlatform.Lib.Uuid

/-! # Settings, passwords and tokens

The settings the services read (`app/core/config.py`), the hashing of passwords and the
making and decoding of tokens (`app/core/security.py`).

bcrypt and the signature of a token are not computed. `Bcrypt` is a parameter of whatever
hashes or verifies. A signature cannot be forged, so what a client presents is either a
payload the platform signed, as `EncodedToken.signed`, or a text that does not decode. -/

namespace AdminPlatform
open AdminPlatform.Lib

structure Settings where
  accessTokenExpireMinutes : Nat := 20
  refreshTokenExpireDays : Nat := 7
  maxFailedLoginAttempts : Nat := 5
  lockoutMinutes : Nat := 15
  otpExpiryMinutes : Nat := 10
  otpMaxRequestsPerWindow : Nat := 3
  otpThrottleWindowMinutes : Nat := 15
  passwordHistoryDepth : Nat := 3
  exportDir : String := "exports"
  exportLinkTtlHours : Nat := 24
  exportMaxRows : Nat := 100000
  exportStreamChunkSize : Nat := 1000

/-! ## Passwords -/

/-- `bcrypt.hashpw` (password and salt) and `bcrypt.checkpw` (password and hash). -/
structure Bcrypt where
  hashpw : List UInt8 → String → String
  checkpw : List UInt8 → String → Bool

def bcryptMaxBytes : Nat := 72

/-- Encode and truncate to bcrypt's limit. -/
def truncate (password : String) : List UInt8 :=
  password.toByteArray.data.toList.take bcryptMaxBytes

def Bcrypt.hashPassword (b : Bcrypt) (salt password : String) : String :=
  b.hashpw (truncate password) salt

def Bcrypt.verifyPassword (b : Bcrypt) (plain hashed : String) : Bool :=
  b.checkpw (truncate plain) hashed

/-- A cell as openpyxl stores it: a value, a formula, or one of the error values of Excel. -/
inductive StoredCell
  | plain (value : Json)
  | formula (text : String)
  | error (code : String)

/-- What is fixed for a deployment: its settings, bcrypt, the `ILIKE` of its database (pattern
and text), whose case folding is that of the database's locale, and how openpyxl binds a value
to a cell, `none` where it raises `IllegalCharacterError`. -/
structure Env where
  settings : Settings
  bcrypt : Bcrypt
  ilike : String → String → Bool
  openpyxl : Json → Option StoredCell

/-! ## Tokens -/

/-- The extra claims of an access token. -/
structure AccessClaims where
  rjti : String
  rexp : Nat
  email : String
  username : String
  roles : List String
  permissions : List String
  deriving DecidableEq, Repr

/-- The payload of a token. `userId` is the `user_id` claim as `uuid.UUID` reads it, `none`
where that raises; `exp` is in seconds. -/
structure TokenPayload where
  userId : Option Uuid
  jti : String
  exp : Nat
  type : String
  extra : Option AccessClaims
  deriving DecidableEq, Repr

/-- `payload.get("rjti")`. -/
def TokenPayload.rjti (p : TokenPayload) : Option String := p.extra.map AccessClaims.rjti

/-- A text a client presents as a token. -/
inductive EncodedToken
  | signed (payload : TokenPayload)
  | foreign (text : String)
  deriving DecidableEq, Repr

def createToken (now : Instant) (jti : Uuid) (subject : Uuid) (tokenType : String)
    (expiresDelta : Nat) (extraClaims : Option AccessClaims) : EncodedToken :=
  .signed
    { userId := some subject
      jti := jti.str
      exp := (now + expiresDelta).timestamp
      type := tokenType
      extra := extraClaims }

/-- A token has expired once its `exp` lies before the current second. -/
def TokenPayload.expired (p : TokenPayload) (now : Instant) : Bool := p.exp < now.timestamp

/-- `decode_token`, `none` where it raises `JWTError`. -/
def decodeToken (now : Instant) : EncodedToken → Option TokenPayload
  | .signed payload => if payload.expired now then none else some payload
  | .foreign _ => none

def createRefreshToken (settings : Settings) (now : Instant) (jti : Uuid) (subject : Uuid) :
    EncodedToken :=
  createToken now jti subject "refresh" (Instant.days settings.refreshTokenExpireDays) none

/-- An access token bound to the session of its sibling refresh token; `none` where that
does not decode. -/
def createAccessToken (settings : Settings) (now : Instant) (jti : Uuid) (subject : Uuid)
    (refreshToken : EncodedToken) (permissions : List String) (email username : String)
    (roles : List String) : Option EncodedToken := do
  let refreshPayload ← decodeToken now refreshToken
  return createToken now jti subject "access" (Instant.minutes settings.accessTokenExpireMinutes)
    (some
      { rjti := refreshPayload.jti, rexp := refreshPayload.exp, email := email
        username := username, roles := roles, permissions := permissions })

theorem decodeToken_eq_some {now : Instant} {token : EncodedToken} {payload : TokenPayload} :
    decodeToken now token = some payload ↔
      token = .signed payload ∧ payload.expired now = false := by
  cases token with
  | signed p =>
      simp only [decodeToken, EncodedToken.signed.injEq]
      constructor
      · intro h
        split at h
        · cases h
        · rename_i hlive
          obtain rfl := Option.some.inj h
          exact ⟨rfl, by simpa using hlive⟩
      · rintro ⟨rfl, h⟩
        rw [h]
        rfl
  | foreign text => simp [decodeToken]

/-- A token just made has not expired. -/
theorem decodeToken_createToken (now : Instant) (jti subject : Uuid) (tokenType : String)
    (expiresDelta : Nat) (extraClaims : Option AccessClaims) :
    decodeToken now (createToken now jti subject tokenType expiresDelta extraClaims) =
      some
        { userId := some subject, jti := jti.str, exp := (now + expiresDelta).timestamp
          type := tokenType, extra := extraClaims } := by
  rw [createToken, decodeToken_eq_some]
  refine ⟨rfl, ?_⟩
  have hle : now.timestamp ≤ (now + expiresDelta).timestamp :=
    Nat.div_le_div_right (Nat.le_add_right _ _)
  simpa [TokenPayload.expired] using hle

end AdminPlatform
