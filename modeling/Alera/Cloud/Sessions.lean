/-
# Alera.Cloud.Sessions -- the statements of sessions and sign-in

`cloud/src/auth/sessions.rs`: `insert_family`, `rotate_family_in`,
`revoke_by_refresh_token` and `revoke_family`, with `revoke_grant` of
`mcp_oauth/grants.rs`.  Each is one transaction on the tables; `none` is a
database error, after which the transaction is rolled back.  Uniqueness and
foreign keys are those of the migrations: a primary key or a token hash that
exists already makes the insert fail.

Times are microseconds, which is what the columns hold.  Random bytes and new ids
are arguments.  The digest is a parameter `hash`.
-/
import Alera.Theory.Tables
import Mathlib.Algebra.Ring.Nat
import Mathlib.Tactic.NormNum

namespace Alera.Cloud

open Theory.Tables

set_option autoImplicit false

abbrev Time := Nat

/-- A day of microseconds. -/
def days (n : Nat) : Time := n * (24 * 60 * 60 * 1000000)

/-- `INACTIVITY_DAYS`. -/
def inactivityDays : Nat := 30

/-- `ABSOLUTE_DAYS`. -/
def absoluteDays : Nat := 365

/-! ## Secrets and ids -/

abbrev Secret := List Char

def byteLength (text : Secret) : Nat := (text.map Char.utf8Size).sum

/-- The digits of `URL_SAFE_NO_PAD`. -/
def base64Digit (n : Nat) : Char :=
  "ABCDEFGHIJKLMNOPQRSTUVWXYZabcdefghijklmnopqrstuvwxyz0123456789-_".toList.getD (n % 64) 'A'

def base64Url : List UInt8 → Secret
  | [] => []
  | [a] => [base64Digit (a.toNat / 4), base64Digit (a.toNat * 16)]
  | [a, b] =>
    [base64Digit (a.toNat / 4), base64Digit (a.toNat * 16 + b.toNat / 16),
      base64Digit (b.toNat * 4)]
  | a :: b :: c :: rest =>
    base64Digit (a.toNat / 4) :: base64Digit (a.toNat * 16 + b.toNat / 16) ::
      base64Digit (b.toNat * 4 + c.toNat / 64) :: base64Digit c.toNat :: base64Url rest

/-- The bytes behind a random token. -/
abbrev RandomBytes := { bytes : List UInt8 // bytes.length = 32 }

/-- One byte throughout. -/
def constantBytes (byte : UInt8) : RandomBytes := ⟨List.replicate 32 byte, List.length_replicate⟩

/-- `random_refresh_token`. -/
def randomRefreshToken (random : RandomBytes) : Secret := "art_".toList ++ base64Url random.1

/-- Whether `validate_refresh_token` accepts. -/
def validateRefreshToken (value : Secret) : Bool :=
  !(byteLength value < 40 || byteLength value > 128 || !"art_".toList.isPrefixOf value)

theorem byteLength_append (x y : Secret) : byteLength (x ++ y) = byteLength x + byteLength y := by
  rw [byteLength, List.map_append, List.sum_append]
  rfl

set_option maxRecDepth 2000 in
theorem utf8Size_base64Digit (n : Nat) : (base64Digit n).utf8Size = 1 := by
  have table : ∀ i : Fin 64, (base64Digit i).utf8Size = 1 := by decide
  have entry := table ⟨n % 64, Nat.mod_lt _ (by decide)⟩
  rwa [base64Digit, Nat.mod_mod] at entry

theorem byteLength_base64Url (bytes : List UInt8) :
    byteLength (base64Url bytes) = (4 * bytes.length + 2) / 3 := by
  induction bytes using base64Url.induct with
  | case1 => rfl
  | case2 a | case3 a b => simp [base64Url, byteLength, utf8Size_base64Digit]
  | case4 a b c rest ih =>
    have group : byteLength (base64Url (a :: b :: c :: rest)) = 4 + byteLength (base64Url rest) := by
      simp only [base64Url, byteLength, List.map_cons, List.sum_cons, utf8Size_base64Digit]
      omega
    rw [group, List.length_cons, List.length_cons, List.length_cons]
    omega

/-- A generated token is never refused for its form. -/
theorem validateRefreshToken_random (random : RandomBytes) :
    validateRefreshToken (randomRefreshToken random) = true := by
  have total : byteLength (randomRefreshToken random) = 47 := by
    rw [randomRefreshToken, byteLength_append, byteLength_base64Url, random.2]
    decide
  have start : "art_".toList.isPrefixOf (randomRefreshToken random) = true :=
    List.isPrefixOf_iff_prefix.mpr (List.prefix_append _ _)
  rw [validateRefreshToken, total]
  rfl

structure Uuid where
  value : BitVec 128
  deriving DecidableEq, Repr

/-- The hyphenated form. -/
def Uuid.text (uuid : Uuid) : List Char :=
  let digits := (List.range 32).map fun i => Nat.digitChar (uuid.value.toNat / 16 ^ (31 - i) % 16)
  digits.take 8 ++ '-' :: (digits.drop 8).take 4 ++ '-' :: (digits.drop 12).take 4 ++
    '-' :: (digits.drop 16).take 4 ++ '-' :: digits.drop 20

/-! ## Rows -/

inductive ClientKind where
  | runtime
  | mobile
  | mcp
  deriving DecidableEq, Repr

/-- A row of `refresh_token_families`. -/
structure FamilyRow where
  id : Uuid
  accountId : Uuid
  clientId : List Char
  clientKind : ClientKind
  label : List Char
  authenticatedAt : Time
  createdAt : Time
  lastUsedAt : Time
  absoluteExpiresAt : Time
  revokedAt : Option Time
  revokeReason : Option String
  deriving DecidableEq, Repr

/-- A row of `refresh_tokens`. -/
structure TokenRow (Hash : Type) where
  id : Uuid
  familyId : Uuid
  tokenHash : Hash
  issuedAt : Time
  inactivityExpiresAt : Time
  usedAt : Option Time
  replacedById : Option Uuid
  revokedAt : Option Time
  deriving DecidableEq, Repr

/-- A row of `mcp_grants`, as far as the token endpoint reads it. -/
structure GrantRow where
  id : Uuid
  accountId : Uuid
  clientId : List Char
  clientName : List Char
  scopes : List Char
  createdAt : Time
  revokedAt : Option Time
  revokeReason : Option String
  deriving DecidableEq, Repr

/-- A row of `mcp_authorization_codes`, as far as the token endpoint reads it. -/
structure CodeRow (Hash : Type) where
  codeHash : Hash
  grantId : Uuid
  accountId : Uuid
  clientId : List Char
  redirectUri : List Char
  codeChallenge : List Char
  expiresAt : Time
  usedAt : Option Time
  deriving DecidableEq, Repr

structure Tables (Hash : Type) where
  families : List FamilyRow
  tokens : List (TokenRow Hash)
  grants : List GrantRow
  codes : List (CodeRow Hash)
  deriving DecidableEq, Repr

variable {Hash : Type} [DecidableEq Hash]

/-- `INSERT INTO refresh_token_families`. -/
def Tables.insertFamilyRow (db : Tables Hash) (row : FamilyRow) : Option (Tables Hash) :=
  if db.families.any (·.id = row.id) then none
  else some { db with families := db.families ++ [row] }

/-- `INSERT INTO refresh_tokens`. -/
def Tables.insertTokenRow (db : Tables Hash) (row : TokenRow Hash) : Option (Tables Hash) :=
  if db.tokens.any fun other => other.id = row.id || other.tokenHash = row.tokenHash then none
  else if db.families.any (·.id = row.familyId) then some { db with tokens := db.tokens ++ [row] }
  else none

/-! ## Creating a family -/

/-- What a caller of `insert_family` asks for. -/
structure FamilySpec where
  accountId : Uuid
  clientId : List Char
  clientKind : ClientKind
  label : List Char
  authenticatedAt : Time
  deriving DecidableEq, Repr

/-- `insert_family`; answers the family id and the raw token. -/
def insertFamily (hash : Secret → Hash) (db : Tables Hash) (spec : FamilySpec) (now : Time)
    (familyId tokenId : Uuid) (random : RandomBytes) : Option ((Uuid × Secret) × Tables Hash) := do
  let refreshToken := randomRefreshToken random
  let db ← db.insertFamilyRow
    { id := familyId
      accountId := spec.accountId
      clientId := spec.clientId
      clientKind := spec.clientKind
      label := spec.label
      authenticatedAt := spec.authenticatedAt
      createdAt := now
      lastUsedAt := now
      absoluteExpiresAt := now + days absoluteDays
      revokedAt := none
      revokeReason := none }
  let db ← db.insertTokenRow
    { id := tokenId
      familyId
      tokenHash := hash refreshToken
      issuedAt := now
      inactivityExpiresAt := now + days inactivityDays
      usedAt := none
      replacedById := none
      revokedAt := none }
  return ((familyId, refreshToken), db)

/-! ## Rotation -/

/-- `FamilyKind`: which families an endpoint may rotate. -/
inductive FamilyKind where
  | native
  | mcp
  deriving DecidableEq, Repr

def FamilyKind.of : ClientKind → FamilyKind
  | .mcp => .mcp
  | .runtime | .mobile => .native

/-- `ApiError::unauthorized`. -/
structure ApiError where
  code : String
  message : String
  deriving DecidableEq, Repr

structure RotatedFamily where
  accountId : Uuid
  familyId : Uuid
  clientId : List Char
  clientKind : ClientKind
  authenticatedAt : Time
  refreshToken : Secret
  deriving DecidableEq, Repr

inductive Rotation where
  | rotated (family : RotatedFamily)
  | refused (error : ApiError)
  deriving DecidableEq, Repr

def invalidRefreshToken : ApiError := ⟨"invalid_refresh_token", "The refresh token is invalid."⟩

/-- The join of a token with its family. -/
def Tables.sessionRow (db : Tables Hash) (tokenHash : Hash) : Option (TokenRow Hash × FamilyRow) := do
  let token ← lookup TokenRow.tokenHash tokenHash db.tokens
  let family ← lookup FamilyRow.id token.familyId db.families
  return (token, family)

/-- `SET revoked_at, revoke_reason` on a replay. -/
def FamilyRow.revokeReplay (now : Time) (row : FamilyRow) : FamilyRow :=
  { row with revokedAt := some now, revokeReason := some "refresh_token_replay" }

/-- The refusal of a token that was used, has expired or is revoked; a replay revokes the
family, unless it is revoked. -/
def refuseRotation (db : Tables Hash) (token : TokenRow Hash) (family : FamilyRow) (now : Time) :
    Rotation × Tables Hash :=
  let replayed := token.usedAt.isSome
  let families :=
    if replayed && family.revokedAt.isNone then
      updateWhere db.families (·.id = family.id) (FamilyRow.revokeReplay now)
    else db.families
  let error : ApiError :=
    if replayed then
      ⟨"refresh_token_reuse", "Refresh token reuse revoked the entire session."⟩
    else ⟨"refresh_token_expired", "The account session has expired."⟩
  (.refused error, { db with families })

/-- `SET used_at, replaced_by_id`. -/
def TokenRow.use (now : Time) (replacement : Uuid) (row : TokenRow Hash) : TokenRow Hash :=
  { row with usedAt := some now, replacedById := some replacement }

/-- `SET last_used_at`. -/
def FamilyRow.touch (now : Time) (row : FamilyRow) : FamilyRow := { row with lastUsedAt := now }

/-- The three statements of a rotation that is allowed. -/
def replaceToken (hash : Secret → Hash) (db : Tables Hash) (token : TokenRow Hash)
    (family : FamilyRow) (now : Time) (newTokenId : Uuid) (random : RandomBytes) :
    Option (Rotation × Tables Hash) := do
  let newRefreshToken := randomRefreshToken random
  let db ← db.insertTokenRow
    { id := newTokenId
      familyId := family.id
      tokenHash := hash newRefreshToken
      issuedAt := now
      inactivityExpiresAt := min (now + days inactivityDays) family.absoluteExpiresAt
      usedAt := none
      replacedById := none
      revokedAt := none }
  let tokens := updateWhere db.tokens (·.id = token.id) (TokenRow.use now newTokenId)
  let families := updateWhere db.families (·.id = family.id) (FamilyRow.touch now)
  return (.rotated
    { accountId := family.accountId
      familyId := family.id
      clientId := family.clientId
      clientKind := family.clientKind
      authenticatedAt := family.authenticatedAt
      refreshToken := newRefreshToken }, { db with tokens, families })

/-- `rotate_family_in`. -/
def rotateFamilyIn (hash : Secret → Hash) (db : Tables Hash) (refreshToken : Secret)
    (kind : FamilyKind) (now : Time) (newTokenId : Uuid) (random : RandomBytes) :
    Option (Rotation × Tables Hash) :=
  if !validateRefreshToken refreshToken then some (.refused invalidRefreshToken, db)
  else
    match db.sessionRow (hash refreshToken) with
    | none => some (.refused invalidRefreshToken, db)
    | some (token, family) =>
      let isMcp := family.clientKind = .mcp
      if decide isMcp ≠ decide (kind = .mcp) then some (.refused invalidRefreshToken, db)
      else
        let expired := token.inactivityExpiresAt ≤ now || family.absoluteExpiresAt ≤ now
        if token.usedAt.isSome || expired || family.revokedAt.isSome || token.revokedAt.isSome then
          some (refuseRotation db token family now)
        else replaceToken hash db token family now newTokenId random

/-! ## Revocation -/

/-- `COALESCE` on both columns: a revocation keeps the first time and reason. -/
def FamilyRow.revoke (now : Time) (reason : String) (row : FamilyRow) : FamilyRow :=
  { row with
    revokedAt := row.revokedAt.or (some now)
    revokeReason := row.revokeReason.or (some reason) }

def GrantRow.revoke (now : Time) (reason : String) (row : GrantRow) : GrantRow :=
  { row with
    revokedAt := row.revokedAt.or (some now)
    revokeReason := row.revokeReason.or (some reason) }

/-- `revoke_by_refresh_token`; a malformed token changes nothing. -/
def revokeByRefreshToken (hash : Secret → Hash) (db : Tables Hash) (refreshToken : Secret)
    (now : Time) (reason : String) : Tables Hash :=
  if validateRefreshToken refreshToken then
    { db with
      families := updateWhere db.families
        (fun family => db.tokens.any fun token =>
          token.familyId = family.id && token.tokenHash = hash refreshToken)
        (FamilyRow.revoke now reason) }
  else db

/-- `revoke_family`. -/
def revokeFamily (db : Tables Hash) (familyId : Uuid) (now : Time) (reason : String) : Tables Hash :=
  { db with
    families := updateWhere db.families (·.id = familyId) (FamilyRow.revoke now reason) }

/-- The first statement of `revoke_grant`. -/
def revokeGrantRow (db : Tables Hash) (accountId grantId : Uuid) (now : Time) (reason : String) :
    Tables Hash :=
  { db with
    grants := updateWhere db.grants (fun grant => grant.id = grantId && grant.accountId = accountId)
      (GrantRow.revoke now reason) }

/-- The families issued for a grant. -/
def FamilyRow.belongsTo (family : FamilyRow) (accountId grantId : Uuid) : Bool :=
  family.accountId = accountId && family.clientKind = .mcp && family.clientId = grantId.text

/-- The second statement of `revoke_grant`. -/
def revokeGrantFamilies (db : Tables Hash) (accountId grantId : Uuid) (now : Time)
    (reason : String) : Tables Hash :=
  { db with
    families := updateWhere db.families (·.belongsTo accountId grantId)
      (FamilyRow.revoke now reason) }

/-- `revoke_grant`; answers whether the account owns such a grant. -/
def revokeGrant (db : Tables Hash) (accountId grantId : Uuid) (now : Time) (reason : String) :
    Bool × Tables Hash :=
  (db.grants.any fun grant => grant.id = grantId && grant.accountId = accountId,
    revokeGrantFamilies (revokeGrantRow db accountId grantId now reason) accountId grantId now reason)

/-! ## The statements of device sign-in

`cloud/src/device_auth/mod.rs` and `web.rs`, one definition for each transaction and
each stand-alone statement, over `device_authorizations` and the tables of `Sessions`.

A poll consumes an approved code in one transaction (`poll`) and opens the session in
another, under the lock of the runtime id (`redeemDevice`).  Both judge expiry by the
time the poll began.  `ensure_client` works on other tables; whether it succeeds is an
argument of `submitConfirm`.
-/

/-! ## Text -/

/-- `char::is_whitespace`. -/
def isWhitespace (c : Char) : Bool :=
  (0x9 ≤ c.val && c.val ≤ 0xd) || c.val = 0x20 || c.val = 0x85 || c.val = 0xa0 || c.val = 0x1680 ||
    (0x2000 ≤ c.val && c.val ≤ 0x200a) || c.val = 0x2028 || c.val = 0x2029 || c.val = 0x202f ||
    c.val = 0x205f || c.val = 0x3000

/-- `char::is_control`. -/
def isControl (c : Char) : Bool := c.val < 0x20 || (0x7f ≤ c.val && c.val < 0xa0)

/-- `str::trim`. -/
def trim (text : List Char) : List Char :=
  ((text.dropWhile isWhitespace).reverse.dropWhile isWhitespace).reverse

/-- `validate_new_client_id`, with the check of `validate_identifier`. -/
def validateNewClientId (value : List Char) : Option ApiError :=
  if value.isEmpty || byteLength value > 128 || value.any isControl then
    some ⟨"invalid_identifier", "clientId is invalid."⟩
  else if value.head? = some '~' then
    some ⟨"reserved_client_id", "Client ids starting with ~ are reserved."⟩
  else none

/-- `validate_label` for the device name. -/
def validateDeviceName (value : List Char) : Option ApiError :=
  if (trim value).isEmpty || byteLength value > 160 || value.any isControl then
    some ⟨"invalid_label", "deviceName is invalid."⟩
  else none

/-! ## Rows -/

inductive DeviceStatus where
  | pending
  | approved
  | denied
  | consumed
  deriving DecidableEq, Repr

/-- A row of `device_authorizations`. -/
structure DeviceRow (Hash : Type) where
  id : Uuid
  deviceCodeHash : Hash
  userCode : List Char
  clientId : List Char
  deviceName : List Char
  accountId : Option Uuid
  consentTokenHash : Option Hash
  status : DeviceStatus
  pollIntervalSeconds : Int
  createdAt : Time
  approvedAt : Option Time
  lastPolledAt : Option Time
  expiresAt : Time
  deriving DecidableEq, Repr

/-- `n` seconds of microseconds. -/
def seconds (n : Nat) : Time := n * 1000000

/-- `DEVICE_CODE_SECONDS`. -/
def deviceCodeSeconds : Nat := 600

/-- `random_secret("adc_")`. -/
def randomDeviceCode (random : RandomBytes) : Secret := "adc_".toList ++ base64Url random.1

/-- `random_secret("act_")`. -/
def randomConsentToken (random : RandomBytes) : Secret := "act_".toList ++ base64Url random.1

/-- `generate_user_code`, on the bytes it draws. -/
def generateUserCode (bytes : List UInt8) : List Char :=
  bytes.map fun byte =>
    "ABCDEFGHJKLMNPQRSTUVWXYZ23456789".toList.getD (byte &&& 31).toNat 'A'

/-! ## Starting -/

/-- `runtime_signed_in`. -/
def runtimeSignedIn (db : Tables Hash) (clientId : List Char) (now : Time) : Bool :=
  db.families.any fun family =>
    family.clientKind = .runtime && family.clientId = clientId && family.revokedAt.isNone &&
      decide (now < family.absoluteExpiresAt) && db.tokens.any fun token =>
        token.familyId = family.id && token.usedAt.isNone && token.revokedAt.isNone &&
          decide (now < token.inactivityExpiresAt)

/-- Why `start` refuses. -/
def startFailure (db : Tables Hash) (clientKind : ClientKind) (clientId deviceName : List Char)
    (now : Time) : Option ApiError :=
  if clientKind ≠ .runtime then
    some ⟨"invalid_client_kind", "Device sign-in is available only to runtimes."⟩
  else
    (validateNewClientId clientId).or ((validateDeviceName deviceName).or
      (if runtimeSignedIn db clientId now then
        some ⟨"runtime_already_signed_in",
          "This runtime is already signed in. Sign it out first, then try again."⟩
      else none))

/-- `INSERT INTO device_authorizations`; `none` is a unique violation. -/
def insertDevice (hash : Secret → Hash) (devices : List (DeviceRow Hash)) (deviceId : Uuid)
    (deviceCode : Secret) (userCode clientId deviceName : List Char) (now : Time) :
    Option (List (DeviceRow Hash)) :=
  if devices.any fun device =>
      device.id = deviceId || device.deviceCodeHash = hash deviceCode || device.userCode = userCode
  then none
  else
    some (devices ++
      [{ id := deviceId
         deviceCodeHash := hash deviceCode
         userCode
         clientId
         deviceName := trim deviceName
         accountId := none
         consentTokenHash := none
         status := .pending
         pollIntervalSeconds := 5
         createdAt := now
         approvedAt := none
         lastPolledAt := none
         expiresAt := now + seconds deviceCodeSeconds }])

/-! ## Confirming -/

def DeviceRow.bind (accountId : Uuid) (consentTokenHash : Hash) (row : DeviceRow Hash) :
    DeviceRow Hash :=
  { row with accountId := some accountId, consentTokenHash := some consentTokenHash }

/-- The statement of `begin_confirm`; `none` when it updates no row. -/
def beginConfirm (hash : Secret → Hash) (devices : List (DeviceRow Hash)) (deviceId accountId : Uuid)
    (consentToken : Secret) (now : Time) : Option (List (DeviceRow Hash)) :=
  let selects := fun device : DeviceRow Hash =>
    device.id = deviceId && device.status = .pending && decide (now < device.expiresAt)
  if devices.any selects then
    some (updateWhere devices selects (DeviceRow.bind accountId (hash consentToken)))
  else none

def DeviceRow.settle (status : DeviceStatus) (approvedAt : Option Time) (row : DeviceRow Hash) :
    DeviceRow Hash :=
  { row with status, approvedAt, consentTokenHash := none }

/-- `set_status`. -/
def setStatus (devices : List (DeviceRow Hash)) (deviceId : Uuid) (status : DeviceStatus)
    (approvedAt : Option Time) : List (DeviceRow Hash) :=
  updateWhere devices (·.id = deviceId) (DeviceRow.settle status approvedAt)

/-- How the transaction of `submit_confirm` ends. -/
inductive Submission where
  | expired
  | denied
  /-- `ensure_client` failed; the denial follows in a transaction of its own. -/
  | clientRefused
  | approved
  deriving DecidableEq, Repr

/-- The transaction of `submit_confirm`. -/
def submitConfirm (hash : Secret → Hash) (devices : List (DeviceRow Hash)) (deviceId : Uuid)
    (consentToken : Secret) (approve ensured : Bool) (now : Time) :
    Submission × List (DeviceRow Hash) :=
  match lookup DeviceRow.id deviceId devices with
  | none => (.expired, devices)
  | some row =>
    let tokenMatches := row.consentTokenHash = some (hash consentToken)
    if row.accountId.isNone then (.expired, devices)
    else if !decide tokenMatches || row.status ≠ .pending || decide (row.expiresAt ≤ now) then
      (.expired, devices)
    else if !approve then (.denied, setStatus devices deviceId .denied none)
    else if !ensured then (.clientRefused, devices)
    else (.approved, setStatus devices deviceId .approved (some now))

/-! ## Polling -/

/-- `SET last_polled_at, status, consent_token_hash`. -/
def DeviceRow.polled (now : Time) (nextStatus : DeviceStatus) (row : DeviceRow Hash) :
    DeviceRow Hash :=
  { row with
    lastPolledAt := some now
    status := nextStatus
    consentTokenHash := if nextStatus = .pending then row.consentTokenHash else none }

/-- The answer to a poll, or the row and account to redeem. -/
inductive Poll (Hash : Type) where
  | refused (error : ApiError)
  | redeems (row : DeviceRow Hash) (accountId : Uuid)

/-- The answer for the row the poll read. -/
def pollAnswer (row : DeviceRow Hash) (now : Time) : Poll Hash :=
  let tooFast := row.lastPolledAt.any fun polled =>
    decide ((now : Int) - polled < (row.pollIntervalSeconds - 1) * 1000000)
  match row.status, row.accountId with
  | .denied, _ => .refused ⟨"access_denied", "The sign-in request was denied."⟩
  | .consumed, _ => .refused ⟨"expired_token", "The device code was already used."⟩
  | status, account =>
    if row.expiresAt ≤ now then .refused ⟨"expired_token", "The device code expired."⟩
    else
      match status, account with
      | .approved, some accountId => .redeems row accountId
      | _, _ =>
        if tooFast then .refused ⟨"slow_down", "Poll the token endpoint less often."⟩
        else .refused ⟨"authorization_pending", "The sign-in has not been approved yet."⟩

/-- The first transaction of `token`. -/
def poll (hash : Secret → Hash) (devices : List (DeviceRow Hash)) (deviceCode : Secret) (now : Time) :
    Poll Hash × List (DeviceRow Hash) :=
  let invalid : ApiError := ⟨"invalid_device_code", "The device code is invalid."⟩
  if !"adc_".toList.isPrefixOf deviceCode || byteLength deviceCode > 128 then
    (.refused invalid, devices)
  else
    match lookup DeviceRow.deviceCodeHash (hash deviceCode) devices with
    | none => (.refused invalid, devices)
    | some row =>
      let nextStatus :=
        if row.status = .approved && row.accountId.isSome && !decide (row.expiresAt ≤ now) then
          .consumed
        else row.status
      (pollAnswer row now,
        updateWhere devices (·.deviceCodeHash = hash deviceCode) (DeviceRow.polled now nextStatus))

/-- The second transaction of `token`: the check under the lock of the runtime id, then the
session.  `now` is the time the poll began and `moment` the time of the insert; `none` when the
runtime is signed in. -/
def redeemDevice (hash : Secret → Hash) (db : Tables Hash) (row : DeviceRow Hash) (accountId : Uuid)
    (now moment : Time) (familyId tokenId : Uuid) (random : RandomBytes) : Option (Tables Hash) :=
  if runtimeSignedIn db row.clientId now then none
  else
    (insertFamily hash db
      ⟨accountId, row.clientId, .runtime, row.deviceName, row.approvedAt.getD now⟩ moment familyId
      tokenId random).map Prod.snd

/-! ## The token endpoint of MCP clients

`cloud/src/mcp_oauth/token.rs` and `grants.rs`, one definition for each
transaction and each stand-alone statement, over the tables of `Sessions`.

A code is redeemed in two transactions: `consumeCode` marks it used and answers the
row it read, the checks of `redemptionFailure` judge that row, and `createFamily`
opens the family later.  A refresh looks its grant up first (`refreshGrant`) and does
the rest in one transaction (`refreshIn`).  A client revokes outside of any
transaction, by the two statements of `revoke_grant` one after the other.

Client authentication, whether the account is active, verified access tokens and
`Uuid::parse_str` are answers the caller supplies.  `pkceChallenge` is the digest of a
code verifier.
-/

/-! ## Ids as text -/

theorem digitChar_injOn {m n : Nat} (hm : m < 16) (hn : n < 16)
    (same : Nat.digitChar m = Nat.digitChar n) : m = n := by
  have table : ∀ i j : Fin 16, Nat.digitChar i = Nat.digitChar j → i = j := by decide
  exact congrArg Fin.val (table ⟨m, hm⟩ ⟨n, hn⟩ same)

/-- The hexadecimal digits up to a place determine a number below it. -/
theorem mod_pow_eq_of_digits {a b : Nat} (places : Nat)
    (same : ∀ i < places, a / 16 ^ i % 16 = b / 16 ^ i % 16) : a % 16 ^ places = b % 16 ^ places := by
  induction places with
  | zero => rw [pow_zero, Nat.mod_one, Nat.mod_one]
  | succ places ih =>
    rw [Nat.mod_pow_succ, Nat.mod_pow_succ, same places (Nat.lt_succ_self places),
      ih fun i small => same i (Nat.lt_succ_of_lt small)]

/-- The digits can be read back: the hyphens stand at fixed places. -/
theorem Uuid.text_injective : Function.Injective Uuid.text := by
  intro first second same
  let digits (uuid : Uuid) : List Char :=
    (List.range 32).map fun i => Nat.digitChar (uuid.value.toNat / 16 ^ (31 - i) % 16)
  have unhyphen : ∀ uuid : Uuid, digits uuid = uuid.text.take 8 ++ (uuid.text.drop 9).take 4 ++
      (uuid.text.drop 14).take 4 ++ (uuid.text.drop 19).take 4 ++ uuid.text.drop 24 :=
    fun uuid => rfl
  have digitsEq : digits first = digits second := by rw [unhyphen, unhyphen, same]
  have places : ∀ i < 32, first.value.toNat / 16 ^ i % 16 = second.value.toNat / 16 ^ i % 16 := by
    intro i small
    have entry := List.map_inj_left.mp digitsEq (31 - i) (List.mem_range.mpr (by omega))
    have place : 31 - (31 - i) = i := by omega
    rw [place] at entry
    exact digitChar_injOn (Nat.mod_lt _ (by decide)) (Nat.mod_lt _ (by decide)) entry
  have values := mod_pow_eq_of_digits 32 places
  have size : 16 ^ 32 = 2 ^ 128 := by norm_num
  rw [size, Nat.mod_eq_of_lt first.value.isLt, Nat.mod_eq_of_lt second.value.isLt] at values
  exact congrArg Uuid.mk (BitVec.eq_of_toNat_eq values)

/-- The body of an OAuth refusal. -/
structure OAuthError where
  error : String
  description : String
  deriving DecidableEq, Repr

def OAuthError.invalidGrant (description : String) : OAuthError := ⟨"invalid_grant", description⟩

/-! ## Grants -/

/-- A minute of microseconds, `n` times. -/
def minutes (n : Nat) : Time := n * (60 * 1000000)

/-- `AUTHORIZATION_CODE_MINUTES`. -/
def authorizationCodeMinutes : Nat := 5

/-- `GrantSpec`, as far as the token endpoint reads it again. -/
structure GrantSpec where
  accountId : Uuid
  clientId : List Char
  clientName : List Char
  redirectUri : List Char
  codeChallenge : List Char
  scopes : List Char
  deriving DecidableEq, Repr

/-- `random_secret("amc_")`. -/
def randomCode (random : RandomBytes) : Secret := "amc_".toList ++ base64Url random.1

/-- `create_grant_with_code`; answers the code. -/
def createGrantWithCode (hash : Secret → Hash) (db : Tables Hash) (spec : GrantSpec) (now : Time)
    (grantId : Uuid) (random : RandomBytes) : Option (Secret × Tables Hash) :=
  let code := randomCode random
  if db.grants.any (·.id = grantId) || db.codes.any (·.codeHash = hash code) then none
  else
    some (code,
      { db with
        grants := db.grants ++
          [{ id := grantId
             accountId := spec.accountId
             clientId := spec.clientId
             clientName := spec.clientName
             scopes := spec.scopes
             createdAt := now
             revokedAt := none
             revokeReason := none }]
        codes := db.codes ++
          [{ codeHash := hash code
             grantId
             accountId := spec.accountId
             clientId := spec.clientId
             redirectUri := spec.redirectUri
             codeChallenge := spec.codeChallenge
             expiresAt := now + minutes authorizationCodeMinutes
             usedAt := none }] })

/-! ## Redeeming a code -/

/-- The join of a code with its grant. -/
def Tables.codeRow (db : Tables Hash) (codeHash : Hash) : Option (CodeRow Hash × GrantRow) := do
  let code ← lookup CodeRow.codeHash codeHash db.codes
  let grant ← lookup GrantRow.id code.grantId db.grants
  return (code, grant)

def CodeRow.use (now : Time) (row : CodeRow Hash) : CodeRow Hash := { row with usedAt := some now }

/-- The first transaction of `authorization_code`.  Another client's code is left alone, a
replay revokes the grant, and any other redemption consumes the code. -/
def consumeCode (hash : Secret → Hash) (db : Tables Hash) (code : Secret) (clientId : List Char)
    (now revokedAt : Time) : Except OAuthError (CodeRow Hash × GrantRow) × Tables Hash :=
  match db.codeRow (hash code) with
  | none => (.error (.invalidGrant "The authorization code is invalid."), db)
  | some (row, grant) =>
    if row.clientId ≠ clientId then
      (.error (.invalidGrant "The authorization code was issued to another client."), db)
    else if row.usedAt.isSome then
      (.error (.invalidGrant "The authorization code was already used."),
        (revokeGrant db row.accountId row.grantId revokedAt "authorization_code_replay").2)
    else
      (.ok (row, grant),
        { db with codes := updateWhere db.codes (·.codeHash = hash code) (CodeRow.use now) })

/-- Whether `validate_code_verifier` accepts. -/
def validateCodeVerifier (value : Secret) : Bool :=
  (43 ≤ byteLength value && byteLength value ≤ 128) &&
    value.all fun c => c.isAlphanum || "-._~".toList.contains c

/-- Why a consumed code is not honoured, on the row its transaction read. -/
def redemptionFailure (pkceChallenge : Secret → List Char) (row : CodeRow Hash) (grant : GrantRow)
    (accountActive : Bool) (redirectUri : Option (List Char)) (verifier : Secret) (now : Time) :
    Option String :=
  let challengeMatches := validateCodeVerifier verifier && pkceChallenge verifier = row.codeChallenge
  if row.expiresAt ≤ now then some "The authorization code expired."
  else if redirectUri.any (· ≠ row.redirectUri) then
    some "The redirect_uri does not match the authorization request."
  else if !challengeMatches then some "The PKCE code verifier does not match."
  else if grant.revokedAt.isSome || !accountActive then some "The authorization was revoked."
  else none

/-- `create_family` for a redeemed code. -/
def createFamily (hash : Secret → Hash) (db : Tables Hash) (row : CodeRow Hash) (grant : GrantRow)
    (now : Time) (familyId tokenId : Uuid) (random : RandomBytes) :
    Option ((Uuid × Secret) × Tables Hash) :=
  insertFamily hash db ⟨row.accountId, row.grantId.text, .mcp, grant.clientName, grant.createdAt⟩
    now familyId tokenId random

/-- `McpAccessInput`: what an access token is issued for. -/
structure McpAccessInput where
  accountId : Uuid
  familyId : Uuid
  clientId : List Char
  grantId : Uuid
  scope : List Char
  authenticatedAt : Time
  deriving DecidableEq, Repr

/-! ## Refreshing -/

/-- The grant a refresh token belongs to, and its client. -/
def refreshGrant (hash : Secret → Hash) (db : Tables Hash) (refreshToken : Secret) :
    Option (Uuid × List Char) := do
  guard (validateRefreshToken refreshToken)
  let (_, family) ← db.sessionRow (hash refreshToken)
  if family.clientKind = .mcp then
    let grant ← db.grants.find? fun grant =>
      grant.id.text = family.clientId && grant.accountId = family.accountId
    return (grant.id, grant.clientId)
  else none

/-- The grant check of a refresh. -/
def Tables.liveGrant (db : Tables Hash) (accountId grantId : Uuid) (accountActive : Bool) :
    Option GrantRow :=
  if accountActive then
    db.grants.find? fun grant =>
      grant.id = grantId && grant.accountId = accountId && grant.revokedAt.isNone
  else none

/-- The transaction of `refresh`: rotation, grant check and signing together. -/
def refreshIn (hash : Secret → Hash) (db : Tables Hash) (refreshToken : Secret) (grantId : Uuid)
    (clientId : List Char) (accountActive : Bool) (now revokedAt : Time) (newTokenId : Uuid)
    (random : RandomBytes) : Option (Except OAuthError McpAccessInput × Tables Hash) := do
  let (rotation, db) ← rotateFamilyIn hash db refreshToken .mcp now newTokenId random
  match rotation with
  | .refused _ => return (.error (.invalidGrant "The refresh token is invalid."), db)
  | .rotated rotated =>
    match db.liveGrant rotated.accountId grantId accountActive with
    | none =>
      return (.error (.invalidGrant "The authorization was revoked."),
        (revokeGrant db rotated.accountId grantId revokedAt "grant_revoked").2)
    | some grant =>
      return (.ok
        { accountId := rotated.accountId
          familyId := rotated.familyId
          clientId
          grantId
          scope := grant.scopes
          authenticatedAt := grant.createdAt }, db)

/-! ## Revocation by the client -/

/-- What `revoke_token` finds for a refresh token: its account, and its grant as text. -/
def revocationTarget (hash : Secret → Hash) (db : Tables Hash) (token : Secret) :
    Option (Uuid × List Char) := do
  guard (validateRefreshToken token)
  let (_, family) ← db.sessionRow (hash token)
  if family.clientKind = .mcp then return (family.accountId, family.clientId) else none

end Alera.Cloud
