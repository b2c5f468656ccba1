/-
# Alera.Cloud.DeviceSignIn -- a device code is redeemed once, by the account that approved it

Runs of device sign-in in which any number of starts, confirmation pages, submissions
and polls interleave, one transaction or stand-alone statement a step, together with
whatever else happens to sessions (`Transaction`).  The history notes the pages that
were shown, the approvals and denials, and the sessions that were opened, in order.

What a step can do to the authorizations is said once (`Moves`).  An authorization is
followed through its states by `Tracked`: pending, its account and consent token come
from one page; approved, that page's token approved it before any denial and before it
expired; denied or consumed, it never comes back.
-/
import Alera.Cloud.SessionRotation

namespace Alera.Cloud

open Theory List Theory.Tables
open Function (update update_of_ne update_self)

set_option autoImplicit false

/-! ## Runs -/

/-- A request between two of its steps. -/
inductive DeviceRequest (Hash : Type) where
  /-- `start` passed its checks and draws user codes. -/
  | starting (clientId deviceName : List Char) (deviceCode : Secret) (now : Time) (attempts : Nat)
  /-- `ensure_client` failed in a submission. -/
  | denying (deviceId : Uuid)
  /-- A poll consumed the code. -/
  | redeeming (row : DeviceRow Hash) (accountId : Uuid) (now : Time)

inductive DeviceNote (Hash : Type) where
  | page (deviceId accountId : Uuid) (consentToken : Secret)
  | approved (deviceId : Uuid) (consentToken : Secret) (now : Time)
  | denied (deviceId : Uuid)
  | session (deviceCodeHash : Hash) (accountId : Uuid) (clientId : List Char) (familyId : Uuid)
  deriving DecidableEq

/-- The authorization a note is about; sessions are noted by their code. -/
def DeviceNote.device {Hash : Type} : DeviceNote Hash → Option Uuid
  | .page deviceId _ _ => some deviceId
  | .approved deviceId _ _ => some deviceId
  | .denied deviceId => some deviceId
  | .session _ _ _ _ => none

/-- The code a session was opened for. -/
def DeviceNote.code {Hash : Type} : DeviceNote Hash → Option Hash
  | .session deviceCodeHash _ _ _ => some deviceCodeHash
  | _ => none

structure DeviceSignIn (Hash : Type) where
  db : Tables Hash
  devices : List (DeviceRow Hash)
  requests : Nat → Option (DeviceRequest Hash)
  notes : List (DeviceNote Hash)

inductive DeviceEvent where
  | start (request : Nat) (clientKind : ClientKind) (clientId deviceName : List Char)
      (checkedAt : Time) (random : RandomBytes) (now : Time)
  | insertDevice (request : Nat) (deviceId : Uuid) (userCode : List UInt8)
  | beginConfirm (deviceId accountId : Uuid) (random : RandomBytes) (now : Time)
  | submitConfirm (request : Nat) (deviceId : Uuid) (consentToken : Secret)
      (approve ensured : Bool) (now : Time)
  /-- The second transaction of a submission whose client was refused. -/
  | denyRefused (request : Nat)
  | poll (request : Nat) (deviceCode : Secret) (now : Time)
  /-- The second transaction of a poll, `elapsed` after it began. -/
  | createSession (request : Nat) (elapsed : Time) (familyId tokenId : Uuid) (random : RandomBytes)
  /-- Sign-ins elsewhere, rotations and revocations. -/
  | other (transaction : Transaction)
  /-- The request failed or was dropped. -/
  | abandon (request : Nat)

namespace DeviceSignIn

variable {Hash : Type}

def empty : DeviceSignIn Hash := ⟨⟨[], [], [], []⟩, [], fun _ => none, []⟩

def put (s : DeviceSignIn Hash) (id : Nat) (request : Option (DeviceRequest Hash)) :
    DeviceSignIn Hash :=
  { s with requests := update s.requests id request }

variable [DecidableEq Hash]

def step (hash : Secret → Hash) (s : DeviceSignIn Hash) : DeviceEvent → Option (DeviceSignIn Hash)
  | .start id clientKind clientId deviceName checkedAt random now =>
    if (s.requests id).isSome then none
    else if (startFailure s.db clientKind clientId deviceName checkedAt).isSome then some s
    else
      some (s.put id (some (.starting clientId deviceName (randomDeviceCode random) now 0)))
  | .insertDevice id deviceId userCode =>
    match s.requests id with
    | some (.starting clientId deviceName deviceCode now attempts) =>
      match Cloud.insertDevice hash s.devices deviceId deviceCode (generateUserCode userCode)
          clientId deviceName now with
      | some devices => some { s.put id none with devices }
      | none =>
        if attempts + 1 < 3 then
          some (s.put id (some (.starting clientId deviceName deviceCode now (attempts + 1))))
        else some (s.put id none)
    | _ => none
  | .beginConfirm deviceId accountId random now =>
    match Cloud.beginConfirm hash s.devices deviceId accountId (randomConsentToken random) now with
    | none => some s
    | some devices =>
      some { s with
        devices, notes := s.notes ++ [.page deviceId accountId (randomConsentToken random)] }
  | .submitConfirm id deviceId consentToken approve ensured now =>
    if (s.requests id).isSome then none
    else
      match Cloud.submitConfirm hash s.devices deviceId consentToken approve ensured now with
      | (.expired, _) => some s
      | (.denied, devices) => some { s with devices, notes := s.notes ++ [.denied deviceId] }
      | (.clientRefused, _) => some (s.put id (some (.denying deviceId)))
      | (.approved, devices) =>
        some { s with devices, notes := s.notes ++ [.approved deviceId consentToken now] }
  | .denyRefused id =>
    match s.requests id with
    | some (.denying deviceId) =>
      some { s.put id none with
        devices := setStatus s.devices deviceId .denied none
        notes := s.notes ++ [.denied deviceId] }
    | _ => none
  | .poll id deviceCode now =>
    if (s.requests id).isSome then none
    else
      match Cloud.poll hash s.devices deviceCode now with
      | (.refused _, devices) => some { s with devices }
      | (.redeems row accountId, devices) =>
        some { s.put id (some (.redeeming row accountId now)) with devices }
  | .createSession id elapsed familyId tokenId random =>
    match s.requests id with
    | some (.redeeming row accountId now) =>
      match redeemDevice hash s.db row accountId now (now + elapsed) familyId tokenId random with
      | none => some (s.put id none)
      | some db =>
        some { s.put id none with
          db
          notes := s.notes ++ [.session row.deviceCodeHash accountId row.clientId familyId] }
    | _ => none
  | .other transaction =>
    (Ledger.step hash ⟨s.db, []⟩ transaction).map fun ledger => { s with db := ledger.db }
  | .abandon id => some (s.put id none)

end DeviceSignIn

/-! ## Following an authorization -/

section Tracking

variable {Hash : Type} {hash : Secret → Hash} {notes added : List (DeviceNote Hash)}

/-- A page for this account carried a token with this hash. -/
def Paged (hash : Secret → Hash) (notes : List (DeviceNote Hash)) (deviceId accountId : Uuid)
    (tokenHash : Hash) : Prop :=
  ∃ pageToken, .page deviceId accountId pageToken ∈ notes ∧ hash pageToken = tokenHash

/-- The authorization was approved by the token of a page this account saw, before it was denied
and before it expired. -/
def ApprovedBy (hash : Secret → Hash) (notes : List (DeviceNote Hash)) (deviceId : Uuid)
    (expiresAt : Time) (accountId : Uuid) : Prop :=
  ∃ position token now, notes[position]? = some (.approved deviceId token now) ∧
    now < expiresAt ∧ .denied deviceId ∉ notes.take position ∧
    Paged hash (notes.take position) deviceId accountId (hash token)

variable {deviceId accountId : Uuid}

theorem Paged.append {tokenHash : Hash} (paged : Paged hash notes deviceId accountId tokenHash) :
    Paged hash (notes ++ added) deviceId accountId tokenHash := by
  obtain ⟨pageToken, shown, hashed⟩ := paged
  exact ⟨pageToken, mem_append_left _ shown, hashed⟩

theorem ApprovedBy.append {expiresAt : Time}
    (approved : ApprovedBy hash notes deviceId expiresAt accountId) :
    ApprovedBy hash (notes ++ added) deviceId expiresAt accountId := by
  obtain ⟨position, token, now, found, timely, undenied, paged⟩ := approved
  have within : position < notes.length := (List.getElem?_eq_some_iff.mp found).1
  have same : (notes ++ added).take position = notes.take position :=
    List.take_append_of_le_length (Nat.le_of_lt within)
  refine ⟨position, token, now, ?_, timely, ?_, ?_⟩
  · rwa [getElem?_append_left within]
  · rwa [same]
  · rwa [same]

/-- An approval that is just noted. -/
theorem ApprovedBy.here {expiresAt now : Time} {token : Secret} (timely : now < expiresAt)
    (undenied : .denied deviceId ∉ notes) (paged : Paged hash notes deviceId accountId (hash token)) :
    ApprovedBy hash (notes ++ [.approved deviceId token now]) deviceId expiresAt accountId := by
  refine ⟨notes.length, token, now, ?_, timely, ?_, ?_⟩
  · rw [getElem?_append_right (Nat.le_refl _), Nat.sub_self]
    rfl
  · rwa [take_left]
  · rwa [take_left]

def DeviceStatus.Over (status : DeviceStatus) : Prop := status = .denied ∨ status = .consumed

/-- What the history tells about an authorization in its state. -/
structure Tracked (hash : Secret → Hash) (notes : List (DeviceNote Hash)) (row : DeviceRow Hash) :
    Prop where
  pending : row.status = .pending → .denied row.id ∉ notes ∧
    ∀ tokenHash accountId, row.consentTokenHash = some tokenHash → row.accountId = some accountId →
      Paged hash notes row.id accountId tokenHash
  approved : row.status = .approved → ∀ accountId, row.accountId = some accountId →
    ApprovedBy hash notes row.id row.expiresAt accountId

theorem Tracked.of_over {row : DeviceRow Hash} (isOver : row.status.Over) : Tracked hash notes row := by
  constructor
  · intro pending
    rw [pending] at isOver
    rcases isOver with denied | consumed
    · cases denied
    · cases consumed
  · intro approved
    rw [approved] at isOver
    rcases isOver with denied | consumed
    · cases denied
    · cases consumed

theorem Tracked.append {row : DeviceRow Hash} (tracked : Tracked hash notes row)
    (undenied : .denied row.id ∉ added) : Tracked hash (notes ++ added) row where
  pending := by
    intro isPending
    obtain ⟨never, paged⟩ := tracked.pending isPending
    refine ⟨fun denied => ?_, fun tokenHash accountId hashed account =>
      (paged tokenHash accountId hashed account).append⟩
    exact (mem_append.mp denied).elim never undenied
  approved := by
    intro isApproved accountId account
    exact (tracked.approved isApproved accountId account).append

end Tracking

/-! ## Sessions elsewhere -/

section Unrevoked

variable {Hash : Type} [DecidableEq Hash]

/-- No statement sets `revoked_at` of a token. -/
def Tables.TokensUnrevoked (db : Tables Hash) : Prop := ∀ token ∈ db.tokens, token.revokedAt = none

variable {hash : Secret → Hash} {random : RandomBytes}

theorem insertFamily_unrevoked {db : Tables Hash} {spec : FamilySpec} {now : Time}
    {familyId tokenId : Uuid} {result : (Uuid × Secret) × Tables Hash}
    (unrevoked : db.TokensUnrevoked)
    (inserted : insertFamily hash db spec now familyId tokenId random = some result) :
    result.2.TokensUnrevoked := by
  obtain ⟨db₁, first, db₂, second, done⟩ := of_bind₂ inserted
  obtain ⟨_, rfl⟩ := insertFamilyRow_some first
  obtain ⟨_, rfl⟩ := insertTokenRow_some second
  cases done
  exact forall_mem_snoc unrevoked rfl

theorem rotateFamilyIn_unrevoked {db : Tables Hash} {refreshToken : Secret} {kind : FamilyKind}
    {now : Time} {newTokenId : Uuid} {result : Rotation × Tables Hash}
    (unrevoked : db.TokensUnrevoked)
    (rotates : rotateFamilyIn hash db refreshToken kind now newTokenId random = some result) :
    result.2.TokensUnrevoked := by
  cases rotateFamilyIn_outcome rotates with
  | invalid => exact unrevoked
  | refused => exact unrevoked
  | replaced _ live done =>
    obtain ⟨db', inserted, rest⟩ := of_bind done
    obtain ⟨_, rfl⟩ := insertTokenRow_some inserted
    cases rest
    intro token member
    obtain ⟨old, source, rfl⟩ := mem_updateWhere.mp member
    have oldUnrevoked : old.revokedAt = none := forall_mem_snoc unrevoked rfl old source
    split
    · exact oldUnrevoked
    · exact oldUnrevoked

theorem ledgerStep_unrevoked {ledger ledger' : Ledger Hash} {transaction : Transaction}
    (unrevoked : ledger.db.TokensUnrevoked) (stepped : ledger.step hash transaction = some ledger') :
    ledger'.db.TokensUnrevoked := by
  cases transaction with
  | insertFamily spec now familyId tokenId random =>
    obtain ⟨result, inserted, rfl⟩ := of_map stepped
    exact insertFamily_unrevoked unrevoked inserted
  | rotateFamily refreshToken kind now newTokenId random =>
    obtain ⟨⟨rotation, db⟩, rotates, rfl⟩ := of_map stepped
    have kept := rotateFamilyIn_unrevoked unrevoked rotates
    cases rotation with
    | rotated family => exact kept
    | refused error => exact kept
  | revokeByRefreshToken refreshToken now reason =>
    rw [Ledger.step, Cloud.revokeByRefreshToken] at stepped
    cases stepped
    split
    · exact unrevoked
    · exact unrevoked
  | revokeFamily familyId now reason | revokeGrant accountId grantId now reason =>
    cases stepped
    exact unrevoked

end Unrevoked

/-! ## What a step can do -/

namespace DeviceSignIn

variable {Hash : Type}

/-- What every statement keeps of an authorization. -/
structure SameDevice (old new : DeviceRow Hash) : Prop where
  id : new.id = old.id
  deviceCodeHash : new.deviceCodeHash = old.deviceCodeHash
  expiresAt : new.expiresAt = old.expiresAt

theorem SameDevice.refl (row : DeviceRow Hash) : SameDevice row row := ⟨rfl, rfl, rfl⟩

/-- The change of one step. -/
inductive Moves (hash : Secret → Hash) (s : DeviceSignIn Hash) : DeviceSignIn Hash → Prop where
  /-- Starts, sessions elsewhere and dropped requests. -/
  | quiet {db : Tables Hash} {requests : Nat → Option (DeviceRequest Hash)}
      (unrevoked : s.db.TokensUnrevoked → db.TokensUnrevoked)
      (others : ∀ id request, requests id = some request → s.requests id = some request ∨
        ∃ clientId deviceName deviceCode now attempts,
          request = .starting clientId deviceName deviceCode now attempts) :
      Moves hash s { s with db, requests }
  | insert {id : Nat} {row : DeviceRow Hash}
      (freshId : ∀ other ∈ s.devices, other.id ≠ row.id)
      (freshCode : ∀ other ∈ s.devices, other.deviceCodeHash ≠ row.deviceCodeHash)
      (unbound : row.accountId = none) :
      Moves hash s { s.put id none with devices := s.devices ++ [row] }
  /-- One authorization changes, and what is noted is about it. -/
  | update {row : DeviceRow Hash} {selects : DeviceRow Hash → Bool}
      {set : DeviceRow Hash → DeviceRow Hash} {added : List (DeviceNote Hash)}
      {requests : Nat → Option (DeviceRequest Hash)} (member : row ∈ s.devices)
      (selected : ∀ other ∈ s.devices, selects other = true → other = row)
      (same : ∀ other : DeviceRow Hash, SameDevice other (set other))
      (isOver : row.status.Over → (set row).status.Over)
      (about : ∀ note ∈ added, note.device = some row.id)
      (tracked : Tracked hash s.notes row →
        Tracked hash (s.notes ++ added) (if selects row then set row else row))
      (others : ∀ id request, requests id = some request →
        s.requests id = some request ∨ request = .denying row.id) :
      Moves hash s
        { s with devices := updateWhere s.devices selects set, notes := s.notes ++ added, requests }
  /-- A poll takes an approved code. -/
  | consume {id : Nat} {row : DeviceRow Hash} {accountId : Uuid} {now : Time}
      {selects : DeviceRow Hash → Bool} (free : s.requests id = none) (member : row ∈ s.devices)
      (selected : ∀ other ∈ s.devices, selects other = true ↔ other = row)
      (approved : row.status = .approved) (account : row.accountId = some accountId) :
      Moves hash s
        { s.put id (some (.redeeming row accountId now)) with
          devices := updateWhere s.devices selects (DeviceRow.polled now .consumed) }
  | session {id : Nat} {row : DeviceRow Hash} {accountId familyId : Uuid} {now : Time}
      {db : Tables Hash} (waiting : s.requests id = some (.redeeming row accountId now))
      (unrevoked : s.db.TokensUnrevoked → db.TokensUnrevoked) :
      Moves hash s
        { s.put id none with
          db
          notes := s.notes ++ [.session row.deviceCodeHash accountId row.clientId familyId] }

/-- A poll redeems exactly the rows it consumes. -/
theorem pollAnswer_cases (row : DeviceRow Hash) (now : Time) :
    (∃ error, pollAnswer row now = .refused error ∧
        ¬ (row.status = .approved ∧ row.accountId.isSome = true ∧ ¬ row.expiresAt ≤ now)) ∨
      ∃ accountId, pollAnswer row now = .redeems row accountId ∧ row.status = .approved ∧
        row.accountId = some accountId ∧ ¬ row.expiresAt ≤ now := by
  unfold pollAnswer
  dsimp only
  split
  · rename_i denied
    exact .inl ⟨_, rfl, fun live => nomatch denied.symm.trans live.1⟩
  · rename_i consumed
    exact .inl ⟨_, rfl, fun live => nomatch consumed.symm.trans live.1⟩
  · split
    · rename_i expired
      exact .inl ⟨_, rfl, fun live => live.2.2 expired⟩
    · rename_i expired
      split
      · rename_i status account
        exact .inr ⟨_, rfl, status, account, expired⟩
      · rename_i other
        have unready : ¬ (row.status = .approved ∧ row.accountId.isSome = true ∧
            ¬ row.expiresAt ≤ now) := by
          rintro ⟨status, account, _⟩
          obtain ⟨accountId, known⟩ := Option.isSome_iff_exists.mp account
          exact other accountId status known
        split
        · exact .inl ⟨_, rfl, unready⟩
        · exact .inl ⟨_, rfl, unready⟩

variable {hash : Secret → Hash} {devices : List (DeviceRow Hash)} {deviceId : Uuid}
  {consentToken : Secret} {now : Time} {devices' : List (DeviceRow Hash)}

theorem beginConfirm_some {accountId : Uuid}
    (bound : Cloud.beginConfirm hash devices deviceId accountId consentToken now = some devices') :
    ∃ row ∈ devices, row.id = deviceId ∧ row.status = .pending ∧ ∃ selects,
      (∀ other, selects other = true → other.id = deviceId) ∧
      devices' = updateWhere devices selects (DeviceRow.bind accountId (hash consentToken)) := by
  unfold Cloud.beginConfirm at bound
  dsimp only at bound
  split_ifs at bound with present
  cases bound
  obtain ⟨row, member, selected⟩ := any_eq_true.mp present
  simp only [Bool.and_eq_true, decide_eq_true_eq] at selected
  refine ⟨row, member, selected.1.1, selected.1.2, _, ?_, rfl⟩
  intro other chosen
  simp only [Bool.and_eq_true, decide_eq_true_eq] at chosen
  exact chosen.1.1

variable {s : DeviceSignIn Hash} {id : Nat}

theorem requests_of_put_none {id' : Nat} {request : DeviceRequest Hash}
    (found : (s.put id none).requests id' = some request) : s.requests id' = some request := by
  obtain ⟨-, ⟨⟩⟩ | ⟨-, entry⟩ := of_update found
  exact entry

theorem moves_put (hash : Secret → Hash) (s : DeviceSignIn Hash) (id : Nat)
    (request : Option (DeviceRequest Hash))
    (harmless : ∀ r, request = some r → ∃ clientId deviceName deviceCode now attempts,
      r = .starting clientId deviceName deviceCode now attempts) :
    Moves hash s (s.put id request) := by
  refine .quiet (fun unrevoked => unrevoked) fun id' r found => ?_
  obtain ⟨-, new⟩ | ⟨-, old⟩ := of_update found
  · exact .inr (harmless r new)
  · exact .inl old

theorem moves_refl (hash : Secret → Hash) (s : DeviceSignIn Hash) : Moves hash s s :=
  .quiet (fun unrevoked => unrevoked) fun _ _ found => .inl found

/-- What a step needs to know about the state it starts from. -/
structure Keyed (s : DeviceSignIn Hash) : Prop where
  deviceIds : (s.devices.map DeviceRow.id).Nodup
  codeHashes : (s.devices.map DeviceRow.deviceCodeHash).Nodup
  denying : ∀ id deviceId, s.requests id = some (.denying deviceId) →
    ∃ row ∈ s.devices, row.id = deviceId

variable {row : DeviceRow Hash}

theorem moves_setStatus {status : DeviceStatus} {approvedAt : Option Time} {note : DeviceNote Hash}
    {requests : Nat → Option (DeviceRequest Hash)} (keyed : Keyed s) (member : row ∈ s.devices)
    (id : row.id = deviceId) (isOver : row.status.Over → status.Over)
    (about : note.device = some deviceId)
    (tracked : Tracked hash s.notes row → Tracked hash (s.notes ++ [note]) (row.settle status approvedAt))
    (others : ∀ id request, requests id = some request → s.requests id = some request ∨ request = .denying deviceId) :
    Moves hash s { s with
      devices := setStatus s.devices deviceId status approvedAt
      notes := s.notes ++ [note]
      requests } := by
  subst id
  refine .update member ?_ (fun _ => ⟨rfl, rfl, rfl⟩) isOver ?_ ?_ others
  · intro other inside same
    exact eq_of_key keyed.deviceIds inside member (of_decide_eq_true same)
  · intro noted single
    rw [mem_singleton.mp single, about]
  · rw [if_pos (decide_eq_true rfl)]
    exact tracked

variable {notes : List (DeviceNote Hash)}

theorem denied_tracked (row : DeviceRow Hash) : Tracked hash notes (row.settle .denied none) :=
  .of_over (.inl rfl)

/-- A submission that will deny the authorization in its next transaction. -/
theorem moves_denying (id : Nat) (member : row ∈ s.devices) :
    Moves hash s (s.put id (some (.denying row.id))) := by
  have moved : Moves hash s
      { s with
        devices := updateWhere s.devices (fun _ => false) fun row => row
        notes := s.notes ++ []
        requests := (s.put id (some (.denying row.id))).requests } := by
    refine .update member nofun .refl (fun isOver => isOver) nofun ?_ ?_
    · intro tracked
      rwa [append_nil]
    · intro id' request found
      obtain ⟨-, ⟨⟩⟩ | ⟨-, entry⟩ := of_update found
      · exact .inr rfl
      · exact .inl entry
  rwa [updateWhere_false, append_nil] at moved

/-- A poll that consumes nothing leaves the authorization as it is tracked. -/
theorem polled_tracked (now : Time) (tracked : Tracked hash notes row) :
    Tracked hash notes (row.polled now row.status) where
  pending := by
    intro pending
    obtain ⟨undenied, paged⟩ := tracked.pending pending
    refine ⟨undenied, fun tokenHash accountId hashed account => paged tokenHash accountId ?_ account⟩
    rwa [DeviceRow.polled, if_pos (show row.status = .pending from pending)] at hashed
  approved := fun approved accountId account => tracked.approved approved accountId account

theorem moves_begin {accountId : Uuid} (keyed : Keyed s)
    (bound : Cloud.beginConfirm hash s.devices deviceId accountId consentToken now = some devices) :
    Moves hash s
      { s with devices, notes := s.notes ++ [.page deviceId accountId consentToken] } := by
  obtain ⟨row, member, rfl, pending, selects, selected, rfl⟩ := beginConfirm_some bound
  have undenied : (.denied row.id : DeviceNote Hash) ∉ [.page row.id accountId consentToken] := by
    rintro (_ | ⟨_, ⟨⟩⟩)
  refine .update member ?_ (fun _ => ⟨rfl, rfl, rfl⟩) (fun isOver => isOver) ?_ ?_
    fun _ _ found => .inl found
  · intro other inside chosen
    exact eq_of_key keyed.deviceIds inside member (selected other chosen)
  · intro note single
    rw [mem_singleton.mp single]
    rfl
  · intro tracked
    split
    · refine ⟨fun _ => ⟨?_, ?_⟩, fun approved => nomatch pending.symm.trans approved⟩
      · exact ((tracked.append undenied).pending pending).1
      · intro tokenHash account hashed known
        cases hashed
        cases known
        exact ⟨consentToken, mem_append_right _ (.head _), rfl⟩
    · exact tracked.append undenied

variable [DecidableEq Hash]

/-! ## Every step -/

theorem insertDevice_some {deviceCode : Secret} {userCode clientId deviceName : List Char}
    (inserted : Cloud.insertDevice hash devices deviceId deviceCode userCode clientId deviceName now = some devices') :
    ∃ row, devices' = devices ++ [row] ∧ row.accountId = none ∧
      (∀ other ∈ devices, other.id ≠ row.id) ∧
      ∀ other ∈ devices, other.deviceCodeHash ≠ row.deviceCodeHash := by
  unfold Cloud.insertDevice at inserted
  split_ifs at inserted with taken
  cases inserted
  simp only [any_eq_true, Bool.or_eq_true, decide_eq_true_eq, not_exists, not_and, not_or]
    at taken
  exact ⟨_, rfl, rfl, fun other member => (taken other member).1.1,
    fun other member => (taken other member).1.2⟩

/-- How the first transaction of a poll can end. -/
inductive PollOutcome (devices : List (DeviceRow Hash)) (codeHash : Hash) (now : Time) :
    Poll Hash × List (DeviceRow Hash) → Prop where
  | unknown {error : ApiError} : PollOutcome devices codeHash now (.refused error, devices)
  | answered {error : ApiError} {row : DeviceRow Hash} (member : row ∈ devices)
      (hashed : row.deviceCodeHash = codeHash) :
      PollOutcome devices codeHash now (.refused error,
        updateWhere devices (·.deviceCodeHash = codeHash) (DeviceRow.polled now row.status))
  | consumed {row : DeviceRow Hash} {accountId : Uuid} (member : row ∈ devices)
      (hashed : row.deviceCodeHash = codeHash) (approved : row.status = .approved)
      (account : row.accountId = some accountId) :
      PollOutcome devices codeHash now (.redeems row accountId,
        updateWhere devices (·.deviceCodeHash = codeHash) (DeviceRow.polled now .consumed))

theorem poll_outcome (hash : Secret → Hash) (devices : List (DeviceRow Hash)) (deviceCode : Secret)
    (now : Time) : PollOutcome devices (hash deviceCode) now (Cloud.poll hash devices deviceCode now) := by
  unfold Cloud.poll
  split
  · exact .unknown
  · cases found : lookup DeviceRow.deviceCodeHash (hash deviceCode) devices with
    | none => exact .unknown
    | some row =>
      obtain ⟨member, hashed⟩ := lookup_some found
      dsimp only
      rcases pollAnswer_cases row now with ⟨error, answer, unready⟩ | ⟨accountId, answer, approved, account, live⟩
      · rw [answer, if_neg (by simpa [Bool.and_eq_true, and_assoc] using unready)]
        exact .answered member hashed
      · rw [answer, if_pos (by simp [approved, account, live])]
        exact .consumed member hashed approved account

/-- How the transaction of a submission can end. -/
inductive SubmitOutcome (hash : Secret → Hash) (devices : List (DeviceRow Hash)) (deviceId : Uuid)
    (consentToken : Secret) (now : Time) : Submission × List (DeviceRow Hash) → Prop where
  | expired : SubmitOutcome hash devices deviceId consentToken now (.expired, devices)
  | denied {row : DeviceRow Hash} (member : row ∈ devices) (id : row.id = deviceId) :
      SubmitOutcome hash devices deviceId consentToken now
        (.denied, setStatus devices deviceId .denied none)
  | refused {row : DeviceRow Hash} (member : row ∈ devices) (id : row.id = deviceId) :
      SubmitOutcome hash devices deviceId consentToken now (.clientRefused, devices)
  | approved {row : DeviceRow Hash} (member : row ∈ devices) (id : row.id = deviceId)
      (pending : row.status = .pending) (consent : row.consentTokenHash = some (hash consentToken))
      (timely : now < row.expiresAt) :
      SubmitOutcome hash devices deviceId consentToken now
        (.approved, setStatus devices deviceId .approved (some now))

theorem submitConfirm_outcome (hash : Secret → Hash) (devices : List (DeviceRow Hash))
    (deviceId : Uuid) (consentToken : Secret) (approve ensured : Bool) (now : Time) :
    SubmitOutcome hash devices deviceId consentToken now
      (Cloud.submitConfirm hash devices deviceId consentToken approve ensured now) := by
  unfold Cloud.submitConfirm
  cases found : lookup DeviceRow.id deviceId devices with
  | none => exact .expired
  | some row =>
    obtain ⟨member, id⟩ := lookup_some found
    dsimp only
    split_ifs with unbound stale refuses unready
    · exact .expired
    · exact .expired
    · exact .denied member id
    · exact .refused member id
    · simp only [Bool.or_eq_true, Bool.not_eq_true', decide_eq_false_iff_not, decide_eq_true_eq,
        not_or, not_not, Nat.not_le] at stale
      exact .approved member id stale.1.2 stale.1.1 stale.2

variable {s' : DeviceSignIn Hash}

theorem moves_submit {approve ensured : Bool} (keyed : Keyed s)
    (stepped : s.step hash (.submitConfirm id deviceId consentToken approve ensured now) = some s') :
    Moves hash s s' := by
  obtain ⟨_, stepped⟩ := of_unless stepped
  have outcome := submitConfirm_outcome hash s.devices deviceId consentToken approve ensured now
  generalize Cloud.submitConfirm hash s.devices deviceId consentToken approve ensured now = result
    at outcome stepped
  cases outcome with
  | expired =>
    cases stepped
    exact moves_refl hash s
  | @denied row member same =>
    cases stepped
    exact moves_setStatus keyed member same (fun _ => .inl rfl) rfl
      (fun _ => denied_tracked row) fun _ _ found => .inl found
  | @refused row member same =>
    cases stepped
    subst same
    exact moves_denying id member
  | @approved row member same pending consent timely =>
    cases stepped
    refine moves_setStatus keyed member same ?_ rfl ?_ fun _ _ found => .inl found
    · rw [pending]
      rintro (denied | consumed)
      · cases denied
      · cases consumed
    · intro tracked
      obtain ⟨undenied, paged⟩ := tracked.pending pending
      subst same
      refine ⟨nofun, fun _ accountId account => ?_⟩
      exact .here timely undenied (paged _ accountId consent account)

theorem moves_poll {deviceCode : Secret} (keyed : Keyed s)
    (stepped : s.step hash (.poll id deviceCode now) = some s') :
    Moves hash s s' := by
  have only : ∀ {row : DeviceRow Hash}, row ∈ s.devices → row.deviceCodeHash = hash deviceCode →
      ∀ other ∈ s.devices, decide (other.deviceCodeHash = hash deviceCode) = true ↔ other = row := by
    intro row member hashed other inside
    constructor
    · intro same
      exact eq_of_key keyed.codeHashes inside member ((of_decide_eq_true same).trans hashed.symm)
    · rintro rfl
      exact decide_eq_true hashed
  obtain ⟨busy, stepped⟩ := of_unless stepped
  have free : s.requests id = none := by simpa using busy
  have outcome := poll_outcome hash s.devices deviceCode now
  generalize Cloud.poll hash s.devices deviceCode now = result at outcome stepped
  cases outcome with
  | unknown =>
    cases stepped
    exact moves_refl hash s
  | @answered error row member hashed =>
    cases stepped
    have moved : Moves hash s
        { s with
          devices := updateWhere s.devices (·.deviceCodeHash = hash deviceCode)
            (DeviceRow.polled now row.status)
          notes := s.notes ++ []
          requests := s.requests } := by
      refine .update member (fun other inside => (only member hashed other inside).mp)
        (fun _ => ⟨rfl, rfl, rfl⟩) (fun isOver => isOver) nofun ?_ fun _ _ found => .inl found
      rw [append_nil, if_pos (decide_eq_true hashed)]
      exact polled_tracked now
    rwa [append_nil] at moved
  | consumed member hashed approved account =>
    cases stepped
    exact .consume free member (only member hashed) approved account

/-- Every step is one of the moves. -/
theorem step_moves {event : DeviceEvent} (keyed : Keyed s) (stepped : s.step hash event = some s') :
    Moves hash s s' := by
  cases event with
  | start id clientKind clientId deviceName checkedAt random now =>
    obtain ⟨_, stepped⟩ := of_unless stepped
    split at stepped
    · cases stepped
      exact moves_refl hash s
    · cases stepped
      exact moves_put hash s id _ fun r same => by cases same; exact ⟨_, _, _, _, _, rfl⟩
  | insertDevice id deviceId userCode =>
    rw [step] at stepped
    split at stepped
    · split at stepped
      · rename_i inserted
        cases stepped
        obtain ⟨row, rfl, unbound, freshId, freshCode⟩ := insertDevice_some inserted
        exact .insert freshId freshCode unbound
      · split at stepped
        · cases stepped
          exact moves_put hash s id _ fun r same => by cases same; exact ⟨_, _, _, _, _, rfl⟩
        · cases stepped
          exact moves_put hash s id none nofun
    · cases stepped
  | beginConfirm deviceId accountId random now =>
    rw [step] at stepped
    split at stepped
    · cases stepped
      exact moves_refl hash s
    · rename_i bound
      cases stepped
      exact moves_begin keyed bound
  | submitConfirm => exact moves_submit keyed stepped
  | denyRefused id =>
    rw [step] at stepped
    split at stepped
    · rename_i deviceId waiting
      cases stepped
      obtain ⟨row, member, same⟩ := keyed.denying id deviceId waiting
      exact moves_setStatus keyed member same (fun _ => .inl rfl) rfl
        (fun _ => denied_tracked row) fun _ _ found => .inl (requests_of_put_none found)
    · cases stepped
  | poll => exact moves_poll keyed stepped
  | createSession id elapsed familyId tokenId random =>
    rw [step] at stepped
    split at stepped
    · rename_i row accountId now waiting
      split at stepped
      · cases stepped
        exact moves_put hash s id none nofun
      · rename_i db redeemed
        cases stepped
        refine .session waiting fun unrevoked => ?_
        obtain ⟨_, redeemed⟩ := of_unless redeemed
        obtain ⟨result, inserted, rfl⟩ := of_map redeemed
        exact insertFamily_unrevoked unrevoked inserted
    · cases stepped
  | other transaction =>
    obtain ⟨ledger, committed, rfl⟩ := of_map stepped
    exact .quiet (fun unrevoked => ledgerStep_unrevoked unrevoked committed)
      fun _ _ found => .inl found
  | abandon id =>
    cases stepped
    exact moves_put hash s id none nofun

end DeviceSignIn

end Alera.Cloud
