/-
# Alera.Cloud.McpEndpoint -- the token endpoint with requests in flight

Runs of the token endpoint in which any number of requests interleave.  A step is one
transaction or one stand-alone statement of `Sessions`; between its steps a request is
in `requests`, with what it has read.  The history keeps which family was opened for
which code and which access tokens were issued.

What a step can do is said once (`Moves`, `step_moves`).  A move that revokes a grant
carries what `Meets` tells about the state it happens in, so that invariants can be
stated with and without that condition.
-/
import Alera.Cloud.SessionRotation

namespace Alera.Cloud

open Theory Theory.Tables

set_option autoImplicit false

/-! ## Requests -/

/-- What lies outside the endpoint: the digest of a secret, the digest of a code verifier, and
the reading of an id. -/
structure Primitives (Hash : Type) where
  hash : Secret → Hash
  pkceChallenge : Secret → List Char
  parseUuid : List Char → Option Uuid

abbrev RequestId := Nat

/-- A request between two of its steps, with what it read so far. -/
inductive Request (Hash : Type) where
  /-- The code is consumed and the row passed the checks. -/
  | redeeming (code : CodeRow Hash) (grant : GrantRow)
  /-- The family is open. -/
  | issuing (code : CodeRow Hash) (grant : GrantRow) (familyId : Uuid)
  | refreshing (refreshToken : Secret) (grantId : Uuid) (clientId : List Char)
  | revoking (accountId grantId : Uuid)
  /-- The grant is marked. -/
  | revokingFamilies (accountId grantId : Uuid) (now : Time)

/-- The grant whose code the request is redeeming. -/
def Request.redeems {Hash : Type} : Request Hash → Option Uuid
  | .redeeming code _ => some code.grantId
  | .issuing code _ _ => some code.grantId
  | .refreshing _ _ _ => none
  | .revoking _ _ => none
  | .revokingFamilies _ _ _ => none

/-- A family opened for a code. -/
structure Opened (Hash : Type) where
  codeHash : Hash
  familyId : Uuid
  deriving DecidableEq

structure TokenEndpoint (Hash : Type) where
  db : Tables Hash
  requests : RequestId → Option (Request Hash)
  opened : List (Opened Hash)
  issued : List McpAccessInput

inductive TokenEvent where
  /-- The consent page: `create_grant_with_code`. -/
  | approve (spec : GrantSpec) (now : Time) (grantId : Uuid) (random : RandomBytes)
  /-- The first transaction of `authorization_code`, and its checks. -/
  | redeem (request : RequestId) (code verifier : Secret) (redirectUri : Option (List Char))
      (clientId : List Char) (accountActive : Bool) (now revokedAt : Time)
  | openFamily (request : RequestId) (now : Time) (familyId tokenId : Uuid) (random : RandomBytes)
  | issueAccess (request : RequestId)
  | lookupRefresh (request : RequestId) (refreshToken : Secret) (clientField : Option (List Char))
      (authenticated : List Char)
  | refresh (request : RequestId) (accountActive : Bool) (now revokedAt : Time) (newTokenId : Uuid)
      (random : RandomBytes)
  | userRevoke (accountId grantId : Uuid) (now : Time)
  /-- `revoke_token` with a refresh token. -/
  | lookupRevocation (request : RequestId) (token : Secret)
  /-- `revoke_token` with an access token that verified. -/
  | acceptRevocation (request : RequestId) (accountId grantId : Uuid)
  | revokeGrantRow (request : RequestId) (now : Time)
  | revokeFamilies (request : RequestId)
  /-- The request failed or was dropped. -/
  | abandon (request : RequestId)

namespace TokenEndpoint

variable {Hash : Type}

def start : TokenEndpoint Hash := ⟨⟨[], [], [], []⟩, fun _ => none, [], []⟩

def put (s : TokenEndpoint Hash) (id : RequestId) (request : Option (Request Hash)) :
    TokenEndpoint Hash :=
  { s with requests := Function.update s.requests id request }

theorem put_of_free {s : TokenEndpoint Hash} {id : RequestId} (free : s.requests id = none) :
    s.put id none = s := by
  rw [put, ← free, Function.update_eq_self]

/-- A request that redeems no code may come and go. -/
theorem put_others (s : TokenEndpoint Hash) (id : RequestId) (request : Option (Request Hash))
    (harmless : ∀ r, request = some r → r.redeems = none) :
    ∀ id' r, (s.put id request).requests id' = some r →
      s.requests id' = some r ∨ r.redeems = none := by
  intro id' r found
  obtain ⟨-, entry⟩ | ⟨-, entry⟩ := of_update found
  · exact .inr (harmless r entry)
  · exact .inl entry

/-- Whether a redemption of the grant's code is under way. -/
def Redeems (s : TokenEndpoint Hash) (grantId : Uuid) : Prop :=
  ∃ id request, s.requests id = some request ∧ request.redeems = some grantId

variable [DecidableEq Hash]

def step (env : Primitives Hash) (s : TokenEndpoint Hash) : TokenEvent → Option (TokenEndpoint Hash)
  | .approve spec now grantId random =>
    (createGrantWithCode env.hash s.db spec now grantId random).map fun created =>
      { s with db := created.2 }
  | .redeem id code verifier redirectUri clientId accountActive now revokedAt =>
    if (s.requests id).isSome then none
    else
      match consumeCode env.hash s.db code clientId now revokedAt with
      | (.error _, db) => some { s with db }
      | (.ok (row, grant), db) =>
        if (redemptionFailure env.pkceChallenge row grant accountActive redirectUri verifier
            now).isSome then some { s with db }
        else some { s.put id (some (.redeeming row grant)) with db }
  | .openFamily id now familyId tokenId random =>
    match s.requests id with
    | some (.redeeming row grant) =>
      (createFamily env.hash s.db row grant now familyId tokenId random).map fun created =>
        { s.put id (some (.issuing row grant familyId)) with
          db := created.2
          opened := s.opened ++ [⟨row.codeHash, familyId⟩] }
    | _ => none
  | .issueAccess id =>
    match s.requests id with
    | some (.issuing row grant familyId) =>
      some { s.put id none with
        issued := s.issued ++
          [{ accountId := row.accountId
             familyId
             clientId := row.clientId
             grantId := row.grantId
             scope := grant.scopes
             authenticatedAt := grant.createdAt }] }
    | _ => none
  | .lookupRefresh id refreshToken clientField authenticated =>
    if (s.requests id).isSome then none
    else
      match refreshGrant env.hash s.db refreshToken with
      | none => some s
      | some (grantId, clientId) =>
        if clientField.any (· ≠ clientId) || authenticated ≠ clientId then some s
        else some (s.put id (some (.refreshing refreshToken grantId clientId)))
  | .refresh id accountActive now revokedAt newTokenId random =>
    match s.requests id with
    | some (.refreshing refreshToken grantId clientId) =>
      (refreshIn env.hash s.db refreshToken grantId clientId accountActive now revokedAt
          newTokenId random).map fun (answer, db) =>
        { s.put id none with db, issued := s.issued ++ answer.toOption.toList }
    | _ => none
  | .userRevoke accountId grantId now =>
    let (found, db) := revokeGrant s.db accountId grantId now "user_revoked"
    if found then some { s with db } else none
  | .lookupRevocation id token =>
    if (s.requests id).isSome then none
    else
      match revocationTarget env.hash s.db token with
      | none => some s
      | some (accountId, text) =>
        match env.parseUuid text with
        | none => some s
        | some grantId => some (s.put id (some (.revoking accountId grantId)))
  | .acceptRevocation id accountId grantId =>
    if (s.requests id).isSome then none
    else some (s.put id (some (.revoking accountId grantId)))
  | .revokeGrantRow id now =>
    match s.requests id with
    | some (.revoking accountId grantId) =>
      some { s.put id (some (.revokingFamilies accountId grantId now)) with
        db := Cloud.revokeGrantRow s.db accountId grantId now "client_revoked" }
    | _ => none
  | .revokeFamilies id =>
    match s.requests id with
    | some (.revokingFamilies accountId grantId now) =>
      some { s.put id none with
        db := revokeGrantFamilies s.db accountId grantId now "client_revoked" }
    | _ => none
  | .abandon id => some (s.put id none)

/-! ## The condition -/

/-- **When revoking is final**: no step that revokes a grant is taken while a redemption of its
code is under way, and the first statement of a client's revocation finds no family to revoke. -/
def Meets (env : Primitives Hash) (s : TokenEndpoint Hash) : TokenEvent → Prop
  | .redeem _ code _ _ clientId _ _ _ =>
    ∀ row ∈ s.db.codes, row.codeHash = env.hash code → row.clientId = clientId →
      row.usedAt.isSome = true → ¬ s.Redeems row.grantId
  | .refresh id accountActive _ _ _ _ =>
    accountActive = false → ∀ refreshToken grantId clientId,
      s.requests id = some (.refreshing refreshToken grantId clientId) → ¬ s.Redeems grantId
  | .userRevoke _ grantId _ => ¬ s.Redeems grantId
  | .revokeGrantRow id _ =>
    ∀ accountId grantId, s.requests id = some (.revoking accountId grantId) →
      ¬ s.Redeems grantId ∧ ∀ family ∈ s.db.families,
        family.belongsTo accountId grantId = true → family.revokedAt.isSome = true
  | _ => True

/-! ## What a step can do -/

end TokenEndpoint

/-- What every statement keeps of a family for its grant. -/
structure FamilyRow.StaysWith (old new : FamilyRow) : Prop where
  id : new.id = old.id
  belongs : ∀ accountId grantId, new.belongsTo accountId grantId = old.belongsTo accountId grantId
  revoked : old.revokedAt.isSome = true → new.revokedAt.isSome = true

theorem FamilyRow.StaysWith.refl (row : FamilyRow) : row.StaysWith row :=
  ⟨rfl, fun _ _ => rfl, fun revoked => revoked⟩

variable (now : Time)

theorem FamilyRow.staysWith_revoke (reason : String) (row : FamilyRow) :
    row.StaysWith (row.revoke now reason) :=
  ⟨rfl, fun _ _ => rfl, fun _ => row.revoke_isSome now reason⟩

theorem FamilyRow.staysWith_revokeReplay (row : FamilyRow) :
    row.StaysWith (row.revokeReplay now) :=
  ⟨rfl, fun _ _ => rfl, fun _ => rfl⟩

theorem FamilyRow.staysWith_touch (row : FamilyRow) : row.StaysWith (row.touch now) :=
  ⟨rfl, fun _ _ => rfl, fun revoked => revoked⟩

namespace TokenEndpoint

variable {Hash : Type} [DecidableEq Hash]

/-- The change of one step.  A step that revokes says what the condition tells about it. -/
inductive Moves (meets : Prop) (s : TokenEndpoint Hash) : TokenEndpoint Hash → Prop where
  | approve {grant : GrantRow} {code : CodeRow Hash}
      (freshGrant : ∀ other ∈ s.db.grants, other.id ≠ grant.id) (unrevoked : grant.revokedAt = none)
      (freshCode : ∀ other ∈ s.db.codes, other.codeHash ≠ code.codeHash) :
      Moves meets s
        { s with
          db := { s.db with grants := s.db.grants ++ [grant], codes := s.db.codes ++ [code] } }
  | consume {id : RequestId} {row : CodeRow Hash} {grant : GrantRow} {now : Time}
      {request : Option (Request Hash)} (free : s.requests id = none) (rowIn : row ∈ s.db.codes)
      (grantIn : grant ∈ s.db.grants) (owner : grant.id = row.grantId) (unused : row.usedAt = none)
      (goesOn : request = none ∨ request = some (.redeeming row grant) ∧ grant.revokedAt = none) :
      Moves meets s
        { s.put id request with
          db := { s.db with
            codes := updateWhere s.db.codes (·.codeHash = row.codeHash) (CodeRow.use now) } }
  | openFamily {id : RequestId} {row : CodeRow Hash} {grant : GrantRow} {family : FamilyRow}
      {tokens : List (TokenRow Hash)} (underWay : s.requests id = some (.redeeming row grant))
      (clientId : family.clientId = row.grantId.text) :
      Moves meets s
        { s.put id (some (.issuing row grant family.id)) with
          db := { s.db with families := s.db.families ++ [family], tokens }
          opened := s.opened ++ [⟨row.codeHash, family.id⟩] }
  | issueAccess {id : RequestId} {row : CodeRow Hash} {grant : GrantRow} {familyId : Uuid}
      {input : McpAccessInput} (underWay : s.requests id = some (.issuing row grant familyId))
      (grantId : input.grantId = row.grantId) :
      Moves meets s { s.put id none with issued := s.issued ++ [input] }
  /-- Lookups, refreshes and the second statement of a client's revocation. -/
  | settle {requests : RequestId → Option (Request Hash)} {tokens : List (TokenRow Hash)}
      {selects : FamilyRow → Bool} {set : FamilyRow → FamilyRow} {new : List McpAccessInput}
      (stays : ∀ row : FamilyRow, row.StaysWith (set row))
      (others : ∀ id request, requests id = some request →
        s.requests id = some request ∨ request.redeems = none)
      (live : ∀ input ∈ new, ∃ grant ∈ s.db.grants,
        grant.id = input.grantId ∧ grant.revokedAt = none) :
      Moves meets s
        { s with
          db := { s.db with families := updateWhere s.db.families selects set, tokens }
          requests
          issued := s.issued ++ new }
  | revoke {requests : RequestId → Option (Request Hash)} {tokens : List (TokenRow Hash)}
      {selects : FamilyRow → Bool} {set : FamilyRow → FamilyRow} {accountId grantId : Uuid}
      {now : Time} {reason : String} (stays : ∀ row : FamilyRow, row.StaysWith (set row))
      (others : ∀ id request, requests id = some request →
        s.requests id = some request ∨ request.redeems = none)
      (clear : meets → ∀ grant ∈ s.db.grants, grant.id = grantId → grant.accountId = accountId →
        grant.revokedAt = none → ¬ s.Redeems grantId) :
      Moves meets s
        { s with
          db := (revokeGrant
            { s.db with families := updateWhere s.db.families selects set, tokens }
            accountId grantId now reason).2
          requests }
  /-- The first statement of a client's revocation. -/
  | mark {requests : RequestId → Option (Request Hash)} {accountId grantId : Uuid} {now : Time}
      {reason : String} (others : ∀ id request, requests id = some request →
        s.requests id = some request ∨ request.redeems = none)
      (clear : meets → ¬ s.Redeems grantId ∧ ∀ family ∈ s.db.families,
        family.belongsTo accountId grantId = true → family.revokedAt.isSome = true) :
      Moves meets s { s with db := revokeGrantRow s.db accountId grantId now reason, requests }

/-- Requests that redeem no code come and go. -/
theorem moves_requests (meets : Prop) (s : TokenEndpoint Hash)
    {requests : RequestId → Option (Request Hash)}
    (others : ∀ id request, requests id = some request →
      s.requests id = some request ∨ request.redeems = none) :
    Moves meets s { s with requests } := by
  have moved : Moves meets s
      { s with
        db := { s.db with
          families := updateWhere s.db.families (fun _ => false) fun row => row
          tokens := s.db.tokens }
        requests
        issued := s.issued ++ [] } :=
    .settle (fun row => .refl row) others nofun
  rwa [updateWhere_false, List.append_nil] at moved

theorem moves_refl (meets : Prop) (s : TokenEndpoint Hash) : Moves meets s s :=
  moves_requests meets s fun _ _ found => .inl found

end TokenEndpoint

/-! ## The transactions -/

variable {accountActive : Bool} {redirectUri : Option (List Char)}

/-- A row that passes the checks showed a grant that was not revoked. -/
theorem redemptionFailure_none {Hash : Type} {pkceChallenge : Secret → List Char}
    {row : CodeRow Hash} {grant : GrantRow}
    {verifier : Secret} {now : Time} (passes : redemptionFailure pkceChallenge row grant accountActive redirectUri
      verifier now = none) : grant.revokedAt = none := by
  unfold redemptionFailure at passes
  dsimp only at passes
  split_ifs at passes with expired redirected mismatch revoked
  simp only [Bool.or_eq_true, not_or, Bool.not_eq_true, Option.isSome_eq_false_iff,
    Option.isNone_iff_eq_none] at revoked
  exact revoked.1

section Transactions

variable {Hash : Type} [DecidableEq Hash]

variable {db : Tables Hash} {hash : Secret → Hash} {refreshToken : Secret} {random : RandomBytes}

/-- A rotation touches families and tokens only. -/
theorem rotateFamilyIn_stays {db' : Tables Hash}
    {kind : FamilyKind} {now : Time} {newTokenId : Uuid}
    {rotation : Rotation}
    (rotates : rotateFamilyIn hash db refreshToken kind now newTokenId random = some (rotation, db')) :
    ∃ tokens selects set, (∀ row : FamilyRow, row.StaysWith (set row)) ∧
      db' = { db with families := updateWhere db.families selects set, tokens } := by
  have unchanged : ∃ tokens selects set, (∀ row : FamilyRow, row.StaysWith (set row)) ∧
      db = { db with families := updateWhere db.families selects set, tokens } :=
    ⟨db.tokens, fun _ => false, fun row => row, fun row => .refl row, by rw [updateWhere_false]⟩
  cases rotateFamilyIn_outcome rotates with
  | invalid => exact unchanged
  | refused found ownKind =>
    split
    · exact ⟨_, _, _, FamilyRow.staysWith_revokeReplay now, rfl⟩
    · exact unchanged
  | replaced ownKind live done =>
    obtain ⟨new, rotated, _, _, _, _, _, same⟩ := replaceToken_some done
    cases same
    exact ⟨_, _, _, FamilyRow.staysWith_touch now, rfl⟩

/-- How the transaction of `refresh` can end, over the families and tokens the rotation left. -/
inductive RefreshOutcome (db : Tables Hash) (grantId : Uuid) (accountActive : Bool)
    (revokedAt : Time) (rotated : Tables Hash) : Except OAuthError McpAccessInput × Tables Hash → Prop where
  | refused {error : OAuthError} : RefreshOutcome db grantId accountActive revokedAt rotated
      (.error error, rotated)
  | unlive {error : OAuthError} {accountId : Uuid}
      (dead : accountActive = true → ∀ grant ∈ db.grants, grant.id = grantId →
        grant.accountId = accountId → grant.revokedAt ≠ none) :
      RefreshOutcome db grantId accountActive revokedAt rotated
        (.error error, (revokeGrant rotated accountId grantId revokedAt "grant_revoked").2)
  | issued {input : McpAccessInput} {grant : GrantRow} (grantIn : grant ∈ db.grants)
      (id : grant.id = input.grantId) (unrevoked : grant.revokedAt = none) :
      RefreshOutcome db grantId accountActive revokedAt rotated (.ok input, rotated)

theorem refreshIn_outcome {grantId newTokenId : Uuid} {clientId : List Char} {now revokedAt : Time}
    {result : Except OAuthError McpAccessInput × Tables Hash}
    (done : refreshIn hash db refreshToken grantId clientId accountActive now revokedAt newTokenId random = some result) :
    ∃ tokens selects set, (∀ row : FamilyRow, row.StaysWith (set row)) ∧
      RefreshOutcome db grantId accountActive revokedAt
        { db with families := updateWhere db.families selects set, tokens } result := by
  obtain ⟨⟨rotation, db'⟩, rotates, rest⟩ := of_bind done
  obtain ⟨tokens, selects, set, stays, rfl⟩ := rotateFamilyIn_stays rotates
  refine ⟨tokens, selects, set, stays, ?_⟩
  cases rotation with
  | refused error =>
    cases rest
    exact .refused
  | rotated family =>
    dsimp only at rest
    split at rest
    · rename_i unlive
      cases rest
      refine .unlive fun active grant member id account unrevoked => ?_
      rw [Tables.liveGrant, if_pos active] at unlive
      exact List.find?_eq_none.mp unlive grant member (by simp [id, account, unrevoked])
    · rename_i grant found
      cases rest
      obtain ⟨_, found⟩ := of_when found
      have chosen := List.find?_some found
      simp only [Bool.and_eq_true, decide_eq_true_eq, Option.isNone_iff_eq_none] at chosen
      exact .issued (List.mem_of_find?_eq_some found) chosen.1.1 chosen.2

/-- How the first transaction of a redemption can end. -/
inductive ConsumeOutcome (db : Tables Hash) (codeHash : Hash) (clientId : List Char)
    (now revokedAt : Time) : Except OAuthError (CodeRow Hash × GrantRow) × Tables Hash → Prop where
  | refused {error : OAuthError} : ConsumeOutcome db codeHash clientId now revokedAt (.error error, db)
  | replayed {error : OAuthError} {row : CodeRow Hash} (rowIn : row ∈ db.codes)
      (hashed : row.codeHash = codeHash) (client : row.clientId = clientId)
      (used : row.usedAt.isSome = true) :
      ConsumeOutcome db codeHash clientId now revokedAt (.error error,
        (revokeGrant db row.accountId row.grantId revokedAt "authorization_code_replay").2)
  | consumed {row : CodeRow Hash} {grant : GrantRow} (rowIn : row ∈ db.codes)
      (hashed : row.codeHash = codeHash) (grantIn : grant ∈ db.grants)
      (owner : grant.id = row.grantId) (unused : row.usedAt = none) :
      ConsumeOutcome db codeHash clientId now revokedAt (.ok (row, grant),
        { db with codes := updateWhere db.codes (·.codeHash = codeHash) (CodeRow.use now) })

theorem codeRow_some {codeHash : Hash} {row : CodeRow Hash} {grant : GrantRow}
    (found : db.codeRow codeHash = some (row, grant)) :
    row ∈ db.codes ∧ row.codeHash = codeHash ∧ grant ∈ db.grants ∧ grant.id = row.grantId := by
  obtain ⟨row', foundRow, grant', foundGrant, pair⟩ := of_bind₂ found
  cases pair
  obtain ⟨rowIn, hashed⟩ := lookup_some foundRow
  obtain ⟨grantIn, owner⟩ := lookup_some foundGrant
  exact ⟨rowIn, hashed, grantIn, owner⟩

theorem consumeCode_outcome (hash : Secret → Hash) (db : Tables Hash) (code : Secret)
    (clientId : List Char) (now revokedAt : Time) :
    ConsumeOutcome db (hash code) clientId now revokedAt
      (consumeCode hash db code clientId now revokedAt) := by
  rw [consumeCode]
  cases found : db.codeRow (hash code) with
  | none => exact .refused
  | some pair =>
    obtain ⟨rowIn, hashed, grantIn, owner⟩ := codeRow_some found
    dsimp only
    split_ifs with other used
    · exact .refused
    · exact .replayed rowIn hashed (not_not.mp other) used
    · exact .consumed rowIn hashed grantIn owner (by simpa using used)

end Transactions

namespace TokenEndpoint

variable {Hash : Type} [DecidableEq Hash]

variable {s : TokenEndpoint Hash}

/-- A revocation of the whole grant, with the families as they are. -/
theorem moves_revoke {meets : Prop} {accountId grantId : Uuid} (reason : String)
    (clear : meets → ∀ grant ∈ s.db.grants, grant.id = grantId → grant.accountId = accountId → grant.revokedAt = none → ¬ s.Redeems grantId) :
    Moves meets s { s with db := (revokeGrant s.db accountId grantId now reason).2 } := by
  have moved : Moves meets s
      { s with
        db := (revokeGrant
          { s.db with
            families := updateWhere s.db.families (fun _ => false) fun row => row
            tokens := s.db.tokens } accountId grantId now reason).2
        requests := s.requests } :=
    .revoke (fun row => .refl row) (fun _ _ found => .inl found) clear
  rwa [updateWhere_false] at moved

variable {env : Primitives Hash} {now : Time} {random : RandomBytes}

theorem moves_approve {meets : Prop} {spec : GrantSpec} {grantId : Uuid}
    {created : Secret × Tables Hash}
    (done : createGrantWithCode env.hash s.db spec now grantId random = some created) :
    Moves meets s { s with db := created.2 } := by
  unfold createGrantWithCode at done
  dsimp only at done
  split_ifs at done with taken
  cases done
  simp only [Bool.or_eq_true, List.any_eq_true, decide_eq_true_eq, not_or, not_exists, not_and]
    at taken
  exact .approve taken.1 rfl taken.2

variable {s' : TokenEndpoint Hash}

theorem moves_redeem {id : RequestId} {code verifier : Secret}
    {clientId : List Char} {revokedAt : Time}
    (stepped : s.step env (.redeem id code verifier redirectUri clientId accountActive now revokedAt) = some s') :
    Moves (Meets env s (.redeem id code verifier redirectUri clientId accountActive now revokedAt))
      s s' := by
  obtain ⟨busy, stepped⟩ := of_unless stepped
  have free : s.requests id = none := by simpa using busy
  have outcome := consumeCode_outcome env.hash s.db code clientId now revokedAt
  generalize consumeCode env.hash s.db code clientId now revokedAt = result at outcome stepped
  cases outcome with
  | refused =>
    cases stepped
    exact moves_refl _ s
  | replayed rowIn hashed client used =>
    cases stepped
    exact moves_revoke revokedAt _ fun meets _ _ _ _ _ =>
      meets _ rowIn hashed client used
  | consumed rowIn hashed grantIn owner unused =>
    dsimp only at stepped
    rw [← hashed] at stepped
    split at stepped
    · cases stepped
      -- The code is spent, but the request ends here.
      generalize Meets env s _ = meets
      have spent : Moves meets s { s.put id none with
          db := { s.db with codes := updateWhere s.db.codes _ (CodeRow.use now) } } :=
        .consume free rowIn grantIn owner unused (.inl rfl)
      rwa [put_of_free free] at spent
    · rename_i passed
      cases stepped
      refine .consume free rowIn grantIn owner unused (.inr ⟨rfl, ?_⟩)
      exact redemptionFailure_none (by simpa using passed)

theorem moves_refresh {id : RequestId} {revokedAt : Time} {newTokenId : Uuid}
    (stepped : s.step env (.refresh id accountActive now revokedAt newTokenId random) = some s') :
    Moves (Meets env s (.refresh id accountActive now revokedAt newTokenId random)) s s' := by
  have others := s.put_others id none nofun
  rw [step] at stepped
  split at stepped
  · rename_i refreshToken grantId clientId waiting
    obtain ⟨⟨answer, db⟩, done, rfl⟩ := of_map stepped
    obtain ⟨tokens, selects, set, stays, outcome⟩ := refreshIn_outcome done
    cases outcome with
    | refused => exact .settle stays others nofun
    | unlive dead =>
      dsimp only [Except.toOption, Option.toList]
      rw [List.append_nil]
      refine .revoke stays others fun meets grant member sameId account unrevoked => ?_
      cases active : accountActive with
      | true => exact absurd unrevoked (dead active grant member sameId account)
      | false => exact meets active refreshToken grantId clientId waiting
    | issued grantIn sameId unrevoked =>
      refine .settle stays others ?_
      intro input member
      obtain rfl := List.mem_singleton.mp member
      exact ⟨_, grantIn, sameId, unrevoked⟩
  · cases stepped

theorem moves_put (meets : Prop) (s : TokenEndpoint Hash) (id : RequestId)
    (request : Option (Request Hash)) (harmless : ∀ r, request = some r → r.redeems = none) :
    Moves meets s (s.put id request) :=
  moves_requests meets s (s.put_others id request harmless)

/-- Every step is one of the moves. -/
theorem step_moves {event : TokenEvent} (stepped : s.step env event = some s') :
    Moves (Meets env s event) s s' := by
  cases event with
  | approve spec now grantId random =>
    obtain ⟨created, done, rfl⟩ := of_map stepped
    exact moves_approve done
  | redeem => exact moves_redeem stepped
  | openFamily id now familyId tokenId random =>
    rw [step] at stepped
    split at stepped
    · rename_i row grant waiting
      obtain ⟨⟨created, db⟩, done, rfl⟩ := of_map stepped
      obtain ⟨db₁, first, db₂, second, last⟩ := of_bind₂ done
      obtain ⟨_, rfl⟩ := insertFamilyRow_some first
      obtain ⟨_, rfl⟩ := insertTokenRow_some second
      cases last
      exact .openFamily waiting rfl
    · cases stepped
  | issueAccess id =>
    rw [step] at stepped
    split at stepped
    · rename_i row grant familyId waiting
      cases stepped
      exact .issueAccess waiting rfl
    · cases stepped
  | lookupRefresh id refreshToken clientField authenticated | lookupRevocation id token =>
    obtain ⟨_, stepped⟩ := of_unless stepped
    split at stepped
    · cases stepped
      exact moves_refl _ s
    · split at stepped
      · cases stepped
        exact moves_refl _ s
      · cases stepped
        exact moves_put _ s id _ fun r same => by cases same; rfl
  | refresh => exact moves_refresh stepped
  | userRevoke accountId grantId now =>
    rw [step] at stepped
    dsimp only at stepped
    split at stepped
    · cases stepped
      exact moves_revoke now _ fun meets _ _ _ _ _ => meets
    · cases stepped
  | acceptRevocation id accountId grantId =>
    rw [step] at stepped
    split at stepped
    · cases stepped
    · cases stepped
      exact moves_put _ s id _ fun r same => by cases same; rfl
  | revokeGrantRow id now =>
    rw [step] at stepped
    split at stepped
    · rename_i accountId grantId waiting
      cases stepped
      exact .mark (s.put_others id _ fun r same => by cases same; rfl)
        fun meets => meets accountId grantId waiting
    · cases stepped
  | revokeFamilies id =>
    rw [step] at stepped
    split at stepped
    · rename_i accountId grantId now waiting
      cases stepped
      have moved : Moves (Meets env s (.revokeFamilies id)) s
          { s.put id none with
            db := revokeGrantFamilies s.db accountId grantId now "client_revoked"
            issued := s.issued ++ [] } :=
        .settle (FamilyRow.staysWith_revoke now _) (s.put_others id none nofun) nofun
      rwa [List.append_nil] at moved
    · cases stepped
  | abandon id =>
    cases stepped
    exact moves_put _ s id none nofun

end TokenEndpoint

end Alera.Cloud
