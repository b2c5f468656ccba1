/-
# Alera.Cloud.SessionRotation -- refresh tokens rotate once, and replay kills the session

Runs of the transactions on refresh families: creating a family, rotating a
token, and the three revocations, in any order and at any times.  The ledger
keeps the tables and, as history, the rotations that succeeded.

What a transaction can do to the families and tokens is said once (`Effect`):
revoke some families, add a family with its first token, or replace a token that
is live.  Every invariant is a case analysis over it.
-/
import Alera.Cloud.Sessions
import Alera.Theory.Runs

namespace Alera.Cloud

open Theory List Theory.Tables

set_option autoImplicit false

variable {Hash : Type}

/-! ## Runs -/

/-- A rotation that succeeded: the token that was presented, its family, and when. -/
structure RotationRecord where
  token : Secret
  familyId : Uuid
  now : Time
  deriving DecidableEq, Repr

structure Ledger (Hash : Type) where
  db : Tables Hash
  rotations : List RotationRecord

inductive Transaction where
  | insertFamily (spec : FamilySpec) (now : Time) (familyId tokenId : Uuid) (random : RandomBytes)
  | rotateFamily (refreshToken : Secret) (kind : FamilyKind) (now : Time) (newTokenId : Uuid)
      (random : RandomBytes)
  | revokeByRefreshToken (refreshToken : Secret) (now : Time) (reason : String)
  | revokeFamily (familyId : Uuid) (now : Time) (reason : String)
  | revokeGrant (accountId grantId : Uuid) (now : Time) (reason : String)

namespace Ledger

/-- No family exists yet. -/
def start (grants : List GrantRow) (codes : List (CodeRow Hash)) : Ledger Hash :=
  ⟨⟨[], [], grants, codes⟩, []⟩

/-- Record the outcome of a rotation. -/
def record (ledger : Ledger Hash) (refreshToken : Secret) (now : Time) :
    Rotation × Tables Hash → Ledger Hash
  | (.rotated family, db) => ⟨db, ledger.rotations ++ [⟨refreshToken, family.familyId, now⟩]⟩
  | (.refused _, db) => ⟨db, ledger.rotations⟩

/-- One committed transaction; `none` is one that was rolled back. -/
def step [DecidableEq Hash] (hash : Secret → Hash) (ledger : Ledger Hash) : Transaction → Option (Ledger Hash)
  | .insertFamily spec now familyId tokenId random =>
    (Cloud.insertFamily hash ledger.db spec now familyId tokenId random).map fun created =>
      { ledger with db := created.2 }
  | .rotateFamily refreshToken kind now newTokenId random =>
    (rotateFamilyIn hash ledger.db refreshToken kind now newTokenId random).map
      (ledger.record refreshToken now)
  | .revokeByRefreshToken refreshToken now reason =>
    some { ledger with db := Cloud.revokeByRefreshToken hash ledger.db refreshToken now reason }
  | .revokeFamily familyId now reason =>
    some { ledger with db := Cloud.revokeFamily ledger.db familyId now reason }
  | .revokeGrant accountId grantId now reason =>
    some { ledger with db := (Cloud.revokeGrant ledger.db accountId grantId now reason).2 }

end Ledger

/-! ## What a transaction can do -/

/-- What every statement keeps of a family. -/
structure FamilyRow.SucceededBy (old new : FamilyRow) : Prop where
  id : new.id = old.id
  clientKind : new.clientKind = old.clientKind
  absoluteExpiresAt : new.absoluteExpiresAt = old.absoluteExpiresAt
  revoked : old.revokedAt.isSome = true → new.revokedAt.isSome = true

theorem FamilyRow.SucceededBy.refl (row : FamilyRow) : row.SucceededBy row :=
  ⟨rfl, rfl, rfl, fun revoked => revoked⟩

variable (now : Time)

theorem FamilyRow.revoke_isSome (reason : String) (row : FamilyRow) :
    (row.revoke now reason).revokedAt.isSome = true := by
  cases h : row.revokedAt <;> simp [FamilyRow.revoke, h]

theorem FamilyRow.succeededBy_revoke (reason : String) (row : FamilyRow) :
    row.SucceededBy (row.revoke now reason) :=
  ⟨rfl, rfl, rfl, fun _ => row.revoke_isSome now reason⟩

theorem FamilyRow.succeededBy_touch (row : FamilyRow) :
    row.SucceededBy (row.touch now) :=
  ⟨rfl, rfl, rfl, fun revoked => revoked⟩

/-- A token that may rotate at `now`, with its family. -/
structure Live (hash : Secret → Hash) (db : Tables Hash) (refreshToken : Secret) (now : Time)
    (token : TokenRow Hash) (family : FamilyRow) : Prop where
  token_mem : token ∈ db.tokens
  family_mem : family ∈ db.families
  tokenHash : token.tokenHash = hash refreshToken
  familyId : family.id = token.familyId
  unused : token.usedAt = none
  unrevoked : family.revokedAt = none
  active : now < token.inactivityExpiresAt
  current : now < family.absoluteExpiresAt

/-- The change of one transaction and the rotation it records. -/
inductive Effect (hash : Secret → Hash) (db : Tables Hash) :
    Tables Hash → List RotationRecord → Prop where
  | revoke {selects : FamilyRow → Bool} {set : FamilyRow → FamilyRow} {grants : List GrantRow}
      (succeeds : ∀ row : FamilyRow, row.SucceededBy (set row)) :
      Effect hash db { db with families := updateWhere db.families selects set, grants } []
  | create {family : FamilyRow} {token : TokenRow Hash} {random : RandomBytes}
      (freshFamily : ∀ other ∈ db.families, other.id ≠ family.id)
      (freshToken : ∀ other ∈ db.tokens, other.id ≠ token.id ∧ other.tokenHash ≠ token.tokenHash)
      (owner : token.familyId = family.id)
      (issued : token.tokenHash = hash (randomRefreshToken random))
      (bounded : token.inactivityExpiresAt ≤ family.absoluteExpiresAt) :
      Effect hash db
        { db with families := db.families ++ [family], tokens := db.tokens ++ [token] } []
  | rotate {refreshToken : Secret} {now : Time} {token new : TokenRow Hash} {family : FamilyRow}
      {random : RandomBytes}
      (live : Live hash db refreshToken now token family)
      (freshToken : ∀ other ∈ db.tokens, other.id ≠ new.id ∧ other.tokenHash ≠ new.tokenHash)
      (owner : new.familyId = family.id)
      (issued : new.tokenHash = hash (randomRefreshToken random))
      (bounded : new.inactivityExpiresAt ≤ family.absoluteExpiresAt) :
      Effect hash db
        { db with
          tokens := updateWhere (db.tokens ++ [new]) (·.id = token.id) (TokenRow.use now new.id)
          families := updateWhere db.families (·.id = family.id) (FamilyRow.touch now) }
        [⟨refreshToken, family.id, now⟩]

/-! ## Invariants -/

/-- What every run keeps. -/
structure Sound (hash : Secret → Hash) (ledger : Ledger Hash) : Prop where
  familyIds : (ledger.db.families.map FamilyRow.id).Nodup
  tokenIds : (ledger.db.tokens.map TokenRow.id).Nodup
  tokenHashes : (ledger.db.tokens.map TokenRow.tokenHash).Nodup
  owned : ∀ token ∈ ledger.db.tokens, ∃ family ∈ ledger.db.families, family.id = token.familyId
  issued : ∀ token ∈ ledger.db.tokens, ∃ random, token.tokenHash = hash (randomRefreshToken random)
  single : ∀ token ∈ ledger.db.tokens, ∀ token' ∈ ledger.db.tokens,
    token.familyId = token'.familyId → token.usedAt = none → token'.usedAt = none →
    token.id = token'.id
  bounded : ∀ token ∈ ledger.db.tokens, ∀ family ∈ ledger.db.families,
    family.id = token.familyId → token.inactivityExpiresAt ≤ family.absoluteExpiresAt
  /-- A rotation used up a live token. -/
  recorded : ∀ rotation ∈ ledger.rotations, ∃ token ∈ ledger.db.tokens,
    ∃ family ∈ ledger.db.families, token.tokenHash = hash rotation.token ∧
      family.id = token.familyId ∧ rotation.familyId = family.id ∧ token.usedAt.isSome = true ∧
      rotation.now < token.inactivityExpiresAt ∧ rotation.now < family.absoluteExpiresAt
  once : (ledger.rotations.map fun rotation => hash rotation.token).Nodup

theorem Sound.start (hash : Secret → Hash) (grants : List GrantRow) (codes : List (CodeRow Hash)) :
    Sound hash (Ledger.start grants codes) where
  familyIds := nodup_nil
  tokenIds := nodup_nil
  tokenHashes := nodup_nil
  owned := nofun
  issued := nofun
  single := nofun
  bounded := nofun
  recorded := nofun
  once := nodup_nil

variable {hash : Secret → Hash} {db db' : Tables Hash} {new : List RotationRecord}
  {family : FamilyRow}

/-- Every family goes on under its id, kind and expiry. -/
theorem Effect.family_succeeds (effect : Effect hash db db' new) (member : family ∈ db.families) :
    ∃ family' ∈ db'.families, family.SucceededBy family' := by
  have updated : ∀ {selects set}, (∀ row : FamilyRow, row.SucceededBy (set row)) →
      ∃ family' ∈ updateWhere db.families selects set, family.SucceededBy family' := by
    intro selects set succeeds
    refine ⟨_, mem_updateWhere_of_mem member, ?_⟩
    split
    · exact succeeds family
    · exact .refl family
  cases effect with
  | revoke succeeds => exact updated succeeds
  | create => exact ⟨family, mem_append_left _ member, .refl family⟩
  | @rotate _ now => exact updated (FamilyRow.succeededBy_touch now)

/-- What every statement keeps of a token. -/
structure TokenRow.SucceededBy (old new : TokenRow Hash) : Prop where
  id : new.id = old.id
  familyId : new.familyId = old.familyId
  tokenHash : new.tokenHash = old.tokenHash
  inactivityExpiresAt : new.inactivityExpiresAt = old.inactivityExpiresAt
  used : old.usedAt.isSome = true → new.usedAt.isSome = true

theorem TokenRow.SucceededBy.refl (row : TokenRow Hash) : row.SucceededBy row :=
  ⟨rfl, rfl, rfl, rfl, fun used => used⟩

theorem TokenRow.succeededBy_use (replacement : Uuid) (row : TokenRow Hash) :
    row.SucceededBy (row.use now replacement) :=
  ⟨rfl, rfl, rfl, rfl, fun _ => rfl⟩

theorem succeededBy_ite_use (replacement : Uuid) (selected : Bool)
    (row : TokenRow Hash) :
    row.SucceededBy (if selected then row.use now replacement else row) := by
  split
  · exact row.succeededBy_use now replacement
  · exact .refl row

variable {token : TokenRow Hash}

theorem Effect.token_succeeds (effect : Effect hash db db' new) (member : token ∈ db.tokens) :
    ∃ token' ∈ db'.tokens, token.SucceededBy token' := by
  cases effect with
  | revoke => exact ⟨token, member, .refl token⟩
  | create => exact ⟨token, mem_append_left _ member, .refl token⟩
  | rotate =>
    exact ⟨_, mem_updateWhere_of_mem (mem_append_left _ member), succeededBy_ite_use _ _ _ _⟩

/-- Tokens come from tokens, but for the one that is issued, within the limit of its family. -/
theorem Effect.token_cases (effect : Effect hash db db' new) {token' : TokenRow Hash}
    (member : token' ∈ db'.tokens) :
    (∃ token ∈ db.tokens, token.SucceededBy token') ∨
      (∃ random, token'.tokenHash = hash (randomRefreshToken random)) ∧
        ∃ family ∈ db'.families, family.id = token'.familyId ∧
          token'.inactivityExpiresAt ≤ family.absoluteExpiresAt := by
  cases effect with
  | revoke => exact .inl ⟨token', member, .refl token'⟩
  | @create family _ _ _ _ owner issued bounded =>
    rcases mem_append.mp member with old | single
    · exact .inl ⟨token', old, .refl token'⟩
    · rw [mem_singleton.mp single]
      exact .inr ⟨⟨_, issued⟩, family, mem_append_right _ (.head _), owner.symm, bounded⟩
  | @rotate _ now token issue family _ live _ owner issued bounded =>
    obtain ⟨old, source, rfl⟩ := mem_updateWhere.mp member
    have succeeds := succeededBy_ite_use now issue.id (decide (old.id = token.id)) old
    rcases mem_append.mp source with known | single
    · exact .inl ⟨old, known, succeeds⟩
    · rw [mem_singleton.mp single] at succeeds ⊢
      refine .inr ⟨⟨_, succeeds.tokenHash.trans issued⟩, _,
        mem_updateWhere_of_mem live.family_mem, ?_, ?_⟩
      · rw [succeeds.familyId, owner]
        split <;> rfl
      · rw [succeeds.inactivityExpiresAt]
        split <;> exact bounded

section Preservation

variable {hash : Secret → Hash} {db db' : Tables Hash} {rotations new : List RotationRecord}

variable (effect : Effect hash db db' new)

include effect

theorem Effect.familyIds
    (unique : (db.families.map FamilyRow.id).Nodup) : (db'.families.map FamilyRow.id).Nodup := by
  cases effect with
  | revoke succeeds => rwa [map_updateWhere fun row => (succeeds row).id]
  | create freshFamily => exact nodup_append_singleton unique freshFamily
  | @rotate _ now => rwa [map_updateWhere fun row => (row.succeededBy_touch now).id]

theorem Effect.tokenKeys (ids : (db.tokens.map TokenRow.id).Nodup)
    (hashes : (db.tokens.map TokenRow.tokenHash).Nodup) :
    (db'.tokens.map TokenRow.id).Nodup ∧ (db'.tokens.map TokenRow.tokenHash).Nodup := by
  have inserted {issue : TokenRow Hash}
      (fresh : ∀ token ∈ db.tokens, token.id ≠ issue.id ∧ token.tokenHash ≠ issue.tokenHash) :=
    And.intro (nodup_append_singleton ids fun other member => (fresh other member).1)
      (nodup_append_singleton hashes fun other member => (fresh other member).2)
  cases effect with
  | revoke => exact ⟨ids, hashes⟩
  | create _ freshToken => exact inserted freshToken
  | @rotate _ now _ issue _ _ _ freshToken =>
    rw [map_updateWhere fun row => (row.succeededBy_use now issue.id).id,
      map_updateWhere fun row => (row.succeededBy_use now issue.id).tokenHash]
    exact inserted freshToken

section

variable (sound : Sound hash ⟨db, rotations⟩)

include sound

/-- The new token takes the place of the one unused token of its family. -/
theorem Effect.single :
    ∀ token ∈ db'.tokens, ∀ token' ∈ db'.tokens, token.familyId = token'.familyId →
      token.usedAt = none → token'.usedAt = none → token.id = token'.id := by
  cases effect with
  | revoke => exact sound.single
  | @create family issue _ freshFamily _ owner =>
    have foreign : ∀ token ∈ db.tokens, token.familyId ≠ issue.familyId := by
      intro token member same
      obtain ⟨known, inside, id⟩ := sound.owned token member
      exact freshFamily known inside (by rw [id, same, owner])
    refine forall_mem_snoc (fun token old => forall_mem_snoc (sound.single token old) ?_)
      (forall_mem_snoc (fun token old => ?_) fun _ _ _ => rfl)
    · intro same
      exact absurd same (foreign token old)
    · intro same
      exact absurd same.symm (foreign token old)
  | @rotate _ now used issue family _ live _ owner =>
    -- A row that is unused afterwards was not the one presented.
    have unselected : ∀ token ∈ updateWhere (db.tokens ++ [issue]) (·.id = used.id)
        (TokenRow.use now issue.id), token.usedAt = none →
        token ∈ db.tokens ++ [issue] ∧ token.id ≠ used.id := by
      intro token member unused
      obtain ⟨old, -, -, rfl⟩ | ⟨source, kept⟩ := mem_updateWhere_cases member
      · cases unused
      · exact ⟨source, fun same => kept (decide_eq_true same)⟩
    have family_only : ∀ token ∈ db.tokens, token.familyId = issue.familyId →
        token.usedAt = none → token.id = used.id := by
      intro token member same unused
      exact sound.single token member used live.token_mem (by rw [same, owner, live.familyId])
        unused live.unused
    have single : ∀ token ∈ db.tokens ++ [issue], ∀ token' ∈ db.tokens ++ [issue],
        token.id ≠ used.id → token'.id ≠ used.id → token.familyId = token'.familyId →
        token.usedAt = none → token'.usedAt = none → token.id = token'.id := by
      refine forall_mem_snoc (fun token old => forall_mem_snoc
        (fun token' old' _ _ => sound.single token old token' old') ?_)
        (forall_mem_snoc (fun token old => ?_) fun _ _ _ _ _ => rfl)
      · intro other _ same unused
        exact absurd (family_only token old same unused) other
      · intro _ other same _ unused
        exact absurd (family_only token old same.symm unused) other
    intro token member token' member' same unused unused'
    obtain ⟨source, other⟩ := unselected token member unused
    obtain ⟨source', other'⟩ := unselected token' member' unused'
    exact single token source token' source' other other' same unused unused'

theorem Effect.owned :
    ∀ token ∈ db'.tokens, ∃ family ∈ db'.families, family.id = token.familyId := by
  intro token member
  rcases effect.token_cases member with ⟨old, source, succeeds⟩ | ⟨_, family, inside, id, _⟩
  · obtain ⟨family, inside, id⟩ := sound.owned old source
    obtain ⟨family', inside', kept⟩ := effect.family_succeeds inside
    exact ⟨family', inside', by rw [kept.id, id, succeeds.familyId]⟩
  · exact ⟨family, inside, id⟩

theorem Effect.bounded :
    ∀ token ∈ db'.tokens, ∀ family ∈ db'.families, family.id = token.familyId →
      token.inactivityExpiresAt ≤ family.absoluteExpiresAt := by
  intro token member family inside id
  rcases effect.token_cases member with ⟨old, source, succeeds⟩ | ⟨_, family', inside', id', limit⟩
  · obtain ⟨known, knownIn, knownId⟩ := sound.owned old source
    have bound := sound.bounded old source known knownIn knownId
    obtain ⟨known', knownIn', kept⟩ := effect.family_succeeds knownIn
    obtain rfl : known' = family := eq_of_key (effect.familyIds sound.familyIds) knownIn' inside
      (by rw [kept.id, knownId, id, succeeds.familyId])
    rwa [succeeds.inactivityExpiresAt, kept.absoluteExpiresAt]
  · obtain rfl : family' = family := eq_of_key (effect.familyIds sound.familyIds) inside' inside
      (id'.trans id.symm)
    exact limit

/-- Rows keep what a rotation was recorded with. -/
theorem Effect.recorded :
    ∀ rotation ∈ rotations ++ new, ∃ token ∈ db'.tokens, ∃ family ∈ db'.families,
      token.tokenHash = hash rotation.token ∧ family.id = token.familyId ∧
        rotation.familyId = family.id ∧ token.usedAt.isSome = true ∧
        rotation.now < token.inactivityExpiresAt ∧ rotation.now < family.absoluteExpiresAt := by
  intro rotation member
  rcases mem_append.mp member with old | recent
  · obtain ⟨token, tokenIn, family, familyIn, hashed, owner, id, used, active, current⟩ :=
      sound.recorded rotation old
    obtain ⟨token', tokenIn', kept⟩ := effect.token_succeeds tokenIn
    obtain ⟨family', familyIn', keptFamily⟩ := effect.family_succeeds familyIn
    refine ⟨token', tokenIn', family', familyIn', by rw [kept.tokenHash, hashed], ?_, ?_,
      kept.used used, by rwa [kept.inactivityExpiresAt], by rwa [keptFamily.absoluteExpiresAt]⟩
    · rw [keptFamily.id, kept.familyId, owner]
    · rw [keptFamily.id, id]
  · cases effect with
    | revoke => cases recent
    | create => cases recent
    | rotate live =>
      obtain rfl := mem_singleton.mp recent
      exact ⟨_, mem_updateWhere_of_selected (mem_append_left _ live.token_mem)
          (decide_eq_true rfl), _, mem_updateWhere_of_selected live.family_mem
          (decide_eq_true rfl), live.tokenHash, live.familyId, rfl, rfl, live.active,
        live.current⟩

/-- The presented token was unused, and every token rotated before is used. -/
theorem Effect.once : ((rotations ++ new).map fun rotation => hash rotation.token).Nodup := by
  cases effect with
  | revoke => simpa using sound.once
  | create => simpa using sound.once
  | @rotate _ _ token _ _ _ live =>
    refine nodup_append_singleton sound.once ?_
    intro rotation member same
    obtain ⟨token', inside, _, _, hashed, _, _, used, _⟩ := sound.recorded rotation member
    have equal : token' = token := eq_of_key sound.tokenHashes inside live.token_mem
      (by rw [hashed, same, live.tokenHash])
    rw [equal, live.unused] at used
    exact absurd used (by simp)

end

theorem Effect.sound (sound : Sound hash ⟨db, rotations⟩) : Sound hash ⟨db', rotations ++ new⟩ where
  familyIds := effect.familyIds sound.familyIds
  tokenIds := (effect.tokenKeys sound.tokenIds sound.tokenHashes).1
  tokenHashes := (effect.tokenKeys sound.tokenIds sound.tokenHashes).2
  owned := effect.owned sound
  issued := by
    intro token member
    rcases effect.token_cases member with ⟨old, source, succeeds⟩ | ⟨issued, _⟩
    · rw [succeeds.tokenHash]
      exact sound.issued old source
    · exact issued
  single := effect.single sound
  bounded := effect.bounded sound
  recorded := effect.recorded sound
  once := effect.once sound

/-- Only a family that is not revoked rotates. -/
theorem Effect.rotation_unrevoked :
    ∀ rotation ∈ new, ∃ family ∈ db.families, family.id = rotation.familyId ∧
      family.revokedAt = none := by
  cases effect with
  | revoke => exact nofun
  | create => exact nofun
  | rotate live =>
    intro rotation member
    obtain rfl := mem_singleton.mp member
    exact ⟨_, live.family_mem, rfl, live.unrevoked⟩

end Preservation

/-! ## The transactions -/

theorem insertFamilyRow_some {row : FamilyRow} (inserted : db.insertFamilyRow row = some db') :
    (∀ other ∈ db.families, other.id ≠ row.id) ∧
      db' = { db with families := db.families ++ [row] } := by
  obtain ⟨fresh, inserted⟩ := of_unless inserted
  cases inserted
  refine ⟨fun other member same => fresh ?_, rfl⟩
  exact any_eq_true.mpr ⟨other, member, decide_eq_true same⟩

theorem unchanged_effect (hash : Secret → Hash) (db : Tables Hash) : Effect hash db db [] := by
  have same : updateWhere db.families (fun _ => false) id = db.families := by simp [updateWhere]
  have kept : Effect hash db
      { db with families := updateWhere db.families (fun _ => false) id, grants := db.grants } [] :=
    .revoke fun row => .refl row
  rwa [same] at kept

theorem refuseRotation_tables (db : Tables Hash) (token : TokenRow Hash) (family : FamilyRow)
    (now : Time) :
    (refuseRotation db token family now).2 =
      { db with
        families :=
          if token.usedAt.isSome && family.revokedAt.isNone then
            updateWhere db.families (·.id = family.id) (FamilyRow.revokeReplay now)
          else db.families } := rfl

theorem refuseRotation_effect (hash : Secret → Hash) (db : Tables Hash) (token : TokenRow Hash)
    (family : FamilyRow) (now : Time) :
    Effect hash db (refuseRotation db token family now).2 [] := by
  by_cases replay : (token.usedAt.isSome && family.revokedAt.isNone) = true
  · rw [refuseRotation_tables, if_pos replay]
    exact .revoke fun row => ⟨rfl, rfl, rfl, fun _ => rfl⟩
  · rw [refuseRotation_tables, if_neg replay]
    exact unchanged_effect hash db

theorem refuseRotation_revokes (used : token.usedAt.isSome = true) (member : family ∈ db.families)
    (now : Time) :
    ∃ family' ∈ (refuseRotation db token family now).2.families,
      family'.id = family.id ∧ family'.revokedAt.isSome = true := by
  rw [refuseRotation_tables, used]
  cases revoked : family.revokedAt with
  | none => exact ⟨_, mem_updateWhere_of_selected member (decide_eq_true rfl), rfl, rfl⟩
  | some _ => exact ⟨family, member, rfl, by rw [revoked]; rfl⟩

variable [DecidableEq Hash]

theorem insertTokenRow_some {row : TokenRow Hash} (inserted : db.insertTokenRow row = some db') :
    (∀ other ∈ db.tokens, other.id ≠ row.id ∧ other.tokenHash ≠ row.tokenHash) ∧
      db' = { db with tokens := db.tokens ++ [row] } := by
  unfold Tables.insertTokenRow at inserted
  split_ifs at inserted with taken owned
  cases inserted
  refine ⟨fun other member => ⟨fun same => taken ?_, fun same => taken ?_⟩, rfl⟩
  · exact any_eq_true.mpr ⟨other, member, by simp [same]⟩
  · exact any_eq_true.mpr ⟨other, member, by simp [same]⟩

theorem sessionRow_some {tokenHash : Hash} (found : db.sessionRow tokenHash = some (token, family)) :
    token ∈ db.tokens ∧ token.tokenHash = tokenHash ∧ family ∈ db.families ∧
      family.id = token.familyId := by
  obtain ⟨token', foundToken, family', foundFamily, pair⟩ := of_bind₂ found
  cases pair
  obtain ⟨tokenMem, hashed⟩ := lookup_some foundToken
  obtain ⟨familyMem, owner⟩ := lookup_some foundFamily
  exact ⟨tokenMem, hashed, familyMem, owner⟩

variable {now : Time} {random : RandomBytes}

theorem insertFamily_effect {spec : FamilySpec} {familyId tokenId : Uuid} {created : Uuid × Secret}
    (inserted : insertFamily hash db spec now familyId tokenId random = some (created, db')) :
    Effect hash db db' [] := by
  obtain ⟨db₁, first, db₂, second, done⟩ := of_bind₂ inserted
  obtain ⟨freshFamily, rfl⟩ := insertFamilyRow_some first
  obtain ⟨freshToken, rfl⟩ := insertTokenRow_some second
  cases done
  refine .create freshFamily freshToken rfl rfl ?_
  exact Nat.add_le_add_left (Nat.mul_le_mul_right _ (by decide)) _

/-- How `rotate_family_in` can end. -/
inductive RotationOutcome (hash : Secret → Hash) (db : Tables Hash) (refreshToken : Secret)
    (kind : FamilyKind) (now : Time) (newTokenId : Uuid) (random : RandomBytes) :
    Rotation × Tables Hash → Prop where
  /-- Malformed, unknown or of the other kind. -/
  | invalid : RotationOutcome hash db refreshToken kind now newTokenId random
      (.refused invalidRefreshToken, db)
  | refused {token : TokenRow Hash} {family : FamilyRow}
      (found : db.sessionRow (hash refreshToken) = some (token, family))
      (ownKind : FamilyKind.of family.clientKind = kind) :
      RotationOutcome hash db refreshToken kind now newTokenId random
        (refuseRotation db token family now)
  | replaced {token : TokenRow Hash} {family : FamilyRow} {result : Rotation × Tables Hash}
      (ownKind : FamilyKind.of family.clientKind = kind)
      (live : Live hash db refreshToken now token family)
      (done : replaceToken hash db token family now newTokenId random = some result) :
      RotationOutcome hash db refreshToken kind now newTokenId random result

theorem ownKind_iff (clientKind : ClientKind) (kind : FamilyKind) :
    decide (clientKind = .mcp) = decide (kind = .mcp) ↔ FamilyKind.of clientKind = kind := by
  cases clientKind <;> cases kind <;> decide

variable {result : Rotation × Tables Hash} {newTokenId : Uuid}

theorem rotateFamilyIn_outcome {refreshToken : Secret} {kind : FamilyKind}
    (rotates : rotateFamilyIn hash db refreshToken kind now newTokenId random = some result) :
    RotationOutcome hash db refreshToken kind now newTokenId random result := by
  unfold rotateFamilyIn at rotates
  split at rotates
  · cases rotates
    exact .invalid
  · cases found : db.sessionRow (hash refreshToken) with
    | none =>
      rw [found] at rotates
      cases rotates
      exact .invalid
    | some row =>
      obtain ⟨tokenMem, hashed, familyMem, owner⟩ := sessionRow_some found
      rw [found] at rotates
      dsimp only at rotates
      split_ifs at rotates with other dead
      · cases rotates
        exact .invalid
      · cases rotates
        exact .refused found ((ownKind_iff _ _).mp (not_not.mp other))
      · simp only [Bool.or_eq_true, decide_eq_true_eq, not_or, Nat.not_le, Bool.not_eq_true,
          Option.isSome_eq_false_iff, Option.isNone_iff_eq_none] at dead
        obtain ⟨⟨⟨unused, active, current⟩, unrevoked⟩, _⟩ := dead
        exact .replaced ((ownKind_iff _ _).mp (not_not.mp other))
          ⟨tokenMem, familyMem, hashed, owner, unused, unrevoked, active, current⟩ rotates

/-- What the three statements do. -/
theorem replaceToken_some
    (done : replaceToken hash db token family now newTokenId random = some result) :
    ∃ (new : TokenRow Hash) (rotated : RotatedFamily),
      (∀ other ∈ db.tokens, other.id ≠ new.id ∧ other.tokenHash ≠ new.tokenHash) ∧
      new.familyId = family.id ∧ new.tokenHash = hash (randomRefreshToken random) ∧
      new.inactivityExpiresAt ≤ family.absoluteExpiresAt ∧ rotated.familyId = family.id ∧
      result = (.rotated rotated,
        { db with
          tokens := updateWhere (db.tokens ++ [new]) (·.id = token.id) (TokenRow.use now new.id)
          families := updateWhere db.families (·.id = family.id) (FamilyRow.touch now) }) := by
  obtain ⟨db', inserted, rest⟩ := of_bind done
  obtain ⟨fresh, rfl⟩ := insertTokenRow_some inserted
  cases rest
  exact ⟨_, _, fresh, rfl, rfl, Nat.min_le_right _ _, rfl, rfl⟩

/-- Every transaction has an effect, and records what it rotated. -/
theorem step_effect {ledger ledger' : Ledger Hash} {transaction : Transaction}
    (stepped : ledger.step hash transaction = some ledger') :
    ∃ new, Effect hash ledger.db ledger'.db new ∧ ledger'.rotations = ledger.rotations ++ new := by
  have revoked : ∀ {selects set grants}, (∀ row : FamilyRow, row.SucceededBy (set row)) →
      some { ledger with
        db := { ledger.db with families := updateWhere ledger.db.families selects set, grants } } =
        some ledger' →
      ∃ new, Effect hash ledger.db ledger'.db new ∧ ledger'.rotations = ledger.rotations ++ new := by
    intro selects set grants succeeds same
    cases same
    exact ⟨[], .revoke succeeds, (append_nil _).symm⟩
  cases transaction with
  | insertFamily spec now familyId tokenId random =>
    obtain ⟨⟨created, db⟩, inserted, rfl⟩ := of_map stepped
    exact ⟨[], insertFamily_effect inserted, (append_nil _).symm⟩
  | rotateFamily refreshToken kind now newTokenId random =>
    obtain ⟨result, rotates, rfl⟩ := of_map stepped
    cases rotateFamilyIn_outcome rotates with
    | invalid => exact ⟨[], unchanged_effect hash ledger.db, (append_nil _).symm⟩
    | refused found ownKind =>
      exact ⟨[], refuseRotation_effect hash ledger.db _ _ now, (append_nil _).symm⟩
    | replaced ownKind live done =>
      obtain ⟨new, rotated, fresh, owner, issued, bounded, family, rfl⟩ := replaceToken_some done
      exact ⟨_, .rotate live fresh owner issued bounded, by rw [← family]; rfl⟩
  | revokeByRefreshToken refreshToken now reason =>
    rw [Ledger.step, Cloud.revokeByRefreshToken] at stepped
    split at stepped
    · exact revoked (FamilyRow.succeededBy_revoke now reason) stepped
    · cases stepped
      exact ⟨[], unchanged_effect hash ledger.db, (append_nil _).symm⟩
  | revokeFamily familyId now reason => exact revoked (FamilyRow.succeededBy_revoke now reason) stepped
  | revokeGrant accountId grantId now reason =>
    exact revoked (FamilyRow.succeededBy_revoke now reason) stepped

/-! ## Every run -/

theorem step_sound (ledger : Ledger Hash) (transaction : Transaction) (ledger' : Ledger Hash)
    (sound : Sound hash ledger) (stepped : ledger.step hash transaction = some ledger') :
    Sound hash ledger' := by
  obtain ⟨new, effect, recorded⟩ := step_effect stepped
  have kept := effect.sound sound
  rwa [← recorded] at kept

/-! ## What a replayed refresh token can do

A revoked family never rotates again, a token
that is presented a second time revokes its family, and the endpoints of the two
kinds do not reach each other's rows.  `rotates_once` puts them together.

Only the replay asks anything of the digest: a presented token has to be the one
that was issued, or it could be refused as malformed before its row is read.
-/

variable {Hash : Type}

/-! ## The two kinds -/

/-- The families an endpoint of this kind may not touch. -/
def Tables.familiesOutside (db : Tables Hash) (kind : FamilyKind) : List FamilyRow :=
  db.families.filter fun family => FamilyKind.of family.clientKind ≠ kind

/-- The tokens of those families. -/
def Tables.tokensOutside (db : Tables Hash) (kind : FamilyKind) : List (TokenRow Hash) :=
  db.tokens.filter fun token => (db.familiesOutside kind).any (·.id = token.familyId)

/-- A rotation touched no row of the other kind, and what it rotated is of its own kind. -/
structure Apart (kind : FamilyKind) (ledger ledger' : Ledger Hash) : Prop where
  families : ledger'.db.familiesOutside kind = ledger.db.familiesOutside kind
  tokens : ledger'.db.tokensOutside kind = ledger.db.tokensOutside kind
  rotated : ∃ new, ledger'.rotations = ledger.rotations ++ new ∧
    ∀ rotation ∈ new, ∃ family ∈ ledger.db.families,
      family.id = rotation.familyId ∧ FamilyKind.of family.clientKind = kind

theorem Apart.refl (kind : FamilyKind) (ledger : Ledger Hash) : Apart kind ledger ledger :=
  ⟨rfl, rfl, [], (append_nil _).symm, nofun⟩

section Outside

variable {hash : Secret → Hash} {ledger : Ledger Hash} {family : FamilyRow} {kind : FamilyKind}

variable (sound : Sound hash ledger)

include sound

variable (member : family ∈ ledger.db.families)

include member

variable (ownKind : FamilyKind.of family.clientKind = kind)

include ownKind

/-- A statement on one family of the kind leaves the families outside as they are. -/
theorem filter_outside {set : FamilyRow → FamilyRow}
    (keeps : ∀ row, (set row).clientKind = row.clientKind) :
    (updateWhere ledger.db.families (·.id = family.id) set).filter
        (fun row => FamilyKind.of row.clientKind ≠ kind) = ledger.db.familiesOutside kind := by
  refine filter_updateWhere fun row inside selected => ?_
  have same : row = family :=
    eq_of_key sound.familyIds inside member (of_decide_eq_true selected)
  rw [keeps, same, ownKind]
  simp

theorem not_outside : (ledger.db.familiesOutside kind).any (·.id = family.id) = false := by
  refine any_eq_false.mpr fun row inside same => ?_
  obtain ⟨rowIn, foreign⟩ := mem_filter.mp inside
  rw [eq_of_key sound.familyIds rowIn member (of_decide_eq_true same)] at foreign
  exact of_decide_eq_true foreign ownKind

/-- The replacement of a token of the kind leaves the tokens outside as they are. -/
theorem tokensOutside_replace {db' : Tables Hash} {token new : TokenRow Hash} {now : Time} (tokenIn : token ∈ ledger.db.tokens)
    (tokenOwner : family.id = token.familyId) (newOwner : new.familyId = family.id)
    (families : db'.familiesOutside kind = ledger.db.familiesOutside kind)
    (tokens : db'.tokens =
      updateWhere (ledger.db.tokens ++ [new]) (·.id = token.id) (TokenRow.use now new.id)) :
    db'.tokensOutside kind = ledger.db.tokensOutside kind := by
  have inside := not_outside sound member ownKind
  rw [Tables.tokensOutside, Tables.tokensOutside, families, tokens, filter_updateWhere,
    filter_append, filter_cons_of_neg, filter_nil, append_nil]
  · rw [newOwner, inside]
    exact Bool.false_ne_true
  · intro row source selected
    have owner : row.familyId = family.id := by
      rcases mem_append.mp source with old | single
      · rw [eq_of_key sound.tokenIds old tokenIn (of_decide_eq_true selected), tokenOwner]
      · rw [mem_singleton.mp single, newOwner]
    rw [show (row.use now new.id).familyId = row.familyId from rfl, owner]
    exact ⟨inside, inside⟩

theorem refuseRotation_apart (token : TokenRow Hash) (now : Time) :
    Apart kind ledger { ledger with db := (refuseRotation ledger.db token family now).2 } := by
  have families : (refuseRotation ledger.db token family now).2.familiesOutside kind =
      ledger.db.familiesOutside kind := by
    rw [refuseRotation_tables]
    split
    · exact filter_outside sound member ownKind fun _ => rfl
    · rfl
  refine ⟨families, ?_, [], (append_nil _).symm, nofun⟩
  rw [Tables.tokensOutside, families]
  rfl

end Outside

variable [DecidableEq Hash]

/-! ## Revocation -/

/-- A family is revoked, and none of its tokens rotated after the first `earlier` rotations. -/
structure Ended (familyId : Uuid) (earlier : List RotationRecord) (ledger : Ledger Hash) : Prop where
  revoked : ∃ family ∈ ledger.db.families, family.id = familyId ∧ family.revokedAt.isSome = true
  rotations : ∃ later, ledger.rotations = earlier ++ later ∧
    ∀ rotation ∈ later, rotation.familyId ≠ familyId

variable {hash : Secret → Hash}

theorem step_ended {familyId : Uuid} {earlier : List RotationRecord} (ledger : Ledger Hash)
    (transaction : Transaction) (ledger' : Ledger Hash) (sound : Sound hash ledger)
    (ended : Ended familyId earlier ledger) (stepped : ledger.step hash transaction = some ledger') :
    Ended familyId earlier ledger' := by
  obtain ⟨new, effect, recorded⟩ := step_effect stepped
  obtain ⟨⟨family, member, id, revoked⟩, later, prior, spared⟩ := ended
  constructor
  · obtain ⟨family', member', succeeds⟩ := effect.family_succeeds member
    exact ⟨family', member', succeeds.id.trans id, succeeds.revoked revoked⟩
  · refine ⟨later ++ new, by rw [recorded, prior, append_assoc], ?_⟩
    intro rotation inside
    rcases mem_append.mp inside with old | recent
    · exact spared rotation old
    · rintro rfl
      obtain ⟨rotated, rotatedIn, rotatedId, unrevoked⟩ := effect.rotation_unrevoked rotation recent
      have same : rotated = family :=
        eq_of_key sound.familyIds rotatedIn member (rotatedId.trans id.symm)
      rw [← same, unrevoked] at revoked
      exact absurd revoked (by simp)

variable {ledger : Ledger Hash} {family : FamilyRow}

/-- A revoked family stays revoked and rotates no more. -/
theorem run_ended {final : Ledger Hash} {later : List Transaction} (sound : Sound hash ledger)
    (member : family ∈ ledger.db.families) (revoked : family.revokedAt.isSome = true)
    (continues : run (Ledger.step hash) ledger later = some final) :
    Ended family.id ledger.rotations final := by
  refine (run_invariant (fun state => Sound hash state ∧ Ended family.id ledger.rotations state)
    ?_ later ledger final ⟨sound, ?_⟩ continues).2
  · rintro state transaction next ⟨stateSound, ended⟩ stepped
    exact ⟨step_sound state transaction next stateSound stepped,
      step_ended state transaction next stateSound ended stepped⟩
  · exact ⟨⟨family, member, rfl, revoked⟩, [], (append_nil _).symm, nofun⟩

/-! ## Replay -/

variable {token : TokenRow Hash}

theorem sessionRow_of_mem (sound : Sound hash ledger) (tokenIn : token ∈ ledger.db.tokens)
    (familyIn : family ∈ ledger.db.families) (owner : family.id = token.familyId) :
    ledger.db.sessionRow token.tokenHash = some (token, family) := by
  rw [Tables.sessionRow, lookup_of_mem sound.tokenHashes tokenIn]
  show (lookup FamilyRow.id token.familyId ledger.db.families).bind _ = _
  rw [← owner, lookup_of_mem sound.familyIds familyIn]
  rfl

variable {refreshToken : Secret}

/-- A used token presented to its own kind of endpoint is refused, and never as malformed. -/
theorem rotateFamilyIn_replay (injective : Function.Injective hash)
    (sound : Sound hash ledger) (tokenIn : token ∈ ledger.db.tokens)
    (hashed : token.tokenHash = hash refreshToken) (used : token.usedAt.isSome = true)
    (familyIn : family ∈ ledger.db.families) (owner : family.id = token.familyId) (now : Time)
    (newTokenId : Uuid) (random : RandomBytes) :
    rotateFamilyIn hash ledger.db refreshToken (.of family.clientKind) now newTokenId random =
      some (refuseRotation ledger.db token family now) := by
  have valid : validateRefreshToken refreshToken = true := by
    obtain ⟨source, issued⟩ := sound.issued token tokenIn
    rw [← injective (issued.symm.trans hashed)]
    exact validateRefreshToken_random source
  have found : ledger.db.sessionRow (hash refreshToken) = some (token, family) := by
    rw [← hashed]
    exact sessionRow_of_mem sound tokenIn familyIn owner
  have ownKind := (ownKind_iff family.clientKind (.of family.clientKind)).mpr rfl
  rw [rotateFamilyIn, valid, found]
  simp only [Bool.not_true, Bool.false_eq_true, if_false, ownKind, ne_eq, not_true_eq_false, used,
    Bool.true_or, if_true]

/-! ## The kinds stay apart -/

section Kinds

variable {hash : Secret → Hash} {ledger : Ledger Hash} {family : FamilyRow} {kind : FamilyKind}
  {random : RandomBytes} {newTokenId : Uuid}

theorem replaceToken_apart {now : Time} {token : TokenRow Hash} {result : Rotation × Tables Hash}
    (sound : Sound hash ledger) (ownKind : FamilyKind.of family.clientKind = kind)
    (live : Live hash ledger.db refreshToken now token family)
    (done : replaceToken hash ledger.db token family now newTokenId random = some result) :
    Apart kind ledger (ledger.record refreshToken now result) := by
  obtain ⟨new, rotated, _, owner, _, _, same, rfl⟩ := replaceToken_some done
  have families := filter_outside sound live.family_mem ownKind
    fun row => (row.succeededBy_touch now).clientKind
  refine ⟨families, ?_, _, rfl, ?_⟩
  · exact tokensOutside_replace sound live.family_mem ownKind live.token_mem live.familyId owner
      families rfl
  · intro rotation member
    obtain rfl := mem_singleton.mp member
    exact ⟨family, live.family_mem, same.symm, ownKind⟩

theorem rotateFamily_apart {now : Time} {ledger' : Ledger Hash} (sound : Sound hash ledger)
    (stepped : ledger.step hash (.rotateFamily refreshToken kind now newTokenId random) =
      some ledger') : Apart kind ledger ledger' := by
  obtain ⟨result, rotates, rfl⟩ := of_map stepped
  cases rotateFamilyIn_outcome rotates with
  | invalid => exact .refl kind ledger
  | refused found ownKind =>
    obtain ⟨_, _, member, _⟩ := sessionRow_some found
    exact refuseRotation_apart sound member ownKind _ now
  | replaced ownKind live done => exact replaceToken_apart sound ownKind live done

end Kinds

/-! ## The guarantees -/

/-- What holds at a state a run reached, of its past and of whatever runs on from it. -/
structure RotatesOnce (hash : Secret → Hash) (ledger : Ledger Hash) : Prop where
  /-- At most one token of a family is unused. -/
  single : ∀ familyId : Uuid, (ledger.db.tokens.filter fun token =>
    decide (token.familyId = familyId) && token.usedAt.isNone).length ≤ 1
  once : ∀ refreshToken : Secret, (ledger.rotations.filter (·.token = refreshToken)).length ≤ 1
  /-- A rotation came before both expiries of its token. -/
  timely : ∀ rotation ∈ ledger.rotations, ∃ token ∈ ledger.db.tokens,
    ∃ family ∈ ledger.db.families, token.tokenHash = hash rotation.token ∧
      family.id = token.familyId ∧ rotation.familyId = family.id ∧
      rotation.now < token.inactivityExpiresAt ∧ rotation.now < family.absoluteExpiresAt
  bounded : ∀ token ∈ ledger.db.tokens, ∀ family ∈ ledger.db.families,
    family.id = token.familyId → token.inactivityExpiresAt ≤ family.absoluteExpiresAt
  /-- What is revoked stays so, and its tokens rotate no more. -/
  ended : ∀ family ∈ ledger.db.families, family.revokedAt.isSome = true →
    ∀ later final, run (Ledger.step hash) ledger later = some final →
      Ended family.id ledger.rotations final
  /-- Presenting a used token to an endpoint of its kind is committed, and ends the family. -/
  replay : ∀ token ∈ ledger.db.tokens, ∀ family ∈ ledger.db.families,
    family.id = token.familyId → token.usedAt.isSome = true →
    ∀ refreshToken, token.tokenHash = hash refreshToken → ∀ now newTokenId random,
      ∃ ledger', ledger.step hash
          (.rotateFamily refreshToken (.of family.clientKind) now newTokenId random) =
            some ledger' ∧ Ended family.id ledger.rotations ledger'
  apart : ∀ refreshToken kind now newTokenId random ledger',
    ledger.step hash (.rotateFamily refreshToken kind now newTokenId random) = some ledger' →
      Apart kind ledger ledger'

theorem replay_ended (injective : Function.Injective hash)
    (sound : Sound hash ledger) (tokenIn : token ∈ ledger.db.tokens)
    (familyIn : family ∈ ledger.db.families) (owner : family.id = token.familyId)
    (used : token.usedAt.isSome = true) (hashed : token.tokenHash = hash refreshToken) (now : Time)
    (newTokenId : Uuid) (random : RandomBytes) :
    ∃ ledger', ledger.step hash
        (.rotateFamily refreshToken (.of family.clientKind) now newTokenId random) =
          some ledger' ∧ Ended family.id ledger.rotations ledger' := by
  have refused := rotateFamilyIn_replay injective sound tokenIn hashed used familyIn owner now
    newTokenId random
  refine ⟨{ ledger with db := (refuseRotation ledger.db token family now).2 }, ?_, ?_, [],
    (append_nil _).symm, nofun⟩
  · rw [Ledger.step, refused]
    rfl
  · exact refuseRotation_revokes used familyIn now

/-- **Refresh tokens rotate once, and a replay ends the session**: after any sequence of
transactions, whatever their times. -/
theorem rotates_once (hash : Secret → Hash) (injective : Function.Injective hash)
    (grants : List GrantRow) (codes : List (CodeRow Hash)) (transactions : List Transaction)
    (ledger : Ledger Hash)
    (reached : run (Ledger.step hash) (.start grants codes) transactions = some ledger) :
    RotatesOnce hash ledger := by
  have sound : Sound hash ledger :=
    run_invariant (Sound hash) (fun state transaction next kept stepped =>
      step_sound state transaction next kept stepped) transactions _ ledger
      (.start hash grants codes) reached
  refine ⟨?_, ?_, ?_, sound.bounded, ?_, ?_, ?_⟩
  · intro familyId
    refine length_filter_le_one sound.tokenIds ?_
    intro token member token' member' unused unused'
    rw [Bool.and_eq_true, decide_eq_true_eq, Option.isNone_iff_eq_none] at unused unused'
    exact sound.single token member token' member' (unused.1.trans unused'.1.symm) unused.2
      unused'.2
  · intro refreshToken
    refine length_filter_le_one sound.once ?_
    intro rotation _ rotation' _ presented presented'
    rw [of_decide_eq_true presented, of_decide_eq_true presented']
  · intro rotation member
    obtain ⟨token, tokenIn, family, familyIn, hashed, owner, same, _, active, current⟩ :=
      sound.recorded rotation member
    exact ⟨token, tokenIn, family, familyIn, hashed, owner, same, active, current⟩
  · intro family member revoked later final continues
    exact run_ended sound member revoked continues
  · intro token tokenIn family familyIn owner used refreshToken hashed now newTokenId random
    exact replay_ended injective sound tokenIn familyIn owner used hashed now newTokenId random
  · intro refreshToken kind now newTokenId random ledger' stepped
    exact rotateFamily_apart sound stepped

/-- A runtime signs in and rotates its token; the token it gave up is presented again. -/
def replayedRun : List Transaction :=
  let first : RandomBytes := constantBytes 0
  let second : RandomBytes := constantBytes 1
  [.insertFamily ⟨⟨7⟩, "runtime".toList, .runtime, "Laptop".toList, 0⟩ 0 ⟨1⟩ ⟨2⟩ first,
    .rotateFamily (randomRefreshToken first) .native 5 ⟨3⟩ second,
    .rotateFamily (randomRefreshToken first) .native 9 ⟨4⟩ first]

theorem rotates_once_replayedRun :
    ∃ ledger, run (Ledger.step id) (.start [] []) replayedRun = some ledger ∧
      (ledger.rotations.map (·.now), ledger.db.families.map (·.revokedAt)) = ([5], [some 9]) ∧
      RotatesOnce id ledger := by
  have outcome : (run (Ledger.step id) (.start [] []) replayedRun).map (fun ledger =>
      (ledger.rotations.map (·.now), ledger.db.families.map (·.revokedAt))) =
        some ([5], [some 9]) := by decide +kernel
  obtain ⟨ledger, reached, ends⟩ := of_map outcome
  exact ⟨ledger, reached, ends,
    rotates_once id Function.injective_id [] [] replayedRun ledger reached⟩

end Alera.Cloud
