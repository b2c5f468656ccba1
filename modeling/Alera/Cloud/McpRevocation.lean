/-
# Alera.Cloud.McpRevocation -- revoking a grant against requests in flight

A code leads to at most one family in every run (`CodesOnce`).

Revoking a grant is not final in every run: a redemption that has consumed its code goes
on to open its family and to issue its access token, whatever happens to the grant
meanwhile (`revoked_grant_reopened`), and a client's revocation marks the grant before it
reaches the families.  It is final in the runs whose revocations find neither
(`revocation_final`): then a revoked grant has no redemption under way and only revoked
families (`Closed`), and a grant that is closed stays closed.
-/
import Alera.Cloud.McpEndpoint

namespace Alera.Cloud

open Theory List Theory.Tables
open Function (update update_of_ne update_self)

set_option autoImplicit false

namespace TokenEndpoint

variable {Hash : Type}

/-! ## Codes -/

/-- A code that was redeemed is used up, and one redemption of it is under way or done. -/
structure CodesOnce (s : TokenEndpoint Hash) : Prop where
  codeHashes : (s.db.codes.map CodeRow.codeHash).Nodup
  spent : ∀ opened ∈ s.opened, ∃ row ∈ s.db.codes,
    row.codeHash = opened.codeHash ∧ row.usedAt.isSome = true
  once : (s.opened.map Opened.codeHash).Nodup
  redeeming : ∀ id row grant, s.requests id = some (.redeeming row grant) →
    (∃ row' ∈ s.db.codes, row'.codeHash = row.codeHash ∧ row'.usedAt.isSome = true) ∧
      ∀ opened ∈ s.opened, opened.codeHash ≠ row.codeHash
  single : ∀ id id' row row' grant grant', s.requests id = some (.redeeming row grant) →
    s.requests id' = some (.redeeming row' grant') → row.codeHash = row'.codeHash → id = id'

variable {s s' : TokenEndpoint Hash}

theorem CodesOnce.mono (once : CodesOnce s) (codeHashes : (s'.db.codes.map CodeRow.codeHash).Nodup)
    (kept : ∀ row ∈ s.db.codes, row.usedAt.isSome = true → ∃ row' ∈ s'.db.codes, row'.codeHash = row.codeHash ∧ row'.usedAt.isSome = true)
    (opened : s'.opened = s.opened)
    (fewer : ∀ id row grant, s'.requests id = some (.redeeming row grant) → s.requests id = some (.redeeming row grant)) :
    CodesOnce s' where
  codeHashes := codeHashes
  spent := by
    rw [opened]
    intro family member
    obtain ⟨row, rowIn, hashed, used⟩ := once.spent family member
    obtain ⟨row', rowIn', same, used'⟩ := kept row rowIn used
    exact ⟨row', rowIn', same.trans hashed, used'⟩
  once := by
    rw [opened]
    exact once.once
  redeeming := by
    intro id row grant waiting
    obtain ⟨⟨row₁, rowIn, hashed, used⟩, unopened⟩ := once.redeeming id row grant (fewer _ _ _ waiting)
    obtain ⟨row₂, rowIn', same, used'⟩ := kept row₁ rowIn used
    rw [opened]
    exact ⟨⟨row₂, rowIn', same.trans hashed, used'⟩, unopened⟩
  single := by
    intro id id' row row' grant grant' waiting waiting'
    exact once.single id id' row row' grant grant' (fewer _ _ _ waiting) (fewer _ _ _ waiting')

variable {requests : RequestId → Option (Request Hash)}

/-- A request that redeems no code is not one that redeems one. -/
theorem redeeming_of_others
    (others : ∀ id request, requests id = some request → s.requests id = some request ∨ request.redeems = none)
    (id : RequestId) (row : CodeRow Hash) (grant : GrantRow)
    (waiting : requests id = some (.redeeming row grant)) :
    s.requests id = some (.redeeming row grant) := by
  rcases others id _ waiting with found | harmless
  · exact found
  · cases harmless

variable {row : CodeRow Hash}

/-- A fresh redemption of a code nobody has redeemed. -/
theorem CodesOnce.begin {id : RequestId} (grant : GrantRow) (once : CodesOnce s)
    (spent : ∃ row' ∈ s.db.codes, row'.codeHash = row.codeHash ∧ row'.usedAt.isSome = true)
    (unopened : ∀ opened ∈ s.opened, opened.codeHash ≠ row.codeHash)
    (alone : ∀ id' row' grant', s.requests id' = some (.redeeming row' grant') → row'.codeHash ≠ row.codeHash) :
    CodesOnce (s.put id (some (.redeeming row grant))) := by
  have waits : ∀ {id' row' grant'}, update s.requests id (some (.redeeming row grant)) id' =
      some (.redeeming row' grant') →
      id' = id ∧ row' = row ∨ id' ≠ id ∧ s.requests id' = some (.redeeming row' grant') := by
    intro id' row' grant' waiting
    obtain ⟨here, ⟨⟩⟩ | before := of_update waiting
    · exact .inl ⟨here, rfl⟩
    · exact .inr before
  refine ⟨once.codeHashes, once.spent, once.once, ?_, ?_⟩
  · intro id' row' grant' waiting
    rcases waits waiting with ⟨_, rfl⟩ | ⟨_, before⟩
    · exact ⟨spent, unopened⟩
    · exact once.redeeming id' row' grant' before
  · intro id' id'' row' row'' grant' grant'' waiting waiting' same
    rcases waits waiting with ⟨here, rfl⟩ | ⟨_, before⟩
    · rcases waits waiting' with ⟨here', _⟩ | ⟨_, before'⟩
      · rw [here, here']
      · exact absurd same.symm (alone _ _ _ before')
    · rcases waits waiting' with ⟨_, rfl⟩ | ⟨_, before'⟩
      · exact absurd same (alone _ _ _ before)
      · exact once.single id' id'' row' row'' grant' grant'' before before' same

theorem CodesOnce.start : CodesOnce (start : TokenEndpoint Hash) :=
  ⟨nodup_nil, nofun, nodup_nil, nofun, nofun⟩

variable {grant : GrantRow}

/-- Opening the family ends the redemption of its code. -/
theorem CodesOnce.openFamily {id : RequestId} {family : FamilyRow} {db : Tables Hash}
    (once : CodesOnce s) (underWay : s.requests id = some (.redeeming row grant))
    (codes : db.codes = s.db.codes) :
    CodesOnce { s.put id (some (.issuing row grant family.id)) with
      db, opened := s.opened ++ [⟨row.codeHash, family.id⟩] } := by
  obtain ⟨spent, unopened⟩ := once.redeeming id row grant underWay
  have waits : ∀ {id' row' grant'}, update s.requests id
      (some (.issuing row grant family.id)) id' = some (.redeeming row' grant') →
      id' ≠ id ∧ s.requests id' = some (.redeeming row' grant') := by
    intro id' row' grant' waiting
    obtain ⟨-, ⟨⟩⟩ | before := of_update waiting
    exact before
  refine ⟨by rw [codes]; exact once.codeHashes, ?_, ?_, ?_, ?_⟩
  · rw [codes]
    exact forall_mem_snoc once.spent spent
  · exact nodup_append_singleton once.once unopened
  · rw [codes]
    intro id' row' grant' waiting
    obtain ⟨elsewhere, before⟩ := waits waiting
    obtain ⟨unspent, unopened⟩ := once.redeeming id' row' grant' before
    refine ⟨unspent, forall_mem_snoc unopened fun same => ?_⟩
    exact elsewhere (once.single id' id row' row grant' grant before underWay same.symm)
  · intro id' id'' row' row'' grant' grant'' waiting waiting'
    exact once.single id' id'' row' row'' grant' grant'' (waits waiting).2 (waits waiting').2

/-! ## Closed grants -/

/-- No redemption of the grant is under way and its families are revoked. -/
structure Closed (s : TokenEndpoint Hash) (accountId grantId : Uuid) : Prop where
  quiet : ¬ s.Redeems grantId
  families : ∀ family ∈ s.db.families, family.belongsTo accountId grantId = true →
    family.revokedAt.isSome = true

/-- What a grant is promised from one state to a later one. -/
structure Final (accountId grantId : Uuid) (s s' : TokenEndpoint Hash) : Prop where
  revoked : ∀ family ∈ s'.db.families, family.belongsTo accountId grantId = true →
    family.revokedAt.isSome = true
  /-- No family is new. -/
  families : (s'.db.families.filter (·.belongsTo accountId grantId)).map FamilyRow.id =
    (s.db.families.filter (·.belongsTo accountId grantId)).map FamilyRow.id
  /-- No access token is new. -/
  issued : ∃ new, s'.issued = s.issued ++ new ∧ ∀ input ∈ new, input.grantId ≠ grantId

variable {grantId : Uuid}

theorem redeems_of_others (same : s'.requests = requests)
    (others : ∀ id request, requests id = some request → s.requests id = some request ∨ request.redeems = none)
    (redeems : s'.Redeems grantId) :
    s.Redeems grantId := by
  obtain ⟨id, request, found, target⟩ := redeems
  rw [same] at found
  rcases others id request found with before | harmless
  · exact ⟨id, request, before, target⟩
  · rw [harmless] at target
    cases target

theorem not_redeems_of_idle (idle : ∀ id, s.requests id = none) (grantId : Uuid) :
    ¬ s.Redeems grantId := by
  rintro ⟨id, request, found, _⟩
  rw [idle id] at found
  cases found

variable {request : Option (Request Hash)}

theorem redeems_of_put {id : RequestId}
    (same : s'.requests = (s.put id request).requests) (redeems : s'.Redeems grantId) :
    s.Redeems grantId ∨ ∃ r, request = some r ∧ r.redeems = some grantId := by
  obtain ⟨id', r, found, target⟩ := redeems
  rw [same] at found
  obtain ⟨-, entry⟩ | ⟨-, entry⟩ := of_update found
  · exact .inr ⟨r, entry, target⟩
  · exact .inl ⟨id', r, entry, target⟩

variable {accountId : Uuid}

theorem Final.trans {s₁ s₂ s₃ : TokenEndpoint Hash} (first : Final accountId grantId s₁ s₂)
    (second : Final accountId grantId s₂ s₃) :
    Final accountId grantId s₁ s₃ := by
  obtain ⟨new, issued, none⟩ := first.issued
  obtain ⟨new', issued', none'⟩ := second.issued
  refine ⟨second.revoked, second.families.trans first.families, new ++ new', ?_, ?_⟩
  · rw [issued', issued, append_assoc]
  · intro input member
    exact (mem_append.mp member).elim (none input) (none' input)

/-- Statements that keep families with their grant and their revocation. -/
theorem Final.of_update {selects : FamilyRow → Bool} {set : FamilyRow → FamilyRow}
    (revoked : ∀ family ∈ s.db.families, family.belongsTo accountId grantId = true → family.revokedAt.isSome = true)
    (stays : ∀ row : FamilyRow, row.StaysWith (set row))
    (families : s'.db.families = updateWhere s.db.families selects set)
    (issued : ∃ new, s'.issued = s.issued ++ new ∧ ∀ input ∈ new, input.grantId ≠ grantId) :
    Final accountId grantId s s' where
  revoked := by
    rw [families]
    intro family member belongs
    obtain ⟨old, source, rfl⟩ := mem_updateWhere.mp member
    by_cases chosen : selects old = true
    · rw [if_pos chosen] at belongs ⊢
      rw [(stays old).belongs] at belongs
      exact (stays old).revoked (revoked old source belongs)
    · rw [if_neg chosen] at belongs ⊢
      exact revoked old source belongs
  families := by
    rw [families]
    exact map_filter_updateWhere (fun row _ _ => (stays row).belongs accountId grantId)
      fun row => (stays row).id
  issued := issued

variable [DecidableEq Hash]

/-! ## Every move -/

/-- Consuming an unused code spends a code nobody redeems. -/
theorem CodesOnce.consume {id : RequestId} (once : CodesOnce s)
    (now : Time) (free : s.requests id = none) (rowIn : row ∈ s.db.codes)
    (unused : row.usedAt = none) (goesOn : request = none ∨ request = some (.redeeming row grant)) :
    CodesOnce { s.put id request with
      db := { s.db with
        codes := updateWhere s.db.codes (·.codeHash = row.codeHash) (CodeRow.use now) } } := by
  have unspent : ∀ {codeHash : Hash}, (∃ row' ∈ s.db.codes, row'.codeHash = codeHash ∧
      row'.usedAt.isSome = true) → codeHash ≠ row.codeHash := by
    rintro _ ⟨row', rowIn', rfl, used⟩ same
    rw [eq_of_key once.codeHashes rowIn' rowIn same, unused] at used
    exact absurd used (by simp)
  have spent : CodesOnce { s with
      db := { s.db with
        codes := updateWhere s.db.codes (·.codeHash = row.codeHash) (CodeRow.use now) } } := by
    refine once.mono ?_ ?_ rfl fun _ _ _ waiting => waiting
    · have kept : ∀ row : CodeRow Hash, (row.use now).codeHash = row.codeHash := fun _ => rfl
      rw [map_updateWhere kept]
      exact once.codeHashes
    · intro row' rowIn' used
      refine ⟨_, mem_updateWhere_of_mem rowIn', ?_⟩
      split
      · exact ⟨rfl, rfl⟩
      · exact ⟨rfl, used⟩
  rcases goesOn with rfl | rfl
  · rwa [put_of_free free]
  · refine spent.begin grant ⟨_, mem_updateWhere_of_selected rowIn (decide_eq_true rfl), rfl, rfl⟩
      ?_ ?_
    · intro opened member
      exact unspent (once.spent opened member)
    · intro id' row' grant' waiting
      exact unspent (once.redeeming id' row' grant' waiting).1

variable {meets : Prop}

theorem Moves.codesOnce (moves : Moves meets s s') (once : CodesOnce s) : CodesOnce s' := by
  have unchanged : ∀ row ∈ s.db.codes, row.usedAt.isSome = true →
      ∃ row' ∈ s.db.codes, row'.codeHash = row.codeHash ∧ row'.usedAt.isSome = true :=
    fun row member used => ⟨row, member, rfl, used⟩
  cases moves with
  | approve freshGrant unrevoked freshCode =>
    refine once.mono (nodup_append_singleton once.codeHashes freshCode) ?_ rfl
      fun _ _ _ waiting => waiting
    intro row member used
    exact ⟨row, mem_append_left _ member, rfl, used⟩
  | consume free rowIn _ _ unused goesOn =>
    exact once.consume _ free rowIn unused (goesOn.imp_right And.left)
  | openFamily underWay => exact once.openFamily underWay rfl
  | @issueAccess id =>
    exact once.mono once.codeHashes unchanged rfl
      (redeeming_of_others (s.put_others id none nofun))
  | settle _ others | revoke _ others =>
    exact once.mono once.codeHashes unchanged rfl (redeeming_of_others others)
  | mark others => exact once.mono once.codeHashes unchanged rfl (redeeming_of_others others)

/-- A closed grant that is revoked stays closed, and gets nothing new. -/
theorem Moves.closed (moves : Moves meets s s') (unique : (s.db.grants.map GrantRow.id).Nodup)
    (grantIn : grant ∈ s.db.grants) (revoked : grant.revokedAt.isSome = true)
    (closed : s.Closed grant.accountId grant.id) :
    ¬ s'.Redeems grant.id ∧ Final grant.accountId grant.id s s' := by
  have nothing : ∃ new, s.issued = s.issued ++ new ∧ ∀ input ∈ new, input.grantId ≠ grant.id :=
    ⟨[], (append_nil _).symm, nofun⟩
  have unrevoked : ∀ other ∈ s.db.grants, other.revokedAt = none → other.id ≠ grant.id := by
    intro other member live same
    rw [eq_of_key unique member grantIn same] at live
    rw [live] at revoked
    cases revoked
  cases moves with
  | approve => exact ⟨closed.quiet, closed.families, rfl, nothing⟩
  | @consume id row other _ request _ _ otherIn owner _ goesOn =>
    refine ⟨fun redeems => ?_, closed.families, rfl, nothing⟩
    rcases redeems_of_put rfl redeems with before | ⟨r, same, target⟩
    · exact closed.quiet before
    · rcases goesOn with stops | ⟨goes, live⟩
      · rw [stops] at same
        cases same
      · rw [goes] at same
        cases same
        exact unrevoked other otherIn live (owner.trans (Option.some.inj target))
  | @openFamily id row other family _ underWay clientId =>
    have elsewhere : row.grantId ≠ grant.id := by
      intro same
      exact closed.quiet ⟨id, _, underWay, congrArg some same⟩
    have foreign : family.belongsTo grant.accountId grant.id = false := by
      refine Bool.eq_false_iff.mpr fun belongs => elsewhere ?_
      simp only [FamilyRow.belongsTo, Bool.and_eq_true, decide_eq_true_eq] at belongs
      exact Uuid.text_injective (clientId.symm.trans belongs.2)
    refine ⟨fun redeems => ?_, ?_, ?_, nothing⟩
    · rcases redeems_of_put rfl redeems with before | ⟨r, same, target⟩
      · exact closed.quiet before
      · cases same
        exact elsewhere (Option.some.inj target)
    · refine forall_mem_snoc closed.families fun belongs => ?_
      rw [foreign] at belongs
      cases belongs
    · rw [filter_append, filter_cons_of_neg (by rw [foreign]; exact Bool.false_ne_true),
        filter_nil, append_nil]
  | @issueAccess id row other familyId input underWay grantId =>
    refine ⟨fun redeems => ?_, closed.families, rfl, [input], rfl, ?_⟩
    · rcases redeems_of_put rfl redeems with before | ⟨r, same, _⟩
      · exact closed.quiet before
      · cases same
    · intro input' member same
      rw [mem_singleton.mp member, grantId] at same
      exact closed.quiet ⟨id, _, underWay, congrArg some same⟩
  | @settle requests tokens selects set new stays others live =>
    refine ⟨fun redeems => closed.quiet (redeems_of_others rfl others redeems),
      .of_update closed.families stays rfl ⟨new, rfl, ?_⟩⟩
    intro input member same
    obtain ⟨other, otherIn, id, isLive⟩ := live input member
    exact unrevoked other otherIn isLive (id.trans same)
  | @revoke requests tokens selects set accountId grantId now reason stays others =>
    refine ⟨fun redeems => closed.quiet (redeems_of_others rfl others redeems), ?_⟩
    -- The families of the rotation, then those of the revocation.
    have rotated : Final grant.accountId grant.id s
        { s with db := { s.db with families := updateWhere s.db.families selects set, tokens } } :=
      .of_update closed.families stays rfl nothing
    exact rotated.trans
      (.of_update rotated.revoked (FamilyRow.staysWith_revoke now reason) rfl nothing)
  | mark others =>
    exact ⟨fun redeems => closed.quiet (redeems_of_others rfl others redeems), closed.families,
      rfl, nothing⟩

theorem revoke_id (now : Time) (reason : String) (grant : GrantRow) :
    (grant.revoke now reason).id = grant.id := rfl

theorem Moves.grantIds (moves : Moves meets s s') (unique : (s.db.grants.map GrantRow.id).Nodup) :
    (s'.db.grants.map GrantRow.id).Nodup := by
  cases moves with
  | approve freshGrant => exact nodup_append_singleton unique freshGrant
  | consume => exact unique
  | openFamily => exact unique
  | issueAccess => exact unique
  | settle => exact unique
  | @revoke _ _ _ _ _ _ now reason =>
    exact (map_updateWhere (revoke_id now reason)).symm ▸ unique
  | @mark _ _ _ now reason => exact (map_updateWhere (revoke_id now reason)).symm ▸ unique

/-- A grant row before and after a step. -/
structure SameGrant (old new : GrantRow) : Prop where
  id : new.id = old.id
  accountId : new.accountId = old.accountId
  revoked : old.revokedAt.isSome = true → new.revokedAt.isSome = true

theorem sameGrant_ite (now : Time) (reason : String) (selected : Bool) (grant : GrantRow) :
    SameGrant grant (if selected then grant.revoke now reason else grant) := by
  cases selected with
  | true =>
    refine ⟨rfl, rfl, fun _ => ?_⟩
    cases first : grant.revokedAt <;> simp [GrantRow.revoke, first]
  | false => exact ⟨rfl, rfl, fun revoked => revoked⟩

theorem Moves.grant_stays (moves : Moves meets s s') (member : grant ∈ s.db.grants) :
    ∃ grant' ∈ s'.db.grants, SameGrant grant grant' := by
  have same : SameGrant grant grant := ⟨rfl, rfl, fun revoked => revoked⟩
  cases moves with
  | approve => exact ⟨grant, mem_append_left _ member, same⟩
  | consume | openFamily | issueAccess | settle => exact ⟨grant, member, same⟩
  | revoke | mark => exact ⟨_, mem_updateWhere_of_mem member, sameGrant_ite _ _ _ grant⟩

/-- A row that is revoked after a revocation was so before, or is the one revoked. -/
theorem revoke_cases {grants : List GrantRow} {now : Time} {reason : String} {grant' : GrantRow}
    (member : grant' ∈ updateWhere grants (fun grant => grant.id = grantId && grant.accountId = accountId) (GrantRow.revoke now reason))
    (revoked : grant'.revokedAt.isSome = true) :
    (∃ grant ∈ grants, SameGrant grant grant' ∧ grant.revokedAt.isSome = true) ∨
      ∃ grant ∈ grants, grant.id = grantId ∧ grant.accountId = accountId ∧
        grant.revokedAt = none ∧ grant'.id = grantId ∧ grant'.accountId = accountId := by
  obtain ⟨grant, grantIn, rfl⟩ := mem_updateWhere.mp member
  have same := sameGrant_ite now reason
    (decide (grant.id = grantId) && decide (grant.accountId = accountId)) grant
  cases already : grant.revokedAt with
  | some _ => exact .inl ⟨grant, grantIn, same, by rw [already]; rfl⟩
  | none =>
    by_cases selected : (decide (grant.id = grantId) && decide (grant.accountId = accountId)) = true
    · obtain ⟨id, account⟩ : grant.id = grantId ∧ grant.accountId = accountId := by
        simpa using selected
      exact .inr ⟨grant, grantIn, id, account, already, same.id.trans id,
        same.accountId.trans account⟩
    · rw [if_neg selected, already] at revoked
      cases revoked

/-- Where a grant is revoked by a step that meets the condition, it is closed afterwards. -/
theorem Moves.revoked_cases (moves : Moves meets s s') (met : meets) {grant' : GrantRow}
    (member : grant' ∈ s'.db.grants) (revoked : grant'.revokedAt.isSome = true) :
    (∃ grant ∈ s.db.grants, SameGrant grant grant' ∧ grant.revokedAt.isSome = true) ∨
      s'.Closed grant'.accountId grant'.id := by
  have before : grant' ∈ s.db.grants →
      ∃ grant ∈ s.db.grants, SameGrant grant grant' ∧ grant.revokedAt.isSome = true :=
    fun inside => ⟨grant', inside, ⟨rfl, rfl, fun revoked => revoked⟩, revoked⟩
  cases moves with
  | approve _ unrevoked =>
    rcases mem_append.mp member with old | single
    · exact .inl (before old)
    · rw [mem_singleton.mp single, unrevoked] at revoked
      cases revoked
  | consume | openFamily | issueAccess | settle => exact .inl (before member)
  | @revoke requests tokens selects set accountId grantId now reason stays others clear =>
    rcases revoke_cases member revoked with old | ⟨grant, grantIn, id, account, live, id', account'⟩
    · exact .inl old
    · rw [id', account']
      refine .inr ⟨fun redeems => clear met grant grantIn id account live
        (redeems_of_others rfl others redeems), ?_⟩
      intro family inside belongs
      obtain ⟨old, -, -, rfl⟩ | ⟨-, kept⟩ := mem_updateWhere_cases inside
      · exact old.revoke_isSome now reason
      · exact absurd belongs kept
  | mark others clear =>
    rcases revoke_cases member revoked with old | ⟨grant, grantIn, id, account, live, id', account'⟩
    · exact .inl old
    · rw [id', account']
      exact .inr ⟨fun redeems => (clear met).1 (redeems_of_others rfl others redeems),
        (clear met).2⟩

/-! ## Every run -/

/-- Grants are known by their id, and the revoked ones are closed. -/
structure Settled (s : TokenEndpoint Hash) : Prop where
  grantIds : (s.db.grants.map GrantRow.id).Nodup
  closed : ∀ grant ∈ s.db.grants, grant.revokedAt.isSome = true → s.Closed grant.accountId grant.id

theorem Moves.settled (moves : Moves meets s s') (met : meets) (settled : Settled s) :
    Settled s' := by
  refine ⟨moves.grantIds settled.grantIds, fun grant' member revoked => ?_⟩
  rcases moves.revoked_cases met member revoked with ⟨grant, grantIn, same, before⟩ | closed
  · obtain ⟨quiet, final⟩ := moves.closed settled.grantIds grantIn before
      (settled.closed grant grantIn before)
    rw [same.id, same.accountId]
    exact ⟨quiet, final.revoked⟩
  · exact closed

/-- A revoked grant over a run whose steps meet the condition. -/
theorem run_final {env : Primitives Hash} {t : TokenEndpoint Hash} {events : List TokenEvent}
    (guarded : Guarded (step env) (Meets env) s events) (ran : run (step env) s events = some t)
    (settled : Settled s) (member : grant ∈ s.db.grants) (revoked : grant.revokedAt.isSome = true) :
    Final grant.accountId grant.id s t := by
  have start : Final grant.accountId grant.id s s :=
    ⟨(settled.closed grant member revoked).families, rfl, [], (append_nil _).symm, nofun⟩
  refine (run_invariant_of_guarded
    (fun state => Settled state ∧ (∃ row ∈ state.db.grants, SameGrant grant row) ∧
      Final grant.accountId grant.id s state)
    ?_ events s t guarded ⟨settled, ⟨grant, member, rfl, rfl, fun h => h⟩, start⟩ ran).2.2
  rintro state event next ⟨stateSettled, ⟨row, rowIn, same⟩, final⟩ meets stepped
  have moves := step_moves stepped
  obtain ⟨row', rowIn', same'⟩ := moves.grant_stays rowIn
  have rowRevoked := same.revoked revoked
  obtain ⟨_, further⟩ := moves.closed stateSettled.grantIds rowIn rowRevoked
    (stateSettled.closed row rowIn rowRevoked)
  rw [same.id, same.accountId] at further
  refine ⟨moves.settled meets stateSettled, ⟨row', rowIn', ?_⟩, final.trans further⟩
  exact ⟨same'.id.trans same.id, same'.accountId.trans same.accountId,
    fun h => same'.revoked (same.revoked h)⟩

/-- **Revoking a grant is final** in the runs whose steps all meet the condition: no code leads to
two families, and from the moment a grant is revoked its families are revoked, none is new and no
access token is issued for it. -/
theorem revocation_final (env : Primitives Hash) (earlier later : List TokenEvent)
    (s t : TokenEndpoint Hash)
    (guarded : Guarded (step env) (Meets env) start (earlier ++ later))
    (reached : run (step env) start earlier = some s) (continues : run (step env) s later = some t) :
    (t.opened.map Opened.codeHash).Nodup ∧
      ∀ grant ∈ s.db.grants, grant.revokedAt.isSome = true →
        Final grant.accountId grant.id s t := by
  obtain ⟨guardedEarlier, guardedLater⟩ := guarded.append reached
  have settled : Settled s := run_invariant_of_guarded Settled
    (fun state event next kept meets stepped => (step_moves stepped).settled meets kept) earlier
    start s guardedEarlier ⟨nodup_nil, nofun⟩ reached
  have codes : ∀ (events : List TokenEvent) (a b : TokenEndpoint Hash), CodesOnce a →
      run (step env) a events = some b → CodesOnce b :=
    run_invariant CodesOnce fun state event next kept stepped => (step_moves stepped).codesOnce kept
  refine ⟨(codes later s t (codes earlier start s .start reached) continues).once, ?_⟩
  intro grant member revoked
  exact run_final guardedLater continues settled member revoked

/-! ## The two sides of the condition -/

/-- Digests that keep what they are given. -/
def plainPrimitives : Primitives Secret := ⟨id, id, fun _ => none⟩

def demoVerifier : Secret := List.replicate 43 'a'

def demoRandom : RandomBytes := constantBytes 0

/-- A person approves a client. -/
def demoApprove : TokenEvent :=
  .approve ⟨⟨7⟩, "client".toList, "Client".toList, "https://client/cb".toList, demoVerifier,
    "mcp:read".toList⟩ 0 ⟨1⟩ demoRandom

/-- The client presents the code it was given. -/
def demoRedeem : TokenEvent :=
  .redeem 0 (randomCode demoRandom) demoVerifier none "client".toList true 5 5

/-- The grant is revoked before its code is redeemed. -/
theorem revocation_final_unredeemed :
    ∃ s t, run (step plainPrimitives) start [demoApprove, .userRevoke ⟨7⟩ ⟨1⟩ 3] = some s ∧
      run (step plainPrimitives) s [demoRedeem] = some t ∧
      s.db.grants.map (·.revokedAt) = [some 3] ∧ t.db.codes.map (·.usedAt) = [some 5] ∧
      (t.opened.map Opened.codeHash).Nodup ∧ ∀ grant ∈ s.db.grants,
        grant.revokedAt.isSome = true → Final grant.accountId grant.id s t := by
  have outcome : (run (step plainPrimitives) start [demoApprove, .userRevoke ⟨7⟩ ⟨1⟩ 3]).bind
      (fun s => (run (step plainPrimitives) s [demoRedeem]).map fun t =>
        (s.db.grants.map (·.revokedAt), t.db.codes.map (·.usedAt))) =
      some ([some 3], [some 5]) := by decide +kernel
  obtain ⟨s, reached, rest⟩ := of_bind outcome
  obtain ⟨t, continues, ends⟩ := of_map rest
  have guarded : Guarded (step plainPrimitives) (Meets plainPrimitives) start
      ([demoApprove, .userRevoke ⟨7⟩ ⟨1⟩ 3] ++ [demoRedeem]) := by
    refine ⟨trivial, fun s₁ first => ?_⟩
    rw [demoApprove, step] at first
    obtain ⟨created, _, rfl⟩ := of_map first
    refine ⟨not_redeems_of_idle (fun _ => rfl) _, fun s₂ second => ⟨?_, fun _ _ => trivial⟩⟩
    rw [step] at second
    dsimp only at second
    split at second
    · cases second
      exact fun row _ _ _ _ => not_redeems_of_idle (fun _ => rfl) _
    · cases second
  obtain ⟨once, final⟩ := revocation_final plainPrimitives _ _ s t guarded reached continues
  exact ⟨s, t, reached, continues, (Prod.mk.inj ends).1, (Prod.mk.inj ends).2, once, final⟩

/-- The grant is revoked between the two transactions of its redemption: a live family and an
access token follow. -/
theorem revoked_grant_reopened :
    ∃ s t grant, run (step plainPrimitives) start
        [demoApprove, demoRedeem, .userRevoke ⟨7⟩ ⟨1⟩ 6] = some s ∧
      run (step plainPrimitives) s [.openFamily 0 7 ⟨2⟩ ⟨3⟩ demoRandom, .issueAccess 0] = some t ∧
      grant ∈ s.db.grants ∧ grant.revokedAt.isSome = true ∧ t.issued.length = 1 ∧
      ¬ Final grant.accountId grant.id s t := by
  have outcome : (run (step plainPrimitives) start
      [demoApprove, demoRedeem, .userRevoke ⟨7⟩ ⟨1⟩ 6]).bind (fun s =>
        (run (step plainPrimitives) s
          [.openFamily 0 7 ⟨2⟩ ⟨3⟩ demoRandom, .issueAccess 0]).map fun t =>
          (s.db.grants.map (fun grant =>
              decide (grant.accountId = ⟨7⟩ ∧ grant.id = ⟨1⟩ ∧ grant.revokedAt.isSome = true)),
            t.db.families.map (fun family =>
              decide (family.belongsTo ⟨7⟩ ⟨1⟩ = true ∧ family.revokedAt = none)),
            t.issued.length)) =
      some ([true], [true], 1) := by decide +kernel
  obtain ⟨s, reached, rest⟩ := of_bind outcome
  obtain ⟨t, continues, ends⟩ := of_map rest
  obtain ⟨grants, others⟩ := Prod.mk.inj ends
  obtain ⟨families, issued⟩ := Prod.mk.inj others
  obtain ⟨grant, onlyGrant, shape⟩ := map_eq_singleton_iff.mp grants
  obtain ⟨family, onlyFamily, live⟩ := map_eq_singleton_iff.mp families
  obtain ⟨account, id, revoked⟩ := of_decide_eq_true shape
  obtain ⟨belongs, unrevoked⟩ := of_decide_eq_true live
  refine ⟨s, t, grant, reached, continues, by rw [onlyGrant]; exact .head _, revoked, issued,
    fun final => ?_⟩
  have revokedFamily := final.revoked family (by rw [onlyFamily]; exact .head _)
    (by rw [account, id]; exact belongs)
  rw [unrevoked] at revokedFamily
  cases revokedFamily

end TokenEndpoint

end Alera.Cloud
