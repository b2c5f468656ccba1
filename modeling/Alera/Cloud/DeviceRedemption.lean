/-
# Alera.Cloud.DeviceRedemption -- what a redeemed device code stands for

Over the runs of `DeviceSignIn`: a code opens at most one session; the session is for the
account whose confirmation page carried the token that approved the code; and when it is
opened, the runtime has no session that could still be refreshed (`Usable`).

A session whose only unused token has been idle past its window is not one of those, so it
may still stand, unrevoked and before its absolute expiry, when a second code opens a new
one (`idle_session_remains`).
-/
import Alera.Cloud.DeviceSignIn

namespace Alera.Cloud

open Theory List Theory.Tables

set_option autoImplicit false

namespace DeviceSignIn

variable {Hash : Type}

/-! ## Invariants -/

/-- What every run keeps. -/
structure Sound (hash : Secret → Hash) (s : DeviceSignIn Hash) : Prop extends Keyed s where
  unrevoked : s.db.TokensUnrevoked
  tracked : ∀ row ∈ s.devices, Tracked hash s.notes row
  denials : ∀ deviceId, .denied deviceId ∈ s.notes → ∃ row ∈ s.devices, row.id = deviceId
  /-- A poll under way took its code for good, and no session was opened for it yet. -/
  redeeming : ∀ id row accountId now, s.requests id = some (.redeeming row accountId now) →
    (∃ row' ∈ s.devices, row'.id = row.id ∧ row'.deviceCodeHash = row.deviceCodeHash ∧
      row'.expiresAt = row.expiresAt ∧ row'.status.Over) ∧
    ApprovedBy hash s.notes row.id row.expiresAt accountId ∧
    ∀ note ∈ s.notes, note.code ≠ some row.deviceCodeHash
  single : ∀ id id' row row' accountId accountId' now now',
    s.requests id = some (.redeeming row accountId now) →
    s.requests id' = some (.redeeming row' accountId' now') →
    row.deviceCodeHash = row'.deviceCodeHash → id = id'
  sessions : ∀ note ∈ s.notes, ∀ codeHash, note.code = some codeHash →
    ∃ row ∈ s.devices, row.deviceCodeHash = codeHash ∧ row.status.Over
  once : (s.notes.filterMap DeviceNote.code).Nodup
  bound : ∀ position codeHash accountId clientId familyId,
    s.notes[position]? = some (.session codeHash accountId clientId familyId) →
    ∃ row ∈ s.devices, row.deviceCodeHash = codeHash ∧
      ApprovedBy hash (s.notes.take position) row.id row.expiresAt accountId

theorem Sound.empty (hash : Secret → Hash) : Sound hash DeviceSignIn.empty where
  deviceIds := nodup_nil
  codeHashes := nodup_nil
  denying := fun _ _ waiting => nomatch waiting
  unrevoked := fun _ member => nomatch member
  tracked := fun _ member => nomatch member
  denials := fun _ denied => nomatch denied
  redeeming := fun _ _ _ _ waiting => nomatch waiting
  single := fun _ _ _ _ _ _ _ _ waiting => nomatch waiting
  sessions := fun _ noted => nomatch noted
  once := nodup_nil
  bound := by
    intro position codeHash accountId clientId familyId found
    cases found

/-! ## Every move -/

section Preservation

variable {hash : Secret → Hash} {s s' : DeviceSignIn Hash}

variable (moves : Moves hash s s')

include moves

theorem Moves.keys (keyed : Keyed s) : (s'.devices.map DeviceRow.id).Nodup ∧
    (s'.devices.map DeviceRow.deviceCodeHash).Nodup := by
  obtain ⟨ids, codes, -⟩ := keyed
  cases moves with
  | quiet => exact ⟨ids, codes⟩
  | insert freshId freshCode =>
    exact ⟨nodup_append_singleton ids freshId, nodup_append_singleton codes freshCode⟩
  | update _ _ same =>
    exact ⟨(map_updateWhere fun row => (same row).id).symm ▸ ids,
      (map_updateWhere fun row => (same row).deviceCodeHash).symm ▸ codes⟩
  | @consume _ _ _ now =>
    have kept : ∀ row : DeviceRow Hash, SameDevice row (row.polled now .consumed) :=
      fun _ => ⟨rfl, rfl, rfl⟩
    exact ⟨(map_updateWhere fun row => (kept row).id).symm ▸ ids,
      (map_updateWhere fun row => (kept row).deviceCodeHash).symm ▸ codes⟩
  | session => exact ⟨ids, codes⟩

variable {row : DeviceRow Hash}

/-- Every authorization goes on, and what is over stays over. -/
theorem Moves.device_succeeds (member : row ∈ s.devices) :
    ∃ row' ∈ s'.devices, SameDevice row row' ∧ (row.status.Over → row'.status.Over) := by
  have unchanged : SameDevice row row ∧ (row.status.Over → row.status.Over) :=
    ⟨.refl row, fun isOver => isOver⟩
  cases moves with
  | quiet | session => exact ⟨row, member, unchanged⟩
  | insert => exact ⟨row, mem_append_left _ member, unchanged⟩
  | @update changed selects _ _ _ _ selected same isOver =>
    by_cases chosen : selects row = true
    · refine ⟨_, mem_updateWhere_of_selected member chosen, same row, ?_⟩
      rw [selected row member chosen]
      exact isOver
    · exact ⟨row, mem_updateWhere_of_kept member chosen, unchanged⟩
  | @consume _ changed _ now selects _ _ selected =>
    by_cases chosen : selects row = true
    · exact ⟨_, mem_updateWhere_of_selected member chosen, ⟨rfl, rfl, rfl⟩, fun _ => .inr rfl⟩
    · exact ⟨row, mem_updateWhere_of_kept member chosen, unchanged⟩

theorem Moves.tracked (sound : Sound hash s) : ∀ row ∈ s'.devices, Tracked hash s'.notes row := by
  cases moves with
  | quiet => exact sound.tracked
  | @insert _ new freshId _ unbound =>
    refine forall_mem_snoc sound.tracked ⟨fun _ => ⟨fun denied => ?_, ?_⟩, ?_⟩
    · obtain ⟨other, inside, id⟩ := sound.denials new.id denied
      exact freshId other inside id
    · intro _ accountId _ account
      rw [unbound] at account
      cases account
    · intro _ accountId account
      rw [unbound] at account
      cases account
  | @update changed selects set added _ member selected same isOver about tracked =>
    intro row inside
    obtain ⟨old, source, rfl⟩ := mem_updateWhere.mp inside
    by_cases here : old = changed
    · subst here
      exact tracked (sound.tracked old source)
    · have unselected : ¬ selects old = true := fun chosen => here (selected old source chosen)
      rw [if_neg unselected]
      refine (sound.tracked old source).append fun denied => here ?_
      exact eq_of_key sound.deviceIds source member (Option.some.inj (about _ denied))
  | @consume _ changed _ now selects _ _ selected =>
    intro row inside
    obtain ⟨_, -, -, rfl⟩ | ⟨source, -⟩ := mem_updateWhere_cases inside
    · exact .of_over (.inr rfl)
    · exact sound.tracked row source
  | session =>
    intro row member
    refine (sound.tracked row member).append ?_
    rintro (_ | ⟨_, ⟨⟩⟩)

theorem Moves.denials (sound : Sound hash s) :
    ∀ deviceId, .denied deviceId ∈ s'.notes → ∃ row ∈ s'.devices, row.id = deviceId := by
  have kept : ∀ deviceId, .denied deviceId ∈ s.notes → ∃ row ∈ s'.devices, row.id = deviceId := by
    intro deviceId denied
    obtain ⟨row, member, id⟩ := sound.denials deviceId denied
    obtain ⟨row', member', same, _⟩ := moves.device_succeeds member
    exact ⟨row', member', same.id.trans id⟩
  cases moves with
  | quiet => exact kept
  | insert => exact kept
  | update member selected same isOver about =>
    intro deviceId denied
    rcases mem_append.mp denied with old | new
    · exact kept deviceId old
    · obtain rfl := Option.some.inj (about _ new)
      obtain ⟨row', member', same, _⟩ := Moves.device_succeeds
        (.update member selected same isOver about ‹_› ‹_›) member
      exact ⟨row', member', same.id⟩
  | consume => exact kept
  | session =>
    intro deviceId denied
    rcases mem_append.mp denied with old | new
    · exact kept deviceId old
    · cases mem_singleton.mp new

theorem Moves.denying (sound : Sound hash s) :
    ∀ id deviceId, s'.requests id = some (.denying deviceId) →
      ∃ row ∈ s'.devices, row.id = deviceId := by
  have kept : ∀ id deviceId, s.requests id = some (.denying deviceId) →
      ∃ row ∈ s'.devices, row.id = deviceId := by
    intro id deviceId waiting
    obtain ⟨row, member, same⟩ := sound.denying id deviceId waiting
    obtain ⟨row', member', kept, _⟩ := moves.device_succeeds member
    exact ⟨row', member', kept.id.trans same⟩
  intro id deviceId waiting
  cases moves with
  | quiet _ others =>
    rcases others id _ waiting with old | ⟨_, _, _, _, _, new⟩
    · exact kept id deviceId old
    · cases new
  | insert | session => exact kept id deviceId (requests_of_put_none waiting)
  | update member selected same isOver about tracked others =>
    rcases others id _ waiting with old | new
    · exact kept id deviceId old
    · cases new
      obtain ⟨row', member', kept, _⟩ := Moves.device_succeeds
        (.update member selected same isOver about tracked others) member
      exact ⟨row', member', kept.id⟩
  | @consume id' =>
    obtain ⟨-, ⟨⟩⟩ | ⟨-, entry⟩ := of_update waiting
    exact kept id deviceId entry

/-- A poll under way was so before, or has just taken its code. -/
theorem Moves.redeeming_cases {id : Nat} {accountId : Uuid} {now : Time}
    (waiting : s'.requests id = some (.redeeming row accountId now)) :
    s.requests id = some (.redeeming row accountId now) ∨
      row ∈ s.devices ∧ row.status = .approved ∧ row.accountId = some accountId ∧
        s'.notes = s.notes ∧ (∃ row' ∈ s'.devices, SameDevice row row' ∧ row'.status.Over) ∧
        ∀ id', id' ≠ id → s'.requests id' = s.requests id' := by
  cases moves with
  | quiet _ others =>
    rcases others id _ waiting with old | ⟨_, _, _, _, _, new⟩
    · exact .inl old
    · cases new
  | insert | session => exact .inl (requests_of_put_none waiting)
  | update _ _ _ _ _ _ others =>
    rcases others id _ waiting with old | new
    · exact .inl old
    · cases new
  | @consume id' taken account polledAt selects free member selected approved owner =>
    obtain ⟨here, ⟨⟩⟩ | ⟨-, entry⟩ := of_update waiting
    · refine .inr ⟨member, approved, owner, rfl, ⟨_, mem_updateWhere_of_selected member
        ((selected _ member).mpr rfl), ⟨rfl, rfl, rfl⟩, .inr rfl⟩, fun other elsewhere => ?_⟩
      exact Function.update_of_ne (by rwa [here] at elsewhere) _ _
    · exact .inl entry

omit moves

/-- A code that is approved has no session, and no poll is redeeming it. -/
theorem Sound.approved_open (sound : Sound hash s) (member : row ∈ s.devices)
    (approved : row.status = .approved) :
    (∀ note ∈ s.notes, note.code ≠ some row.deviceCodeHash) ∧
      ∀ id row' accountId now, s.requests id = some (.redeeming row' accountId now) →
        row'.deviceCodeHash ≠ row.deviceCodeHash := by
  have unfinished : ∀ other ∈ s.devices, other.status.Over →
      other.deviceCodeHash ≠ row.deviceCodeHash := by
    intro other inside isOver same
    rw [eq_of_key sound.codeHashes inside member same, approved] at isOver
    rcases isOver with denied | consumed
    · cases denied
    · cases consumed
  constructor
  · intro note noted code
    obtain ⟨other, inside, same, isOver⟩ := sound.sessions note noted _ code
    exact unfinished other inside isOver same
  · intro id row' accountId now waiting same
    obtain ⟨⟨other, inside, _, code, _, isOver⟩, _⟩ := sound.redeeming id row' accountId now waiting
    exact unfinished other inside isOver (code.trans same)

theorem code_of_device {note : DeviceNote Hash} {deviceId : Uuid}
    (about : note.device = some deviceId) : note.code = none := by
  cases note with
  | session => cases about
  | page => rfl
  | approved => rfl
  | denied => rfl

variable (moves : Moves hash s s')

include moves

/-- What a step notes: nothing about sessions, or the one it opens. -/
theorem Moves.notes_cases :
    (∃ added, s'.notes = s.notes ++ added ∧ ∀ note ∈ added, note.code = none) ∨
      ∃ id row accountId now familyId, s.requests id = some (.redeeming row accountId now) ∧
        s'.notes = s.notes ++ [.session row.deviceCodeHash accountId row.clientId familyId] ∧
        s'.requests = (s.put id none).requests := by
  have nothing : ∃ added, s.notes = s.notes ++ added ∧
      ∀ note ∈ added, DeviceNote.code note = none := ⟨[], (append_nil _).symm, nofun⟩
  cases moves with
  | quiet => exact .inl nothing
  | insert => exact .inl nothing
  | update _ _ _ _ about => exact .inl ⟨_, rfl, fun note noted => code_of_device (about note noted)⟩
  | consume => exact .inl nothing
  | session waiting => exact .inr ⟨_, _, _, _, _, waiting, rfl, rfl⟩

section

variable (sound : Sound hash s)

include sound

theorem Moves.redeeming :
    ∀ id row accountId now, s'.requests id = some (.redeeming row accountId now) →
      (∃ row' ∈ s'.devices, row'.id = row.id ∧ row'.deviceCodeHash = row.deviceCodeHash ∧
        row'.expiresAt = row.expiresAt ∧ row'.status.Over) ∧
      ApprovedBy hash s'.notes row.id row.expiresAt accountId ∧
      ∀ note ∈ s'.notes, note.code ≠ some row.deviceCodeHash := by
  intro id row accountId now waiting
  rcases moves.redeeming_cases waiting with old | ⟨member, approved, account, notes, taken, _⟩
  · obtain ⟨⟨row₁, inside, sameId, code, expires, isOver⟩, approvedBy, unopened⟩ :=
      sound.redeeming id row accountId now old
    obtain ⟨row₂, inside', same, stays⟩ := moves.device_succeeds inside
    refine ⟨⟨row₂, inside', same.id.trans sameId, same.deviceCodeHash.trans code,
      same.expiresAt.trans expires, stays isOver⟩, ?_⟩
    rcases moves.notes_cases with ⟨added, notes, silent⟩ |
      ⟨id', row', accountId', now', familyId, waiting', notes, requests⟩
    · rw [notes]
      refine ⟨approvedBy.append, fun note noted => ?_⟩
      rcases mem_append.mp noted with before | new
      · exact unopened note before
      · rw [silent note new]
        exact nofun
    · rw [notes]
      refine ⟨approvedBy.append, fun note noted => ?_⟩
      rcases mem_append.mp noted with before | new
      · exact unopened note before
      · rw [mem_singleton.mp new]
        intro same
        -- The poll that opened the session would be this one, and it is over.
        have here := sound.single id id' row row' _ _ _ _ old waiting' (Option.some.inj same).symm
        rw [requests, here] at waiting
        have entry : Function.update s.requests id' none id' = _ := waiting
        rw [Function.update_self] at entry
        cases entry
  · obtain ⟨unopened, _⟩ := sound.approved_open member approved
    obtain ⟨row', inside, same, isOver⟩ := taken
    rw [notes]
    exact ⟨⟨row', inside, same.id, same.deviceCodeHash, same.expiresAt, isOver⟩,
      (sound.tracked row member).approved approved accountId account, unopened⟩

theorem Moves.single : ∀ id id' row row' accountId accountId' now now',
      s'.requests id = some (.redeeming row accountId now) →
      s'.requests id' = some (.redeeming row' accountId' now') →
      row.deviceCodeHash = row'.deviceCodeHash → id = id' := by
  intro id id' row row' accountId accountId' now now' waiting waiting' same
  by_contra differ
  rcases moves.redeeming_cases waiting with old | ⟨member, approved, _, _, _, elsewhere⟩
  · rcases moves.redeeming_cases waiting' with old' | ⟨member', approved', _, _, _, _⟩
    · exact differ (sound.single id id' row row' _ _ _ _ old old' same)
    · exact (sound.approved_open member' approved').2 id row accountId now old same
  · rw [elsewhere id' (fun equal => differ equal.symm)] at waiting'
    exact (sound.approved_open member approved).2 id' row' accountId' now' waiting' same.symm

theorem Moves.sessions :
    ∀ note ∈ s'.notes, ∀ codeHash, note.code = some codeHash →
      ∃ row ∈ s'.devices, row.deviceCodeHash = codeHash ∧ row.status.Over := by
  have kept : ∀ {codeHash : Hash}, (∃ row ∈ s.devices, row.deviceCodeHash = codeHash ∧
      row.status.Over) → ∃ row ∈ s'.devices, row.deviceCodeHash = codeHash ∧ row.status.Over := by
    rintro _ ⟨row, member, rfl, isOver⟩
    obtain ⟨row', member', same, stays⟩ := moves.device_succeeds member
    exact ⟨row', member', same.deviceCodeHash, stays isOver⟩
  intro note noted codeHash code
  rcases moves.notes_cases with ⟨added, notes, silent⟩ |
    ⟨id, row, accountId, now, familyId, waiting, notes, _⟩
  · rw [notes] at noted
    rcases mem_append.mp noted with before | new
    · exact kept (sound.sessions note before codeHash code)
    · rw [silent note new] at code
      cases code
  · rw [notes] at noted
    rcases mem_append.mp noted with before | new
    · exact kept (sound.sessions note before codeHash code)
    · rw [mem_singleton.mp new] at code
      cases code
      obtain ⟨⟨row', member, _, same, _, isOver⟩, _⟩ := sound.redeeming id row accountId now waiting
      exact kept ⟨row', member, same, isOver⟩

theorem Moves.once : (s'.notes.filterMap DeviceNote.code).Nodup := by
  rcases moves.notes_cases with ⟨added, notes, silent⟩ |
    ⟨id, row, accountId, now, familyId, waiting, notes, _⟩
  · rw [notes, filterMap_append, filterMap_eq_nil_iff.mpr silent, append_nil]
    exact sound.once
  · rw [notes, filterMap_append]
    obtain ⟨_, _, unopened⟩ := sound.redeeming id row accountId now waiting
    refine nodup_append.mpr ⟨sound.once, nodup_singleton _, ?_⟩
    rintro codeHash listed _ single rfl
    obtain ⟨note, noted, code⟩ := mem_filterMap.mp listed
    rw [mem_singleton.mp single] at code
    exact unopened note noted code

theorem Moves.bound : ∀ position codeHash accountId clientId familyId,
      s'.notes[position]? = some (.session codeHash accountId clientId familyId) →
      ∃ row ∈ s'.devices, row.deviceCodeHash = codeHash ∧
        ApprovedBy hash (s'.notes.take position) row.id row.expiresAt accountId := by
  have kept : ∀ {codeHash : Hash} {notes : List (DeviceNote Hash)} {accountId : Uuid},
      (∃ row ∈ s.devices, row.deviceCodeHash = codeHash ∧
        ApprovedBy hash notes row.id row.expiresAt accountId) →
      ∃ row ∈ s'.devices, row.deviceCodeHash = codeHash ∧
        ApprovedBy hash notes row.id row.expiresAt accountId := by
    rintro _ notes accountId ⟨row, member, rfl, approved⟩
    obtain ⟨row', member', same, _⟩ := moves.device_succeeds member
    exact ⟨row', member', same.deviceCodeHash, by rwa [same.id, same.expiresAt]⟩
  have added : ∃ added, s'.notes = s.notes ++ added ∧ ∀ note ∈ added,
      ∀ codeHash accountId clientId familyId, note = .session codeHash accountId clientId familyId →
        added = [note] ∧ ∃ row ∈ s.devices, row.deviceCodeHash = codeHash ∧
          ApprovedBy hash s.notes row.id row.expiresAt accountId := by
    rcases moves.notes_cases with ⟨added, notes, silent⟩ |
      ⟨id, row, owner, now, family, waiting, notes, _⟩
    · refine ⟨added, notes, ?_⟩
      rintro note noted codeHash accountId clientId familyId rfl
      cases silent _ noted
    · refine ⟨_, notes, ?_⟩
      rintro note noted codeHash accountId clientId familyId rfl
      obtain ⟨⟨row', member, sameId, code, expires, _⟩, approved, _⟩ :=
        sound.redeeming id row owner now waiting
      cases mem_singleton.mp noted
      exact ⟨rfl, row', member, code, by rwa [sameId, expires]⟩
  obtain ⟨added, notes, fresh⟩ := added
  intro position codeHash accountId clientId familyId found
  rw [notes] at found ⊢
  by_cases early : position < s.notes.length
  · rw [getElem?_append_left early] at found
    rw [take_append_of_le_length (Nat.le_of_lt early)]
    exact kept (sound.bound position codeHash accountId clientId familyId found)
  · rw [getElem?_append_right (Nat.le_of_not_lt early)] at found
    obtain ⟨single, approved⟩ := fresh _ (mem_of_getElem? found) _ _ _ _ rfl
    rw [single] at found ⊢
    have last : position - s.notes.length = 0 := by
      have inside := (List.getElem?_eq_some_iff.mp found).1
      rw [List.length_singleton] at inside
      omega
    have here : position = s.notes.length := by omega
    rw [here, take_left]
    exact kept approved

end

theorem Moves.sound (sound : Sound hash s) : Sound hash s' where
  deviceIds := (moves.keys sound.toKeyed).1
  codeHashes := (moves.keys sound.toKeyed).2
  denying := moves.denying sound
  unrevoked := by
    cases moves with
    | quiet unrevoked | session _ unrevoked => exact unrevoked sound.unrevoked
    | insert => exact sound.unrevoked
    | update => exact sound.unrevoked
    | consume => exact sound.unrevoked
  tracked := moves.tracked sound
  denials := moves.denials sound
  redeeming := moves.redeeming sound
  single := moves.single sound
  sessions := moves.sessions sound
  once := moves.once sound
  bound := moves.bound sound

end Preservation

/-! ## Every run -/

/-- Whether some session of the runtime could still be refreshed at the moment. -/
def Usable (db : Tables Hash) (clientId : List Char) (moment : Time) : Prop :=
  ∃ family ∈ db.families, ∃ token ∈ db.tokens, family.clientKind = .runtime ∧
    family.clientId = clientId ∧ family.revokedAt = none ∧ moment < family.absoluteExpiresAt ∧
    token.familyId = family.id ∧ token.usedAt = none ∧ moment < token.inactivityExpiresAt

/-- The check of a redemption judges expiry at the time its poll began, which is no later. -/
theorem runtimeSignedIn_of_usable {db : Tables Hash} {clientId : List Char} {now elapsed : Time}
    (unrevoked : db.TokensUnrevoked) (usable : Usable db clientId (now + elapsed)) :
    runtimeSignedIn db clientId now = true := by
  obtain ⟨family, familyIn, token, tokenIn, kind, client, live, absolute, owner, unused, active⟩ :=
    usable
  have activeThen : now < token.inactivityExpiresAt := Nat.lt_of_le_of_lt (Nat.le_add_right _ _) active
  have currentThen : now < family.absoluteExpiresAt :=
    Nat.lt_of_le_of_lt (Nat.le_add_right _ _) absolute
  refine any_eq_true.mpr ⟨family, familyIn, ?_⟩
  have some_token : db.tokens.any (fun token => token.familyId = family.id && token.usedAt.isNone &&
      token.revokedAt.isNone && decide (now < token.inactivityExpiresAt)) = true :=
    any_eq_true.mpr ⟨token, tokenIn, by
      simp [owner, unused, unrevoked token tokenIn, activeThen]⟩
  simp only [kind, client, live, currentThen, some_token, decide_true, Option.isNone_none,
    Bool.and_self]

variable [DecidableEq Hash]

/-- **Device sign-in**: a code opens at most one session, for the account whose page carried the
token that approved it, before any denial and before it expired; and when a session is opened, the
runtime has none that could still be refreshed. -/
theorem device_sign_in (hash : Secret → Hash) (events : List DeviceEvent) (s : DeviceSignIn Hash)
    (reached : run (step hash) empty events = some s) :
    (s.notes.filterMap DeviceNote.code).Nodup ∧
    (∀ position codeHash accountId clientId familyId,
      s.notes[position]? = some (.session codeHash accountId clientId familyId) →
      ∃ row ∈ s.devices, row.deviceCodeHash = codeHash ∧
        ApprovedBy hash (s.notes.take position) row.id row.expiresAt accountId) ∧
    ∀ id elapsed familyId tokenId random s' row accountId now,
      s.requests id = some (.redeeming row accountId now) →
      s.step hash (.createSession id elapsed familyId tokenId random) = some s' →
      s'.notes ≠ s.notes → ¬ Usable s.db row.clientId (now + elapsed) := by
  have sound : Sound hash s := run_invariant (Sound hash)
    (fun state event next kept stepped => (step_moves kept.toKeyed stepped).sound kept) events empty
    s (.empty hash) reached
  refine ⟨sound.once, sound.bound, ?_⟩
  intro id elapsed familyId tokenId random s' row accountId now waiting stepped opened usable
  have signedIn := runtimeSignedIn_of_usable sound.unrevoked usable
  rw [step, waiting] at stepped
  dsimp only at stepped
  rw [redeemDevice, if_pos signedIn] at stepped
  cases stepped
  exact opened rfl

/-! ## Two sign-ins of one runtime -/

/-- One device sign-in from start to the poll that takes the code. -/
def signInEvents (device : Uuid) (random : RandomBytes) (userCode : UInt8) (at' : Time) :
    List DeviceEvent :=
  [.start 0 .runtime "runtime-1".toList "Laptop".toList at' random at',
    .insertDevice 0 device (List.replicate 8 userCode),
    .beginConfirm device ⟨7⟩ random at',
    .submitConfirm 0 device (randomConsentToken random) true true at',
    .poll 0 (randomDeviceCode random) at']

def firstRandom : RandomBytes := constantBytes 0

def secondRandom : RandomBytes := constantBytes 1

theorem device_sign_in_signInEvents :
    ∃ s, run (step id) empty (signInEvents ⟨1⟩ firstRandom 0 5 ++
        [.createSession 0 1 ⟨2⟩ ⟨3⟩ secondRandom]) = some s ∧
      (s.notes.filterMap DeviceNote.code).Nodup ∧ ∃ row ∈ s.devices,
        row.deviceCodeHash = randomDeviceCode firstRandom ∧
          ApprovedBy id (s.notes.take 2) row.id row.expiresAt ⟨7⟩ := by
  have outcome : (run (step id) empty (signInEvents ⟨1⟩ firstRandom 0 5 ++
      [.createSession 0 1 ⟨2⟩ ⟨3⟩ secondRandom])).map (fun s => s.notes[2]?) =
      some (some (.session (randomDeviceCode firstRandom) ⟨7⟩ "runtime-1".toList ⟨2⟩)) := by
    decide +kernel
  obtain ⟨s, reached, opened⟩ := of_map outcome
  obtain ⟨once, bound, _⟩ := device_sign_in id _ s reached
  exact ⟨s, reached, once, bound 2 _ _ _ _ opened⟩

def asRedeeming {Hash : Type} : DeviceRequest Hash → Option (DeviceRow Hash × Uuid × Time)
  | .redeeming row accountId now => some (row, accountId, now)
  | _ => none

theorem eq_of_asRedeeming {Hash : Type} {request : DeviceRequest Hash}
    {found : DeviceRow Hash × Uuid × Time} (redeems : asRedeeming request = some found) :
    request = .redeeming found.1 found.2.1 found.2.2 := by
  cases request with
  | redeeming row accountId now =>
    cases redeems
    rfl
  | _ => cases redeems

/-- Thirty-one days after a first sign-in a second one opens a session, while the family of the
first is unrevoked and before its absolute expiry, with a token that was never used. -/
theorem idle_session_remains :
    ∃ s s' row family token, run (step id) empty (signInEvents ⟨1⟩ firstRandom 0 5 ++
        [.createSession 0 1 ⟨2⟩ ⟨3⟩ secondRandom] ++
        signInEvents ⟨4⟩ secondRandom 1 (days 31)) = some s ∧
      s.requests 0 = some (.redeeming row ⟨7⟩ (days 31)) ∧
      s.step id (.createSession 0 1 ⟨5⟩ ⟨6⟩ firstRandom) = some s' ∧
      s'.notes = s.notes ++ [.session row.deviceCodeHash ⟨7⟩ row.clientId ⟨5⟩] ∧
      .session (randomDeviceCode firstRandom) ⟨7⟩ row.clientId family.id ∈ s.notes ∧
      row.deviceCodeHash ≠ randomDeviceCode firstRandom ∧
      family ∈ s.db.families ∧ token ∈ s.db.tokens ∧ family.clientKind = .runtime ∧
      family.clientId = row.clientId ∧ family.revokedAt = none ∧
      days 31 + 1 < family.absoluteExpiresAt ∧ token.familyId = family.id ∧ token.usedAt = none := by
  have outcome : (run (step id) empty (signInEvents ⟨1⟩ firstRandom 0 5 ++
      [.createSession 0 1 ⟨2⟩ ⟨3⟩ secondRandom] ++
      signInEvents ⟨4⟩ secondRandom 1 (days 31))).bind (fun s =>
        ((s.requests 0).bind asRedeeming).bind fun found =>
          (s.step id (.createSession 0 1 ⟨5⟩ ⟨6⟩ firstRandom)).map fun s' =>
            decide (found.2 = (⟨7⟩, days 31) ∧
              s'.notes = s.notes ++ [.session found.1.deviceCodeHash ⟨7⟩ found.1.clientId ⟨5⟩] ∧
              ∃ family ∈ s.db.families, ∃ token ∈ s.db.tokens,
                .session (randomDeviceCode firstRandom) ⟨7⟩ found.1.clientId family.id ∈ s.notes ∧
                found.1.deviceCodeHash ≠ randomDeviceCode firstRandom ∧
                family.clientKind = .runtime ∧
                family.clientId = found.1.clientId ∧ family.revokedAt = none ∧
                days 31 + 1 < family.absoluteExpiresAt ∧ token.familyId = family.id ∧
                token.usedAt = none)) = some true := by decide +kernel
  obtain ⟨s, reached, ⟨row, _, _⟩, found, rest⟩ := of_bind₂ outcome
  obtain ⟨s', stepped, holds⟩ := of_map rest
  obtain ⟨⟨⟩, opened, family, families, token, tokens, earlier, others⟩ := of_decide_eq_true holds
  obtain ⟨request, waiting, redeems⟩ := of_bind found
  rw [eq_of_asRedeeming redeems] at waiting
  obtain ⟨differ, kind, client, live, absolute, owner, unused⟩ := others
  exact ⟨s, s', row, family, token, reached, waiting, stepped, opened, earlier, differ, families, tokens,
    kind, client, live, absolute, owner, unused⟩

end DeviceSignIn

end Alera.Cloud
