/-
# Alera.Edge.RelayIsolation -- a relay object never crosses tenants

The checks the relay makes on a data frame read attachments, and attachments are
rewritten all the time.  They mean something because of what no rewrite does: it
never changes who a socket belongs to, never lifts a suppression and never puts a
socket back into the list.  `Keeps` says that once; every handler but the
acceptance of a new socket is shown to keep (one lemma a handler), and the
invariant `Isolated` follows from `Keeps` alone.

Acceptance adds a socket.  It cannot add a second live one for its role and
client because the loop before it suppressed all others (`replaceDuplicates_suppresses`).

`Keeps` also tracks what is sent: a handler's sends are quiet, that is not data frames,
except for the forwarding loop, whose sends are named by the parameter `Extra`.
-/
import Alera.Edge.RuntimeRelay

namespace Alera.Edge

open Theory
open Utf16 (ofString)

set_option autoImplicit false

/-! ## What a handler keeps -/

/-- Not the sending of a data frame. -/
def RelayEffect.Quiet (effect : RelayEffect) : Prop :=
  ∀ socket frame, effect = .send socket frame → relayFrameClientId frame = none

/-- The socket waits for its runtime, or a renewal that began while it did may still come back. -/
def RelaySocket.Pending (s : RelaySocket) : Prop :=
  s.attachment.awaitingRuntime = true ∨
    ∃ renewal, s.renewing = some renewal ∧ renewal.previous.awaitingRuntime = true

variable {s : RelaySocket}

theorem RelaySocket.Pending.of_idle (pending : { s with renewing := none }.Pending) :
    s.Pending := by
  obtain awaits | ⟨_, ⟨⟩, _⟩ := pending
  exact .inl awaits

/-- What no rewrite of a socket changes, at a given second. -/
structure RelaySocket.Keeps (now : Int) (s t : RelaySocket) : Prop where
  admitted : t.admitted = s.admitted
  listed : t.listed = true → s.listed = true
  identity : t.attachment.identity = s.attachment.identity
  suppressed : s.attachment.suppressDisconnect = true → t.attachment.suppressDisconnect = true
  renewing : ∀ renewal, t.renewing = some renewal →
    s.renewing = some renewal ∨ renewal.previous.identity = s.attachment.identity
  pending : t.Pending → s.Pending
  unexpired : now < t.attachment.exp → now < s.attachment.exp

variable {now : Int}

theorem RelaySocket.Keeps.refl (s : RelaySocket) : s.Keeps now s :=
  ⟨rfl, id, rfl, id, fun _ => .inl, id, id⟩

theorem RelaySocket.Keeps.trans {t u : RelaySocket} (first : s.Keeps now t)
    (second : t.Keeps now u) : s.Keeps now u := by
  refine ⟨second.admitted.trans first.admitted, fun h => first.listed (second.listed h),
    second.identity.trans first.identity, fun h => second.suppressed (first.suppressed h), ?_,
    fun h => first.pending (second.pending h), fun h => first.unexpired (second.unexpired h)⟩
  intro renewal renewing
  rcases second.renewing renewal renewing with kept | fresh
  · exact first.renewing renewal kept
  · exact .inr (fresh.trans first.identity)

/-- Returned by `getWebSockets` and not suppressed. -/
def RelaySocket.Live (s : RelaySocket) : Prop :=
  s.listed = true ∧ s.attachment.suppressDisconnect = false

theorem RelaySocket.Keeps.live {t : RelaySocket} (keeps : s.Keeps now t) (live : t.Live) :
    s.Live := by
  refine ⟨keeps.listed live.1, Bool.eq_false_iff.mpr fun suppressed => ?_⟩
  exact Bool.eq_false_iff.mp live.2 (keeps.suppressed suppressed)

namespace RuntimeRelay

/-- From `relay` to `after` no socket appears, every socket keeps what it must, and
what is sent is quiet or `Extra`. -/
structure Keeps (Extra : RelayEffect → Prop) (relay after : RuntimeRelay) : Prop where
  accepted : after.accepted = relay.accepted
  nowMs : after.nowMs = relay.nowMs
  sockets : ∀ i t, after.sockets i = some t → ∃ s, relay.sockets i = some s ∧ s.Keeps relay.now t
  effects : ∀ effect ∈ after.effects, effect ∈ relay.effects ∨ effect.Quiet ∨ Extra effect

variable {Extra : RelayEffect → Prop}

theorem Keeps.refl (relay : RuntimeRelay) : relay.Keeps Extra relay :=
  ⟨rfl, rfl, fun _ t h => ⟨t, h, .refl t⟩, fun _ h => .inl h⟩

variable {relay after : RuntimeRelay}

theorem Keeps.trans {middle : RuntimeRelay} (first : relay.Keeps Extra middle)
    (second : middle.Keeps Extra after) : relay.Keeps Extra after := by
  refine ⟨second.accepted.trans first.accepted, second.nowMs.trans first.nowMs, ?_, ?_⟩
  · intro i u present
    obtain ⟨t, between, keeps⟩ := second.sockets i u present
    obtain ⟨s, before, kept⟩ := first.sockets i t between
    rw [now, first.nowMs] at keeps
    exact ⟨s, before, kept.trans keeps⟩
  · intro effect member
    rcases second.effects effect member with earlier | fresh
    · exact first.effects effect earlier
    · exact .inr fresh

/-- No socket but a new one appears, and every socket keeps what it must. -/
structure KeepsSockets (relay after : RuntimeRelay) : Prop where
  accepted : relay.accepted ≤ after.accepted
  now : relay.now ≤ after.now
  sockets : ∀ i t, i < relay.accepted → after.sockets i = some t →
    ∃ s, relay.sockets i = some s ∧ s.Keeps relay.now t

theorem Keeps.keepsSockets (keeps : relay.Keeps Extra after) : relay.KeepsSockets after :=
  ⟨Nat.le_of_eq keeps.accepted.symm, Int.le_of_eq (congrArg (· / 1000) keeps.nowMs.symm),
    fun i t _ => keeps.sockets i t⟩

variable {socket : Nat} {attachment : RelayAttachment}

theorem attachment_eq_some :
    relay.attachment socket = some attachment ↔
      ∃ s, relay.sockets socket = some s ∧ s.attachment = attachment :=
  Option.map_eq_some_iff

/-! ### The primitive changes -/

theorem modify_keeps {change : RelaySocket → RelaySocket}
    (keeps : ∀ s, relay.sockets socket = some s → s.Keeps relay.now (change s)) :
    relay.Keeps Extra (relay.modify socket change) := by
  refine ⟨rfl, rfl, ?_, fun _ h => .inl h⟩
  intro i t present
  by_cases mine : i = socket
  · subst mine
    rw [modify_sockets_self] at present
    obtain ⟨s, before, rfl⟩ := of_map present
    exact ⟨s, before, keeps s before⟩
  · rw [modify_sockets_of_ne relay mine] at present
    exact ⟨t, present, .refl t⟩

theorem serializeAttachment_keeps {old new : RelayAttachment}
    (current : relay.attachment socket = some old) (identity : new.identity = old.identity)
    (suppressed : old.suppressDisconnect = true → new.suppressDisconnect = true)
    (awaiting : new.awaitingRuntime = true → old.awaitingRuntime = true)
    (unexpired : relay.now < new.exp → relay.now < old.exp) :
    relay.Keeps Extra (relay.serializeAttachment socket new) := by
  apply modify_keeps
  intro s present
  obtain ⟨_, same, rfl⟩ := attachment_eq_some.mp current
  cases present.symm.trans same
  exact ⟨rfl, id, identity, suppressed, fun _ => .inl, Or.imp_left awaiting, unexpired⟩

theorem suppress_keeps (current : relay.attachment socket = some attachment) :
    relay.Keeps Extra (relay.suppress socket attachment) :=
  serializeAttachment_keeps current rfl (fun _ => rfl) id id

theorem emit_keeps {effect : RelayEffect} (allowed : effect.Quiet ∨ Extra effect) :
    relay.Keeps Extra (relay.emit effect) := by
  refine ⟨rfl, rfl, fun _ t h => ⟨t, h, .refl t⟩, ?_⟩
  intro e member
  rcases List.mem_append.mp member with earlier | fresh
  · exact .inl earlier
  · rw [List.mem_singleton.mp fresh]
    exact .inr allowed

theorem close_keeps {code : Nat} {reason : String} :
    relay.Keeps Extra (relay.close socket code reason) := by
  refine emit_keeps (.inl ?_)
  rintro _ _ ⟨⟩

theorem settleCalls_keeps : relay.Keeps Extra (relay.emit (.settleCalls socket)) := by
  refine emit_keeps (.inl ?_)
  rintro _ _ ⟨⟩

theorem reject_keeps {status : Nat} {code message : String} :
    relay.Keeps Extra (relay.emit (.reject status code message)) := by
  refine emit_keeps (.inl ?_)
  rintro _ _ ⟨⟩

theorem send_keeps {frame : Bytes}
    (allowed : relayFrameClientId frame = none ∨ Extra (.send socket frame)) :
    relay.Keeps Extra (relay.emit (.send socket frame)) := by
  refine emit_keeps (allowed.imp_left ?_)
  rintro quiet _ _ ⟨⟩
  exact quiet

variable {fails : Nat → Bool}

theorem forward_keeps {peer : Nat} {frame : Bytes}
    (allowed : relayFrameClientId frame = none ∨ Extra (.send peer frame)) :
    relay.Keeps Extra (relay.forward fails peer frame) := by
  unfold forward
  split
  · exact close_keeps
  · exact send_keeps allowed

/-! ### Loops -/

variable {peers : List Nat} {body : RuntimeRelay → Nat → RelayAttachment → RuntimeRelay}

/-- What every turn of a loop preserves, the loop preserves. -/
theorem forPeers_invariant (Inv : RuntimeRelay → Prop) (start : Inv relay)
    (turn : ∀ current peer attachment, Inv current → current.attachment peer = some attachment → Inv (body current peer attachment)) :
    Inv (relay.forPeers peers body) := by
  induction peers generalizing relay with
  | nil => exact start
  | cons peer peers ih =>
    rw [forPeers_cons]
    refine ih ?_
    cases read : relay.attachment peer with
    | none => exact start
    | some attachment => exact turn relay peer attachment start read

theorem forPeers_keeps
    (turn : ∀ (current : RuntimeRelay) (peer : Nat) (attachment : RelayAttachment), current.attachment peer = some attachment → current.Keeps Extra (body current peer attachment)) :
    relay.Keeps Extra (relay.forPeers peers body) :=
  forPeers_invariant (relay.Keeps Extra) (.refl relay) fun current peer attachment keeps read =>
    keeps.trans (turn current peer attachment read)

/-- What a turn establishes for its own socket and every other turn preserves
holds for all sockets of the loop. -/
theorem forPeers_establishes (Done : Nat → RuntimeRelay → Prop)
    (absent : ∀ current peer, current.attachment peer = none → Done peer current)
    (turn : ∀ current peer attachment, current.attachment peer = some attachment → Done peer (body current peer attachment))
    (stays : ∀ current peer attachment i, current.attachment peer = some attachment → Done i current → Done i (body current peer attachment)) :
    ∀ i ∈ peers, Done i (relay.forPeers peers body) := by
  induction peers generalizing relay with
  | nil =>
    intro i member
    cases member
  | cons peer peers ih =>
    intro i member
    rw [forPeers_cons]
    rcases List.mem_cons.mp member with rfl | later
    · refine forPeers_invariant (Done i) ?_ fun current peer attachment done read =>
        stays current peer attachment i read done
      cases read : relay.attachment i with
      | none => exact absent relay i read
      | some attachment => exact turn relay i attachment read
    · exact ih i later

/-! ### Disconnects -/

theorem notifyRuntimeOfMobileDisconnect_keeps {mobile : RelayAttachment}
    (short : mobile.clientId.length ≤ 128) :
    relay.Keeps Extra (relay.notifyRuntimeOfMobileDisconnect fails mobile) := by
  unfold notifyRuntimeOfMobileDisconnect
  split
  · exact .refl relay
  · refine forPeers_keeps fun current peer runtime read => ?_
    split
    · exact .refl current
    · split
      · exact .refl current
      · exact forward_keeps (.inl (relayFrameClientId_relayDisconnectFrame short))

theorem disconnectMobilesForRuntime_keeps {runtime : RelayAttachment} :
    relay.Keeps Extra (relay.disconnectMobilesForRuntime runtime) := by
  unfold disconnectMobilesForRuntime
  split
  · exact .refl relay
  · refine forPeers_keeps fun current peer mobile read => ?_
    split
    · exact .refl current
    · exact (suppress_keeps read).trans close_keeps

variable {peer : RelayAttachment}

theorem webSocketClose_keeps (read : relay.attachment socket = some peer)
    (short : peer.clientId.length ≤ 128) :
    relay.Keeps Extra (relay.webSocketClose fails socket peer) := by
  have settled : relay.Keeps Extra (relay.emit (.settleCalls socket)) := settleCalls_keeps
  have suppressed : relay.Keeps Extra ((relay.emit (.settleCalls socket)).suppress socket peer) :=
    settled.trans (suppress_keeps read)
  unfold webSocketClose handlePeerDisconnectOnce
  split
  · exact settled
  · split
    · exact suppressed.trans (notifyRuntimeOfMobileDisconnect_keeps short)
    · exact suppressed.trans disconnectMobilesForRuntime_keeps

/-! ### Upgrades, up to the acceptance -/

/-- A duplicate is suppressed, then its peers are told. -/
theorem replacePeer_keeps {role : RelayRole} {peer : Nat} {peerAttachment : RelayAttachment}
    (short : peerAttachment.clientId.length ≤ 128) :
    (relay.suppress peer peerAttachment).Keeps Extra
      (relay.replacePeer fails role peer peerAttachment) := by
  refine Keeps.trans ?_ close_keeps
  split
  · exact notifyRuntimeOfMobileDisconnect_keeps short
  · exact settleCalls_keeps.trans disconnectMobilesForRuntime_keeps

theorem isDuplicate_clientId (duplicate : isDuplicate attachment peer = true) :
    peer.clientId = attachment.clientId := by
  simp only [isDuplicate, Bool.and_eq_true, beq_iff_eq] at duplicate
  exact duplicate.2

theorem replaceDuplicates_keeps (short : attachment.clientId.length ≤ 128) :
    relay.Keeps Extra (relay.replaceDuplicates fails attachment peers) := by
  refine forPeers_keeps fun current peer peerAttachment read => ?_
  split
  · rename_i duplicate
    exact (suppress_keeps read).trans (replacePeer_keeps (isDuplicate_clientId duplicate ▸ short))
  · exact .refl current

/-- Socket `i` is no live duplicate of the new one. -/
def Replaced (attachment : RelayAttachment) (i : Nat) (relay : RuntimeRelay) : Prop :=
  ∀ s, relay.sockets i = some s → isDuplicate attachment s.attachment = true →
    s.attachment.suppressDisconnect = true

variable {i : Nat}

theorem Keeps.replaced (keeps : relay.Keeps Extra after) (replaced : Replaced attachment i relay) :
    Replaced attachment i after := by
  intro t present duplicate
  obtain ⟨s, before, kept⟩ := keeps.sockets i t present
  refine kept.suppressed (replaced s before ?_)
  have role := congrArg RelayIdentity.role kept.identity
  have clientId := congrArg RelayIdentity.clientId kept.identity
  simp only [RelayClaims.identity] at role clientId
  rw [isDuplicate, ← role, ← clientId]
  exact duplicate

/-- After the loop every listed socket of the same role and client is suppressed. -/
theorem replaceDuplicates_suppresses (short : attachment.clientId.length ≤ 128) :
    ∀ i ∈ peers, Replaced attachment i (relay.replaceDuplicates fails attachment peers) := by
  have suppressed : ∀ (current : RuntimeRelay) (peer : Nat) (peerAttachment : RelayAttachment),
      isDuplicate attachment peerAttachment = true →
      (current.suppress peer peerAttachment).Keeps (fun _ => False)
        (current.replacePeer fails attachment.role peer peerAttachment) :=
    fun _ _ _ duplicate => replacePeer_keeps (isDuplicate_clientId duplicate ▸ short)
  refine forPeers_establishes (Replaced attachment) ?_ ?_ ?_
  · intro current peer absent s present
    rw [RuntimeRelay.attachment, present] at absent
    cases absent
  · intro current peer peerAttachment read
    split
    · rename_i duplicate
      refine (suppressed current peer peerAttachment duplicate).replaced ?_
      intro s present _
      rw [suppress, serializeAttachment, modify_sockets_self] at present
      obtain ⟨_, _, rfl⟩ := of_map present
      rfl
    · rename_i different
      intro s present duplicate
      obtain ⟨_, same, rfl⟩ := attachment_eq_some.mp read
      cases present.symm.trans same
      exact absurd duplicate different
  · intro current peer peerAttachment i read replaced
    split
    · rename_i duplicate
      have first : current.Keeps (fun _ => False) (current.suppress peer peerAttachment) :=
        suppress_keeps read
      exact (first.trans (suppressed current peer peerAttachment duplicate)).replaced replaced
    · exact replaced

/-! ### Renewal -/

variable {previous : RelayAttachment}

theorem renewalFailed_keeps : relay.Keeps Extra (relay.renewalFailed socket previous) := by
  unfold renewalFailed
  split
  · exact .refl relay
  · split
    · exact .refl relay
    · exact close_keeps

variable {platform : RelayPlatform} {bytes : Bytes}

theorem renewAuthorization_keeps (read : relay.attachment socket = some previous) :
    relay.Keeps Extra (relay.renewAuthorization platform socket previous bytes) := by
  unfold renewAuthorization
  split
  · exact close_keeps
  split
  · exact close_keeps
  split
  · exact .refl relay
  split
  · exact renewalFailed_keeps
  split
  · split
    · -- The call is suspended with the attachment it started from.
      apply modify_keeps
      intro s present
      obtain ⟨_, same, rfl⟩ := attachment_eq_some.mp read
      cases present.symm.trans same
      refine ⟨rfl, id, rfl, id, ?_, ?_, id⟩
      · rintro _ ⟨⟩
        exact .inr rfl
      · rintro (awaits | ⟨_, ⟨⟩, awaits⟩)
        · exact .inl awaits
        · exact .inl awaits
    · exact close_keeps
  · exact close_keeps

theorem renews_identity {claims : RelayAttachment} (renewed : renews previous claims = true) :
    claims.identity = previous.identity := by
  rw [renews, Bool.and_eq_true] at renewed
  exact (sameRelayIdentity_iff.mp renewed.1).symm

variable {s : RelaySocket} {outcome : GrantOutcome}

/-- A renewal that comes back writes a grant for the identity it started from, and
only over an attachment that is not suppressed. -/
theorem concludeRenewal_keeps {renewal : Renewal}
    (present : relay.sockets socket = some s) (renewing : s.renewing = some renewal)
    (identity : renewal.previous.identity = s.attachment.identity) :
    relay.Keeps Extra (relay.concludeRenewal fails socket s.attachment renewal outcome) := by
  unfold concludeRenewal
  split
  · exact .refl relay
  rename_i live
  split
  · split
    · exact .refl relay
    · exact send_keeps (.inl (relayFrameClientId_controlFrame _))
  split
  · exact close_keeps
  rename_i unexpired
  split
  · split
    · exact renewalFailed_keeps
    · exact send_keeps (.inl (relayFrameClientId_controlFrame _))
  rename_i claims accepted
  have renewed : renews renewal.previous claims = true := (Option.filter_eq_some_iff.mp accepted).2
  have written : relay.Keeps Extra (relay.serializeAttachment socket
      (renewedAttachment renewal.previous s.attachment claims)) := by
    refine modify_keeps fun _ same => ?_
    cases present.symm.trans same
    refine ⟨rfl, id, (renews_identity renewed).trans identity, fun suppressed => ?_, fun _ => .inl,
      ?_, fun _ => Int.lt_of_not_ge unexpired⟩
    · simp [suppressed] at live
    · exact Or.rec (fun awaits => .inr ⟨renewal, renewing, awaits⟩) .inr
  split
  · exact written.trans renewalFailed_keeps
  · exact written.trans (send_keeps (.inl (relayFrameClientId_controlFrame _)))

theorem endRenewal_keeps : relay.Keeps Extra (relay.endRenewal socket) :=
  modify_keeps fun _ _ => ⟨rfl, id, rfl, id, fun _ => nofun, RelaySocket.Pending.of_idle, id⟩

/-! ### Messages -/

variable {sender : RelayAttachment} {clientId : Utf16}

theorem peerCommand_keeps {command : RelayCommand} :
    relay.Keeps Extra (relay.peerCommand sender command clientId) := by
  refine forPeers_keeps fun current peer target read => ?_
  split
  · split
    · exact serializeAttachment_keeps read rfl id nofun id
    · split <;> exact (suppress_keeps read).trans close_keeps
  · exact .refl current

theorem controlMessage_keeps (read : relay.attachment socket = some sender) :
    relay.Keeps Extra (relay.controlMessage platform socket sender bytes) := by
  unfold controlMessage
  split
  · split
    · exact close_keeps
    · split
      · exact peerCommand_keeps
      · exact peerCommand_keeps
      · exact renewAuthorization_keeps read
  · exact renewAuthorization_keeps read

/-- What the forwarding loop has checked about a socket before it sends there. -/
structure Admits (now : Int) (sender target : RelayAttachment) (clientId : Utf16) : Prop where
  unsuppressed : target.suppressDisconnect = false
  unexpired : now < target.exp
  opposite : sender.role ≠ target.role
  account : sender.accountId = target.accountId
  runtime : sender.runtimeId = target.runtimeId
  addressed : sender.role = .runtime → target.clientId = clientId

theorem forwardFrame_keeps
    (extra : ∀ peer target, peer ≠ socket → relay.attachment peer = some target → Admits relay.now sender target clientId → Extra (.send peer bytes)) :
    relay.Keeps Extra (relay.forwardFrame fails socket sender clientId bytes) := by
  -- The loop rewrites no attachment, so each turn reads what the first one would.
  refine (forPeers_invariant (fun current => relay.Keeps Extra current ∧
    current.attachment = relay.attachment) ⟨.refl relay, rfl⟩ ?_).1
  rintro current peer target ⟨keeps, same⟩ read
  split
  · exact ⟨keeps, same⟩
  rename_i other
  split
  · exact ⟨keeps, same⟩
  rename_i live
  split
  · exact ⟨keeps.trans (settleCalls_keeps.trans close_keeps), same⟩
  rename_i unexpired
  split
  · exact ⟨keeps, same⟩
  rename_i admitted
  have now : current.now = relay.now := congrArg (· / 1000) keeps.nowMs
  rw [now] at unexpired
  simp only [not_or, not_not, not_and, Bool.or_eq_true, Bool.not_eq_true] at live admitted
  have admits : Admits relay.now sender target clientId :=
    ⟨live.1, Int.lt_of_not_ge unexpired, admitted.1, admitted.2.1, admitted.2.2.1, admitted.2.2.2⟩
  have allowed := extra peer target other (same ▸ read) admits
  refine ⟨keeps.trans (forward_keeps (.inr allowed)), ?_⟩
  unfold forward
  split <;> exact same

theorem dataMessage_keeps
    (extra : ∀ peer target clientId, peer ≠ socket → relay.attachment peer = some target → relayFrameClientId bytes = some clientId → isReserved clientId = false → (sender.role = .mobile → sender.clientId = clientId) → Admits relay.now sender target clientId → Extra (.send peer bytes)) :
    relay.Keeps Extra (relay.dataMessage fails socket sender bytes) := by
  unfold dataMessage
  split
  · exact close_keeps
  rename_i clientId read
  split
  · exact close_keeps
  split
  · exact close_keeps
  rename_i matching
  split
  · split
    · refine emit_keeps (.inl ?_)
      rintro _ _ ⟨⟩
    · exact .refl relay
  rename_i unreserved
  refine forwardFrame_keeps fun peer target other present admits => ?_
  refine extra peer target clientId other present read (Bool.eq_false_iff.mpr unreserved) ?_ admits
  intro mobile
  exact not_not.mp fun different => matching ⟨mobile, different⟩

/-! ## The invariant -/

/-- One live socket at most for a role and client. -/
def Unique (relay : RuntimeRelay) : Prop :=
  ∀ i j s t, relay.sockets i = some s → relay.sockets j = some t → s.Live → t.Live →
    s.admitted.role = t.admitted.role → s.admitted.clientId = t.admitted.clientId → i = j

/-- What holds between any two events. -/
structure Isolated (relay : RuntimeRelay) : Prop where
  numbered : ∀ i s, relay.sockets i = some s → i < relay.accepted
  identity : ∀ i s, relay.sockets i = some s → s.attachment.identity = s.admitted.identity
  renewing : ∀ i s renewal, relay.sockets i = some s → s.renewing = some renewal →
    renewal.previous.identity = s.admitted.identity
  short : ∀ i s, relay.sockets i = some s → s.admitted.clientId.length ≤ 128
  unique : relay.Unique

theorem start_isolated (nowMs : Int) : (start nowMs).Isolated := by
  refine ⟨?_, ?_, ?_, ?_, ?_⟩
  · rintro _ _ ⟨⟩
  · rintro _ _ ⟨⟩
  · rintro _ _ _ ⟨⟩
  · rintro _ _ ⟨⟩
  · rintro _ _ _ _ ⟨⟩

/-- Whatever keeps, keeps the invariant. -/
theorem Keeps.isolated (keeps : relay.Keeps Extra after) (isolated : relay.Isolated) :
    after.Isolated := by
  refine ⟨?_, ?_, ?_, ?_, ?_⟩
  · intro i t present
    obtain ⟨s, before, _⟩ := keeps.sockets i t present
    rw [keeps.accepted]
    exact isolated.numbered i s before
  · intro i t present
    obtain ⟨s, before, kept⟩ := keeps.sockets i t present
    rw [kept.identity, kept.admitted]
    exact isolated.identity i s before
  · intro i t renewal present renewing
    obtain ⟨s, before, kept⟩ := keeps.sockets i t present
    rw [kept.admitted]
    rcases kept.renewing renewal renewing with same | fresh
    · exact isolated.renewing i s renewal before same
    · exact fresh.trans (isolated.identity i s before)
  · intro i t present
    obtain ⟨s, before, kept⟩ := keeps.sockets i t present
    rw [kept.admitted]
    exact isolated.short i s before
  · intro i j t u presentI presentJ liveT liveU role clientId
    obtain ⟨s, beforeI, keptI⟩ := keeps.sockets i t presentI
    obtain ⟨r, beforeJ, keptJ⟩ := keeps.sockets j u presentJ
    rw [keptI.admitted, keptJ.admitted] at role clientId
    exact isolated.unique i j s r beforeI beforeJ (keptI.live liveT) (keptJ.live liveU) role
      clientId

/-- The attachment of a socket agrees with its claims at the upgrade. -/
theorem Isolated.attachment_identity (isolated : relay.Isolated)
    (read : relay.attachment socket = some attachment) :
    ∃ s, relay.sockets socket = some s ∧ s.attachment = attachment ∧
      attachment.identity = s.admitted.identity := by
  obtain ⟨s, present, rfl⟩ := attachment_eq_some.mp read
  exact ⟨s, present, rfl, isolated.identity socket s present⟩

variable {peers : List RelayAttachment}

theorem acceptWebSocket_sockets_cases
    (present : (relay.acceptWebSocket attachment peers).sockets i = some s) :
    (i = relay.accepted ∧ s = newSocket attachment peers) ∨ relay.sockets i = some s := by
  obtain ⟨mine, new⟩ | ⟨-, old⟩ := of_update present
  · exact .inl ⟨mine, (Option.some.inj new).symm⟩
  · exact .inr old

/-- Accepting a socket whose duplicates are all suppressed or gone. -/
theorem acceptWebSocket_isolated (isolated : relay.Isolated)
    (short : attachment.clientId.length ≤ 128)
    (replaced : ∀ i s, relay.sockets i = some s → s.Live → s.admitted.role = attachment.role → s.admitted.clientId ≠ attachment.clientId) :
    (relay.acceptWebSocket attachment peers).Isolated := by
  refine ⟨?_, ?_, ?_, ?_, ?_⟩
  · intro i s present
    rcases acceptWebSocket_sockets_cases present with ⟨rfl, _⟩ | old
    · exact Nat.lt_succ_self _
    · exact Nat.lt_succ_of_lt (isolated.numbered i s old)
  · intro i s present
    rcases acceptWebSocket_sockets_cases present with ⟨_, rfl⟩ | old
    · rfl
    · exact isolated.identity i s old
  · intro i s renewal present renewing
    rcases acceptWebSocket_sockets_cases present with ⟨_, rfl⟩ | old
    · cases renewing
    · exact isolated.renewing i s renewal old renewing
  · intro i s present
    rcases acceptWebSocket_sockets_cases present with ⟨_, rfl⟩ | old
    · exact short
    · exact isolated.short i s old
  · intro i j s t presentI presentJ liveS liveT role clientId
    rcases acceptWebSocket_sockets_cases presentI with ⟨rfl, rfl⟩ | oldI
    · rcases acceptWebSocket_sockets_cases presentJ with ⟨rfl, _⟩ | oldJ
      · rfl
      · exact absurd clientId.symm (replaced j t oldJ liveT role.symm)
    · rcases acceptWebSocket_sockets_cases presentJ with ⟨rfl, rfl⟩ | oldJ
      · exact absurd clientId (replaced i s oldI liveS role)
      · exact isolated.unique i j s t oldI oldJ liveS liveT role clientId

theorem mem_getWebSockets (isolated : relay.Isolated) (present : relay.sockets i = some s)
    (listed : s.listed = true) :
    i ∈ relay.getWebSockets := by
  refine List.mem_filter.mpr ⟨List.mem_range.mpr (isolated.numbered i s present), ?_⟩
  rw [present]
  exact listed

/-- The loop leaves no live socket of the new one's role and client. -/
theorem replaceDuplicates_replaced (isolated : relay.Isolated)
    (short : attachment.clientId.length ≤ 128) {t : RelaySocket}
    (present : (relay.replaceDuplicates fails attachment relay.getWebSockets).sockets i = some t)
    (live : t.Live) (role : t.admitted.role = attachment.role) :
    t.admitted.clientId ≠ attachment.clientId := by
  intro clientId
  have keeps : relay.Keeps (fun _ => False)
      (relay.replaceDuplicates fails attachment relay.getWebSockets) :=
    replaceDuplicates_keeps short
  obtain ⟨s, before, kept⟩ := keeps.sockets i t present
  have listed := mem_getWebSockets isolated before (kept.live live).1
  have identity := (keeps.isolated isolated).identity i t present
  have duplicate : isDuplicate attachment t.attachment = true := by
    have sameRole := congrArg RelayIdentity.role identity
    have sameClient := congrArg RelayIdentity.clientId identity
    simp only [RelayClaims.identity] at sameRole sameClient
    simp [isDuplicate, sameRole, sameClient, role, clientId]
  have suppressed := replaceDuplicates_suppresses short i listed t present duplicate
  exact Bool.eq_false_iff.mp live.2 suppressed

/-! ## One event -/

/-- What a forwarded data frame went through: between two sockets of one account
and runtime and opposite roles, both live grants, under the mobile's own id. -/
structure Forwards (now : Int) (source target : RelaySocket) (clientId : Utf16) : Prop where
  opposite : source.admitted.role ≠ target.admitted.role
  account : source.admitted.accountId = target.admitted.accountId
  runtime : source.admitted.runtimeId = target.admitted.runtimeId
  unsuppressed : source.attachment.suppressDisconnect = false ∧
    target.attachment.suppressDisconnect = false
  unexpired : now < source.attachment.exp ∧ now < target.attachment.exp
  toMobile : target.admitted.role = .mobile → target.admitted.clientId = clientId
  fromMobile : source.admitted.role = .mobile → source.admitted.clientId = clientId
  unreserved : isReserved clientId = false

/-- The effect is the delivery of a data frame received from `socket`. -/
def Delivers (relay : RuntimeRelay) (socket : Nat) (frame : Bytes) (effect : RelayEffect) : Prop :=
  ∃ recipient source target clientId, effect = .send recipient frame ∧
    relay.sockets socket = some source ∧ relay.sockets recipient = some target ∧
    relayFrameClientId frame = some clientId ∧ Forwards relay.now source target clientId

theorem admitIngress_eq_some {initial : RelayAttachment} {byteLength : Nat}
    (admitted : relay.admitIngress initial byteLength = some sender) :
    sender.toRelayClaims = initial.toRelayClaims ∧
      sender.suppressDisconnect = initial.suppressDisconnect ∧
      sender.awaitingRuntime = initial.awaitingRuntime := by
  obtain ⟨_, same⟩ := Option.ite_none_left_eq_some.mp admitted
  cases same
  exact ⟨rfl, rfl, rfl⟩

/-- The loop's checks on attachments are facts about the two sockets. -/
theorem Admits.forwards {now : Int} {source target : RelaySocket}
    (admits : Admits now sender target.attachment clientId)
    (claims : sender.toRelayClaims = source.attachment.toRelayClaims)
    (identityS : source.attachment.identity = source.admitted.identity)
    (identityT : target.attachment.identity = target.admitted.identity)
    (unsuppressed : source.attachment.suppressDisconnect = false)
    (unexpired : now < source.attachment.exp)
    (own : sender.role = .mobile → sender.clientId = clientId)
    (unreserved : isReserved clientId = false) : Forwards now source target clientId := by
  have identity : sender.identity = source.admitted.identity := by rw [claims, identityS]
  simp only [RelayClaims.identity, RelayIdentity.mk.injEq] at identity identityT
  obtain ⟨_, _, accountS, runtimeS, clientS, roleS, _⟩ := identity
  obtain ⟨_, _, accountT, runtimeT, clientT, roleT, _⟩ := identityT
  refine ⟨?_, ?_, ?_, ⟨unsuppressed, admits.unsuppressed⟩, ⟨unexpired, admits.unexpired⟩, ?_, ?_,
    unreserved⟩
  · rw [← roleS, ← roleT]
    exact admits.opposite
  · rw [← accountS, ← accountT]
    exact admits.account
  · rw [← runtimeS, ← runtimeT]
    exact admits.runtime
  · intro mobile
    rw [← clientT]
    apply admits.addressed
    have opposite := admits.opposite
    rw [roleT, mobile] at opposite
    cases role : sender.role with
    | runtime => rfl
    | mobile => exact absurd role opposite
  · intro mobile
    rw [← clientS]
    exact own (roleS.trans mobile)

theorem webSocketMessage_keeps {initialSender : RelayAttachment} (isolated : relay.Isolated)
    (read : relay.attachment socket = some initialSender) :
    relay.Keeps (relay.Delivers socket bytes)
      (relay.webSocketMessage platform fails socket initialSender bytes) := by
  unfold webSocketMessage
  split
  · exact close_keeps
  split
  · exact .refl relay
  rename_i unsuppressed
  split
  · exact settleCalls_keeps.trans close_keeps
  rename_i unexpired
  split
  · exact close_keeps
  rename_i sender admitted
  obtain ⟨claims, suppress, awaits⟩ := admitIngress_eq_some admitted
  obtain ⟨source, present, rfl, identity⟩ := isolated.attachment_identity read
  have written : relay.Keeps (relay.Delivers socket bytes)
      (relay.serializeAttachment socket sender) :=
    serializeAttachment_keeps read (congrArg RelayClaims.identity claims)
      (fun suppressed => suppress.trans suppressed) (fun awaiting => awaits.symm.trans awaiting)
      fun later => claims ▸ later
  refine written.trans ?_
  split
  · apply controlMessage_keeps
    rw [attachment, serializeAttachment, modify_sockets_self, present]
    rfl
  · apply dataMessage_keeps
    intro peer target clientId other read named unreserved own admits
    rw [attachment, serializeAttachment, modify_sockets_of_ne relay other] at read
    obtain ⟨recipient, presentT, rfl, identityT⟩ := isolated.attachment_identity read
    refine ⟨peer, source, recipient, clientId, rfl, present, presentT, named, ?_⟩
    exact admits.forwards claims identity identityT (Bool.eq_false_iff.mpr unsuppressed)
      (Int.lt_of_not_ge unexpired) own unreserved

/-- An upgrade adds at most one socket and sends no data frame. -/
theorem fetch_isolated {accepts : Bool} {request : UpgradeRequest} (isolated : relay.Isolated)
    (short : ∀ attachment, request = .claims attachment → attachment.clientId.length ≤ 128) :
    (relay.fetch fails accepts request).Isolated ∧
      relay.KeepsSockets (relay.fetch fails accepts request) ∧
      ∀ effect ∈ (relay.fetch fails accepts request).effects,
        effect ∈ relay.effects ∨ effect.Quiet := by
  -- Every branch but the last keeps.
  have kept : ∀ after, relay.Keeps (fun _ => False) after →
      after.Isolated ∧ relay.KeepsSockets after ∧
        ∀ effect ∈ after.effects, effect ∈ relay.effects ∨ effect.Quiet := by
    intro after keeps
    refine ⟨keeps.isolated isolated, keeps.keepsSockets, fun effect member => ?_⟩
    rcases keeps.effects effect member with old | quiet | ⟨⟨⟩⟩
    · exact .inl old
    · exact .inr quiet
  cases request with
  | notWebSocket | missingClaims | invalidClaims => exact kept _ reject_keeps
  | claims attachment =>
    have fits := short attachment rfl
    have replaced : relay.Keeps (fun _ => False)
        (relay.replaceDuplicates fails attachment relay.getWebSockets) :=
      replaceDuplicates_keeps fits
    unfold fetch
    dsimp only
    split
    · exact kept _ reject_keeps
    split
    · exact kept _ reject_keeps
    split
    · exact kept _ (replaced.trans reject_keeps)
    split
    · refine ⟨acceptWebSocket_isolated (replaced.isolated isolated) fits ?_, ?_, ?_⟩
      · intro i s present live role
        exact replaceDuplicates_replaced isolated fits present live role
      · obtain ⟨accepted, now, -⟩ := replaced.keepsSockets
        refine ⟨Nat.le_succ_of_le accepted, now, fun i t known after => ?_⟩
        obtain ⟨rfl, -⟩ | old := acceptWebSocket_sockets_cases after
        · exact absurd known (replaced.accepted ▸ Nat.lt_irrefl _)
        · exact replaced.sockets i t old
      · intro effect member
        rcases List.mem_append.mp member with old | fresh
        · exact (kept _ replaced).2.2 effect old
        · rw [List.mem_singleton.mp fresh]
          refine .inr ?_
          rintro _ _ ⟨⟩
    · exact kept _ replaced

/-- What is owed after an event: the invariant, that sockets keep what they must, and that the
data frames it sent are deliveries of the message it is about. -/
structure Sound (relay : RuntimeRelay) (event : RelayEvent) (after : RuntimeRelay) : Prop where
  isolated : after.Isolated
  accepted : after.accepted = relay.accepted ∨
    ∃ request verifiedAt accepts fails, event = .upgrade request verifiedAt accepts fails
  sockets : relay.beginEvent.KeepsSockets after
  effects : ∀ effect ∈ after.effects, effect.Quiet ∨
    ∃ socket message fails, event = .message socket message fails ∧
      relay.Delivers socket message.bytes effect

theorem Isolated.beginEvent (isolated : relay.Isolated) :
    relay.beginEvent.Isolated :=
  ⟨isolated.numbered, isolated.identity, isolated.renewing, isolated.short, isolated.unique⟩

variable {event : RelayEvent}

/-- A handler that keeps and sends nothing beyond quiet frames. -/
theorem Keeps.sound (keeps : relay.beginEvent.Keeps (fun _ => False) after)
    (isolated : relay.Isolated) :
    relay.Sound event after := by
  refine ⟨keeps.isolated isolated.beginEvent, .inl keeps.accepted, keeps.keepsSockets,
    fun effect member => ?_⟩
  rcases keeps.effects effect member with ⟨⟨⟩⟩ | quiet | ⟨⟨⟩⟩
  exact .inl quiet

variable (isolated : relay.Isolated)

include isolated

theorem upgrade_sound {request : UpgradeRequest} {verifiedAt : Int} {accepts : Bool}
    (stepped : step platform relay (.upgrade request verifiedAt accepts fails) = some after) :
    relay.Sound (.upgrade request verifiedAt accepts fails) after := by
  obtain ⟨accepted, stepped⟩ := of_when stepped
  cases stepped
  have short : ∀ attachment, request = .claims attachment → attachment.clientId.length ≤ 128 := by
    rintro attachment rfl
    exact claimsAccepted_clientId accepted
  obtain ⟨upgraded, sockets, quiet⟩ := fetch_isolated isolated.beginEvent short
  refine ⟨upgraded, .inr ⟨_, _, _, _, rfl⟩, sockets, fun effect member => ?_⟩
  rcases quiet effect member with ⟨⟨⟩⟩ | quiet
  exact .inl quiet

theorem message_sound {message : RelayMessage}
    (stepped : step platform relay (.message socket message fails) = some after) :
    relay.Sound (.message socket message fails) after := by
  obtain ⟨sender, read, result⟩ := of_bind stepped
  cases result
  have keeps : relay.beginEvent.Keeps (relay.Delivers socket message.bytes)
      (relay.beginEvent.webSocketMessage platform fails socket sender message.bytes) :=
    webSocketMessage_keeps isolated.beginEvent read
  refine ⟨keeps.isolated isolated.beginEvent, .inl keeps.accepted, keeps.keepsSockets,
    fun effect member => ?_⟩
  rcases keeps.effects effect member with ⟨⟨⟩⟩ | quiet | delivers
  · exact .inl quiet
  · exact .inr ⟨socket, message, fails, rfl, delivers⟩

theorem renewalVerified_sound
    (stepped : step platform relay (.renewalVerified socket outcome fails) = some after) :
    relay.Sound (.renewalVerified socket outcome fails) after := by
  obtain ⟨s, present, renewal, renewing, result⟩ := of_bind₂ stepped
  cases result
  have present : relay.beginEvent.sockets socket = some s := present
  have identity : renewal.previous.identity = s.attachment.identity :=
    (isolated.renewing socket s renewal present renewing).trans
      (isolated.identity socket s present).symm
  exact ((concludeRenewal_keeps present renewing identity).trans endRenewal_keeps).sound isolated

theorem socketClosed_sound (read : relay.attachment socket = some peer) :
    relay.Sound event (relay.beginEvent.webSocketClose fails socket peer) := by
  obtain ⟨s, present, _, identity⟩ := isolated.attachment_identity read
  have short : peer.clientId.length ≤ 128 := by
    have same := congrArg RelayIdentity.clientId identity
    simp only [RelayClaims.identity] at same
    rw [same]
    exact isolated.short socket s present
  have keeps : relay.beginEvent.Keeps (fun _ => False)
      (relay.beginEvent.webSocketClose fails socket peer) := webSocketClose_keeps read short
  exact keeps.sound isolated

omit isolated

theorem evicted_keeps :
    relay.Keeps Extra { relay with
      sockets := fun i => (relay.sockets i).map fun s => { s with renewing := none } } := by
  refine ⟨rfl, rfl, ?_, fun _ h => .inl h⟩
  intro i t present
  obtain ⟨s, before, rfl⟩ := of_map present
  exact ⟨s, before, rfl, id, rfl, id, fun _ => nofun, RelaySocket.Pending.of_idle, id⟩

theorem step_sound (isolated : relay.Isolated) (stepped : step platform relay event = some after) :
    relay.Sound event after := by
  cases event with
  | upgrade request verifiedAt accepts fails => exact upgrade_sound isolated stepped
  | message socket message fails => exact message_sound isolated stepped
  | renewalVerified socket outcome fails => exact renewalVerified_sound isolated stepped
  | socketClosed socket fails | socketError socket fails =>
    obtain ⟨peer, read, result⟩ := of_bind stepped
    cases result
    exact socketClosed_sound isolated read
  | socketDropped socket =>
    cases stepped
    refine Keeps.sound (modify_keeps fun s _ => ⟨rfl, ?_, rfl, id, fun _ => .inl, id, id⟩) isolated
    rintro ⟨⟩
  | timePasses elapsedMs =>
    cases stepped
    refine ⟨⟨isolated.numbered, isolated.identity, isolated.renewing, isolated.short,
      isolated.unique⟩, .inl rfl, ⟨Nat.le_refl _, ?_, fun i t _ same => ⟨t, same, .refl t⟩⟩, nofun⟩
    exact Int.ediv_le_ediv (by decide) (Int.le_add_of_nonneg_right (Int.natCast_nonneg _))
  | evicted =>
    cases stepped
    have keeps : relay.beginEvent.Keeps (fun _ => False) _ := evicted_keeps
    exact keeps.sound isolated

/-! ## Whole runs -/

/-- **A relay object never crosses tenants.**  After any events, at most one live
socket exists for a role and client, and every data frame the next event sends
was received in that event from a socket of the opposite role admitted for the
same account and runtime, with both grants in force. -/
theorem relay_isolates (platform : RelayPlatform) (nowMs : Int) (events : List RelayEvent)
    (relay : RuntimeRelay) (ran : run (step platform) (start nowMs) events = some relay) :
    relay.Unique ∧
      ∀ event after, step platform relay event = some after →
        ∀ recipient frame clientId, .send recipient frame ∈ after.effects →
          relayFrameClientId frame = some clientId →
          ∃ sender message fails source target, event = .message sender message fails ∧
            message.bytes = frame ∧ relay.sockets sender = some source ∧
            relay.sockets recipient = some target ∧ Forwards relay.now source target clientId := by
  have isolated : relay.Isolated := run_invariant Isolated
    (fun s event t isolated stepped => (step_sound isolated stepped).isolated) events _ relay
    (start_isolated nowMs) ran
  refine ⟨isolated.unique, ?_⟩
  intro event after stepped recipient frame clientId sent named
  rcases (step_sound isolated stepped).effects _ sent with quiet | ⟨sender, message, fails, rfl, delivers⟩
  · rw [quiet recipient frame rfl] at named
    cases named
  · obtain ⟨_, source, target, id, same, presentS, presentT, read, forwards⟩ := delivers
    cases same
    cases read.symm.trans named
    exact ⟨sender, message, fails, source, target, rfl, rfl, presentS, presentT, forwards⟩

/-- A grant of account `a` and runtime `r`, good until second 100. -/
def sampleGrant (role : RelayRole) (clientId : Utf16) : RelayAttachment where
  iss := ofString "alera"
  aud := relayAudience
  exp := 100
  iat := 0
  nbf := 0
  jti := ofString "j"
  accountId := ofString "a"
  runtimeId := ofString "r"
  clientId := clientId
  role := role
  keyVersion := 1
  clientPublicKey := []
  runtimePublicKey := []
  mcpAccess := none
  mobileAccess := none
  suppressDisconnect := false
  controlProtocol := false
  connectionId := none
  awaitingRuntime := false
  ingressWindowStartedAt := none
  ingressBytes := none

def samplePlatform : RelayPlatform where
  issuer := ofString "alera"
  hasEnvironment := true
  renewalDisabled := false
  base64UrlLength := fun _ => some 32
  parseCommand := fun _ => none
  parseRenewal := fun _ => none

/-- A runtime and the mobile `m` connect; `m` connects again and replaces itself. -/
def reconnectingRun : List RelayEvent :=
  [.upgrade (.claims (sampleGrant .runtime (ofString "r"))) 1 true fun _ => false,
    .upgrade (.claims (sampleGrant .mobile (ofString "m"))) 1 true fun _ => false,
    .upgrade (.claims (sampleGrant .mobile (ofString "m"))) 1 true fun _ => false]

/-- Id `m` and a one-byte payload. -/
def sampleFrame : Bytes := [0, 1, 109, 7]

theorem relay_isolates_reconnectingRun :
    ∃ relay after, run (step samplePlatform) (start 1000) reconnectingRun = some relay ∧
      step samplePlatform relay (.message 2 (.binary sampleFrame) fun _ => false) = some after ∧
      after.effects = [.send 0 sampleFrame] ∧ relay.Unique ∧
      ∃ source target, relay.sockets 2 = some source ∧ relay.sockets 0 = some target ∧
        Forwards relay.now source target (ofString "m") := by
  refine ⟨_, _, rfl, rfl, rfl, ?_⟩
  have named : relayFrameClientId sampleFrame = some (ofString "m") := by decide
  have isolates := relay_isolates samplePlatform 1000 reconnectingRun _ rfl
  obtain ⟨sender, message, fails, source, target, same, _, presentS, presentT, forwards⟩ :=
    isolates.2 (.message 2 (.binary sampleFrame) fun _ => false) _ rfl 0 sampleFrame
      (ofString "m") (.head _) named
  cases same
  exact ⟨isolates.1, source, target, presentS, presentT, forwards⟩

end RuntimeRelay

end Alera.Edge
