/-
# Alera.Edge.ReadyMobiles -- whether a mobile that was declared ready stays reachable

A mobile that connects while its runtime speaks the control protocol gets no frames until
the runtime says `peer.ready`.  A renewal writes that flag back as it was when the renewal began,
and the runtime may answer while the new grant is being verified.

`RelaySocket.Pending` covers the flag and renewals that may bring it back; no
handler makes a socket pending that was not (`RelaySocket.Keeps`).
-/
import Alera.Edge.RelayIsolation
import Mathlib.Data.List.Perm.Subperm

namespace Alera.Edge.RuntimeRelay

open Theory List

set_option autoImplicit false

/-- The message is a `peer.ready` that matches the mobile connection `i`. -/
def DeclaresReady (platform : RelayPlatform) (relay : RuntimeRelay) (socket : Nat) (bytes : Bytes)
    (i : Nat) : Prop :=
  ∃ initial sender command clientId target, relay.attachment socket = some initial ∧
    bytes.length ≤ maxRelayFrameBytes ∧ initial.suppressDisconnect = false ∧ relay.now < initial.exp ∧
    relay.admitIngress initial bytes.length = some sender ∧ bytes.take 2 = [0, 0] ∧
    sender.controlProtocol = true ∧ sender.role = .runtime ∧ bytes.length ≤ maxRelayControlBytes ∧
    platform.parseCommand (bytes.drop 2) = some command ∧ command.type = .peerReady ∧
    command.clientId = some clientId ∧
    i ∈ (relay.serializeAttachment socket sender).getWebSocketsTagged RelayRole.mobile.tag ∧
    (relay.serializeAttachment socket sender).attachment i = some target ∧
    addresses sender command clientId target = true

section Ready

variable {relay : RuntimeRelay} {i : Nat}

variable {socket : Nat} {t : RelaySocket}

/-- A write to one attachment, seen from any socket. -/
theorem serializeAttachment_sockets {attachment : RelayAttachment}
    (present : (relay.serializeAttachment socket attachment).sockets i = some t) :
    ∃ s, relay.sockets i = some s ∧ t.renewing = s.renewing ∧
      (i = socket ∧ t.attachment = attachment ∨ i ≠ socket ∧ t = s) := by
  by_cases mine : i = socket
  · subst mine
    rw [serializeAttachment, modify_sockets_self] at present
    obtain ⟨s, before, rfl⟩ := of_map present
    exact ⟨s, before, rfl, .inl ⟨rfl, rfl⟩⟩
  · rw [serializeAttachment, modify_sockets_of_ne relay mine] at present
    exact ⟨t, present, rfl, .inr ⟨mine, rfl⟩⟩

variable {sender : RelayAttachment} {clientId : Utf16}

/-- The loop of `peer.ready` leaves every socket it addresses without the flag, and leaves renewals
alone. -/
theorem peerCommand_ready {command : RelayCommand} {s : RelaySocket}
    (ready : command.type = .peerReady)
    (listed : i ∈ relay.getWebSocketsTagged RelayRole.mobile.tag)
    (present : relay.sockets i = some s)
    (matched : addresses sender command clientId s.attachment = true)
    (after : (relay.peerCommand sender command clientId).sockets i = some t) :
    t.attachment.awaitingRuntime = false ∧ t.renewing = s.renewing := by
  have kept : ∀ t, (relay.peerCommand sender command clientId).sockets i = some t →
      addresses sender command clientId t.attachment = true ∧ t.renewing = s.renewing := by
    refine forPeers_invariant (fun current => ∀ t, current.sockets i = some t →
      addresses sender command clientId t.attachment = true ∧ t.renewing = s.renewing) ?_ ?_
    · intro t same
      cases present.symm.trans same
      exact ⟨matched, rfl⟩
    · intro current peer target held read t after
      split at after
      next addressed =>
        obtain ⟨s, before, renewing, ⟨rfl, written⟩ | ⟨-, rfl⟩⟩ := serializeAttachment_sockets after
        · exact ⟨written ▸ addressed, renewing.trans (held s before).2⟩
        · exact held t before
      · exact held t after
  refine ⟨?_, (kept t after).2⟩
  refine forPeers_establishes (fun j current => ∀ t, current.sockets j = some t →
    addresses sender command clientId t.attachment = true → t.attachment.awaitingRuntime = false)
    ?_ ?_ ?_ i listed t after (kept t after).1
  · intro current peer absent t same
    rw [RuntimeRelay.attachment, same] at absent
    cases absent
  · intro current peer target read t after addressed
    split at after
    next =>
      obtain ⟨s, -, -, ⟨-, written⟩ | ⟨other, -⟩⟩ := serializeAttachment_sockets after
      · rw [written]
      · exact absurd rfl other
    next different =>
      obtain ⟨_, same, rfl⟩ := attachment_eq_some.mp read
      cases after.symm.trans same
      exact absurd addressed different
  · intro current peer target j read done t after addressed
    split at after
    next =>
      obtain ⟨s, before, -, ⟨-, written⟩ | ⟨-, rfl⟩⟩ := serializeAttachment_sockets after
      · rw [written]
      · exact done t before addressed
    · exact done t after addressed

variable {platform : RelayPlatform} {fails : Nat → Bool} {after : RuntimeRelay}
  {message : RelayMessage}

/-- After a matching `peer.ready` nothing can bring the flag back, unless a renewal was under way. -/
theorem step_ready (declares : DeclaresReady platform relay.beginEvent socket message.bytes i)
    (idle : ∀ s renewal, relay.sockets i = some s → s.renewing = some renewal → renewal.previous.awaitingRuntime = false)
    (stepped : step platform relay (.message socket message fails) = some after)
    (present : after.sockets i = some t) : ¬ t.Pending := by
  obtain ⟨initial, sender, command, clientId, target, read, fits, unsuppressed, unexpired, admitted, zeros,
    control, role, short, parsed, ready, isClient, listed, found, matched⟩ := declares
  obtain ⟨initial', read', result⟩ := of_bind stepped
  obtain rfl : initial = initial' := Option.mem_unique read read'
  cases result
  rw [webSocketMessage, if_neg (Nat.not_lt.mpr fits), if_neg (by simp [unsuppressed]),
    if_neg (Int.not_le.mpr unexpired), admitted] at present
  simp only [if_pos zeros, controlMessage, control, role, short, parsed, ready, isClient, beq_self_eq_true,
    decide_true, Bool.and_self, if_true] at present
  obtain ⟨s, before, rfl⟩ := attachment_eq_some.mp found
  obtain ⟨reached, renewing⟩ := peerCommand_ready ready listed before matched present
  obtain ⟨s', before', renewing', -⟩ := serializeAttachment_sockets before
  rintro (awaits | ⟨renewal, isRenewal, stale⟩)
  · rw [reached] at awaits
    cases awaits
  · rw [idle s' renewal before' (renewing'.symm.trans (renewing.symm.trans isRenewal))] at stale
    cases stale

/-- The forwarding loop sends to every listed socket that it admits and that waits for nobody. -/
theorem forwardFrame_sends {target : RelayAttachment} {frame : Bytes}
    (listed : i ∈ relay.getWebSockets) (other : i ≠ socket)
    (present : relay.attachment i = some target) (waits : target.awaitingRuntime = false)
    (admits : Admits relay.now sender target clientId) (sends : fails i = false) :
    .send i frame ∈ (relay.forwardFrame fails socket sender clientId frame).effects := by
  -- The loop rewrites no attachment, so its turn for `i` reads this one.
  have same : (relay.forwardFrame fails socket sender clientId frame).attachment = relay.attachment ∧
      (relay.forwardFrame fails socket sender clientId frame).now = relay.now := by
    refine forPeers_invariant (fun current => current.attachment = relay.attachment ∧
      current.now = relay.now) ⟨rfl, rfl⟩ fun current peer _ held _ => ?_
    unfold forward
    repeat' split
    all_goals exact held
  refine forPeers_establishes (fun j current => j = i → current.attachment = relay.attachment →
    current.now = relay.now → .send i frame ∈ current.effects) ?_ ?_ ?_ i listed rfl same.1 same.2
  · rintro current _ absent rfl attachments -
    rw [attachments, present] at absent
    cases absent
  · rintro current _ attachment read rfl
    have reads : current.attachment = relay.attachment → attachment = target := by
      intro attachments
      rw [attachments, present] at read
      exact (Option.some.inj read).symm
    split
    · exact absurd ‹_› other
    split
    next hidden =>
      intro attachments _
      obtain rfl := reads attachments
      simp [waits, admits.unsuppressed] at hidden
    split
    next expired =>
      intro attachments now
      obtain rfl := reads attachments
      have now : current.now = relay.now := now
      have := admits.unexpired
      omega
    split
    next refused =>
      intro attachments _
      obtain rfl := reads attachments
      rcases refused with same | account | runtime | ⟨isRuntime, client⟩
      · exact absurd same admits.opposite
      · exact absurd admits.account account
      · exact absurd admits.runtime runtime
      · exact absurd (admits.addressed isRuntime) client
    next =>
      simp [forward, sends, emit]
  · intro current peer attachment j read done isI
    unfold forward
    repeat' split
    all_goals
      intro attachments now
      have sent := done isI attachments now
      simp [close, emit, sent]

/-- What no later event undoes. -/
structure Reached (i : Nat) (relay : RuntimeRelay) : Prop where
  isolated : relay.Isolated
  accepted : i < relay.accepted
  idle : ∀ t, relay.sockets i = some t → ¬ t.Pending

theorem step_reached {event : RelayEvent} (reached : relay.Reached i)
    (stepped : step platform relay event = some after) :
    after.Reached i := by
  have sound := step_sound reached.isolated stepped
  refine ⟨sound.isolated, Nat.lt_of_lt_of_le reached.accepted sound.sockets.accepted, ?_⟩
  intro t present pending
  obtain ⟨s, before, keeps⟩ := sound.sockets.sockets i t reached.accepted present
  exact reached.idle s before (keeps.pending pending)

/-- A data frame the relay accepts from a runtime and does not keep for itself. -/
def SendsFrame (relay : RuntimeRelay) (socket : Nat) (bytes : Bytes) (sender : RelayAttachment)
    (clientId : Utf16) : Prop :=
  ∃ initial, relay.attachment socket = some initial ∧ bytes.length ≤ maxRelayFrameBytes ∧
    initial.suppressDisconnect = false ∧ relay.now < initial.exp ∧
    relay.admitIngress initial bytes.length = some sender ∧ bytes.take 2 ≠ [0, 0] ∧
    sender.role = .runtime ∧ relayFrameClientId bytes = some clientId ∧ clientId ≠ [] ∧
    isReserved clientId = false

/-- The event that carries such a frame sends it to every connection it is addressed to. -/
theorem message_sends {target : RelayAttachment}
    (frame : relay.beginEvent.SendsFrame socket message.bytes sender clientId)
    (listed : i ∈ relay.getWebSockets) (other : i ≠ socket)
    (present : relay.attachment i = some target) (waits : target.awaitingRuntime = false)
    (admits : Admits relay.now sender target clientId) (sends : fails i = false)
    (stepped : step platform relay (.message socket message fails) = some after) :
    .send i message.bytes ∈ after.effects := by
  obtain ⟨initial, read, fits, unsuppressed, unexpired, admitted, data, role, named, nonempty,
    unreserved⟩ := frame
  obtain ⟨initial', read', result⟩ := of_bind stepped
  obtain rfl : initial = initial' := Option.mem_unique read read'
  cases result
  rw [webSocketMessage, if_neg (Nat.not_lt.mpr fits), if_neg (by simp [unsuppressed]),
    if_neg (Int.not_le.mpr unexpired), admitted]
  simp only [if_neg data, dataMessage, named, if_neg nonempty, role, unreserved, reduceCtorEq, false_and,
    if_false, Bool.false_eq_true]
  refine forwardFrame_sends ?_ other ?_ waits admits sends
  · -- Writing the sender's attachment removes no socket.
    rw [getWebSockets, List.mem_filter] at listed ⊢
    refine ⟨listed.1, ?_⟩
    rw [serializeAttachment, modify_sockets_of_ne _ other]
    exact listed.2
  · rw [RuntimeRelay.attachment, serializeAttachment, modify_sockets_of_ne _ other]
    exact present

end Ready

/-! ## Whole runs -/

/-- **A mobile that was declared ready stays reachable**, if no renewal that began before the
declaration is still being verified when it arrives.  After any later events its connection waits
for no runtime, and a frame from a runtime of its account that is addressed to it is sent to it. -/
theorem ready_mobile_stays_reachable (platform : RelayPlatform) (nowMs : Int)
    (events : List RelayEvent) (relay ready : RuntimeRelay) (socket i : Nat) (message : RelayMessage)
    (fails : Nat → Bool) (ran : run (step platform) (start nowMs) events = some relay)
    (stepped : step platform relay (.message socket message fails) = some ready)
    (declares : DeclaresReady platform relay.beginEvent socket message.bytes i)
    (idle : ∀ s renewal, relay.sockets i = some s → s.renewing = some renewal →
      renewal.previous.awaitingRuntime = false) :
    ∀ more later, run (step platform) ready more = some later →
      ∀ target, later.attachment i = some target →
        target.awaitingRuntime = false ∧
        ∀ k frame fails sender clientId after,
          later.beginEvent.SendsFrame k frame.bytes sender clientId → i ∈ later.getWebSockets →
          i ≠ k → Admits later.now sender target clientId → fails i = false →
          step platform later (.message k frame fails) = some after →
          .send i frame.bytes ∈ after.effects := by
  have isolated : relay.Isolated := run_invariant Isolated
    (fun s event t isolated stepped => (step_sound isolated stepped).isolated) events _ relay
    (start_isolated nowMs) ran
  have sound := step_sound isolated stepped
  have accepted : i < relay.accepted := by
    obtain ⟨_, _, _, _, _, _, _, _, _, _, _, _, _, _, _, _, _, _, found, _⟩ := declares
    obtain ⟨s, present, -⟩ := attachment_eq_some.mp found
    obtain ⟨s', before, -⟩ := serializeAttachment_sockets present
    exact isolated.numbered i s' before
  have reached : ready.Reached i := ⟨sound.isolated,
    Nat.lt_of_lt_of_le accepted sound.sockets.accepted,
    fun t present => step_ready declares idle stepped present⟩
  intro more later reaches target found
  have held : later.Reached i := run_invariant (Reached i)
    (fun s event t reached stepped => step_reached reached stepped) more ready later reached reaches
  obtain ⟨t, present, rfl⟩ := attachment_eq_some.mp found
  have waits : t.attachment.awaitingRuntime = false :=
    Bool.eq_false_iff.mpr fun awaits => held.idle t present (.inl awaits)
  refine ⟨waits, ?_⟩
  intro k frame fails sender clientId after sends listed other admits works stepped
  exact message_sends sends listed other found waits admits works stepped

/-- Every control message declares `m` ready when the runtime sends it, and asks for a renewal
when a mobile does. -/
def controlPlatform : RelayPlatform where
  issuer := Utf16.ofString "alera"
  hasEnvironment := true
  renewalDisabled := false
  base64UrlLength := fun _ => some 32
  parseCommand := fun _ =>
    some ⟨.peerReady, some (Utf16.ofString "m"), some (Utf16.ofString "j"), none, none, none⟩
  parseRenewal := fun _ => some ⟨.authRenew, none, none, none, some 1, some []⟩

/-- A grant of a client that speaks the control protocol. -/
def controlGrant (role : RelayRole) (clientId : Utf16) : RelayAttachment :=
  { sampleGrant role clientId with controlProtocol := true }

/-- A runtime connects, and the mobile `m` after it. -/
def pairedRun : List RelayEvent :=
  [.upgrade (.claims (controlGrant .runtime (Utf16.ofString "r"))) 1 true fun _ => false,
    .upgrade (.claims (controlGrant .mobile (Utf16.ofString "m"))) 1 true fun _ => false]

theorem ready_mobile_stays_reachable_paired :
    ∃ relay ready after,
      run (step controlPlatform) (start 1000) pairedRun = some relay ∧
      (relay.attachment 1).map RelayAttachment.awaitingRuntime = some true ∧
      step controlPlatform relay (.message 0 (.binary [0, 0]) fun _ => false) = some ready ∧
      step controlPlatform ready (.message 0 (.binary sampleFrame) fun _ => false) = some after ∧
      .send 1 sampleFrame ∈ after.effects := by
  refine ⟨_, _, _, rfl, rfl, rfl, rfl, ?_⟩
  have reachable := ready_mobile_stays_reachable controlPlatform 1000 pairedRun _ _ 0 1
    (.binary [0, 0]) (fun _ => false) rfl rfl
    ⟨_, _, _, _, _, rfl, by decide, rfl, by decide, rfl, rfl, rfl, rfl, by decide, rfl, rfl, rfl,
      by decide, rfl, by decide⟩
    (by rintro _ _ ⟨⟩ ⟨⟩) [] _ rfl _ rfl
  exact reachable.2 0 (.binary sampleFrame) (fun _ => false) _ (Utf16.ofString "m") _
    ⟨_, rfl, by decide, rfl, by decide, rfl, by decide, rfl, by decide, by decide, by decide⟩
    (by decide) (by decide) ⟨rfl, by decide, by decide, rfl, rfl, fun _ => by decide⟩ rfl rfl

/-- The mobile asks for a renewal before the runtime declares it ready, and the grant is
verified afterwards: the connection waits again, and the runtime's frame is dropped. -/
theorem renewal_undoes_ready :
    ∃ relay ready renewed after,
      run (step controlPlatform) (start 1000)
        (pairedRun ++ [.message 1 (.binary [0, 0]) fun _ => false]) = some relay ∧
      DeclaresReady controlPlatform relay.beginEvent 0 [0, 0] 1 ∧
      step controlPlatform relay (.message 0 (.binary [0, 0]) fun _ => false) = some ready ∧
      (ready.attachment 1).map RelayAttachment.awaitingRuntime = some false ∧
      step controlPlatform ready (.renewalVerified 1
        (.checked (some (controlGrant .mobile (Utf16.ofString "m")))) fun _ => false) =
          some renewed ∧
      (renewed.attachment 1).map (fun target => (target.awaitingRuntime, target.suppressDisconnect,
        decide (renewed.now < target.exp))) = some (true, false, true) ∧
      step controlPlatform renewed (.message 0 (.binary sampleFrame) fun _ => false) = some after ∧
      after.effects = [] := by
  refine ⟨_, _, _, _, rfl, ?_, rfl, rfl, rfl, rfl, rfl, rfl⟩
  exact ⟨_, _, _, _, _, rfl, by decide, rfl, by decide, rfl, rfl, rfl, rfl, by decide, rfl, rfl, rfl,
    by decide, rfl, by decide⟩

/-! ## How many mobiles a relay object serves

An upgrade of a mobile is refused while the object serves as many mobiles as it may, unless
the new socket replaces another.  What it replaces is any listed socket of its role and client
id, served or not, and a socket that the object has closed stays listed until its connection
is gone.  `ReplacesServed` says when the exemption makes room for the new socket.
-/

/-- The unsuppressed and unexpired mobile sockets. -/
def servedMobiles (relay : RuntimeRelay) : List Nat :=
  relay.getWebSockets.filter fun i => (relay.attachment i).any fun peer =>
    peer.role == .mobile && !peer.suppressDisconnect && decide (relay.now < peer.exp)

/-- The listed sockets that a new one replaces. -/
def duplicates (relay : RuntimeRelay) (attachment : RelayAttachment) : List Nat :=
  relay.getWebSockets.filter fun i => (relay.attachment i).any (isDuplicate attachment)

/-- A mobile that connects at the limit and replaces sockets replaces one that is served. -/
def ReplacesServed (relay : RuntimeRelay) : RelayEvent → Prop
  | .upgrade (.claims attachment) _ _ _ =>
    attachment.role = .mobile → maxRelayMobileConnections ≤ relay.servedMobiles.length →
      relay.duplicates attachment ≠ [] →
      ∃ i ∈ relay.duplicates attachment, i ∈ relay.servedMobiles
  | _ => True

section Limit

variable {relay after : RuntimeRelay} {i : Nat}

theorem mem_servedMobiles : i ∈ relay.servedMobiles ↔ i < relay.accepted ∧
    ∃ s, relay.sockets i = some s ∧ s.Live ∧ s.attachment.role = .mobile ∧
      relay.now < s.attachment.exp := by
  rw [servedMobiles, getWebSockets, filter_filter, mem_filter, attachment]
  cases relay.sockets i <;> simp [RelaySocket.Live, and_comm, and_assoc, and_left_comm]

theorem length_servedMobiles_le {bound : List Nat} (only : ∀ i ∈ relay.servedMobiles, i ∈ bound) :
    relay.servedMobiles.length ≤ bound.length :=
  (subperm_of_subset ((nodup_range.filter _).filter _) only).length_le

/-- The number that `fetch` compares with the limit. -/
theorem length_filter_served : ((relay.getWebSockets.filterMap relay.attachment).filter fun peer =>
    peer.role == .mobile && !peer.suppressDisconnect && decide (relay.now < peer.exp)).length =
      relay.servedMobiles.length := by
  rw [servedMobiles, ← countP_eq_length_filter, ← countP_eq_length_filter, countP_filterMap]
  refine countP_congr fun i _ => ?_
  cases relay.attachment i <;> simp

/-- No socket that was there before is served for the first time. -/
theorem KeepsSockets.served (keeps : relay.KeepsSockets after) (known : i < relay.accepted)
    (served : i ∈ after.servedMobiles) : i ∈ relay.servedMobiles := by
  obtain ⟨-, t, present, live, role, unexpired⟩ := mem_servedMobiles.mp served
  obtain ⟨s, before, kept⟩ := keeps.sockets i t known present
  have sameRole : t.attachment.role = s.attachment.role :=
    congrArg RelayIdentity.role kept.identity
  exact mem_servedMobiles.mpr ⟨known, s, before, kept.live live, sameRole ▸ role,
    kept.unexpired (Int.lt_of_le_of_lt keeps.now unexpired)⟩

variable {attachment : RelayAttachment}

theorem acceptWebSocket_served {peers : List RelayAttachment} (isolated : relay.Isolated)
    (served : i ∈ (relay.acceptWebSocket attachment peers).servedMobiles) :
    i = relay.accepted ∧ attachment.role = .mobile ∨ i ∈ relay.servedMobiles := by
  obtain ⟨-, s, present, live, role, unexpired⟩ := mem_servedMobiles.mp served
  obtain ⟨isNew, rfl⟩ | before := acceptWebSocket_sockets_cases present
  · exact .inl ⟨isNew, role⟩
  · exact .inr (mem_servedMobiles.mpr
      ⟨isolated.numbered i s before, s, before, live, role, unexpired⟩)

variable {fails : Nat → Bool}

/-- What the loop replaces is not served afterwards. -/
theorem replaceDuplicates_served (short : attachment.clientId.length ≤ 128)
    (listed : i ∈ relay.duplicates attachment) :
    i ∉ (relay.replaceDuplicates fails attachment relay.getWebSockets).servedMobiles := by
  intro served
  obtain ⟨-, t, present, live, -⟩ := mem_servedMobiles.mp served
  obtain ⟨member, duplicate⟩ := mem_filter.mp listed
  have keeps : relay.Keeps (fun _ => False)
      (relay.replaceDuplicates fails attachment relay.getWebSockets) :=
    replaceDuplicates_keeps short
  obtain ⟨s, before, kept⟩ := keeps.sockets i t present
  rw [RuntimeRelay.attachment, before] at duplicate
  have still : isDuplicate attachment t.attachment = true := by
    have role : t.attachment.role = s.attachment.role := congrArg RelayIdentity.role kept.identity
    have clientId : t.attachment.clientId = s.attachment.clientId :=
      congrArg RelayIdentity.clientId kept.identity
    rw [isDuplicate, role, clientId]
    exact duplicate
  exact Bool.eq_false_iff.mp live.2 (replaceDuplicates_suppresses short i member t present still)

/-- An upgrade that replaces a served mobile when it must keeps to the limit. -/
theorem fetch_limit {request : UpgradeRequest} {verifiedAt : Int} {accepts : Bool}
    (isolated : relay.Isolated)
    (short : ∀ attachment, request = .claims attachment → attachment.clientId.length ≤ 128)
    (meets : relay.ReplacesServed (.upgrade request verifiedAt accepts fails))
    (limit : relay.servedMobiles.length ≤ maxRelayMobileConnections) :
    (relay.fetch fails accepts request).servedMobiles.length ≤ maxRelayMobileConnections := by
  cases request with
  | notWebSocket | missingClaims | invalidClaims => exact limit
  | claims attachment =>
    have fits := short attachment rfl
    have keeps : relay.Keeps (fun _ => False)
        (relay.replaceDuplicates fails attachment relay.getWebSockets) :=
      replaceDuplicates_keeps fits
    have old : ∀ i ∈ (relay.replaceDuplicates fails attachment
        relay.getWebSockets).servedMobiles, i ∈ relay.servedMobiles := fun i served =>
      keeps.keepsSockets.served (keeps.accepted ▸ (mem_servedMobiles.mp served).1) served
    have fewer := Nat.le_trans (length_servedMobiles_le old) limit
    unfold fetch
    dsimp only
    split
    · exact limit
    split
    · exact limit
    split
    · exact fewer
    rename_i admitted
    split
    swap
    · exact fewer
    rw [length_filter_served] at admitted
    by_cases mobile : attachment.role = .mobile
    swap
    · refine Nat.le_trans (length_servedMobiles_le fun i served => ?_) limit
      obtain ⟨-, isMobile⟩ | before := acceptWebSocket_served (keeps.isolated isolated) served
      · exact absurd isMobile mobile
      · exact old i before
    by_cases full : maxRelayMobileConnections ≤ relay.servedMobiles.length
    · -- Some duplicate is served, and it makes room.
      simp only [mobile, full, beq_self_eq_true, decide_true, Bool.true_and, Bool.not_eq_true',
        Bool.not_eq_false] at admitted
      obtain ⟨peer, listed, duplicate⟩ := any_eq_true.mp admitted
      obtain ⟨j, member, read⟩ := mem_filterMap.mp listed
      have doubles : j ∈ relay.duplicates attachment :=
        mem_filter.mpr ⟨member, by rw [read]; exact duplicate⟩
      obtain ⟨k, replaced, served⟩ := meets mobile full (ne_nil_of_mem doubles)
      have room : (relay.accepted :: relay.servedMobiles.erase k).length ≤
          maxRelayMobileConnections := by
        rw [length_cons, length_erase_add_one served]
        exact limit
      refine Nat.le_trans (length_servedMobiles_le fun i now => ?_) room
      obtain ⟨isNew, -⟩ | before := acceptWebSocket_served (keeps.isolated isolated) now
      · exact isNew.trans keeps.accepted ▸ mem_cons_self
      · refine mem_cons_of_mem _ ((mem_erase_of_ne ?_).mpr (old i before))
        rintro rfl
        exact replaceDuplicates_served fits replaced before
    · have room : (relay.accepted :: relay.servedMobiles).length ≤ maxRelayMobileConnections :=
        Nat.lt_of_not_le full
      refine Nat.le_trans (length_servedMobiles_le fun i now => ?_) room
      obtain ⟨isNew, -⟩ | before := acceptWebSocket_served (keeps.isolated isolated) now
      · exact isNew.trans keeps.accepted ▸ mem_cons_self
      · exact mem_cons_of_mem _ (old i before)

/-- An event that meets the condition keeps to the limit. -/
theorem step_limit {platform : RelayPlatform} {event : RelayEvent}
    (bounded : relay.Isolated ∧ relay.servedMobiles.length ≤ maxRelayMobileConnections)
    (meets : relay.ReplacesServed event) (stepped : step platform relay event = some after) :
    after.Isolated ∧ after.servedMobiles.length ≤ maxRelayMobileConnections := by
  have sound := step_sound bounded.1 stepped
  refine ⟨sound.isolated, ?_⟩
  obtain same | ⟨request, verifiedAt, accepts, fails, rfl⟩ := sound.accepted
  · refine Nat.le_trans (length_servedMobiles_le fun i served => ?_) bounded.2
    exact sound.sockets.served (same ▸ (mem_servedMobiles.mp served).1) served
  · obtain ⟨accepted, stepped⟩ := of_when stepped
    cases stepped
    refine fetch_limit bounded.1.beginEvent ?_ meets bounded.2
    rintro attachment rfl
    exact claimsAccepted_clientId accepted

end Limit

/-- **The relay's mobile limit holds** as long as every mobile that connects at the limit, and is
let in because it replaces sockets, replaces one that is served. -/
theorem mobile_limit_of_replacesServed (platform : RelayPlatform) (nowMs : Int)
    (events : List RelayEvent) (relay : RuntimeRelay)
    (ran : run (step platform) (start nowMs) events = some relay)
    (guarded : Guarded (step platform) ReplacesServed (start nowMs) events) :
    relay.servedMobiles.length ≤ maxRelayMobileConnections :=
  (run_invariant_of_guarded (fun s => s.Isolated ∧ s.servedMobiles.length ≤ maxRelayMobileConnections)
    (fun _ _ _ bounded meets stepped => step_limit bounded meets stepped) events _ relay guarded
    ⟨start_isolated nowMs, Nat.zero_le _⟩ ran).2

theorem mobile_limit_of_replacesServed_reconnectingRun :
    ∃ relay, run (step samplePlatform) (start 1000) reconnectingRun = some relay ∧
      relay.servedMobiles = [2] ∧ relay.servedMobiles.length ≤ maxRelayMobileConnections := by
  refine ⟨_, rfl, by decide, mobile_limit_of_replacesServed samplePlatform 1000 reconnectingRun _ rfl ?_⟩
  refine ⟨fun mobile => RelayRole.noConfusion mobile, ?_⟩
  rintro _ ⟨⟩
  refine ⟨fun _ full => absurd full (by decide), ?_⟩
  rintro _ ⟨⟩
  refine ⟨fun _ full => absurd full (by decide), ?_⟩
  rintro _ ⟨⟩
  trivial

/-- The connection of a mobile. -/
def connects (clientId : Utf16) : RelayEvent :=
  .upgrade (.claims (sampleGrant .mobile clientId)) 1 true fun _ => false

/-- Every control message of the runtime closes the mobile `1`. -/
def closingPlatform : RelayPlatform :=
  { controlPlatform with
    parseCommand := fun _ => some ⟨.peerClose, some [1], some (Utf16.ofString "j"), none, none, none⟩ }

/-- Eight mobiles connect.  The runtime closes the first, a ninth connects, and the first connects
again while its closed socket is still listed. -/
theorem closed_duplicate_exceeds_limit :
    ((run (step closingPlatform) (start 1000)
      (.upgrade (.claims (controlGrant .runtime (Utf16.ofString "r"))) 1 true (fun _ => false) ::
        [[1], [2], [3], [4], [5], [6], [7], [8]].map connects ++
        [.message 0 (.binary [0, 0]) fun _ => false, connects [9], connects [1]])).map
      fun relay => relay.servedMobiles.length) = some (maxRelayMobileConnections + 1) := by
  decide +kernel

end Alera.Edge.RuntimeRelay
