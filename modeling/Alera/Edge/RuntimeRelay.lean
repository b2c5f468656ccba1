/-
# Alera.Edge.RuntimeRelay -- the relay Durable Object

`edge/src/runtime_relay.ts`, `RuntimeRelayDurableObject`.  One object holds the
sockets of every runtime and mobile that connected under one runtime id.  All it
knows about a socket is the attachment, which five handlers rewrite.

A handler runs to its end without interleaving, with one exception: renewal
awaits the verification of the new grant.  That handler is two steps, and what
it remembers across the wait (`Renewal`) is kept with the socket.  `Date.now()`
does not advance while a handler runs.

What a handler does to the outside is a list of effects, fresh for every
event.  `fails` says for which sockets `send` throws.  MCP calls live beside the
attachments: the two hooks into them are effects (`settleCalls`,
`mcpFrame`), and requests to `/mcp/call` are not events here.
-/
import Alera.Theory.Runs
import Alera.Theory.FixedWidth
import Alera.Theory.Utf16

namespace Alera.Edge

open Theory

set_option autoImplicit false

/-! ## Relay grants and the frames they authorise

`edge/src/relay_authorization.ts` (claims, attachments, `sameRelayIdentity`,
`controlFrame`, the claim checks of `verifyRelayGrant`) with the frame helpers of
`edge/src/index.ts` (`relayFrameClientId`, `relayDisconnectFrame`).

Strings are UTF-16 code units.  The token's decoding, its header and its signature
are not modelled: a grant is given by its claims, and `claimsAccepted` is every
condition `verifyRelayGrant` puts on them.

A frame from which `relayFrameClientId` reads an id is a data frame.  The relay's
own frames are not: a disconnect notice ends with its id and a control frame
has an empty one.
-/

abbrev Bytes := List UInt8

inductive RelayRole where
  | runtime
  | mobile
  deriving DecidableEq, Repr

inductive McpAccess where
  | off
  | read
  | full
  | admin
  deriving DecidableEq, Repr

/-- `RelayClaims`. -/
structure RelayClaims where
  iss : Utf16
  aud : Utf16
  exp : Int
  iat : Int
  nbf : Int
  jti : Utf16
  accountId : Utf16
  runtimeId : Utf16
  clientId : Utf16
  role : RelayRole
  keyVersion : Int
  clientPublicKey : Utf16
  runtimePublicKey : Utf16
  mcpAccess : Option McpAccess
  mobileAccess : Option Bool
  deriving DecidableEq

/-- `RelayAttachment`: an absent flag reads as false. -/
structure RelayAttachment extends RelayClaims where
  suppressDisconnect : Bool
  controlProtocol : Bool
  connectionId : Option Utf16
  awaitingRuntime : Bool
  ingressWindowStartedAt : Option Int
  ingressBytes : Option Nat
  deriving DecidableEq

/-! ## Who a grant is for -/

/-- The claims that may not change when a grant is renewed. -/
structure RelayIdentity where
  iss : Utf16
  aud : Utf16
  accountId : Utf16
  runtimeId : Utf16
  clientId : Utf16
  role : RelayRole
  keyVersion : Int
  clientPublicKey : Utf16
  runtimePublicKey : Utf16
  deriving DecidableEq

def RelayClaims.identity (claims : RelayClaims) : RelayIdentity :=
  ⟨claims.iss, claims.aud, claims.accountId, claims.runtimeId, claims.clientId, claims.role,
    claims.keyVersion, claims.clientPublicKey, claims.runtimePublicKey⟩

def sameRelayIdentity (a b : RelayClaims) : Bool :=
  a.iss == b.iss && a.aud == b.aud && a.accountId == b.accountId && a.runtimeId == b.runtimeId &&
    a.clientId == b.clientId && a.role == b.role && a.keyVersion == b.keyVersion &&
    a.clientPublicKey == b.clientPublicKey && a.runtimePublicKey == b.runtimePublicKey

theorem sameRelayIdentity_iff {a b : RelayClaims} :
    sameRelayIdentity a b = true ↔ a.identity = b.identity := by
  simp [sameRelayIdentity, RelayClaims.identity, and_assoc]

/-! ## Which claims a grant may carry -/

/-- `Number.isSafeInteger`. -/
def isSafeInteger (n : Int) : Bool := decide (-(2 ^ 53 - 1) ≤ n ∧ n ≤ 2 ^ 53 - 1)

/-- `RELAY_AUDIENCE`. -/
def relayAudience : Utf16 := Utf16.ofString "alera-relay"

/-- The conditions of `verifyRelayGrant` on decoded claims, `now` in seconds.
`base64UrlLength` is the length `base64UrlBytes` decodes a key to, if it decodes. -/
def claimsAccepted (issuer : Utf16) (base64UrlLength : Utf16 → Option Nat) (now : Int)
    (claims : RelayClaims) : Bool :=
  isSafeInteger claims.exp && isSafeInteger claims.iat && isSafeInteger claims.nbf &&
    decide (claims.iat < claims.exp) && decide (claims.exp - claims.iat ≤ 120) &&
    decide (claims.nbf ≤ claims.exp) &&
    [claims.jti, claims.accountId, claims.runtimeId, claims.clientId].all
      (fun value => decide (0 < value.length) && decide (value.length ≤ 128)) &&
    claims.aud == relayAudience && claims.iss == issuer && decide (now < claims.exp) &&
    decide (claims.nbf ≤ now + 30) && decide (claims.iat ≤ now + 30) &&
    decide (0 < claims.keyVersion) && base64UrlLength claims.clientPublicKey == some 32 &&
    base64UrlLength claims.runtimePublicKey == some 32

theorem claimsAccepted_clientId {issuer : Utf16} {base64UrlLength : Utf16 → Option Nat} {now : Int}
    {claims : RelayClaims} (accepted : claimsAccepted issuer base64UrlLength now claims = true) :
    claims.clientId.length ≤ 128 := by
  simp only [claimsAccepted, List.all_cons, List.all_nil, Bool.and_eq_true, decide_eq_true_eq]
    at accepted
  omega

/-! ## Frames -/

/-- `MAX_RELAY_CLIENT_ID_BYTES`. -/
def maxRelayClientIdBytes : Nat := 128

/-- `relayFrameClientId`: the id a frame is headed with, if there is anything after it. -/
def relayFrameClientId (message : Bytes) : Option Utf16 :=
  if message.length < 3 then none
  else
    let idLength := ofBE (message.take 2)
    if idLength = 0 ∨ maxRelayClientIdBytes < idLength ∨ message.length ≤ idLength + 2 then none
    else Utf16.fromUtf8 ((message.drop 2).take idLength)

/-- `relayDisconnectFrame`. -/
def relayDisconnectFrame (clientId : Utf16) : Bytes := lengthPrefixed 2 (Utf16.toUtf8 clientId)

/-- What `renewAuthorization` reports. -/
inductive RelayControl where
  | authError (id : Int) (code : String)
  | authRenewed (id expiresAt : Int)

/-- `JSON.stringify` of a report. -/
def RelayControl.json : RelayControl → String
  | .authError id code =>
    "\x7b\"type\":\"auth.error\",\"id\":" ++ toString id ++ ",\"code\":\"" ++ code ++ "\"\x7d"
  | .authRenewed id expiresAt =>
    "\x7b\"type\":\"auth.renewed\",\"id\":" ++ toString id ++ ",\"expiresAt\":" ++
      toString expiresAt ++ "\x7d"

/-- `controlFrame`. -/
def controlFrame (control : RelayControl) : Bytes :=
  0 :: 0 :: Utf16.toUtf8 (Utf16.ofString control.json)

theorem relayFrameClientId_controlFrame (control : RelayControl) :
    relayFrameClientId (controlFrame control) = none := by
  unfold relayFrameClientId
  split
  · rfl
  · exact if_pos (.inl rfl)

/-- A disconnect notice has nothing after its id. -/
theorem relayFrameClientId_relayDisconnectFrame {clientId : Utf16} (short : clientId.length ≤ 128) :
    relayFrameClientId (relayDisconnectFrame clientId) = none := by
  have bytes := Utf16.toUtf8_length_le clientId
  have fits : (Utf16.toUtf8 clientId).length < 256 ^ 2 := by omega
  have length : ofBE ((relayDisconnectFrame clientId).take 2) = (Utf16.toUtf8 clientId).length := by
    rw [relayDisconnectFrame, lengthPrefixed, List.take_left' (toBE_length 2 _), ofBE_toBE fits]
  unfold relayFrameClientId
  split
  · rfl
  · refine if_pos (.inr (.inr ?_))
    rw [length, relayDisconnectFrame, lengthPrefixed, List.length_append, toBE_length]
    omega

/-- `MAX_RELAY_FRAME_BYTES`. -/
def maxRelayFrameBytes : Nat := 1024 * 1024

/-- `MAX_RELAY_MOBILE_CONNECTIONS`. -/
def maxRelayMobileConnections : Nat := 8

/-- `MAX_RELAY_INGRESS_BYTES_PER_SECOND`. -/
def maxRelayIngressBytesPerSecond : Nat := 16 * 1024 * 1024

/-- Longest control message that is parsed. -/
def maxRelayControlBytes : Nat := 16384

/-- `MCP_CLIENT_ID`. -/
def mcpClientId : Utf16 := Utf16.ofString "~mcp"

/-- `clientId.startsWith('~')`. -/
def isReserved (clientId : Utf16) : Bool := clientId.head? == some 0x7E

def RelayRole.tag : RelayRole → Utf16
  | .runtime => Utf16.ofString "runtime"
  | .mobile => Utf16.ofString "mobile"

/-! ## Control messages -/

inductive RelayCommandType where
  | peerClose
  | peerReady
  | authRenew
  | other
  deriving DecidableEq, Repr

/-- The properties a control message is asked for; `none` where the property is
absent or not of the type the handler requires. -/
structure RelayCommand where
  type : RelayCommandType
  clientId : Option Utf16
  connectionId : Option Utf16
  code : Option Int
  id : Option Int
  grant : Option Utf16

/-- The object's configuration and the library functions it calls.  `JSON.parse`
answers `none` where it throws or yields `null`. -/
structure RelayPlatform where
  /-- `RELAY_ISSUER`. -/
  issuer : Utf16
  /-- Whether the object was constructed with an environment. -/
  hasEnvironment : Bool
  /-- `RELAY_RENEWAL_ENABLED === 'false'`. -/
  renewalDisabled : Bool
  base64UrlLength : Utf16 → Option Nat
  /-- Lossy UTF-8 decoding, then `JSON.parse`. -/
  parseCommand : Bytes → Option RelayCommand
  /-- Strict UTF-8 decoding, then `JSON.parse`. -/
  parseRenewal : Bytes → Option RelayCommand

/-! ## State -/

/-- The locals of `renewAuthorization` while it awaits verification. -/
structure Renewal where
  previous : RelayAttachment
  requestId : Int

structure RelaySocket where
  attachment : RelayAttachment
  tags : List Utf16
  /-- Whether `getWebSockets` still returns the socket: closing does not remove it
  until the connection is gone. -/
  listed : Bool
  /-- Member of `renewing`, with the call that put it there. -/
  renewing : Option Renewal
  /-- The claims the socket was upgraded with. -/
  admitted : RelayClaims

inductive RelayEffect where
  | send (socket : Nat) (frame : Bytes)
  | close (socket code : Nat) (reason : String)
  /-- `mcpCalls.settleSocket`. -/
  | settleCalls (socket : Nat)
  /-- `mcpCalls.handleRuntimeFrame`. -/
  | mcpFrame (socket : Nat) (frame : Bytes)
  /-- `jsonError`. -/
  | reject (status : Nat) (code message : String)
  /-- Status 101; whether the control protocol is confirmed. -/
  | upgraded (socket : Nat) (controlProtocol : Bool)

structure RuntimeRelay where
  sockets : Nat → Option RelaySocket
  /-- Sockets accepted so far; the next one gets this number. -/
  accepted : Nat
  /-- `Date.now()`. -/
  nowMs : Int
  /-- What the last event made the object do. -/
  effects : List RelayEffect

namespace RuntimeRelay

def start (nowMs : Int) : RuntimeRelay := ⟨fun _ => none, 0, nowMs, []⟩

/-- `Math.floor(Date.now() / 1000)`. -/
def now (relay : RuntimeRelay) : Int := relay.nowMs / 1000

/-- `deserializeAttachment`. -/
def attachment (relay : RuntimeRelay) (socket : Nat) : Option RelayAttachment :=
  (relay.sockets socket).map RelaySocket.attachment

def modify (relay : RuntimeRelay) (socket : Nat) (change : RelaySocket → RelaySocket) :
    RuntimeRelay :=
  { relay with
    sockets := Function.update relay.sockets socket ((relay.sockets socket).map change) }

variable (relay : RuntimeRelay)

@[simp] theorem modify_sockets_self (socket : Nat)
    (change : RelaySocket → RelaySocket) :
    (relay.modify socket change).sockets socket = (relay.sockets socket).map change :=
  Function.update_self ..

theorem modify_sockets_of_ne {socket other : Nat} (ne : other ≠ socket)
    (change : RelaySocket → RelaySocket) :
    (relay.modify socket change).sockets other = relay.sockets other :=
  Function.update_of_ne ne ..

/-- `serializeAttachment`. -/
def serializeAttachment (relay : RuntimeRelay) (socket : Nat) (attachment : RelayAttachment) :
    RuntimeRelay :=
  relay.modify socket fun s => { s with attachment := attachment }

/-- `serializeAttachment({ ...attachment, suppressDisconnect: true })`. -/
def suppress (relay : RuntimeRelay) (socket : Nat) (attachment : RelayAttachment) : RuntimeRelay :=
  relay.serializeAttachment socket { attachment with suppressDisconnect := true }

def emit (relay : RuntimeRelay) (effect : RelayEffect) : RuntimeRelay :=
  { relay with effects := relay.effects ++ [effect] }

/-- `socket.close(code, reason)`. -/
def close (relay : RuntimeRelay) (socket code : Nat) (reason : String) : RuntimeRelay :=
  relay.emit (.close socket code reason)

/-- `try { peer.send(frame) } catch { peer.close(1011, …) }`. -/
def forward (relay : RuntimeRelay) (fails : Nat → Bool) (peer : Nat) (frame : Bytes) :
    RuntimeRelay :=
  if fails peer then relay.close peer 1011 "relay forwarding failed"
  else relay.emit (.send peer frame)

/-- `ctx.getWebSockets()`. -/
def getWebSockets (relay : RuntimeRelay) : List Nat :=
  (List.range relay.accepted).filter fun i => (relay.sockets i).any RelaySocket.listed

/-- `ctx.getWebSockets(tag)`: a client id equal to the tag matches as well. -/
def getWebSocketsTagged (relay : RuntimeRelay) (tag : Utf16) : List Nat :=
  relay.getWebSockets.filter fun i => (relay.sockets i).any fun s => s.tags.contains tag

/-- A loop over sockets that reads each one's attachment when it gets there. -/
def forPeers (relay : RuntimeRelay) (peers : List Nat)
    (body : RuntimeRelay → Nat → RelayAttachment → RuntimeRelay) : RuntimeRelay :=
  peers.foldl
    (fun relay peer =>
      match relay.attachment peer with
      | none => relay
      | some attachment => body relay peer attachment)
    relay

theorem forPeers_cons (peer : Nat) (peers : List Nat)
    (body : RuntimeRelay → Nat → RelayAttachment → RuntimeRelay) :
    relay.forPeers (peer :: peers) body =
      ((relay.attachment peer).elim relay (body relay peer)).forPeers peers body := by
  rw [forPeers, List.foldl_cons]
  cases relay.attachment peer <;> rfl

/-! ## Disconnects -/

/-- `notifyRuntimeOfMobileDisconnect`. -/
def notifyRuntimeOfMobileDisconnect (relay : RuntimeRelay) (fails : Nat → Bool)
    (mobile : RelayAttachment) : RuntimeRelay :=
  if mobile.role ≠ .mobile then relay
  else
    relay.forPeers (relay.getWebSocketsTagged RelayRole.runtime.tag) fun relay peer runtime =>
      if runtime.suppressDisconnect then relay
      else if runtime.accountId ≠ mobile.accountId ∨ runtime.runtimeId ≠ mobile.runtimeId then relay
      else relay.forward fails peer (relayDisconnectFrame mobile.clientId)

/-- `disconnectMobilesForRuntime`. -/
def disconnectMobilesForRuntime (relay : RuntimeRelay) (runtime : RelayAttachment) :
    RuntimeRelay :=
  if runtime.role ≠ .runtime then relay
  else
    relay.forPeers (relay.getWebSocketsTagged RelayRole.mobile.tag) fun relay peer mobile =>
      if mobile.role ≠ .mobile ∨ mobile.accountId ≠ runtime.accountId ∨
          mobile.runtimeId ≠ runtime.runtimeId then
        relay
      else
        (relay.suppress peer mobile).close peer 4002 "runtime disconnected"

/-- `handlePeerDisconnectOnce`. -/
def handlePeerDisconnectOnce (relay : RuntimeRelay) (fails : Nat → Bool) (socket : Nat)
    (peer : RelayAttachment) : RuntimeRelay :=
  if peer.suppressDisconnect then relay
  else
    match peer.role with
    | .mobile => (relay.suppress socket peer).notifyRuntimeOfMobileDisconnect fails peer
    | .runtime => (relay.suppress socket peer).disconnectMobilesForRuntime peer

/-- `webSocketClose`, and `webSocketError`, which does the same. -/
def webSocketClose (relay : RuntimeRelay) (fails : Nat → Bool) (socket : Nat)
    (peer : RelayAttachment) : RuntimeRelay :=
  (relay.emit (.settleCalls socket)).handlePeerDisconnectOnce fails socket peer

/-! ## Upgrades -/

/-- What a request brings in `x-alera-relay-claims`. -/
inductive UpgradeRequest where
  | notWebSocket
  | missingClaims
  | invalidClaims
  | claims (attachment : RelayAttachment)

/-- A runtime that may take this mobile's frames. -/
def servesMobile (relay : RuntimeRelay) (mobile peer : RelayAttachment) : Bool :=
  peer.role == .runtime && !peer.suppressDisconnect && peer.mobileAccess != some false &&
    decide (relay.now < peer.exp) && peer.accountId == mobile.accountId &&
    peer.runtimeId == mobile.runtimeId

def isDuplicate (attachment peer : RelayAttachment) : Bool :=
  peer.role == attachment.role && peer.clientId == attachment.clientId

/-- Suppress and close a socket that a new one with this role replaces. -/
def replacePeer (relay : RuntimeRelay) (fails : Nat → Bool) (role : RelayRole) (peer : Nat)
    (peerAttachment : RelayAttachment) : RuntimeRelay :=
  let notified :=
    match peerAttachment.role with
    | .mobile =>
      (relay.suppress peer peerAttachment).notifyRuntimeOfMobileDisconnect fails peerAttachment
    | .runtime =>
      ((relay.suppress peer peerAttachment).emit (.settleCalls peer)).disconnectMobilesForRuntime
        peerAttachment
  notified.close peer 4001 (match role with
    | .runtime => "replaced by a newer runtime"
    | .mobile => "replaced by a newer mobile connection")

/-- The loop of `fetch` over the sockets the new one replaces. -/
def replaceDuplicates (relay : RuntimeRelay) (fails : Nat → Bool) (attachment : RelayAttachment)
    (peers : List Nat) : RuntimeRelay :=
  relay.forPeers peers fun relay peer peerAttachment =>
    if isDuplicate attachment peerAttachment then
      relay.replacePeer fails attachment.role peer peerAttachment
    else relay

/-- The socket `fetch` accepts; `peers` were the attachments before the upgrade. -/
def newSocket (attachment : RelayAttachment) (peers : List RelayAttachment) : RelaySocket where
  attachment := { attachment with
    connectionId := some attachment.jti
    awaitingRuntime := attachment.role == .mobile && attachment.controlProtocol &&
      peers.any fun peer =>
        peer.role == .runtime && !peer.suppressDisconnect && peer.controlProtocol }
  tags := [attachment.role.tag, attachment.clientId]
  listed := true
  renewing := none
  admitted := attachment.toRelayClaims

/-- `acceptWebSocket` and the first `serializeAttachment`. -/
def acceptWebSocket (relay : RuntimeRelay) (attachment : RelayAttachment)
    (peers : List RelayAttachment) : RuntimeRelay :=
  { relay with
    sockets := Function.update relay.sockets relay.accepted (some (newSocket attachment peers))
    accepted := relay.accepted + 1
    effects := relay.effects ++ [.upgraded relay.accepted attachment.controlProtocol] }

/-- `fetch`; `accepts` is whether `acceptWebSocket` did not throw. -/
def fetch (relay : RuntimeRelay) (fails : Nat → Bool) (accepts : Bool) :
    UpgradeRequest → RuntimeRelay
  | .notWebSocket =>
    relay.emit (.reject 426 "websocket_required" "The relay requires a WebSocket connection.")
  | .missingClaims => relay.emit (.reject 403 "missing_relay_claims" "Relay claims are missing.")
  | .invalidClaims => relay.emit (.reject 403 "invalid_relay_claims" "Relay claims are invalid.")
  | .claims attachment =>
    let peers := relay.getWebSockets
    let peerAttachments := peers.filterMap relay.attachment
    if attachment.role == .mobile && isReserved attachment.clientId then
      relay.emit (.reject 403 "invalid_relay_client" "Client ids starting with ~ are reserved.")
    else if attachment.role == .mobile &&
        !peerAttachments.any (relay.servesMobile attachment) then
      relay.emit (.reject 503 "relay_runtime_unavailable"
        "The runtime is reconnecting. Try again shortly.")
    else
      let replaced := relay.replaceDuplicates fails attachment peers
      -- The limit counts the attachments as they were before the loop.
      let mobiles := (peerAttachments.filter fun peer =>
        peer.role == .mobile && !peer.suppressDisconnect && decide (relay.now < peer.exp)).length
      if attachment.role == .mobile && decide (maxRelayMobileConnections ≤ mobiles) &&
          !peerAttachments.any (isDuplicate attachment) then
        replaced.emit (.reject 429 "relay_mobile_limit"
          "This runtime has reached its mobile connection limit.")
      else if accepts then replaced.acceptWebSocket attachment peerAttachments
      else replaced

/-! ## Renewal -/

/-- The `catch` of `renewAuthorization` for anything but unavailable keys. -/
def renewalFailed (relay : RuntimeRelay) (socket : Nat) (previous : RelayAttachment) :
    RuntimeRelay :=
  match relay.attachment socket with
  | none => relay
  | some current =>
    if current.suppressDisconnect || current.jti != previous.jti then relay
    else relay.close socket 1007 "invalid relay control"

/-- `renewAuthorization` up to the `await`. -/
def renewAuthorization (relay : RuntimeRelay) (platform : RelayPlatform) (socket : Nat)
    (previous : RelayAttachment) (bytes : Bytes) : RuntimeRelay :=
  if previous.controlProtocol && platform.hasEnvironment && platform.renewalDisabled then
    relay.close socket 1012 "relay renewal disabled; reconnect"
  else if !previous.controlProtocol || !platform.hasEnvironment ||
      decide (maxRelayControlBytes < bytes.length) then
    relay.close socket 1008 "relay renewal unavailable"
  else if (relay.sockets socket).any fun s => s.renewing.isSome then relay
  else
    match platform.parseRenewal (bytes.drop 2) with
    | none => relay.renewalFailed socket previous
    | some request =>
      match request.type, request.id, request.grant with
      | .authRenew, some id, some _ =>
        if isSafeInteger id then
          relay.modify socket fun s => { s with renewing := some ⟨previous, id⟩ }
        else relay.close socket 1007 "invalid relay control"
      | _, _, _ => relay.close socket 1007 "invalid relay control"

/-- What `verifyRelayGrant` comes back with. -/
inductive GrantOutcome where
  /-- The signing keys could not be loaded. -/
  | unavailable
  /-- The grant's claims, or `none` if it was refused. -/
  | checked (claims : Option RelayAttachment)

/-- Whether a verified grant may replace the one the renewal started from. -/
def renews (previous : RelayAttachment) (claims : RelayAttachment) : Bool :=
  sameRelayIdentity previous.toRelayClaims claims.toRelayClaims &&
    !(claims.jti != previous.jti && decide (claims.exp ≤ previous.exp))

/-- The attachment a renewal writes: the new claims, with what belongs to the
connection carried over. -/
def renewedAttachment (previous current claims : RelayAttachment) : RelayAttachment :=
  { claims with
    controlProtocol := true
    connectionId := some (previous.connectionId.getD previous.jti)
    awaitingRuntime := previous.awaitingRuntime
    ingressWindowStartedAt := current.ingressWindowStartedAt
    ingressBytes := current.ingressBytes }

/-- `renewAuthorization` after the `await`. -/
def concludeRenewal (relay : RuntimeRelay) (fails : Nat → Bool) (socket : Nat)
    (current : RelayAttachment) (renewal : Renewal) (outcome : GrantOutcome) : RuntimeRelay :=
  if current.suppressDisconnect || current.jti != renewal.previous.jti then relay
  else
    match outcome with
    | .unavailable =>
      if fails socket then relay
      else relay.emit (.send socket (controlFrame
        (.authError renewal.requestId "relay_authorization_unavailable")))
    | .checked claims =>
      if current.exp ≤ relay.now then relay.close socket 4003 "relay grant expired"
      else
        match claims.filter (renews renewal.previous) with
        | none =>
          if fails socket then relay.renewalFailed socket renewal.previous
          else relay.emit (.send socket (controlFrame
            (.authError renewal.requestId "invalid_relay_grant")))
        | some claims =>
          let renewed := relay.serializeAttachment socket
            (renewedAttachment renewal.previous current claims)
          if fails socket then renewed.renewalFailed socket renewal.previous
          else renewed.emit (.send socket (controlFrame
            (.authRenewed renewal.requestId claims.exp)))

/-- The `finally` of `renewAuthorization`; nothing looks at `renewing` before it. -/
def endRenewal (relay : RuntimeRelay) (socket : Nat) : RuntimeRelay :=
  relay.modify socket fun s => { s with renewing := none }

/-! ## Messages -/

/-- `ArrayBuffer | string`. -/
inductive RelayMessage where
  | text (value : Utf16)
  | binary (value : Bytes)

def RelayMessage.bytes : RelayMessage → Bytes
  | .text value => Utf16.toUtf8 value
  | .binary value => value

/-- The attachment `admitIngress` writes, unless the sender is over its rate. -/
def admitIngress (relay : RuntimeRelay) (sender : RelayAttachment) (byteLength : Nat) :
    Option RelayAttachment :=
  let windowStartedAt := sender.ingressWindowStartedAt.getD relay.nowMs
  let windowExpired := decide (1000 ≤ relay.nowMs - windowStartedAt)
  let bytes := if windowExpired then 0 else sender.ingressBytes.getD 0
  if maxRelayIngressBytesPerSecond < bytes + byteLength then none
  else
    some { sender with
      ingressWindowStartedAt := some (if windowExpired then relay.nowMs else windowStartedAt)
      ingressBytes := some (bytes + byteLength) }

/-- Whether a runtime's command is meant for this mobile connection. -/
def addresses (sender : RelayAttachment) (command : RelayCommand) (clientId : Utf16)
    (target : RelayAttachment) : Bool :=
  !target.suppressDisconnect && target.role == .mobile && target.clientId == clientId &&
    some (target.connectionId.getD target.jti) == command.connectionId &&
    target.runtimeId == sender.runtimeId && target.accountId == sender.accountId

/-- `peer.ready` and `peer.close`. -/
def peerCommand (relay : RuntimeRelay) (sender : RelayAttachment) (command : RelayCommand)
    (clientId : Utf16) : RuntimeRelay :=
  relay.forPeers (relay.getWebSocketsTagged RelayRole.mobile.tag) fun relay peer target =>
    if addresses sender command clientId target then
      if command.type = .peerReady then
        relay.serializeAttachment peer { target with awaitingRuntime := false }
      else
        if command.code = some 4004 then
          (relay.suppress peer target).close peer 4004 "relay authorization or protocol rejected"
        else (relay.suppress peer target).close peer 1013 "relay peer unavailable"
    else relay

/-- A message that starts with two zero bytes. -/
def controlMessage (relay : RuntimeRelay) (platform : RelayPlatform) (socket : Nat)
    (sender : RelayAttachment) (bytes : Bytes) : RuntimeRelay :=
  if sender.controlProtocol && sender.role == .runtime &&
      decide (bytes.length ≤ maxRelayControlBytes) then
    match platform.parseCommand (bytes.drop 2) with
    | none => relay.close socket 1007 "invalid relay control"
    | some command =>
      match command.type, command.clientId with
      | .peerClose, some clientId | .peerReady, some clientId =>
        relay.peerCommand sender command clientId
      | _, _ => relay.renewAuthorization platform socket sender bytes
  else relay.renewAuthorization platform socket sender bytes

/-- The loop that hands a data frame on. -/
def forwardFrame (relay : RuntimeRelay) (fails : Nat → Bool) (socket : Nat)
    (sender : RelayAttachment) (clientId : Utf16) (bytes : Bytes) : RuntimeRelay :=
  relay.forPeers relay.getWebSockets fun relay peer target =>
    if peer = socket then relay
    else if target.suppressDisconnect || target.awaitingRuntime then relay
    else if target.exp ≤ relay.now then
      (relay.emit (.settleCalls peer)).close peer 4003 "relay grant expired"
    else if sender.role = target.role ∨ sender.accountId ≠ target.accountId ∨
        sender.runtimeId ≠ target.runtimeId ∨
        (sender.role = .runtime ∧ target.clientId ≠ clientId) then
      relay
    else relay.forward fails peer bytes

/-- A message that does not start with two zero bytes. -/
def dataMessage (relay : RuntimeRelay) (fails : Nat → Bool) (socket : Nat)
    (sender : RelayAttachment) (bytes : Bytes) : RuntimeRelay :=
  match relayFrameClientId bytes with
  | none => relay.close socket 1007 "invalid relay frame"
  | some clientId =>
    -- `!clientId` also refuses the empty string.
    if clientId = [] then relay.close socket 1007 "invalid relay frame"
    else if sender.role = .mobile ∧ sender.clientId ≠ clientId then
      relay.close socket 1008 "relay client id mismatch"
    else if isReserved clientId then
      if sender.role = .runtime ∧ clientId = mcpClientId then
        relay.emit (.mcpFrame socket bytes)
      else relay
    else relay.forwardFrame fails socket sender clientId bytes

/-- `webSocketMessage`. -/
def webSocketMessage (relay : RuntimeRelay) (platform : RelayPlatform) (fails : Nat → Bool)
    (socket : Nat) (initialSender : RelayAttachment) (bytes : Bytes) : RuntimeRelay :=
  if maxRelayFrameBytes < bytes.length then relay.close socket 1009 "relay frame too large"
  else if initialSender.suppressDisconnect then relay
  else if initialSender.exp ≤ relay.now then
    (relay.emit (.settleCalls socket)).close socket 4003 "relay grant expired"
  else
    match relay.admitIngress initialSender bytes.length with
    | none => relay.close socket 1013 "relay ingress rate exceeded"
    | some sender =>
      let relay := relay.serializeAttachment socket sender
      if bytes.take 2 = [0, 0] then relay.controlMessage platform socket sender bytes
      else relay.dataMessage fails socket sender bytes

end RuntimeRelay

/-! ## Events -/

inductive RelayEvent where
  /-- An upgrade whose grant was verified at `verifiedAt`, in seconds. -/
  | upgrade (request : RuntimeRelay.UpgradeRequest) (verifiedAt : Int) (accepts : Bool)
      (fails : Nat → Bool)
  | message (socket : Nat) (message : RuntimeRelay.RelayMessage) (fails : Nat → Bool)
  | renewalVerified (socket : Nat) (outcome : RuntimeRelay.GrantOutcome) (fails : Nat → Bool)
  | socketClosed (socket : Nat) (fails : Nat → Bool)
  | socketError (socket : Nat) (fails : Nat → Bool)
  /-- The connection is gone and `getWebSockets` stops returning it. -/
  | socketDropped (socket : Nat)
  | timePasses (elapsedMs : Nat)
  /-- The object is evicted and restored: sockets and attachments survive,
  suspended handlers do not. -/
  | evicted

namespace RuntimeRelay

/-- The claims the edge forwards passed `verifyRelayGrant`. -/
def verified (platform : RelayPlatform) (verifiedAt : Int) : UpgradeRequest → Bool
  | .claims attachment =>
    claimsAccepted platform.issuer platform.base64UrlLength verifiedAt attachment.toRelayClaims
  | _ => true

/-- The effects of the previous event are not this one's. -/
def beginEvent (relay : RuntimeRelay) : RuntimeRelay := { relay with effects := [] }

/-- One event. -/
def step (platform : RelayPlatform) (relay : RuntimeRelay) : RelayEvent → Option RuntimeRelay
  | .upgrade request verifiedAt accepts fails =>
    if verified platform verifiedAt request then
      some (relay.beginEvent.fetch fails accepts request)
    else none
  | .message socket message fails => do
      let sender ← relay.attachment socket
      some (relay.beginEvent.webSocketMessage platform fails socket sender message.bytes)
  | .renewalVerified socket outcome fails => do
      let s ← relay.sockets socket
      let renewal ← s.renewing
      some ((relay.beginEvent.concludeRenewal fails socket s.attachment renewal
        outcome).endRenewal socket)
  | .socketClosed socket fails | .socketError socket fails => do
      let peer ← relay.attachment socket
      some (relay.beginEvent.webSocketClose fails socket peer)
  | .socketDropped socket =>
    some (relay.beginEvent.modify socket fun s => { s with listed := false })
  | .timePasses elapsedMs => some { relay.beginEvent with nowMs := relay.nowMs + elapsedMs }
  | .evicted =>
    some { relay.beginEvent with
      sockets := fun i => (relay.sockets i).map fun s => { s with renewing := none } }

end RuntimeRelay

end Alera.Edge
