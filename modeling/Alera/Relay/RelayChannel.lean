/-
# Alera.Relay.RelayChannel -- two relay sessions over a hostile network

A client and a runtime session with matching keys, and an adversary who delivers
any byte string to either side at any time: dropped, duplicated, reordered,
reflected or made up, an envelope is just the argument of an open.

The AEAD is ideal relative to what was encrypted so far.  Every event brings its
own cipher; `encryptions` records the calls that succeeded, and `IdealAead` says
that a decryption succeeds only on one of them.

Opening never trusts the counter in the envelope, it only compares it, so the
invariant `Authentic` has to connect four things: each side's send counter with
what it sealed, its receive counter with what it opened, the recorded
encryptions with the counters they were made under, and the nonces with both.
The last counter is special: sealing at it encrypts before it fails, so the log
may hold encryptions at that counter that no envelope was returned for.  Opening
at it fails as well, which is why those never surface.
-/
import Alera.Theory.Runs
import Alera.Theory.FixedWidth

namespace Alera.Relay

open Theory

set_option autoImplicit false

/-! ## The relay session of the runtime

`rust/alera-cli/src/terminal_host/relay_crypto.rs`: the handshake that derives a
session's keys and the sealing and opening of envelopes under them.

The cryptographic libraries are parameters.  `RelayPrimitives` holds X25519,
SHA-256, HKDF and HMAC as functions; the AEAD's `encrypt` and `decrypt` are
arguments of `sealEnvelope` and `openEnvelope`, because what an ideal AEAD decrypts depends on
what was encrypted before (`RelayChannel`).  HKDF-Expand for 32 bytes cannot
fail, so its error branch does not appear.
-/

abbrev Bytes := List UInt8

/-- `KEY_BYTES`. -/
def keyBytes : Nat := 32

/-- `[u8; KEY_BYTES]`. -/
abbrev Key := Vector UInt8 keyBytes

/-- The UTF-8 bytes of a string. -/
def utf8 (text : String) : Bytes := text.toList.flatMap String.utf8EncodeChar

theorem utf8_inj {x y : String} (same : utf8 x = utf8 y) : x = y := by
  have encoded : x.toList.utf8Encode = y.toList.utf8Encode := congrArg List.toByteArray same
  rw [String.utf8Encode_toList, String.utf8Encode_toList] at encoded
  exact String.toByteArray_inj.mp encoded

/-- `RELAY_PROTOCOL_VERSION`. -/
def relayProtocolVersion : UInt8 := 1

/-- `CLIENT_TO_RUNTIME`. -/
def clientToRuntime : UInt8 := 0

/-- `RUNTIME_TO_CLIENT`. -/
def runtimeToClient : UInt8 := 1

/-- `ENVELOPE_HEADER_BYTES`. -/
def envelopeHeaderBytes : Nat := 1 + 1 + 8 + 12

/-- The library functions the handshake calls. -/
structure RelayPrimitives where
  publicKey : Key → Key
  diffieHellman : Key → Key → Key
  sha256 : Bytes → Key
  /-- HKDF-SHA256 of `salt`, input keying material and `info`, 32 bytes long. -/
  hkdf : Bytes → Bytes → Bytes → Key
  hmac : Bytes → Bytes → Key

/-- `IdentityKeyPair`: the public half always belongs to the private one. -/
structure IdentityKeyPair (P : RelayPrimitives) where
  privateBytes : Key
  publicBytes : Key
  belongs : publicBytes = P.publicKey privateBytes

/-- `IdentityKeyPair::from_private`. -/
def IdentityKeyPair.fromPrivate (P : RelayPrimitives) (privateBytes : Key) : IdentityKeyPair P :=
  ⟨privateBytes, P.publicKey privateBytes, rfl⟩

/-- `RelayCryptoError`. -/
inductive RelayCryptoError where
  | invalidTranscript
  | invalidEnvelope
  | counter
  | authentication
  deriving DecidableEq, Repr

/-- The error's display text. -/
def RelayCryptoError.message : RelayCryptoError → String
  | .invalidTranscript => "invalid relay handshake transcript"
  | .invalidEnvelope => "invalid relay envelope"
  | .counter => "relay envelope replay or counter gap"
  | .authentication => "relay envelope authentication failed"

/-- `RelaySessionParameters`. -/
structure RelaySessionParameters (P : RelayPrimitives) where
  localStatic : IdentityKeyPair P
  localEphemeral : IdentityKeyPair P
  peerStatic : Key
  peerEphemeral : Key
  runtimeId : String
  clientId : String
  nonce : Bytes
  initiator : Bool

/-- `RelaySession`. -/
structure RelaySession where
  sendKey : Key
  receiveKey : Key
  confirmationKey : Key
  transcriptHash : Key
  sendDirection : UInt8
  receiveDirection : UInt8
  nextSendCounter : UInt64
  nextReceiveCounter : UInt64

/-! ## The handshake -/

/-- `transcript`. -/
def transcript (runtimeId clientId : String) (initiatorStatic responderStatic initiatorEphemeral
    responderEphemeral : Key) (nonce : Bytes) : Bytes :=
  utf8 "ALERA-RELAY-HANDSHAKE-V1" ++ lengthPrefixed 2 (utf8 runtimeId) ++
    lengthPrefixed 2 (utf8 clientId) ++ initiatorStatic.toList ++ responderStatic.toList ++
    initiatorEphemeral.toList ++ responderEphemeral.toList ++ nonce

/-- `SharedSecret::was_contributory`: not the all-zero secret. -/
def wasContributory (shared : Key) : Bool := shared.toList.any (· != 0)

/-- `expand_key`. -/
def expandKey (P : RelayPrimitives) (ikm : Bytes) (label : String) (transcriptHash : Key) : Key :=
  P.hkdf (utf8 "alera-relay-v1") ikm
    (utf8 "alera-relay-key:" ++ utf8 label ++ transcriptHash.toList)

namespace RelaySessionParameters

variable {P : RelayPrimitives} (p : RelaySessionParameters P)

/-- The transcript `derive` hashes: the initiator's keys come first on both sides. -/
def transcript : Bytes :=
  if p.initiator then
    Relay.transcript p.runtimeId p.clientId p.localStatic.publicBytes p.peerStatic
      p.localEphemeral.publicBytes p.peerEphemeral p.nonce
  else
    Relay.transcript p.runtimeId p.clientId p.peerStatic p.localStatic.publicBytes
      p.peerEphemeral p.localEphemeral.publicBytes p.nonce

def dhStaticStatic : Key := P.diffieHellman p.localStatic.privateBytes p.peerStatic

def dhEphemeralStatic : Key :=
  if p.initiator then P.diffieHellman p.localEphemeral.privateBytes p.peerStatic
  else P.diffieHellman p.localStatic.privateBytes p.peerEphemeral

def dhStaticEphemeral : Key :=
  if p.initiator then P.diffieHellman p.localStatic.privateBytes p.peerEphemeral
  else P.diffieHellman p.localEphemeral.privateBytes p.peerStatic

def dhEphemeralEphemeral : Key := P.diffieHellman p.localEphemeral.privateBytes p.peerEphemeral

/-- The HKDF input keying material. -/
def ikm : Bytes :=
  p.dhStaticStatic.toList ++ p.dhEphemeralStatic.toList ++ p.dhStaticEphemeral.toList ++
    p.dhEphemeralEphemeral.toList

end RelaySessionParameters

namespace RelaySession

/-- `derive`. -/
def derive {P : RelayPrimitives} (p : RelaySessionParameters P) :
    Except RelayCryptoError RelaySession :=
  if p.nonce.length ≠ 16 ∨ (utf8 p.runtimeId).length > 65535 ∨ (utf8 p.clientId).length > 65535 then
    .error .invalidTranscript
  else if !wasContributory p.dhStaticStatic || !wasContributory p.dhEphemeralStatic ||
      !wasContributory p.dhStaticEphemeral || !wasContributory p.dhEphemeralEphemeral then
    .error .invalidTranscript
  else
    let transcriptHash := P.sha256 p.transcript
    let sendLabel := if p.initiator then "client-to-runtime" else "runtime-to-client"
    let receiveLabel := if p.initiator then "runtime-to-client" else "client-to-runtime"
    .ok
      { sendKey := expandKey P p.ikm sendLabel transcriptHash
        receiveKey := expandKey P p.ikm receiveLabel transcriptHash
        confirmationKey := expandKey P p.ikm "handshake-confirmation" transcriptHash
        transcriptHash := transcriptHash
        sendDirection := if p.initiator then clientToRuntime else runtimeToClient
        receiveDirection := if p.initiator then runtimeToClient else clientToRuntime
        nextSendCounter := 0
        nextReceiveCounter := 0 }

/-- `confirmation_label`. -/
def confirmationLabel (direction : UInt8) : String :=
  if direction = clientToRuntime then "client" else "runtime"

/-- `confirmation_for_key`. -/
def confirmationForKey (P : RelayPrimitives) (key transcriptHash : Key) (role : String) : Key :=
  P.hmac key.toList
    (utf8 "alera-relay-confirmation:" ++ utf8 role ++ utf8 ":" ++ transcriptHash.toList)

/-- `confirmation`. -/
def confirmation (P : RelayPrimitives) (session : RelaySession) : Key :=
  confirmationForKey P session.confirmationKey session.transcriptHash
    (confirmationLabel session.sendDirection)

/-- `verify_peer_confirmation`. -/
def verifyPeerConfirmation (P : RelayPrimitives) (session : RelaySession) (confirmation : Bytes) :
    Except RelayCryptoError Unit :=
  if (confirmationForKey P session.confirmationKey session.transcriptHash
      (confirmationLabel session.receiveDirection)).toList = confirmation then
    .ok ()
  else
    .error .authentication

/-! ## Envelopes -/

/-- `nonce`. -/
def nonce (direction : UInt8) (counter : UInt64) : Bytes :=
  [direction, 0, 0, 0] ++ toBE 8 counter.toNat

/-- `associated_data`. -/
def associatedData (direction : UInt8) (counter : UInt64) (transcriptHash : Key) : Bytes :=
  [relayProtocolVersion, direction] ++ toBE 8 counter.toNat ++ transcriptHash.toList

/-- `seal`.  The counter is advanced after the encryption, so the call at the
last counter encrypts and then fails. -/
def sealEnvelope (encrypt : Key → Bytes → Bytes → Bytes → Option Bytes) (session : RelaySession)
    (plaintext : Bytes) : RelaySession × Except RelayCryptoError Bytes :=
  let counter := session.nextSendCounter
  let nonce := nonce session.sendDirection counter
  let aad := associatedData session.sendDirection counter session.transcriptHash
  match encrypt session.sendKey nonce aad plaintext with
  | none => (session, .error .authentication)
  | some ciphertext =>
    match checkedSucc counter with
    | none => (session, .error .counter)
    | some next =>
      ({ session with nextSendCounter := next },
        .ok ([relayProtocolVersion, session.sendDirection] ++ toBE 8 counter.toNat ++ nonce ++
          ciphertext))

/-- `open`. -/
def openEnvelope (decrypt : Key → Bytes → Bytes → Bytes → Option Bytes) (session : RelaySession)
    (envelope : Bytes) : RelaySession × Except RelayCryptoError Bytes :=
  if envelope.length < envelopeHeaderBytes + 16 ∨ envelope[0]? ≠ some relayProtocolVersion ∨
      envelope[1]? ≠ some session.receiveDirection then
    (session, .error .invalidEnvelope)
  else if ofBE ((envelope.drop 2).take 8) ≠ session.nextReceiveCounter.toNat then
    (session, .error .counter)
  else
    let counter := session.nextReceiveCounter
    let expectedNonce := nonce session.receiveDirection counter
    if (envelope.drop 10).take 12 ≠ expectedNonce then
      (session, .error .invalidEnvelope)
    else
      let aad := associatedData session.receiveDirection counter session.transcriptHash
      match decrypt session.receiveKey expectedNonce aad (envelope.drop envelopeHeaderBytes) with
      | none => (session, .error .authentication)
      | some plaintext =>
        match checkedSucc counter with
        | none => (session, .error .counter)
        | some next => ({ session with nextReceiveCounter := next }, .ok plaintext)

/-- A nonce names its direction and its counter. -/
theorem nonce_inj {d d' : UInt8} {c c' : UInt64} (same : nonce d c = nonce d' c') :
    d = d' ∧ c = c' := by
  obtain ⟨headers, counters⟩ := List.append_inj same rfl
  refine ⟨(List.cons.inj headers).1, ?_⟩
  have bound : ∀ c : UInt64, c.toNat < 256 ^ 8 := fun c => c.toNat_lt
  exact UInt64.toNat_inj.mp (toBE_inj (bound c) (bound c') counters)

/-- The nonce an envelope carries. -/
def envelopeNonce (envelope : Bytes) : Bytes := (envelope.drop 10).take 12

/-- Everything sealing can do. -/
theorem sealEnvelope_cases (encrypt : Key → Bytes → Bytes → Bytes → Option Bytes)
    (session : RelaySession) (plaintext : Bytes) :
    (∃ error, session.sealEnvelope encrypt plaintext = (session, .error error) ∧
      (session.nextSendCounter.toNat = u64Max ∨
        encrypt session.sendKey (nonce session.sendDirection session.nextSendCounter)
          (associatedData session.sendDirection session.nextSendCounter session.transcriptHash)
          plaintext = none)) ∨
    (∃ next envelope, checkedSucc session.nextSendCounter = some next ∧
      envelopeNonce envelope = nonce session.sendDirection session.nextSendCounter ∧
      session.sealEnvelope encrypt plaintext =
        ({ session with nextSendCounter := next }, .ok envelope)) := by
  unfold sealEnvelope
  dsimp only
  split
  · rename_i failed
    exact .inl ⟨_, rfl, .inr failed⟩
  · split
    · rename_i exhausted
      exact .inl ⟨_, rfl, .inl (checkedSucc_eq_none.mp exhausted)⟩
    · rename_i next advanced
      refine .inr ⟨next, _, advanced, ?_, rfl⟩
      have header : ([relayProtocolVersion, session.sendDirection] ++
          toBE 8 session.nextSendCounter.toNat).length = 10 := by simp
      have body : (nonce session.sendDirection session.nextSendCounter).length = 12 := by
        simp [nonce]
      rw [envelopeNonce, List.append_assoc, List.drop_left' header, List.take_left' body]

/-- Opening either fails and changes nothing, or returns what was decrypted under
the expected counter and moves on to the next. -/
theorem openEnvelope_cases (decrypt : Key → Bytes → Bytes → Bytes → Option Bytes)
    (session : RelaySession) (envelope : Bytes) :
    (∃ error, session.openEnvelope decrypt envelope = (session, .error error)) ∨
    (∃ next plaintext, checkedSucc session.nextReceiveCounter = some next ∧
      decrypt session.receiveKey (nonce session.receiveDirection session.nextReceiveCounter)
        (associatedData session.receiveDirection session.nextReceiveCounter session.transcriptHash)
        (envelope.drop envelopeHeaderBytes) = some plaintext ∧
      session.openEnvelope decrypt envelope =
        ({ session with nextReceiveCounter := next }, .ok plaintext)) := by
  unfold openEnvelope
  split
  · exact .inl ⟨_, rfl⟩
  · split
    · exact .inl ⟨_, rfl⟩
    · dsimp only
      split
      · exact .inl ⟨_, rfl⟩
      · split
        · exact .inl ⟨_, rfl⟩
        · rename_i plaintext decrypted
          split
          · exact .inl ⟨_, rfl⟩
          · rename_i next advanced
            exact .inr ⟨next, plaintext, advanced, decrypted, rfl⟩

end RelaySession

/-! ## Channels -/

open List
open Function (update update_eq_self update_of_ne update_self)

inductive Side where
  | client
  | runtime
  deriving DecidableEq, Repr

def Side.other : Side → Side
  | .client => .runtime
  | .runtime => .client

/-- One successful call of the AEAD's `encrypt`. -/
structure Encryption where
  key : Key
  nonce : Bytes
  aad : Bytes
  plaintext : Bytes
  ciphertext : Bytes
  deriving DecidableEq

/-- The two sessions and the history of their calls. -/
structure Channel where
  peer : Side → RelaySession
  encryptions : List Encryption
  /-- The plaintexts each side's sealing returned an envelope for. -/
  sealed : Side → List Bytes
  /-- The plaintexts each side's opening returned. -/
  opened : Side → List Bytes
  /-- Every envelope sealing returned, with the key it was sealed under. -/
  envelopes : List (Key × Bytes)

/-- A call on one side, with the cipher as it behaves during the call. -/
inductive ChannelEvent where
  | sealEnvelope (side : Side) (plaintext : Bytes)
      (encrypt : Key → Bytes → Bytes → Bytes → Option Bytes)
  | openEnvelope (side : Side) (envelope : Bytes)
      (decrypt : Key → Bytes → Bytes → Bytes → Option Bytes)

namespace RelaySession

/-- The call of `encrypt` that sealing makes, if it succeeds. -/
def encryption (session : RelaySession) (plaintext : Bytes)
    (encrypt : Key → Bytes → Bytes → Bytes → Option Bytes) : List Encryption :=
  let nonce := nonce session.sendDirection session.nextSendCounter
  let aad := associatedData session.sendDirection session.nextSendCounter session.transcriptHash
  (encrypt session.sendKey nonce aad plaintext).toList.map fun ciphertext =>
    ⟨session.sendKey, nonce, aad, plaintext, ciphertext⟩

/-- What two sessions of one handshake have in common, at any pair of counters
both sides agree on. -/
structure Matching (client runtime : RelaySession) : Prop where
  toRuntime : client.sendKey = runtime.receiveKey
  toClient : client.receiveKey = runtime.sendKey
  transcriptHash : client.transcriptHash = runtime.transcriptHash
  sendDirection : client.sendDirection = runtime.receiveDirection
  receiveDirection : client.receiveDirection = runtime.sendDirection
  complementary : client.sendDirection ≠ client.receiveDirection
  sendCounter : client.nextSendCounter = runtime.nextReceiveCounter
  receiveCounter : client.nextReceiveCounter = runtime.nextSendCounter

end RelaySession

namespace Channel

/-- Two sessions before any call. -/
def start (client runtime : RelaySession) : Channel where
  peer
    | .client => client
    | .runtime => runtime
  encryptions := []
  sealed := fun _ => []
  opened := fun _ => []
  envelopes := []

/-- One call; no call is ever refused. -/
def step (c : Channel) : ChannelEvent → Option Channel
  | .sealEnvelope side plaintext encrypt =>
    let session := c.peer side
    let called := session.sealEnvelope encrypt plaintext
    let c := { c with
      peer := update c.peer side called.1
      encryptions := c.encryptions ++ session.encryption plaintext encrypt }
    match called.2 with
    | .error _ => some c
    | .ok envelope =>
      some { c with
        sealed := update c.sealed side (c.sealed side ++ [plaintext])
        envelopes := c.envelopes ++ [(session.sendKey, envelope)] }
  | .openEnvelope side envelope decrypt =>
    let called := (c.peer side).openEnvelope decrypt envelope
    let c := { c with peer := update c.peer side called.1 }
    match called.2 with
    | .error _ => some c
    | .ok plaintext =>
      some { c with
        opened := update c.opened side (c.opened side ++ [plaintext]) }

/-- The ideal AEAD: `decrypt` succeeds only on what `encrypt` produced under the
same key, nonce and associated data, and returns its plaintext. -/
def IdealAead (c : Channel) : ChannelEvent → Prop
  | .sealEnvelope .. => True
  | .openEnvelope _ _ decrypt =>
    ∀ key nonce aad ciphertext plaintext, decrypt key nonce aad ciphertext = some plaintext →
      ⟨key, nonce, aad, plaintext, ciphertext⟩ ∈ c.encryptions

/-! ## The invariant -/

open RelaySession (nonce envelopeNonce)

/-- The encryption was made under a counter of `side`, and unless that is the last
one, an envelope was returned for its plaintext. -/
def SealedAt (base : Side → RelaySession) (c : Channel) (e : Encryption) (side : Side) : Prop :=
  ∃ counter : UInt64, e.nonce = nonce (base side).sendDirection counter ∧
    (counter.toNat = u64Max ∨ ∃ i, counter.toNat = (base side).nextSendCounter.toNat + i ∧
      (c.sealed side)[i]? = some e.plaintext)

/-- The envelope carries a counter of `side` that was used up. -/
def IssuedBy (base : Side → RelaySession) (c : Channel) (envelope : Bytes) (side : Side) : Prop :=
  ∃ counter : UInt64, envelopeNonce envelope = nonce (base side).sendDirection counter ∧
    counter.toNat < (c.peer side).nextSendCounter.toNat

structure Authentic (base : Side → RelaySession) (c : Channel) : Prop where
  /-- Only the counters of a session ever change. -/
  fixed : ∀ side, ∃ send receive, c.peer side =
    { base side with nextSendCounter := send, nextReceiveCounter := receive }
  sent : ∀ side, (c.peer side).nextSendCounter.toNat =
    (base side).nextSendCounter.toNat + (c.sealed side).length
  received : ∀ side, (c.peer side).nextReceiveCounter.toNat =
    (base side).nextReceiveCounter.toNat + (c.opened side).length
  inOrder : ∀ side, c.opened side <+: c.sealed side.other
  known : ∀ e ∈ c.encryptions, ∃ side, SealedAt base c e side
  issued : ∀ x ∈ c.envelopes, ∃ side, IssuedBy base c x.2 side
  distinct : c.envelopes.Pairwise fun x y => envelopeNonce x.2 ≠ envelopeNonce y.2

/-- What the proofs need of the pair the channel starts with. -/
structure Paired (base : Side → RelaySession) : Prop where
  direction : ∀ side, (base side).receiveDirection = (base side.other).sendDirection
  apart : ∀ side, (base side).sendDirection ≠ (base side.other).sendDirection
  counter : ∀ side, (base side).nextReceiveCounter = (base side.other).nextSendCounter

theorem paired_of_matching {client runtime : RelaySession} (matching : client.Matching runtime) :
    Paired (start client runtime).peer where
  direction
    | .client => matching.receiveDirection
    | .runtime => matching.sendDirection.symm
  apart
    | .client => matching.receiveDirection ▸ matching.complementary
    | .runtime => matching.receiveDirection ▸ matching.complementary.symm
  counter
    | .client => matching.receiveCounter
    | .runtime => matching.sendCounter.symm

/-- Each side has a direction of its own. -/
theorem Paired.side_eq {base : Side → RelaySession} (paired : Paired base) {side side' : Side}
    (same : (base side).sendDirection = (base side').sendDirection) : side = side' := by
  have apart := paired.apart side
  cases side <;> cases side' <;> first | rfl | exact absurd same apart

theorem start_authentic (client runtime : RelaySession) :
    Authentic (start client runtime).peer (start client runtime) where
  fixed := fun _ => ⟨_, _, rfl⟩
  sent := fun _ => rfl
  received := fun _ => rfl
  inOrder := fun _ => nil_prefix
  known := by simp [start]
  issued := by simp [start]
  distinct := .nil

/-! ### One call -/

variable {base : Side → RelaySession} {c after : Channel} {side : Side}

theorem SealedAt.mono {e : Encryption} (grown : c.sealed side <+: after.sealed side) :
    SealedAt base c e side → SealedAt base after e side := by
  rintro ⟨counter, under, last | ⟨i, position, entry⟩⟩
  · exact ⟨counter, under, .inl last⟩
  · obtain ⟨newer, whole⟩ := grown
    refine ⟨counter, under, .inr ⟨i, position, ?_⟩⟩
    rw [← whole, List.getElem?_append_left (List.getElem?_eq_some_iff.mp entry).1, entry]

variable {envelope : Bytes}

theorem IssuedBy.mono
    (grown : (c.peer side).nextSendCounter.toNat ≤ (after.peer side).nextSendCounter.toNat) :
    IssuedBy base c envelope side → IssuedBy base after envelope side := by
  rintro ⟨counter, carried, used⟩
  exact ⟨counter, carried, Nat.lt_of_lt_of_le used grown⟩

variable {plaintext : Bytes} {encrypt : Key → Bytes → Bytes → Bytes → Option Bytes}

/-- The encryption a seal makes is under the side's current counter. -/
theorem mem_encryption {session : RelaySession} {e : Encryption}
    (made : e ∈ session.encryption plaintext encrypt) :
    e.nonce = nonce session.sendDirection session.nextSendCounter ∧ e.plaintext = plaintext := by
  obtain ⟨ciphertext, -, rfl⟩ := mem_map.mp made
  exact ⟨rfl, rfl⟩

/-- A seal that fails may have encrypted, but only at the last counter. -/
theorem Authentic.sealFailed (authentic : Authentic base c)
    (failed : (c.peer side).nextSendCounter.toNat = u64Max ∨
      (c.peer side).encryption plaintext encrypt = []) :
    Authentic base
      { c with encryptions := c.encryptions ++ (c.peer side).encryption plaintext encrypt } := by
  refine { authentic with known := ?_ }
  intro e member
  rcases mem_append.mp member with old | made
  · exact authentic.known e old
  · obtain last | refused := failed
    · refine ⟨side, (c.peer side).nextSendCounter, ?_, .inl last⟩
      obtain ⟨send, receive, same⟩ := authentic.fixed side
      rw [(mem_encryption made).1, same]
    · rw [refused] at made
      cases made

/-- A seal that returns an envelope uses up the side's counter. -/
theorem Authentic.sealReturned {next : UInt64} (paired : Paired base) (authentic : Authentic base c)
    (advanced : checkedSucc (c.peer side).nextSendCounter = some next)
    (carried : envelopeNonce envelope = nonce (c.peer side).sendDirection (c.peer side).nextSendCounter) :
    Authentic base
      { c with
        peer := update c.peer side { c.peer side with nextSendCounter := next }
        encryptions := c.encryptions ++ (c.peer side).encryption plaintext encrypt
        sealed := update c.sealed side (c.sealed side ++ [plaintext])
        envelopes := c.envelopes ++ [((c.peer side).sendKey, envelope)] } := by
  obtain ⟨-, counted⟩ := checkedSucc_eq_some advanced
  obtain ⟨send, receive, same⟩ := authentic.fixed side
  have direction : (c.peer side).sendDirection = (base side).sendDirection := by rw [same]
  have grown : ∀ other, c.sealed other <+:
      update c.sealed side (c.sealed side ++ [plaintext]) other := by
    exact update_cases (prefix_append _ _) fun _ => prefix_rfl
  have used : ∀ other, (c.peer other).nextSendCounter.toNat ≤ (update c.peer side
      { c.peer side with nextSendCounter := next } other).nextSendCounter.toNat := by
    refine update_cases ?_ fun _ => Nat.le_refl _
    rw [counted]
    exact Nat.le_succ _
  refine
    { fixed := ?_
      sent := ?_
      received := ?_
      inOrder := fun other => (authentic.inOrder other).trans (grown other.other)
      known := ?_
      issued := ?_
      distinct := ?_ }
  · dsimp only
    refine update_cases ⟨next, receive, ?_⟩ authentic.fixed
    rw [same]
  · intro other
    dsimp only
    by_cases mine : other = side
    · subst mine
      rw [update_self, update_self, length_append, counted, authentic.sent other]
      rfl
    · rw [update_of_ne mine, update_of_ne mine]
      exact authentic.sent other
  · dsimp only
    exact update_cases (authentic.received side) authentic.received
  · intro e member
    rcases mem_append.mp member with old | made
    · obtain ⟨other, sealedAt⟩ := authentic.known e old
      exact ⟨other, sealedAt.mono (grown other)⟩
    · obtain ⟨under, text⟩ := mem_encryption made
      refine ⟨side, (c.peer side).nextSendCounter, by rw [under, direction], .inr ?_⟩
      refine ⟨(c.sealed side).length, authentic.sent side, ?_⟩
      dsimp only
      rw [update_self, text]
      exact getElem?_concat_length
  · refine forall_mem_snoc (fun x old => ?_) ?_
    · obtain ⟨other, issuedBy⟩ := authentic.issued x old
      exact ⟨other, issuedBy.mono (used other)⟩
    · refine ⟨side, (c.peer side).nextSendCounter, by rw [← direction]; exact carried, ?_⟩
      dsimp only
      rw [update_self, counted]
      exact Nat.lt_succ_self _
  · refine pairwise_append.mpr ⟨authentic.distinct, pairwise_singleton _ _, ?_⟩
    -- An earlier envelope is from the other direction or under a smaller counter.
    intro x old y fresh clash
    rw [mem_singleton.mp fresh] at clash
    obtain ⟨other, counter, earlier, below⟩ := authentic.issued x old
    rw [earlier, carried, direction] at clash
    obtain ⟨directions, counters⟩ := RelaySession.nonce_inj clash
    rw [counters, paired.side_eq directions] at below
    exact Nat.lt_irrefl _ below

/-- An open that returns a plaintext returns the next one the peer sealed. -/
theorem Authentic.openReturned {next : UInt64} {e : Encryption} (paired : Paired base)
    (authentic : Authentic base c) (recorded : e ∈ c.encryptions)
    (advanced : checkedSucc (c.peer side).nextReceiveCounter = some next)
    (under : e.nonce = nonce (c.peer side).receiveDirection (c.peer side).nextReceiveCounter) :
    Authentic base
      { c with
        peer := update c.peer side { c.peer side with nextReceiveCounter := next }
        opened := update c.opened side (c.opened side ++ [e.plaintext]) } := by
  obtain ⟨below, counted⟩ := checkedSucc_eq_some advanced
  obtain ⟨send, receive, same⟩ := authentic.fixed side
  have direction : (c.peer side).receiveDirection = (base side.other).sendDirection := by
    rw [same]
    exact paired.direction side
  obtain ⟨sender, counter, sealedUnder, sealedAs⟩ := authentic.known e recorded
  rw [under, direction] at sealedUnder
  obtain ⟨directions, rfl⟩ := RelaySession.nonce_inj sealedUnder
  obtain rfl := paired.side_eq directions
  have upcoming : (c.sealed side.other)[(c.opened side).length]? = some e.plaintext := by
    rcases sealedAs with last | ⟨i, position, entry⟩
    · exact absurd last (Nat.ne_of_lt below)
    · have index : i = (c.opened side).length := by
        have received := authentic.received side
        rw [paired.counter side] at received
        omega
      rw [← index]
      exact entry
  have extended : c.opened side ++ [e.plaintext] <+: c.sealed side.other := by
    obtain ⟨rest, whole⟩ := authentic.inOrder side
    rw [← whole] at upcoming ⊢
    rw [getElem?_append_right (Nat.le_refl _), Nat.sub_self] at upcoming
    cases rest with
    | nil => cases upcoming
    | cons first rest =>
      cases upcoming
      exact ⟨rest, by simp⟩
  refine
    { authentic with
      fixed := ?_
      sent := ?_
      received := ?_
      inOrder := ?_
      issued := ?_ }
  · dsimp only
    refine update_cases ⟨send, next, ?_⟩ authentic.fixed
    rw [same]
  · dsimp only
    exact update_cases (authentic.sent side) authentic.sent
  · intro other
    dsimp only
    by_cases mine : other = side
    · subst mine
      rw [update_self, update_self, length_append, counted, authentic.received other]
      rfl
    · rw [update_of_ne mine, update_of_ne mine]
      exact authentic.received other
  · dsimp only
    exact update_cases extended authentic.inOrder
  · intro x member
    obtain ⟨other, issuedBy⟩ := authentic.issued x member
    refine ⟨other, issuedBy.mono ?_⟩
    dsimp only
    exact update_cases (Nat.le_refl _) (fun _ => Nat.le_refl _) other

theorem step_authentic (paired : Paired base) {event : ChannelEvent} (authentic : Authentic base c)
    (ideal : IdealAead c event) (stepped : c.step event = some after) : Authentic base after := by
  cases event with
  | sealEnvelope side plaintext encrypt =>
    unfold step at stepped
    rcases (c.peer side).sealEnvelope_cases encrypt plaintext with
      ⟨error, called, failed⟩ | ⟨next, envelope, advanced, carried, called⟩
    · simp only [called, update_eq_self] at stepped
      cases stepped
      refine authentic.sealFailed (failed.imp_right fun refused => ?_)
      rw [RelaySession.encryption, refused]
      rfl
    · simp only [called] at stepped
      cases stepped
      exact authentic.sealReturned paired advanced carried
  | openEnvelope side envelope decrypt =>
    unfold step at stepped
    rcases (c.peer side).openEnvelope_cases decrypt envelope with
      ⟨error, called⟩ | ⟨next, plaintext, advanced, decrypted, called⟩
    · simp only [called, update_eq_self] at stepped
      cases stepped
      exact authentic
    · simp only [called] at stepped
      cases stepped
      exact authentic.openReturned paired (ideal _ _ _ _ _ decrypted) advanced rfl

/-! ## Every run -/

/-- **The relay is an authenticated in-order channel.**  For every interleaving of
seals on both sides and opens of arbitrary byte strings, under an ideal AEAD:
each side opened a prefix of what the other sealed, a failed open changes
nothing, and no two returned envelopes share a key and a nonce. -/
theorem channel_authentic (client runtime : RelaySession) (matching : client.Matching runtime)
    (events : List ChannelEvent) (c : Channel)
    (ran : run step (start client runtime) events = some c)
    (ideal : Guarded step IdealAead (start client runtime) events) :
    (∀ side, c.opened side <+: c.sealed side.other) ∧
    (∀ side decrypt envelope error,
      ((c.peer side).openEnvelope decrypt envelope).2 = .error error →
        ((c.peer side).openEnvelope decrypt envelope).1 = c.peer side) ∧
    c.envelopes.Pairwise fun x y => x.1 = y.1 → envelopeNonce x.2 ≠ envelopeNonce y.2 := by
  have paired := paired_of_matching matching
  have authentic : Authentic (start client runtime).peer c := by
    refine run_invariant_of_guarded (Authentic (start client runtime).peer) ?_ events _ c ideal
      (start_authentic client runtime) ran
    intro before event after holds idealNow stepped
    exact step_authentic paired holds idealNow stepped
  refine ⟨authentic.inOrder, ?_, ?_⟩
  · intro side decrypt envelope error failed
    rcases (c.peer side).openEnvelope_cases decrypt envelope with
      ⟨_, called⟩ | ⟨_, _, -, -, called⟩
    · rw [called]
    · rw [called] at failed
      cases failed
  · refine List.Pairwise.imp ?_ authentic.distinct
    intro x y differ _
    exact differ

/-- An AEAD that decrypts exactly what `log` records. -/
def decryptRecorded (log : List Encryption) (key : Key) (nonce aad ciphertext : Bytes) :
    Option Bytes :=
  (log.find? fun e =>
    e.key = key ∧ e.nonce = nonce ∧ e.aad = aad ∧ e.ciphertext = ciphertext).map
    Encryption.plaintext

theorem decryptRecorded_mem {log : List Encryption} {key : Key} {nonce aad ciphertext : Bytes}
    (found : decryptRecorded log key nonce aad ciphertext = some plaintext) :
    ⟨key, nonce, aad, plaintext, ciphertext⟩ ∈ log := by
  obtain ⟨e, hit, rfl⟩ := of_map found
  have fields : e.key = key ∧ e.nonce = nonce ∧ e.aad = aad ∧ e.ciphertext = ciphertext := by
    simpa using find?_some hit
  obtain ⟨rfl, rfl, rfl, rfl⟩ := fields
  exact mem_of_find?_eq_some hit

/-- A session one envelope before its last counter. -/
def lastSession (sendDirection receiveDirection : UInt8) : RelaySession where
  sendKey := Vector.replicate _ sendDirection
  receiveKey := Vector.replicate _ receiveDirection
  confirmationKey := Vector.replicate _ 2
  transcriptHash := Vector.replicate _ 3
  sendDirection := sendDirection
  receiveDirection := receiveDirection
  nextSendCounter := 18446744073709551614
  nextReceiveCounter := 18446744073709551614

/-- A toy cipher with a tag of the right length. -/
def tagged (_ : Key) (_ _ plaintext : Bytes) : Option Bytes :=
  some (plaintext ++ List.replicate 16 0)

/-- The client seals at its last two counters; the one envelope it returned is
delivered twice. -/
def lastRun : List ChannelEvent :=
  let client := lastSession clientToRuntime runtimeToClient
  let envelope := (client.sealEnvelope tagged [7]).2.toOption.getD []
  let decrypt := decryptRecorded (client.encryption [7] tagged)
  [.sealEnvelope .client [7] tagged, .sealEnvelope .client [8] tagged,
    .openEnvelope .runtime envelope decrypt, .openEnvelope .runtime envelope decrypt]

theorem channel_authentic_lastRun :
    ∃ c, run step (start (lastSession clientToRuntime runtimeToClient)
        (lastSession runtimeToClient clientToRuntime)) lastRun = some c ∧
      c.sealed .client = [[7]] ∧ c.opened .runtime = [[7]] ∧ c.encryptions.length = 2 ∧
      ∀ side, c.opened side <+: c.sealed side.other := by
  refine ⟨_, rfl, by decide, by decide, by decide, ?_⟩
  refine (channel_authentic (lastSession clientToRuntime runtimeToClient)
    (lastSession runtimeToClient clientToRuntime)
    ⟨rfl, rfl, rfl, rfl, rfl, by decide, rfl, rfl⟩ lastRun _ rfl ?_).1
  refine ⟨trivial, ?_⟩
  rintro _ ⟨⟩
  refine ⟨trivial, ?_⟩
  rintro _ ⟨⟩
  refine ⟨?_, ?_⟩
  · intro key nonce aad ciphertext plaintext found
    exact mem_append_left _ (decryptRecorded_mem found)
  rintro _ ⟨⟩
  refine ⟨?_, fun _ _ => trivial⟩
  intro key nonce aad ciphertext plaintext found
  exact mem_append_left _ (decryptRecorded_mem found)

end Channel

end Alera.Relay
