/-
# Alera.Relay.RelayHandshake -- phone and runtime derive the same session

The handshake is written twice: `RelaySession::derive` in Rust
(`terminal_host/relay_crypto.rs`, modelled in `RelayChannel`) and
`RelayCryptoSession.derive` in Dart
(`mobile/lib/src/features/runtime/infra/relay_crypto.dart`, modelled here).  Each
selects four Diffie-Hellman terms, four transcript slots and two labels by role.

* `dartDerive_eq`: the Dart derivation computes what the Rust one computes, for
  both roles, once the ids are short enough for both;
* `derive_agrees`: an initiator and a responder with the keys swapped compute one
  transcript, one keying material and mirrored sessions;
* `transcript_inj`: the transcript determines everything that went into it.

The Dart length check counts UTF-16 units, the Rust one UTF-8 bytes; a string
never has more of the former (`utf16Length_le`).
-/
import Alera.Relay.RelayChannel

namespace Alera.Relay

open Theory List
open RelaySessionParameters (dhEphemeralEphemeral dhEphemeralStatic dhStaticEphemeral dhStaticStatic ikm)

set_option autoImplicit false

/-! ## The Dart session -/

/-- `String.length` in Dart: UTF-16 code units. -/
def utf16Length (text : String) : Nat :=
  (text.toList.map fun c => if c.toNat < 0x10000 then 1 else 2).sum

/-- A byte list of exactly the key length. -/
def toKey? (bytes : Bytes) : Option Key :=
  if exact : bytes.length = keyBytes then some ⟨bytes.toArray, exact⟩ else none

/-- `_transcript`. -/
def dartTranscript (runtimeId clientId : String) (initiatorStatic responderStatic
    initiatorEphemeral responderEphemeral nonce : Bytes) : Bytes :=
  utf8 "ALERA-RELAY-HANDSHAKE-V1" ++ stringPart runtimeId ++ stringPart clientId ++
    initiatorStatic ++ responderStatic ++ initiatorEphemeral ++ responderEphemeral ++ nonce
where
  stringPart (value : String) : Bytes :=
    let bytes := utf8 value
    [UInt8.ofNat ((bytes.length >>> 8) &&& 0xff), UInt8.ofNat (bytes.length &&& 0xff)] ++ bytes

/-- `_constantTimeEquals`. -/
def constantTimeEquals (a b : Bytes) : Bool :=
  if a.length ≠ b.length then false
  else (List.zipWith (· ^^^ ·) a b).foldl (· ||| ·) 0 == 0

/-- `RelayCryptoSession`, the fields the handshake sets. -/
structure RelayCryptoSession where
  sendKey : Bytes
  receiveKey : Bytes
  confirmationKey : Bytes
  transcriptHash : Bytes
  sendDirection : UInt8
  receiveDirection : UInt8
  deriving DecidableEq

namespace RelayCryptoSession

variable {P : RelayPrimitives}

def transcriptInvalid : String := "Relay handshake transcript is invalid."

/-- The local function `shared` of `derive`. -/
def shared (pair : IdentityKeyPair P) (key : Key) : Except String Bytes :=
  let bytes := (P.diffieHellman pair.privateBytes key).toList
  if bytes.all (· == 0) then .error transcriptInvalid else .ok bytes

/-- The local function `key` of `derive`. -/
def deriveKey (P : RelayPrimitives) (ikm transcriptHash : Bytes) (label : String) : Bytes :=
  (P.hkdf (utf8 "alera-relay-v1") ikm
    (utf8 "alera-relay-key:" ++ utf8 label ++ transcriptHash)).toList

/-- `RelayCryptoSession.derive`. -/
def derive (localStatic localEphemeral : IdentityKeyPair P) (peerStatic peerEphemeral : Bytes)
    (runtimeId clientId : String) (nonce : Bytes) (initiator : Bool) :
    Except String RelayCryptoSession :=
  match toKey? peerStatic, toKey? peerEphemeral with
  | some peerStaticKey, some peerEphemeralKey =>
    if nonce.length ≠ 16 ∨ utf16Length runtimeId > 0xffff ∨ utf16Length clientId > 0xffff then
      .error transcriptInvalid
    else do
      let staticStatic ← shared localStatic peerStaticKey
      let ephemeralStatic ←
        (if initiator then shared localEphemeral peerStaticKey
         else shared localStatic peerEphemeralKey)
      let staticEphemeral ←
        (if initiator then shared localStatic peerEphemeralKey
         else shared localEphemeral peerStaticKey)
      let ephemeralEphemeral ← shared localEphemeral peerEphemeralKey
      let initiatorStatic := if initiator then localStatic.publicBytes.toList else peerStatic
      let responderStatic := if initiator then peerStatic else localStatic.publicBytes.toList
      let initiatorEphemeral :=
        if initiator then localEphemeral.publicBytes.toList else peerEphemeral
      let responderEphemeral :=
        if initiator then peerEphemeral else localEphemeral.publicBytes.toList
      let transcript := dartTranscript runtimeId clientId initiatorStatic responderStatic
        initiatorEphemeral responderEphemeral nonce
      let transcriptHash := (P.sha256 transcript).toList
      let ikm := staticStatic ++ ephemeralStatic ++ staticEphemeral ++ ephemeralEphemeral
      .ok
        { sendKey := deriveKey P ikm transcriptHash
            (if initiator then "client-to-runtime" else "runtime-to-client")
          receiveKey := deriveKey P ikm transcriptHash
            (if initiator then "runtime-to-client" else "client-to-runtime")
          confirmationKey := deriveKey P ikm transcriptHash "handshake-confirmation"
          transcriptHash := transcriptHash
          sendDirection := if initiator then clientToRuntime else runtimeToClient
          receiveDirection := if initiator then runtimeToClient else clientToRuntime }
  | _, _ => .error transcriptInvalid

/-- `_confirmationForDirection`. -/
def confirmationForDirection (P : RelayPrimitives) (session : RelayCryptoSession)
    (direction : UInt8) : Bytes :=
  let role := if direction = clientToRuntime then "client" else "runtime"
  (P.hmac session.confirmationKey
    (utf8 ("alera-relay-confirmation:" ++ role ++ ":") ++ session.transcriptHash)).toList

/-- `confirmation`. -/
def confirmation (P : RelayPrimitives) (session : RelayCryptoSession) : Bytes :=
  confirmationForDirection P session session.sendDirection

/-- `verifyPeerConfirmation`. -/
def verifyPeerConfirmation (P : RelayPrimitives) (session : RelayCryptoSession) (value : Bytes) :
    Except String Unit :=
  let expected := confirmationForDirection P session session.receiveDirection
  if constantTimeEquals expected value then .ok ()
  else .error "Relay handshake confirmation failed."

/-- The Dart view of a Rust session. -/
def ofRust (session : RelaySession) : RelayCryptoSession where
  sendKey := session.sendKey.toList
  receiveKey := session.receiveKey.toList
  confirmationKey := session.confirmationKey.toList
  transcriptHash := session.transcriptHash.toList
  sendDirection := session.sendDirection
  receiveDirection := session.receiveDirection

end RelayCryptoSession

/-! ## The Dart helpers are the Rust ones -/

theorem utf16Length_le (text : String) : utf16Length text ≤ (utf8 text).length := by
  unfold utf16Length utf8
  induction text.toList with
  | nil => exact Nat.le_refl _
  | cons c rest ih =>
    have units : (if c.toNat < 0x10000 then 1 else 2) ≤ (String.utf8EncodeChar c).length := by
      rw [String.length_utf8EncodeChar]
      have one := c.utf8Size_pos
      split
      · exact one
      · have wide : c.utf8Size = 4 := by
          have bmp : ¬ c.toNat ≤ 65535 := by omega
          have two : ¬ c.toNat ≤ 2047 := by omega
          have ascii : ¬ c.toNat ≤ 127 := by omega
          unfold Char.utf8Size
          simp [UInt32.le_iff_toNat_le, bmp, two, ascii]
        omega
    rw [map_cons, flatMap_cons, length_append]
    exact Nat.add_le_add units ih

theorem ofNat_and_255 (n : Nat) : UInt8.ofNat (n &&& 0xff) = UInt8.ofNat n := by
  have masked : n &&& 0xff = n % 256 := Nat.and_two_pow_sub_one_eq_mod n 8
  rw [masked]
  apply UInt8.toNat_inj.mp
  exact Nat.mod_mod n 256

theorem stringPart_eq (value : String) :
    dartTranscript.stringPart value = lengthPrefixed 2 (utf8 value) := by
  have shifted : (utf8 value).length >>> 8 = (utf8 value).length / 256 :=
    Nat.shiftRight_eq_div_pow _ 8
  simp only [dartTranscript.stringPart, ofNat_and_255, shifted]
  rfl

theorem dartTranscript_eq (runtimeId clientId : String) (initiatorStatic responderStatic
    initiatorEphemeral responderEphemeral : Key) (nonce : Bytes) :
    dartTranscript runtimeId clientId initiatorStatic.toList responderStatic.toList
        initiatorEphemeral.toList responderEphemeral.toList nonce =
      transcript runtimeId clientId initiatorStatic responderStatic initiatorEphemeral
        responderEphemeral nonce := by
  rw [dartTranscript, stringPart_eq, stringPart_eq, transcript]

theorem foldl_or_eq_zero {l : List UInt8} {start : UInt8} :
    l.foldl (· ||| ·) start = 0 ↔ start = 0 ∧ ∀ b ∈ l, b = 0 := by
  induction l generalizing start with
  | nil => simp
  | cons b rest ih =>
    rw [foldl_cons, ih, UInt8.or_eq_zero_iff, forall_mem_cons, and_assoc]

/-- The constant-time comparison is equality. -/
theorem constantTimeEquals_iff {a b : Bytes} : constantTimeEquals a b = true ↔ a = b := by
  unfold constantTimeEquals
  split
  · rename_i lengths
    constructor
    · intro never
      cases never
    · intro same
      exact absurd (congrArg List.length same) lengths
  · rename_i lengths
    rw [beq_iff_eq, foldl_or_eq_zero]
    constructor
    · rintro ⟨-, differences⟩
      refine ext_getElem (Decidable.not_not.mp lengths) ?_
      intro i inA inB
      have inside : i < (List.zipWith (· ^^^ ·) a b).length := by
        rw [length_zipWith]
        omega
      have zero := differences _ (getElem_mem inside)
      rw [getElem_zipWith] at zero
      exact UInt8.xor_eq_zero_iff.mp zero
    · rintro rfl
      refine ⟨rfl, ?_⟩
      intro difference member
      obtain ⟨i, inside, rfl⟩ := getElem_of_mem member
      rw [getElem_zipWith, UInt8.xor_self]

@[simp] theorem toKey?_toList (key : Key) : toKey? key.toList = some key := by
  unfold toKey?
  rw [dif_pos key.length_toList]
  rfl

/-! ## The Dart derivation is the Rust one -/

section Derivation

variable {P : RelayPrimitives}

/-- A shared secret, unless it is the all-zero one. -/
def contributory (secret : Key) : Except String Bytes :=
  if wasContributory secret then .ok secret.toList
  else .error RelayCryptoSession.transcriptInvalid

theorem shared_eq (pair : IdentityKeyPair P) (key : Key) :
    RelayCryptoSession.shared pair key = contributory (P.diffieHellman pair.privateBytes key) := by
  have complement : ∀ bytes : Bytes, bytes.all (· == 0) = !bytes.any (· != 0) := by
    intro bytes
    rw [not_any_eq_all_not]
    simp [bne]
  have zero : (P.diffieHellman pair.privateBytes key).toList.all (· == 0) =
      !wasContributory (P.diffieHellman pair.privateBytes key) := complement _
  unfold RelayCryptoSession.shared contributory
  dsimp only
  rw [zero]
  cases wasContributory (P.diffieHellman pair.privateBytes key) <;> rfl

/-- The ids both length checks accept. -/
def ShortIds (runtimeId clientId : String) : Prop :=
  (utf8 runtimeId).length ≤ 65535 ∧ (utf8 clientId).length ≤ 65535

/-- Run on the same parameters, the Dart derivation returns the Rust session or
fails with it. -/
theorem dartDerive_eq (p : RelaySessionParameters P) (short : ShortIds p.runtimeId p.clientId) :
    RelayCryptoSession.derive p.localStatic p.localEphemeral p.peerStatic.toList
        p.peerEphemeral.toList p.runtimeId p.clientId p.nonce p.initiator =
      match RelaySession.derive p with
      | .ok session => .ok (RelayCryptoSession.ofRust session)
      | .error _ => .error RelayCryptoSession.transcriptInvalid := by
  have runtime16 := Nat.le_trans (utf16Length_le p.runtimeId) short.1
  have client16 := Nat.le_trans (utf16Length_le p.clientId) short.2
  have dartIds : ¬ (utf16Length p.runtimeId > 0xffff ∨ utf16Length p.clientId > 0xffff) := by
    omega
  have rustIds : ¬ ((utf8 p.runtimeId).length > 65535 ∨ (utf8 p.clientId).length > 65535) := by
    have := short.1
    have := short.2
    omega
  unfold RelayCryptoSession.derive RelaySession.derive
  simp only [toKey?_toList, dartIds, rustIds, or_false]
  by_cases length : p.nonce.length ≠ 16
  · rw [if_pos length, if_pos length]
  rw [if_neg length, if_neg length]
  -- The role selects the same terms and slots in both languages.
  have ephemeralStatic :
      (if p.initiator then RelayCryptoSession.shared p.localEphemeral p.peerStatic
        else RelayCryptoSession.shared p.localStatic p.peerEphemeral) =
      contributory p.dhEphemeralStatic := by
    unfold dhEphemeralStatic
    split <;> rw [shared_eq]
  have staticEphemeral :
      (if p.initiator then RelayCryptoSession.shared p.localStatic p.peerEphemeral
        else RelayCryptoSession.shared p.localEphemeral p.peerStatic) =
      contributory p.dhStaticEphemeral := by
    unfold dhStaticEphemeral
    split <;> rw [shared_eq]
  have slots :
      dartTranscript p.runtimeId p.clientId
        (if p.initiator then p.localStatic.publicBytes.toList else p.peerStatic.toList)
        (if p.initiator then p.peerStatic.toList else p.localStatic.publicBytes.toList)
        (if p.initiator then p.localEphemeral.publicBytes.toList else p.peerEphemeral.toList)
        (if p.initiator then p.peerEphemeral.toList else p.localEphemeral.publicBytes.toList)
        p.nonce = p.transcript := by
    unfold RelaySessionParameters.transcript
    split <;> exact dartTranscript_eq ..
  rw [ephemeralStatic, staticEphemeral, slots, shared_eq, shared_eq]
  change (contributory p.dhStaticStatic >>= fun _ => contributory p.dhEphemeralStatic >>= fun _ =>
    contributory p.dhStaticEphemeral >>= fun _ => contributory p.dhEphemeralEphemeral >>= _) = _
  cases one : wasContributory p.dhStaticStatic <;>
    cases two : wasContributory p.dhEphemeralStatic <;>
    cases three : wasContributory p.dhStaticEphemeral <;>
    cases four : wasContributory p.dhEphemeralEphemeral <;>
    simp only [contributory, one, two, three, four] <;> rfl

/-! ## Both roles derive mirrored sessions -/

/-- The initiator's parameters of a handshake. -/
def initiatorParameters (iStatic iEphemeral rStatic rEphemeral : IdentityKeyPair P)
    (runtimeId clientId : String) (nonce : Bytes) : RelaySessionParameters P where
  localStatic := iStatic
  localEphemeral := iEphemeral
  peerStatic := rStatic.publicBytes
  peerEphemeral := rEphemeral.publicBytes
  runtimeId := runtimeId
  clientId := clientId
  nonce := nonce
  initiator := true

/-- The responder's parameters of the same handshake, with the keys swapped. -/
def responderParameters (iStatic iEphemeral rStatic rEphemeral : IdentityKeyPair P)
    (runtimeId clientId : String) (nonce : Bytes) : RelaySessionParameters P where
  localStatic := rStatic
  localEphemeral := rEphemeral
  peerStatic := iStatic.publicBytes
  peerEphemeral := iEphemeral.publicBytes
  runtimeId := runtimeId
  clientId := clientId
  nonce := nonce
  initiator := false

/-- A fresh session seen from the other end. -/
def RelaySession.mirror (session : RelaySession) : RelaySession :=
  { session with
    sendKey := session.receiveKey
    receiveKey := session.sendKey
    sendDirection := session.receiveDirection
    receiveDirection := session.sendDirection }

/-- X25519 as a commutative function. -/
def Commutes (P : RelayPrimitives) : Prop :=
  ∀ a b, P.diffieHellman a (P.publicKey b) = P.diffieHellman b (P.publicKey a)

theorem dh_swap (commutes : Commutes P) (a b : IdentityKeyPair P) :
    P.diffieHellman a.privateBytes b.publicBytes = P.diffieHellman b.privateBytes a.publicBytes := by
  rw [a.belongs, b.belongs]
  exact commutes a.privateBytes b.privateBytes

variable (iStatic iEphemeral rStatic rEphemeral : IdentityKeyPair P)
  (runtimeId clientId : String) (nonce : Bytes)

/-- The responder derives the mirror image of the initiator's session. -/
theorem derive_responder (commutes : Commutes P) :
    RelaySession.derive
        (responderParameters iStatic iEphemeral rStatic rEphemeral runtimeId clientId nonce) =
      (RelaySession.derive (initiatorParameters iStatic iEphemeral rStatic rEphemeral runtimeId
        clientId nonce)).map RelaySession.mirror := by
  have staticStatic := dh_swap commutes rStatic iStatic
  have ephemeralStatic := dh_swap commutes rStatic iEphemeral
  have staticEphemeral := dh_swap commutes rEphemeral iStatic
  have ephemeralEphemeral := dh_swap commutes rEphemeral iEphemeral
  simp only [RelaySession.derive, responderParameters, initiatorParameters,
    dhStaticStatic, dhEphemeralStatic,
    dhStaticEphemeral, dhEphemeralEphemeral,
    ikm, RelaySessionParameters.transcript, if_true, Bool.false_eq_true,
    if_false, staticStatic, ephemeralStatic, staticEphemeral, ephemeralEphemeral]
  split
  · rfl
  · split <;> rfl

/-- What two ends of one handshake share. -/
structure Agrees (P : RelayPrimitives) (a b : RelaySession) : Prop where
  matching : a.Matching b
  confirmationKey : a.confirmationKey = b.confirmationKey
  verifiedByB : b.verifyPeerConfirmation P (a.confirmation P).toList = .ok ()
  verifiedByA : a.verifyPeerConfirmation P (b.confirmation P).toList = .ok ()

/-- A derived session and its mirror image agree. -/
theorem agrees_mirror {p : RelaySessionParameters P} {session : RelaySession}
    (derived : RelaySession.derive p = .ok session) : Agrees P session session.mirror := by
  have apart : session.sendDirection ≠ session.receiveDirection ∧
      session.nextSendCounter = session.nextReceiveCounter := by
    unfold RelaySession.derive at derived
    split at derived
    · cases derived
    · split at derived
      · cases derived
      · cases derived
        dsimp only
        cases p.initiator <;> decide
  refine ⟨⟨rfl, rfl, rfl, rfl, rfl, apart.1, apart.2, apart.2.symm⟩, rfl, ?_, ?_⟩
  · exact if_pos rfl
  · exact if_pos rfl

/-- The same between a phone and a runtime. -/
structure DartAgrees (P : RelayPrimitives) (a : RelayCryptoSession) (b : RelaySession) : Prop where
  send : a.sendKey = b.receiveKey.toList
  receive : a.receiveKey = b.sendKey.toList
  confirmationKey : a.confirmationKey = b.confirmationKey.toList
  transcriptHash : a.transcriptHash = b.transcriptHash.toList
  sendDirection : a.sendDirection = b.receiveDirection
  receiveDirection : a.receiveDirection = b.sendDirection
  complementary : a.sendDirection ≠ a.receiveDirection
  verifiedByB : b.verifyPeerConfirmation P (a.confirmation P) = .ok ()
  verifiedByA : a.verifyPeerConfirmation P (b.confirmation P).toList = .ok ()

theorem confirmation_text (role : String) :
    utf8 ("alera-relay-confirmation:" ++ role ++ ":") =
      utf8 "alera-relay-confirmation:" ++ utf8 role ++ utf8 ":" := by
  simp only [utf8, String.toList_append, flatMap_append]

/-- The Dart confirmation for a direction is the Rust one. -/
theorem confirmationForDirection_ofRust (P : RelayPrimitives) (session : RelaySession)
    (direction : UInt8) :
    RelayCryptoSession.confirmationForDirection P (.ofRust session) direction =
      (RelaySession.confirmationForKey P session.confirmationKey session.transcriptHash
        (RelaySession.confirmationLabel direction)).toList := by
  unfold RelayCryptoSession.confirmationForDirection RelaySession.confirmationForKey
    RelaySession.confirmationLabel
  dsimp only
  rw [confirmation_text]
  rfl

theorem Agrees.ofRust {a b : RelaySession} (agrees : Agrees P a b) :
    DartAgrees P (.ofRust a) b where
  send := congrArg Vector.toList agrees.matching.toRuntime
  receive := congrArg Vector.toList agrees.matching.toClient
  confirmationKey := congrArg Vector.toList agrees.confirmationKey
  transcriptHash := congrArg Vector.toList agrees.matching.transcriptHash
  sendDirection := agrees.matching.sendDirection
  receiveDirection := agrees.matching.receiveDirection
  complementary := agrees.matching.complementary
  verifiedByB := by
    rw [RelayCryptoSession.confirmation, confirmationForDirection_ofRust]
    exact agrees.verifiedByB
  verifiedByA := by
    have verified := agrees.verifiedByA
    unfold RelaySession.verifyPeerConfirmation at verified
    split at verified
    · rename_i equal
      unfold RelayCryptoSession.verifyPeerConfirmation
      rw [confirmationForDirection_ofRust]
      exact if_pos (constantTimeEquals_iff.mpr equal)
    · cases verified

end Derivation

open RelaySession (derive)

/-! ## The transcript is injective -/

/-- Everything a transcript is made of, within the limits both derivations check. -/
structure Admitted where
  runtimeId : String
  clientId : String
  initiatorStatic : Key
  responderStatic : Key
  initiatorEphemeral : Key
  responderEphemeral : Key
  nonce : Bytes
  shortIds : ShortIds runtimeId clientId
  nonceLength : nonce.length = 16

def Admitted.transcript (t : Admitted) : Bytes :=
  Relay.transcript t.runtimeId t.clientId t.initiatorStatic t.responderStatic
    t.initiatorEphemeral t.responderEphemeral t.nonce

/-- A key can be cut off the front. -/
theorem key_append_inj {x y : Key} {restX restY : Bytes}
    (same : x.toList ++ restX = y.toList ++ restY) : x = y ∧ restX = restY := by
  obtain ⟨keys, rests⟩ := append_inj same (by rw [x.length_toList, y.length_toList])
  exact ⟨Vector.toList_inj.mp keys, rests⟩

theorem transcript_inj {s t : Admitted} (same : s.transcript = t.transcript) : s = t := by
  unfold Admitted.transcript transcript at same
  simp only [append_assoc, append_cancel_left_eq] at same
  have fits : ∀ id : String, (utf8 id).length ≤ 65535 → (utf8 id).length < 256 ^ 2 := by
    omega
  obtain ⟨runtimes, same⟩ := lengthPrefixed_inj (fits _ s.shortIds.1) (fits _ t.shortIds.1) same
  obtain ⟨clients, same⟩ := lengthPrefixed_inj (fits _ s.shortIds.2) (fits _ t.shortIds.2) same
  obtain ⟨initiatorStatics, same⟩ := key_append_inj same
  obtain ⟨responderStatics, same⟩ := key_append_inj same
  obtain ⟨initiatorEphemerals, same⟩ := key_append_inj same
  obtain ⟨responderEphemerals, nonces⟩ := key_append_inj same
  have runtimeIds := utf8_inj runtimes
  have clientIds := utf8_inj clients
  cases s
  simp_all

/-! ## Agreement -/

/-- Two derivations succeed together, with sessions in relation `R`, or fail
together. -/
def Together {α β ε δ : Type} (R : α → β → Prop) (x : Except ε α) (y : Except δ β) : Prop :=
  (∃ a b, x = .ok a ∧ y = .ok b ∧ R a b) ∨ (∃ e d, x = .error e ∧ y = .error d)

/-- **Phone and runtime agree on keys.**  Whichever language the initiator runs,
it and a Rust responder with the keys swapped compute one transcript, succeed or
fail together, and on success hold mirrored keys under which each confirmation
verifies at the other end; and the transcript encoding is injective. -/
theorem handshake_agrees (P : RelayPrimitives) (commutes : Commutes P)
    (iStatic iEphemeral rStatic rEphemeral : IdentityKeyPair P) (runtimeId clientId : String)
    (nonce : Bytes) (short : ShortIds runtimeId clientId) :
    ((initiatorParameters iStatic iEphemeral rStatic rEphemeral runtimeId clientId
          nonce).transcript =
        (responderParameters iStatic iEphemeral rStatic rEphemeral runtimeId clientId
          nonce).transcript ∧
      dartTranscript runtimeId clientId iStatic.publicBytes.toList rStatic.publicBytes.toList
          iEphemeral.publicBytes.toList rEphemeral.publicBytes.toList nonce =
        (responderParameters iStatic iEphemeral rStatic rEphemeral runtimeId clientId
          nonce).transcript) ∧
    Together (Agrees P)
      (derive
        (initiatorParameters iStatic iEphemeral rStatic rEphemeral runtimeId clientId nonce))
      (derive
        (responderParameters iStatic iEphemeral rStatic rEphemeral runtimeId clientId nonce)) ∧
    Together (DartAgrees P)
      (RelayCryptoSession.derive iStatic iEphemeral rStatic.publicBytes.toList
        rEphemeral.publicBytes.toList runtimeId clientId nonce true)
      (derive
        (responderParameters iStatic iEphemeral rStatic rEphemeral runtimeId clientId nonce)) ∧
    ∀ s t : Admitted, s.transcript = t.transcript → s = t := by
  have dart := dartDerive_eq
    (initiatorParameters iStatic iEphemeral rStatic rEphemeral runtimeId clientId nonce) short
  have responder := derive_responder iStatic iEphemeral rStatic rEphemeral runtimeId clientId nonce
    commutes
  refine ⟨⟨rfl, dartTranscript_eq ..⟩, ?_, ?_, fun s t => transcript_inj⟩
  · rw [responder]
    cases derived : derive
        (initiatorParameters iStatic iEphemeral rStatic rEphemeral runtimeId clientId nonce) with
    | error error => exact .inr ⟨error, error, rfl, rfl⟩
    | ok session => exact .inl ⟨session, session.mirror, rfl, rfl, agrees_mirror derived⟩
  · rw [responder]
    cases derived : derive
        (initiatorParameters iStatic iEphemeral rStatic rEphemeral runtimeId clientId nonce) with
    | error error =>
      rw [derived] at dart
      exact .inr ⟨_, error, dart, rfl⟩
    | ok session =>
      rw [derived] at dart
      exact .inl ⟨_, session.mirror, dart, rfl, (agrees_mirror derived).ofRust⟩

/-- Primitives over which the exchange is a commutative sum. -/
def additivePrimitives : RelayPrimitives where
  publicKey secret := secret
  diffieHellman a b := Vector.ofFn fun i => a[i] + b[i]
  sha256 bytes := Vector.replicate _ (bytes.foldl (· + ·) 0)
  hkdf salt ikm info := Vector.replicate _ ((salt ++ ikm ++ info).foldl (· + ·) 0)
  hmac key message := Vector.replicate _ ((key ++ message).foldl (· + ·) 0)

theorem additivePrimitives_commutes : Commutes additivePrimitives := by
  intro a b
  simp only [additivePrimitives]
  congr 1
  funext i
  exact UInt8.add_comm _ _

def additivePair (seed : UInt8) : IdentityKeyPair additivePrimitives :=
  .fromPrivate _ (Vector.replicate _ seed)

theorem handshake_agrees_additive :
    ∃ a b, derive (initiatorParameters (additivePair 1) (additivePair 3)
        (additivePair 2) (additivePair 4) "runtime" "mobile" (List.replicate 16 5)) = .ok a ∧
      derive (responderParameters (additivePair 1) (additivePair 3)
        (additivePair 2) (additivePair 4) "runtime" "mobile" (List.replicate 16 5)) = .ok b ∧
      Agrees additivePrimitives a b := by
  have agreed := (handshake_agrees additivePrimitives additivePrimitives_commutes
    (additivePair 1) (additivePair 3) (additivePair 2) (additivePair 4) "runtime" "mobile"
    (List.replicate 16 5) ⟨by decide, by decide⟩).2.1
  have succeeds : (derive (initiatorParameters (additivePair 1) (additivePair 3)
      (additivePair 2) (additivePair 4) "runtime" "mobile" (List.replicate 16 5))).isOk = true := by
    decide
  rcases agreed with success | ⟨e, -, failed, -⟩
  · exact success
  · rw [failed] at succeeds
    cases succeeds

end Alera.Relay
