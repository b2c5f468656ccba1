/-
# Alera.Relay.Fragments -- relay payloads in pieces, written twice

A relay frame carries at most 48 KiB of payload.  A longer payload, up to 1 MiB,
is cut into fragments, each behind a header of a magic, the payload's length and
the fragment's offset, and put together again by a reassembler on the other
side.  The runtime (`relay_wire.rs`) and the phone (`relay_wire.dart`) each have
both halves, written separately.

* Both cut a payload into the same fragments (`fragmentRelayPayload_eq`) and both
  reassemblers agree on every input (`accept_agree`), so what follows is proved
  of the runtime's and holds of the phone's.
* A reassembler in its initial state that is fed a payload's fragments returns
  the payload and is back in its initial state (`accept_fragments`).
* `Effect` is all that one call can do.  Over every sequence of inputs, hostile
  ones included, the partial buffer is what the last inputs carried (`History`).
-/
import Alera.Relay.RelayChannel
import Alera.Theory.Lists

namespace Alera.Relay.Fragments

open Theory List

set_option autoImplicit false

/-! ## The two programs -/

/-- `FRAGMENT_MAGIC`: `ALRF` and a version byte. -/
def fragmentMagic : Bytes := [0x41, 0x4c, 0x52, 0x46, 0x01]

/-- `FRAGMENT_HEADER_BYTES`. -/
def fragmentHeaderBytes : Nat := fragmentMagic.length + 4 + 4

/-- `RELAY_FRAGMENT_PAYLOAD_BYTES`. -/
def relayFragmentPayloadBytes : Nat := 48 * 1024

/-- `MAX_RELAY_ENVELOPE_BYTES`. -/
def maxRelayEnvelopeBytes : Nat := 1024 * 1024

/-- `FragmentReassembler`, and the phone's `RelayFragmentReassembler`. -/
structure Reassembler where
  total : Option Nat
  bytes : Bytes
deriving DecidableEq

/-- The state a reassembler is created in and that `reset` returns to. -/
def Reassembler.initial : Reassembler := { total := none, bytes := [] }

/-- What `accept` answers: an error, nothing yet, or a whole payload. -/
abbrev Outcome := Except String (Option Bytes)

/-! ### The runtime, `relay_wire.rs` -/

namespace RuntimeWire

/-- `payload.starts_with(FRAGMENT_MAGIC)`. -/
def startsWithMagic (payload : Bytes) : Bool := fragmentMagic.isPrefixOf payload

/-- `u32::from_be_bytes(payload[5..9])`. -/
def totalOf (payload : Bytes) : Nat := ofBE (slice payload 5 9)

/-- `u32::from_be_bytes(payload[9..13])`. -/
def offsetOf (payload : Bytes) : Nat := ofBE (slice payload 9 13)

def chunkOf (payload : Bytes) : Bytes := payload.drop fragmentHeaderBytes

/-- The end of `accept`: the chunk goes behind the buffer, and a full buffer is
handed out. -/
def extend (self : Reassembler) (total : Nat) (chunk : Bytes) : Outcome × Reassembler :=
  let bytes := self.bytes ++ chunk
  if bytes.length ≠ total then (.ok none, { self with bytes })
  else (.ok (some bytes), { total := none, bytes := [] })

/-- `FragmentReassembler::accept`. -/
def accept (self : Reassembler) (payload : Bytes) : Outcome × Reassembler :=
  if payload.length > maxRelayEnvelopeBytes then
    (.error "relay envelope is too large", .initial)
  else if !startsWithMagic payload then
    if self.total.isSome then (.error "relay fragment sequence was interrupted", .initial)
    else (.ok (some payload), self)
  else if payload.length ≤ fragmentHeaderBytes then
    (.error "relay fragment is truncated", .initial)
  -- `checked_add` cannot fail: the offset has 32 bits and the chunk is bounded before it.
  else if totalOf payload ≤ relayFragmentPayloadBytes ∨ totalOf payload > maxRelayEnvelopeBytes ∨
      (chunkOf payload).length > relayFragmentPayloadBytes ∨
      offsetOf payload + (chunkOf payload).length > totalOf payload then
    (.error "relay fragment is outside the supported range", .initial)
  else if offsetOf payload = 0 then
    -- A fragment at offset 0 starts over, whatever was pending.
    extend { total := some (totalOf payload), bytes := [] } (totalOf payload) (chunkOf payload)
  else if self.total ≠ some (totalOf payload) ∨ offsetOf payload ≠ self.bytes.length then
    (.error "relay fragment sequence is invalid", .initial)
  else extend self (totalOf payload) (chunkOf payload)

/-- One fragment of a payload of `total` bytes. -/
def frame (total offset : Nat) (chunk : Bytes) : Bytes :=
  fragmentMagic ++ toBE 4 total ++ toBE 4 offset ++ chunk

/-- `fragment`.  The lengths and offsets written are at most 1 MiB, so neither
`u32::try_from` fails. -/
def fragment (payload : Bytes) : Except String (List Bytes) :=
  if payload.length > maxRelayEnvelopeBytes then .error "relay envelope is too large"
  else if payload.length ≤ relayFragmentPayloadBytes then .ok [payload]
  else .ok ((chunks relayFragmentPayloadBytes payload).mapIdx fun index chunk =>
    frame payload.length (index * relayFragmentPayloadBytes) chunk)

end RuntimeWire

/-! ### The phone, `relay_wire.dart` -/

namespace PhoneWire

/-- `_startsWithFragmentMagic`. -/
def startsWithFragmentMagic (payload : Bytes) : Bool :=
  if payload.length < fragmentMagic.length then false
  else (List.range fragmentMagic.length).all fun index =>
    payload.getD index 0 == fragmentMagic.getD index 0

/-- `_uint32`. -/
def uint32 (value : Nat) : Bytes :=
  [UInt8.ofNat (value >>> 24 &&& 0xff), UInt8.ofNat (value >>> 16 &&& 0xff),
    UInt8.ofNat (value >>> 8 &&& 0xff), UInt8.ofNat (value &&& 0xff)]

/-- `_readUint32`. -/
def readUint32 (bytes : Bytes) (offset : Nat) : Nat :=
  (bytes.getD offset 0).toNat <<< 24 ||| (bytes.getD (offset + 1) 0).toNat <<< 16 |||
    (bytes.getD (offset + 2) 0).toNat <<< 8 ||| (bytes.getD (offset + 3) 0).toNat

/-- The end of `accept`, from `_bytes.add` on. -/
def finish (self : Reassembler) (total : Nat) (chunk : Bytes) : Outcome × Reassembler :=
  let bytes := self.bytes ++ chunk
  if bytes.length ≠ total then (.ok none, { self with bytes })
  else (.ok (some bytes), .initial)

/-- `RelayFragmentReassembler.accept`. -/
def accept (self : Reassembler) (payload : Bytes) : Outcome × Reassembler :=
  if payload.length > maxRelayEnvelopeBytes then
    (.error "Relay envelope is too large.", .initial)
  else if !startsWithFragmentMagic payload then
    if self.total.isSome then (.error "Relay fragment sequence was interrupted.", .initial)
    else (.ok (some payload), self)
  else if payload.length ≤ fragmentHeaderBytes then
    (.error "Relay fragment is truncated.", .initial)
  else
    let total := readUint32 payload 5
    let offset := readUint32 payload 9
    let chunk := payload.drop fragmentHeaderBytes
    if total ≤ relayFragmentPayloadBytes ∨ total > maxRelayEnvelopeBytes ∨
        chunk.length > relayFragmentPayloadBytes ∨ offset + chunk.length > total then
      (.error "Relay fragment is outside the supported range.", .initial)
    else if offset = 0 then finish { total := some total, bytes := [] } total chunk
    else if self.total ≠ some total ∨ offset ≠ self.bytes.length then
      (.error "Relay fragment sequence is invalid.", .initial)
    else finish self total chunk

/-- The `for` of `fragmentRelayPayload`, from an offset on.  The offset grows by at
least one, so the payload's length is enough fuel. -/
def fragmentsFrom (payload : Bytes) : Nat → Nat → List Bytes
  | 0, _ => []
  | fuel + 1, offset =>
    if offset < payload.length then
      (fragmentMagic ++ uint32 payload.length ++ uint32 offset ++
        slice payload offset
          (if offset + relayFragmentPayloadBytes < payload.length then
            offset + relayFragmentPayloadBytes else payload.length)) ::
        fragmentsFrom payload fuel (offset + relayFragmentPayloadBytes)
    else []

/-- `fragmentRelayPayload`. -/
def fragmentRelayPayload (payload : Bytes) : Except String (List Bytes) :=
  if payload.length > maxRelayEnvelopeBytes then .error "Relay envelope is too large."
  else if payload.length ≤ relayFragmentPayloadBytes then .ok [payload]
  else .ok (fragmentsFrom payload payload.length 0)

end PhoneWire

/-- The two ends of a relay connection. -/
inductive Peer where
  | runtime
  | phone
deriving DecidableEq

def accept : Peer → Reassembler → Bytes → Outcome × Reassembler
  | .runtime => RuntimeWire.accept
  | .phone => PhoneWire.accept

open RuntimeWire (startsWithMagic totalOf offsetOf chunkOf extend frame fragment)
open PhoneWire (startsWithFragmentMagic uint32 readUint32 finish fragmentsFrom fragmentRelayPayload)
open Except (toOption)

/-! ## Both sides read and write the same -/

theorem startsWithFragmentMagic_eq (payload : Bytes) :
    startsWithFragmentMagic payload = startsWithMagic payload := by
  match payload with
  | [] => rfl
  | [_] | [_, _] | [_, _, _] | [_, _, _, _] =>
    simp [startsWithFragmentMagic, startsWithMagic, fragmentMagic, List.isPrefixOf]
  | a :: b :: c :: d :: e :: rest =>
    have long : ¬ rest.length + 5 < 5 := by omega
    simp [startsWithFragmentMagic, startsWithMagic, fragmentMagic, range_succ,
      List.isPrefixOf, long, BEq.comm]

variable {offset : Nat}

theorem readUint32_eq {bytes : Bytes} (within : offset + 4 ≤ bytes.length) :
    readUint32 bytes offset = ofBE (slice bytes offset (offset + 4)) := by
  obtain ⟨older, rest, rfl, atOffset⟩ :
      ∃ older rest, bytes = older ++ rest ∧ older.length = offset :=
    ⟨bytes.take offset, bytes.drop offset, (take_append_drop _ _).symm,
      by rw [length_take]; omega⟩
  subst atOffset
  match rest, within with
  | a :: b :: c :: d :: rest, _ =>
    rw [readUint32, shifts_eq_ofBE]
    simp [slice, getD_eq_getElem?_getD]
  | [], within | [_], within | [_, _], within | [_, _, _], within =>
    simp only [length_append, length_cons, length_nil] at within
    omega

theorem finish_eq (self : Reassembler) (total : Nat) (chunk : Bytes) :
    finish self total chunk = extend self total chunk := rfl

/-- **Both reassemblers agree on every input**: error, nothing or the same bytes, and
the same state afterwards. -/
theorem accept_agree (self : Reassembler) (payload : Bytes) :
    (PhoneWire.accept self payload).1.toOption = (RuntimeWire.accept self payload).1.toOption ∧
      (PhoneWire.accept self payload).2 = (RuntimeWire.accept self payload).2 := by
  rw [PhoneWire.accept, RuntimeWire.accept, startsWithFragmentMagic_eq]
  by_cases large : payload.length > maxRelayEnvelopeBytes
  · simp only [if_pos large, toOption, and_self]
  by_cases plain : (!startsWithMagic payload) = true
  · simp only [if_neg large, if_pos plain]
    by_cases pending : self.total.isSome
    · simp only [if_pos pending, toOption, and_self]
    · simp only [if_neg pending, and_self]
  by_cases short : payload.length ≤ fragmentHeaderBytes
  · simp only [if_neg large, if_neg plain, if_pos short, toOption, and_self]
  have header : 13 < payload.length := Nat.not_le.mp short
  have totals : readUint32 payload 5 = totalOf payload := readUint32_eq (by omega)
  have offsets : readUint32 payload 9 = offsetOf payload := readUint32_eq (by omega)
  simp only [if_neg large, if_neg plain, if_neg short, totals, offsets,
    show payload.drop fragmentHeaderBytes = chunkOf payload from rfl]
  by_cases outside : totalOf payload ≤ relayFragmentPayloadBytes ∨
      totalOf payload > maxRelayEnvelopeBytes ∨
      (chunkOf payload).length > relayFragmentPayloadBytes ∨
      offsetOf payload + (chunkOf payload).length > totalOf payload
  · simp only [if_pos outside, toOption, and_self]
  simp only [if_neg outside]
  by_cases first : offsetOf payload = 0
  · simp only [if_pos first, finish_eq, and_self]
  by_cases stray : self.total ≠ some (totalOf payload) ∨ offsetOf payload ≠ self.bytes.length
  · simp only [if_neg first, if_pos stray, toOption, and_self]
  · simp only [if_neg first, if_neg stray, finish_eq, and_self]

variable {payload : Bytes}

theorem slice_eq_take_drop (offset size : Nat) :
    slice payload offset (if offset + size < payload.length then offset + size
      else payload.length) = (payload.drop offset).take size := by
  split
  · rw [slice, Nat.add_sub_cancel_left]
  · rw [slice, take_of_length_le (by rw [length_drop]),
      take_of_length_le (by rw [length_drop]; omega)]

theorem fragmentsFrom_eq (payload : Bytes) (fuel offset : Nat) :
    fragmentsFrom payload fuel offset =
      (chunksWithin relayFragmentPayloadBytes fuel (payload.drop offset)).mapIdx
        fun index chunk => frame payload.length (offset + index * relayFragmentPayloadBytes) chunk := by
  induction fuel generalizing offset with
  | zero => rfl
  | succ fuel ih =>
    rw [fragmentsFrom, chunksWithin]
    by_cases more : offset < payload.length
    · have rest : (payload.drop offset).isEmpty = false := by
        simpa [isEmpty_eq_false_iff] using more
      simp only [if_pos more, rest, Bool.false_eq_true, if_false, mapIdx_cons,
        drop_drop, ih, slice_eq_take_drop, Nat.zero_mul, Nat.add_zero,
        Nat.succ_mul, Nat.add_assoc, Nat.add_comm relayFragmentPayloadBytes]
      rw [frame, uint32, uint32, shifts_eq_toBE, shifts_eq_toBE]
    · have rest : (payload.drop offset).isEmpty = true := by
        simpa [List.isEmpty_iff] using more
      simp only [if_neg more, rest, if_true, List.mapIdx_nil]

/-- Both sides cut a payload into the same fragments. -/
theorem fragmentRelayPayload_eq (fits : payload.length ≤ maxRelayEnvelopeBytes) :
    fragmentRelayPayload payload = fragment payload := by
  rw [fragmentRelayPayload, fragment, if_neg (Nat.not_lt.mpr fits), if_neg (Nat.not_lt.mpr fits),
    fragmentsFrom_eq]
  simp only [drop_zero, Nat.zero_add, chunks]

/-! ## What one call can do -/

/-- A fragment's header: the magic, and at least one byte behind it. -/
def IsFragment (payload : Bytes) : Prop :=
  startsWithMagic payload = true ∧ fragmentHeaderBytes < payload.length

instance (payload : Bytes) : Decidable (IsFragment payload) := inferInstanceAs (Decidable (_ ∧ _))

/-- The bytes that a fragment goes behind: none at offset 0, else the buffer, if it
belongs to the same total. -/
structure Joins (buffer : Reassembler) (payload older : Bytes) : Prop where
  fragment : IsFragment payload
  bounded : totalOf payload ≤ maxRelayEnvelopeBytes
  fits : (older ++ chunkOf payload).length ≤ totalOf payload
  offset : offsetOf payload = older.length
  pending : older = [] ∨ buffer.total = some (totalOf payload) ∧ older = buffer.bytes

/-- Everything that one call of `accept` can do. -/
inductive Effect (self : Reassembler) (payload : Bytes) : Outcome → Reassembler → Prop
  | refused (text : String) : Effect self payload (.error text) .initial
  | plain (noMagic : startsWithMagic payload = false) (idle : self.total = none) :
      Effect self payload (.ok (some payload)) self
  | joined {older : Bytes} (joins : Joins self payload older)
      (open_ : (older ++ chunkOf payload).length ≠ totalOf payload) :
      Effect self payload (.ok none)
        { total := some (totalOf payload), bytes := older ++ chunkOf payload }
  | completed {older : Bytes} (joins : Joins self payload older)
      (whole : (older ++ chunkOf payload).length = totalOf payload) :
      Effect self payload (.ok (some (older ++ chunkOf payload))) .initial

variable {self : Reassembler}

theorem extend_effect {buffer : Reassembler} (joins : Joins self payload buffer.bytes)
    (total : buffer.total = some (totalOf payload)) :
    Effect self payload (extend buffer (totalOf payload) (chunkOf payload)).1
      (extend buffer (totalOf payload) (chunkOf payload)).2 := by
  by_cases whole : (buffer.bytes ++ chunkOf payload).length = totalOf payload
  · simp only [extend, whole, ne_eq, not_true_eq_false, if_false]
    exact .completed joins whole
  · simp only [extend, whole, ne_eq, not_false_eq_true, if_true, total]
    exact .joined joins whole

theorem accept_effect (self : Reassembler) (payload : Bytes) :
    Effect self payload (RuntimeWire.accept self payload).1 (RuntimeWire.accept self payload).2 := by
  rw [RuntimeWire.accept]
  split
  · exact .refused _
  split
  next plain =>
    split
    · exact .refused _
    next idle => exact .plain (by simpa using plain) (by simpa using idle)
  next magic =>
    split
    · exact .refused _
    next long =>
      split
      · exact .refused _
      next inside =>
        have fragment : IsFragment payload := ⟨by simpa using magic, Nat.not_le.mp long⟩
        obtain ⟨-, bounded, -, fits⟩ : ¬ _ ∧ ¬ _ ∧ ¬ _ ∧ ¬ _ := by simpa only [not_or] using inside
        split
        next first =>
          refine extend_effect ⟨fragment, Nat.not_lt.mp bounded, ?_, first, .inl rfl⟩ rfl
          rw [nil_append]
          omega
        next later =>
          split
          · exact .refused _
          next follows =>
            obtain ⟨total, offset⟩ : self.total = some (totalOf payload) ∧
                offsetOf payload = self.bytes.length := by
              simpa only [not_or, not_not, ne_eq] using follows
            refine extend_effect ⟨fragment, Nat.not_lt.mp bounded, ?_, offset, .inr ⟨total, rfl⟩⟩ total
            rw [length_append]
            omega

/-! ## Soundness on every sequence of inputs -/

/-- `run` is a contiguous run of fragments that share one total: each one's offset
is the number of bytes that the ones before it carried, the first one's therefore 0. -/
structure ContiguousRun (total : Nat) (run : List Bytes) : Prop where
  nonempty : run ≠ []
  fragments : ∀ fragment ∈ run, IsFragment fragment
  totals : ∀ fragment ∈ run, totalOf fragment = total
  contiguous : ∀ before fragment after, run = before ++ fragment :: after →
    offsetOf fragment = (before.flatMap chunkOf).length

variable {total : Nat}

theorem ContiguousRun.single (fragment : IsFragment payload) (first : offsetOf payload = 0) :
    ContiguousRun (totalOf payload) [payload] where
  nonempty := cons_ne_nil _ _
  fragments := by simpa using fragment
  totals := by simp
  contiguous := by
    intro before other after split
    obtain ⟨rfl, rfl, -⟩ : before = [] ∧ other = payload ∧ after = [] := by
      simpa [singleton_eq_append_iff, and_assoc] using split
    exact first

theorem ContiguousRun.snoc {run : List Bytes} (contiguousRun : ContiguousRun total run)
    (fragment : IsFragment payload) (same : totalOf payload = total)
    (next : offsetOf payload = (run.flatMap chunkOf).length) :
    ContiguousRun total (run ++ [payload]) where
  nonempty := by simp
  fragments := forall_mem_snoc contiguousRun.fragments fragment
  totals := forall_mem_snoc contiguousRun.totals same
  contiguous := by
    intro before other after split
    rcases eq_nil_or_concat after with rfl | ⟨earlier, last, rfl⟩
    · obtain ⟨rfl, same⟩ := append_inj' split rfl
      rw [← (List.cons.inj same).1]
      exact next
    · rw [concat_eq_append, ← cons_append, ← append_assoc] at split
      obtain ⟨old, -⟩ := append_inj' split rfl
      exact contiguousRun.contiguous before other earlier old

/-- What the buffer holds after the inputs `past`: nothing, or the chunks of a
contiguous run at their end that is not complete yet. -/
def History (past : List Bytes) (self : Reassembler) : Prop :=
  match self.total with
  | none => self.bytes = []
  | some total => total ≤ maxRelayEnvelopeBytes ∧ self.bytes.length < total ∧
      ∃ older run, past = older ++ run ∧ ContiguousRun total run ∧ self.bytes = run.flatMap chunkOf

variable {past : List Bytes}

/-- A fragment that joins the buffer continues the run the buffer came from, or
starts one. -/
theorem Joins.run {older : Bytes} (history : History past self) (joins : Joins self payload older) :
    ∃ before run, past ++ [payload] = before ++ run ∧
      ContiguousRun (totalOf payload) run ∧ older ++ chunkOf payload = run.flatMap chunkOf := by
  rcases joins.pending with rfl | ⟨pending, rfl⟩
  · exact ⟨past, [payload], rfl, .single joins.fragment joins.offset, by simp⟩
  · simp only [History, pending] at history
    obtain ⟨-, -, before, run, rfl, contiguous, buffered⟩ := history
    refine ⟨before, run ++ [payload], append_assoc _ _ _,
      contiguous.snoc joins.fragment rfl (buffered ▸ joins.offset), ?_⟩
    rw [flatMap_append, ← buffered, flatMap_singleton]

variable {after : Reassembler} {outcome : Outcome}

theorem Effect.history (effect : Effect self payload outcome after) (history : History past self) :
    History (past ++ [payload]) after := by
  cases effect with
  | refused => rfl
  | plain _ idle =>
    simp only [History, idle] at history ⊢
    exact history
  | joined joins notYet => exact ⟨joins.bounded, Nat.lt_of_le_of_ne joins.fits notYet, joins.run history⟩
  | completed => rfl

/-- A returned value is the input itself or what a contiguous run carried that ends
with the input. -/
theorem Effect.returned {value : Bytes} (effect : Effect self payload (.ok (some value)) after)
    (history : History past self) :
    (startsWithMagic payload = false ∧ value = payload) ∨
      ∃ older run, past ++ [payload] = older ++ run ∧
        ContiguousRun value.length run ∧ value = run.flatMap chunkOf := by
  cases effect with
  | plain noMagic => exact .inl ⟨noMagic, rfl⟩
  | completed joins whole =>
    obtain ⟨before, run, split, contiguous, carried⟩ := joins.run history
    exact .inr ⟨before, run, split, by rwa [whole], carried⟩

theorem Effect.refused_initial {text : String} (effect : Effect self payload (.error text) after) :
    after = .initial := by
  cases effect with
  | refused => rfl

theorem History.bounded (history : History past self) :
    self.bytes.length ≤ maxRelayEnvelopeBytes := by
  cases pending : self.total with
  | none =>
    simp only [History, pending] at history
    simp [history]
  | some total =>
    simp only [History, pending] at history
    omega

/-- The state of the runtime's reassembler after any inputs. -/
theorem history_after (inputs : List Bytes) :
    History inputs (transduce RuntimeWire.accept .initial inputs).2 := by
  have start : History [] .initial := rfl
  exact transduce_history History
    (fun _ self payload history => (accept_effect self payload).history history) start inputs

/-! ## A payload's fragments come back as the payload -/

theorem startsWithMagic_frame (total offset : Nat) (chunk : Bytes) :
    startsWithMagic (frame total offset chunk) = true := by
  rw [startsWithMagic, isPrefixOf_iff_prefix, frame]
  exact prefix_append _ _

theorem frame_length (total offset : Nat) (chunk : Bytes) :
    (frame total offset chunk).length = fragmentHeaderBytes + chunk.length := by
  simp only [frame, fragmentHeaderBytes, length_append, toBE_length]

theorem totalOf_frame (fits : total < 256 ^ 4) (offset : Nat) (chunk : Bytes) :
    totalOf (frame total offset chunk) = total := by
  have magic : fragmentMagic.length = 5 := rfl
  rw [totalOf, frame, append_assoc, append_assoc,
    slice_middle _ (toBE 4 total) _ magic (by rw [toBE_length]), ofBE_toBE fits]

theorem offsetOf_frame (total : Nat) (fits : offset < 256 ^ 4) (chunk : Bytes) :
    offsetOf (frame total offset chunk) = offset := by
  have header : (fragmentMagic ++ toBE 4 total).length = 9 := by simp [fragmentMagic]
  rw [offsetOf, frame, append_assoc,
    slice_middle _ (toBE 4 offset) _ header (by rw [toBE_length]), ofBE_toBE fits]

theorem chunkOf_frame (total offset : Nat) (chunk : Bytes) :
    chunkOf (frame total offset chunk) = chunk := by
  have header : (fragmentMagic ++ toBE 4 total ++ toBE 4 offset).length = fragmentHeaderBytes := by
    simp [fragmentHeaderBytes]
  rw [chunkOf, frame, ← header, drop_left]

/-- A fragment that is next in its sequence goes behind the bytes before it. -/
theorem accept_frame {older chunk : Bytes} (large : relayFragmentPayloadBytes < total)
    (bounded : total ≤ maxRelayEnvelopeBytes) (small : chunk.length ≤ relayFragmentPayloadBytes)
    (nonempty : 0 < chunk.length) (fits : older.length + chunk.length ≤ total)
    (pending : older = [] ∨ self = { total := some total, bytes := older }) :
    RuntimeWire.accept self (frame total older.length chunk) =
      extend { total := some total, bytes := older } total chunk := by
  have words : maxRelayEnvelopeBytes < 256 ^ 4 := by decide
  have sized : fragmentHeaderBytes + relayFragmentPayloadBytes ≤ maxRelayEnvelopeBytes := by decide
  have inside : ¬ (total ≤ relayFragmentPayloadBytes ∨ total > maxRelayEnvelopeBytes ∨
      chunk.length > relayFragmentPayloadBytes ∨ older.length + chunk.length > total) := by omega
  rw [RuntimeWire.accept, frame_length, startsWithMagic_frame, totalOf_frame (by omega),
    offsetOf_frame _ (by omega), chunkOf_frame, if_neg (by omega), if_neg (by simp),
    if_neg (by omega), if_neg inside]
  rcases pending with rfl | rfl
  · rw [length_nil, if_pos rfl]
  · by_cases first : older.length = 0
    · rw [if_pos first, eq_nil_of_length_eq_zero first]
    · rw [if_neg first, if_neg (by simp)]

theorem fragmentsFrom_of_lt (more : offset < payload.length) (fuel : Nat) :
    fragmentsFrom payload (fuel + 1) offset =
      frame payload.length offset ((payload.drop offset).take relayFragmentPayloadBytes) ::
        fragmentsFrom payload fuel (offset + relayFragmentPayloadBytes) := by
  rw [fragmentsFrom, if_pos more, slice_eq_take_drop, frame, uint32, uint32, shifts_eq_toBE,
    shifts_eq_toBE]

theorem fragmentsFrom_of_le (done : payload.length ≤ offset) (fuel : Nat) :
    fragmentsFrom payload fuel offset = [] := by
  cases fuel with
  | zero => rfl
  | succ fuel => rw [fragmentsFrom, if_neg (Nat.not_lt.mpr done)]

/-- The rest of a payload's fragments completes the payload, whatever the state was
before the first one. -/
theorem accept_fragmentsFrom (large : relayFragmentPayloadBytes < payload.length)
    (bounded : payload.length ≤ maxRelayEnvelopeBytes) (fuel offset : Nat) (self : Reassembler)
    (more : offset < payload.length) (enough : payload.length - offset ≤ fuel)
    (pending : offset = 0 ∨ self = { total := some payload.length, bytes := payload.take offset }) :
    ∃ waiting, transduce RuntimeWire.accept self (fragmentsFrom payload fuel offset) =
      (List.replicate waiting (.ok none) ++ [.ok (some payload)], .initial) := by
  induction fuel generalizing offset self with
  | zero => omega
  | succ fuel ih =>
    have positive : 0 < relayFragmentPayloadBytes := by decide
    have before : (payload.take offset).length = offset := by rw [length_take]; omega
    have chunkLength : ((payload.drop offset).take relayFragmentPayloadBytes).length =
        min relayFragmentPayloadBytes (payload.length - offset) := by
      rw [length_take, length_drop]
    have next : payload.take offset = [] ∨
        self = { total := some payload.length, bytes := payload.take offset } :=
      pending.imp_left fun first => by rw [first, take_zero]
    have accepted := accept_frame large bounded
      (show ((payload.drop offset).take relayFragmentPayloadBytes).length ≤ _ by omega)
      (by omega) (by omega) next
    rw [before, extend, ← take_add] at accepted
    rw [fragmentsFrom_of_lt more, transduce, accepted]
    by_cases last : payload.length ≤ offset + relayFragmentPayloadBytes
    · rw [fragmentsFrom_of_le last, take_of_length_le last]
      simp [transduce, Reassembler.initial]
    · have filled : (payload.take (offset + relayFragmentPayloadBytes)).length ≠ payload.length := by
        rw [length_take]; omega
      obtain ⟨waiting, later⟩ := ih (offset + relayFragmentPayloadBytes)
        { total := some payload.length, bytes := payload.take (offset + relayFragmentPayloadBytes) }
        (by omega) (by omega) (.inr rfl)
      refine ⟨waiting + 1, ?_⟩
      simp only [if_pos filled, later, replicate_succ, cons_append]

/-- What may be sent: no unfragmented payload looks like a fragment. -/
def Sendable (payload : Bytes) : Prop :=
  payload.length ≤ maxRelayEnvelopeBytes ∧
    (payload.length ≤ relayFragmentPayloadBytes → startsWithMagic payload = false)

/-- One payload goes through: it is cut alike on both sides, and its fragments are
answered with nothing until the last one, which is answered with the payload. -/
theorem accept_fragments (sendable : Sendable payload) :
    ∃ fragments waiting, fragment payload = .ok fragments ∧
      transduce RuntimeWire.accept .initial fragments =
        (List.replicate waiting (.ok none) ++ [.ok (some payload)], .initial) := by
  obtain ⟨bounded, plain⟩ := sendable
  have notLarge : ¬ payload.length > maxRelayEnvelopeBytes := Nat.not_lt.mpr bounded
  by_cases short : payload.length ≤ relayFragmentPayloadBytes
  · refine ⟨[payload], 0, by rw [fragment, if_neg notLarge, if_pos short], ?_⟩
    simp [transduce, RuntimeWire.accept, if_neg notLarge, plain short, Reassembler.initial]
  · obtain ⟨waiting, accepted⟩ := accept_fragmentsFrom (Nat.not_le.mp short) bounded payload.length
      0 .initial (by omega) (by omega) (.inl rfl)
    refine ⟨_, waiting, ?_, accepted⟩
    rw [← fragmentRelayPayload_eq bounded, fragmentRelayPayload, if_neg notLarge, if_neg short]

/-- The payloads that a sequence of answers hands out. -/
def delivered (outcomes : List Outcome) : List Bytes :=
  outcomes.filterMap fun outcome => outcome.toOption.join

theorem delivered_eq (outcomes : List Outcome) :
    delivered outcomes = (outcomes.map toOption).filterMap Option.join := by
  rw [filterMap_map]
  rfl

theorem delivered_waiting (waiting : Nat) (payload : Bytes) (later : List Outcome) :
    delivered (List.replicate waiting (.ok none) ++ .ok (some payload) :: later) =
      payload :: delivered later := by
  induction waiting with
  | zero => rfl
  | succ waiting ih => exact ih

/-- A stream of payloads goes through, in order and without an error. -/
theorem accept_stream {payloads : List Bytes} (sendable : ∀ payload ∈ payloads, Sendable payload) :
    ∃ lists, payloads.mapM fragment = .ok lists ∧
      delivered (transduce RuntimeWire.accept .initial lists.flatten).1 = payloads ∧
      ∀ outcome ∈ (transduce RuntimeWire.accept .initial lists.flatten).1, outcome.toOption.isSome := by
  induction payloads with
  | nil => exact ⟨[], rfl, rfl, by simp [transduce]⟩
  | cons payload payloads ih =>
    obtain ⟨lists, cut, received, noError⟩ := ih fun p member => sendable p (.tail _ member)
    obtain ⟨fragments, waiting, here, accepted⟩ := accept_fragments (sendable payload (.head _))
    refine ⟨fragments :: lists, ?_, ?_, ?_⟩
    · rw [mapM_cons, here, cut]
      rfl
    · rw [flatten_cons, transduce_append, accepted, append_assoc, singleton_append,
        delivered_waiting, received]
    · rw [flatten_cons, transduce_append, accepted]
      intro outcome member
      rcases mem_append.mp member with old | new
      · rcases mem_append.mp old with early | last
        · rw [eq_of_mem_replicate early]
          rfl
        · rw [mem_singleton.mp last]
          rfl
      · exact noError outcome new

/-! ## The codec as a whole -/

theorem toOption_eq_some {answer : Option Bytes} :
    outcome.toOption = some answer ↔ outcome = .ok answer := by
  cases outcome <;> simp [toOption]

theorem toOption_eq_none : outcome.toOption = none ↔ ∃ text, outcome = .error text := by
  cases outcome <;> simp [toOption]

/-- Either peer's reassembler answers a sequence as the runtime's does. -/
theorem transduce_accept (peer : Peer) (self : Reassembler) (inputs : List Bytes) :
    (transduce (accept peer) self inputs).1.map toOption =
        (transduce RuntimeWire.accept self inputs).1.map toOption ∧
      (transduce (accept peer) self inputs).2 = (transduce RuntimeWire.accept self inputs).2 := by
  cases peer with
  | runtime => exact ⟨rfl, rfl⟩
  | phone => exact transduce_agree toOption accept_agree self inputs

/-- The answers of either peer to one input, in terms of the runtime's. -/
theorem accept_peer (peer : Peer) (self : Reassembler) (payload : Bytes) :
    (accept peer self payload).1.toOption = (RuntimeWire.accept self payload).1.toOption ∧
      (accept peer self payload).2 = (RuntimeWire.accept self payload).2 := by
  cases peer with
  | runtime => exact ⟨rfl, rfl⟩
  | phone => exact accept_agree self payload

theorem accept_error {peer : Peer} {text : String}
    (failed : (accept peer self payload).1 = .error text) :
    (accept peer self payload).2 = .initial := by
  obtain ⟨answers, states⟩ := accept_peer peer self payload
  obtain ⟨message, refused⟩ : ∃ message, (RuntimeWire.accept self payload).1 = .error message := by
    rw [← toOption_eq_none, ← answers, failed]
    rfl
  have effect := accept_effect self payload
  rw [refused] at effect
  rw [states, effect.refused_initial]

theorem accept_value {peer : Peer} {value : Bytes} (history : History past self)
    (returned : (accept peer self payload).1 = .ok (some value)) :
    (startsWithMagic payload = false ∧ value = payload) ∨
      ∃ older run, past ++ [payload] = older ++ run ∧
        ContiguousRun value.length run ∧ value = run.flatMap chunkOf := by
  have answered : (RuntimeWire.accept self payload).1 = .ok (some value) := by
    rw [← toOption_eq_some, ← (accept_peer peer self payload).1, toOption_eq_some, returned]
  have effect := accept_effect self payload
  rw [answered] at effect
  exact effect.returned history

theorem mapM_fragmentRelayPayload {payloads : List Bytes}
    (sendable : ∀ payload ∈ payloads, Sendable payload) :
    payloads.mapM fragmentRelayPayload = payloads.mapM fragment := by
  induction payloads with
  | nil => rfl
  | cons payload payloads ih =>
    rw [mapM_cons, mapM_cons, fragmentRelayPayload_eq (sendable payload (.head _)).1,
      ih fun p member => sendable p (.tail _ member)]

/-- **Fragmentation is a stream codec, a safe decoder, and the same on both
sides.**  Sendable payloads are cut alike by runtime and phone, and the
concatenated fragments give either reassembler exactly the payloads, without an
error.  On arbitrary inputs the two reassemblers agree step by step; a returned
value is the unfragmented input or what a complete contiguous run carried that
ends with the input; an error leaves the initial state; and the buffer holds at
most 1 MiB. -/
theorem fragments_faithful_and_sound :
    (∀ payloads : List Bytes, (∀ payload ∈ payloads, Sendable payload) →
      ∃ lists, payloads.mapM fragment = .ok lists ∧
        payloads.mapM fragmentRelayPayload = .ok lists ∧
        ∀ peer, delivered (transduce (accept peer) .initial lists.flatten).1 = payloads ∧
          ∀ outcome ∈ (transduce (accept peer) .initial lists.flatten).1, outcome.toOption.isSome) ∧
    (∀ inputs : List Bytes,
      (transduce (accept .phone) .initial inputs).1.map toOption =
          (transduce (accept .runtime) .initial inputs).1.map toOption ∧
        ∀ peer, ∃ self, (transduce (accept peer) .initial inputs).2 = self ∧
          self.bytes.length ≤ maxRelayEnvelopeBytes ∧
          ∀ payload,
            (∀ text, (accept peer self payload).1 = .error text →
              (accept peer self payload).2 = .initial) ∧
            ∀ value, (accept peer self payload).1 = .ok (some value) →
              (startsWithMagic payload = false ∧ value = payload) ∨
                ∃ older run, inputs ++ [payload] = older ++ run ∧
                  ContiguousRun value.length run ∧ value = run.flatMap chunkOf) := by
  constructor
  · intro payloads sendable
    obtain ⟨lists, cut, received, noError⟩ := accept_stream sendable
    refine ⟨lists, cut, (mapM_fragmentRelayPayload sendable).trans cut, fun peer => ?_⟩
    -- Both halves read the answers only up to the text of an error.
    obtain ⟨answers, -⟩ := transduce_accept peer .initial lists.flatten
    constructor
    · rw [delivered_eq, answers, ← delivered_eq, received]
    · intro outcome member
      have mapped : outcome.toOption ∈
          (transduce (accept peer) .initial lists.flatten).1.map toOption :=
        mem_map_of_mem member
      rw [answers, mem_map] at mapped
      obtain ⟨other, among, equal⟩ := mapped
      rw [← equal]
      exact noError other among
  · intro inputs
    refine ⟨(transduce_accept .phone .initial inputs).1, fun peer => ?_⟩
    have history := history_after inputs
    rw [← (transduce_accept peer .initial inputs).2] at history
    exact ⟨_, rfl, history.bounded, fun payload =>
      ⟨fun _ failed => accept_error failed, fun _ returned => accept_value history returned⟩⟩

/-- A handshake and an envelope of two fragments. -/
theorem fragments_faithful_and_sound_two :
    ∃ lists, [[0x7b, 0x7d], List.replicate 70000 1].mapM fragment = .ok lists ∧
      [[0x7b, 0x7d], List.replicate 70000 1].mapM fragmentRelayPayload = .ok lists ∧
      ∀ peer, delivered (transduce (accept peer) .initial lists.flatten).1 =
          [[0x7b, 0x7d], List.replicate 70000 1] ∧
        ∀ outcome ∈ (transduce (accept peer) .initial lists.flatten).1,
          outcome.toOption.isSome := by
  refine fragments_faithful_and_sound.1 _ fun payload member => ?_
  rcases mem_cons.mp member with rfl | member
  · exact ⟨by decide, fun _ => by decide⟩
  · rw [mem_singleton.mp member, Sendable, length_replicate]
    exact ⟨by decide, fun short => absurd short (by decide)⟩

end Alera.Relay.Fragments
