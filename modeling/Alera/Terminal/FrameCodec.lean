/-
# Alera.Terminal.FrameCodec -- the frames between a terminal host and the app

The host writes frames (`frame_codec.rs`): a kind byte, a big-endian length and the
payload, which for output is the session id behind its own length and the raw bytes.
The app reads them (`terminal_host_frame_codec.dart`).  A connection starts with lines of
JSON; the line that announces binary frames switches the reader, wherever in a chunk it
ends.

The reader keeps unread bytes between two offsets of a buffer that it compacts and grows
when a chunk needs room, and remembers how far it has searched for the end of a line.
`FrameReader.Holds` is what these offsets mean.  One item is read back by
`takeFrame_complete` and `takeFrame_waits`, a stream by the library on stream codecs.

`utf8.decode` is Dart's, with what its documentation says about the encoding of a text:
the text, without a byte order mark at its start (`Utf8Decoder`).
-/
import Alera.Theory.FixedWidth
import Alera.Theory.StreamCodec
import Alera.Theory.Utf8Validation

namespace Alera.Terminal.FrameCodec

open Theory List

set_option autoImplicit false

abbrev Text := List Char

abbrev Bytes := List UInt8

/-! ## The host's encoder -/

/-- `FRAME_KIND_JSON`. -/
def frameKindJson : UInt8 := 1

/-- `FRAME_KIND_OUTPUT`. -/
def frameKindOutput : UInt8 := 2

/-- `frame`. -/
def frame (kind : UInt8) (payload : Bytes) : Bytes := kind :: toBE 4 payload.length ++ payload

/-- `encode_json_frame`, of a value that is written as this text. -/
def encodeJsonFrame (json : Text) : Bytes := frame frameKindJson (encodeUtf8 json)

/-- `encode_output_payload`. -/
def encodeOutputPayload (sessionId : Text) (data : Bytes) : Bytes :=
  toBE 2 (encodeUtf8 sessionId).length ++ encodeUtf8 sessionId ++ data

/-- `encode_output_frame`. -/
def encodeOutputFrame (sessionId : Text) (data : Bytes) : Bytes :=
  frame frameKindOutput (encodeOutputPayload sessionId data)

/-! ## The app's reader -/

def byteOrderMark : Char := '\uFEFF'

def dropByteOrderMark : Text → Text
  | [] => []
  | c :: rest => if c = byteOrderMark then rest else c :: rest

/-- `utf8.decode` with `allowMalformed`. -/
structure Utf8Decoder where
  decode : Bytes → Text
  decode_encode : ∀ text, decode (encodeUtf8 text) = dropByteOrderMark text

/-- `TerminalHostFrame`. -/
inductive Frame where
  | json (text : Text)
  | output (sessionId : Text) (data : Bytes)
  deriving DecidableEq

/-- `terminalHostBinaryFramesEnabledLine`. -/
def binaryFramesEnabledLine : Text := "binaryFramesEnabled".toList

def announcesFrames (line : Text) : Bool := (find binaryFramesEnabledLine line).isSome

/-- `terminalHostFrameHeaderLength`. -/
def frameHeaderLength : Nat := 5

/-- `TerminalHostFrameReader`.  The offsets are natural numbers: the search never stands before the
unread bytes, so that rebasing it does not go below zero. -/
structure FrameReader where
  buffer : Bytes
  start : Nat
  stop : Nat
  lineScanFrom : Nat
  binary : Bool
  deriving DecidableEq

namespace FrameReader

def empty : FrameReader := ⟨[], 0, 0, 0, false⟩

/-- `Uint8List.setRange`. -/
def setRange (target : Bytes) (position : Nat) (bytes : Bytes) : Bytes :=
  target.take position ++ bytes ++ target.drop (position + bytes.length)

def initialCapacity : Nat := 64 * 1024

def retainedCapacity : Nat := 256 * 1024

/-- The loop of `_grownCapacity`; every round adds at least one. -/
def doubleUntil (needed : Nat) : Nat → Nat → Nat
  | 0, capacity => capacity
  | fuel + 1, capacity => if capacity < needed then doubleUntil needed fuel (capacity * 2) else capacity

/-- `_grownCapacity`. -/
def grownCapacity (buffer : Bytes) (needed : Nat) : Nat :=
  doubleUntil needed needed (if buffer.isEmpty then initialCapacity else buffer.length)

/-- Move the unread bytes to the start of a buffer that has room for the chunk. -/
def makeRoom (r : FrameReader) (chunk : Bytes) : FrameReader :=
  let unread := r.stop - r.start
  let needed := unread + chunk.length
  let target :=
    if needed ≤ r.buffer.length then r.buffer else List.replicate (grownCapacity r.buffer needed) 0
  { r with
    buffer := setRange target 0 (slice r.buffer r.start r.stop)
    start := 0
    stop := unread
    lineScanFrom := r.lineScanFrom - r.start }

/-- `_append`. -/
def append (r : FrameReader) (chunk : Bytes) : FrameReader :=
  if chunk.isEmpty then r
  else
    let r := if r.buffer.length - r.stop < chunk.length then r.makeRoom chunk else r
    { r with
      buffer := setRange r.buffer r.stop chunk
      stop := r.stop + chunk.length }

/-- `_releaseIfDrained`. -/
def releaseIfDrained (r : FrameReader) : FrameReader :=
  if r.start ≠ r.stop then r
  else
    { r with
      start := 0
      stop := 0
      lineScanFrom := 0
      buffer := if r.buffer.length > retainedCapacity then [] else r.buffer }

def byteAt (r : FrameReader) (index : Nat) : Nat := (r.buffer.getD index 0).toNat

variable (utf8 : Utf8Decoder)

/-- `_takeLine`. -/
def takeLine (r : FrameReader) : Option Frame × FrameReader :=
  let first := if r.lineScanFrom < r.start then r.start else r.lineScanFrom
  match (slice r.buffer first r.stop).findIdx? (· = 0x0a) with
  | none => (none, { r with lineScanFrom := r.stop })
  | some offset =>
    let newline := first + offset
    let line := utf8.decode (slice r.buffer r.start newline)
    (some (.json line),
      { r with
        start := newline + 1
        lineScanFrom := newline + 1
        binary := r.binary || announcesFrames line })

/-- `_decodeOutputFrame`. -/
def decodeOutputFrame (r : FrameReader) (payloadStart stop : Nat) : Option Frame :=
  if stop - payloadStart < 2 then none
  else
    let idLength := r.byteAt payloadStart <<< 8 ||| r.byteAt (payloadStart + 1)
    let idEnd := payloadStart + 2 + idLength
    if stop < idEnd then none
    else some (.output (utf8.decode (slice r.buffer (payloadStart + 2) idEnd)) (slice r.buffer idEnd stop))

/-- `_takeBinaryFrame`; a frame of an unknown kind is skipped. -/
def takeBinaryFrame (r : FrameReader) : Option Frame × FrameReader :=
  if r.stop - r.start < frameHeaderLength then (none, r)
  else
    let kind := r.buffer.getD r.start 0
    let length := r.byteAt (r.start + 1) <<< 24 ||| r.byteAt (r.start + 2) <<< 16 |||
      r.byteAt (r.start + 3) <<< 8 ||| r.byteAt (r.start + 4)
    let payloadStart := r.start + frameHeaderLength
    let stop := payloadStart + length
    if r.stop < stop then (none, r)
    else
      let next := { r with start := stop, lineScanFrom := stop }
      if kind = frameKindJson then (some (.json (utf8.decode (slice r.buffer payloadStart stop))), next)
      else if kind = frameKindOutput then (r.decodeOutputFrame utf8 payloadStart stop, next)
      else (none, next)

def takeFrame (r : FrameReader) : Option Frame × FrameReader :=
  if r.binary then r.takeBinaryFrame utf8 else r.takeLine utf8

/-- `add`.  Each frame takes at least one byte, so that the loop ends. -/
def add (r : FrameReader) (chunk : Bytes) : List Frame × FrameReader :=
  let r := r.append chunk
  let taken := takeAll (takeFrame utf8) (r.stop - r.start + 1) r
  (taken.1, taken.2.releaseIfDrained)

/-! ## What the offsets mean -/

/-- The reader is in the mode, and these bytes are unread; no line ends where it has searched. -/
structure Holds (r : FrameReader) (binary : Bool) (unread : Bytes) : Prop where
  mode : r.binary = binary
  isUnread : slice r.buffer r.start r.stop = unread
  low : r.start ≤ r.lineScanFrom
  high : r.lineScanFrom ≤ r.stop
  inside : r.stop ≤ r.buffer.length
  searched : binary = false → ∀ byte ∈ unread.take (r.lineScanFrom - r.start), byte ≠ 0x0a

section Buffer

variable {r : FrameReader} {binary : Bool} {unread chunk : Bytes}

theorem Holds.length (holds : r.Holds binary unread) : unread.length = r.stop - r.start := by
  have inside := holds.inside
  rw [← holds.isUnread, slice, length_take, length_drop]
  omega

theorem setRange_length {target bytes : Bytes} {position : Nat}
    (fits : position + bytes.length ≤ target.length) : (setRange target position bytes).length = target.length := by
  simp only [setRange, length_append, length_take, length_drop]
  omega

/-- What stands before the written range stays, and what is written stands behind it. -/
theorem slice_setRange {target bytes : Bytes} {start position : Nat} (before : start ≤ position)
    (fits : position + bytes.length ≤ target.length) :
    slice (setRange target position bytes) start (position + bytes.length) =
      slice target start position ++ bytes := by
  have cut : start ≤ (target.take position ++ bytes).length := by
    simp only [length_append, length_take]
    omega
  have size : (target.take position).length = position := by
    rw [length_take]
    omega
  rw [slice, setRange, drop_append_of_le_length cut, drop_append_of_le_length (by omega),
    take_append_of_le_length (by simp only [length_append, length_drop, size]; omega),
    take_of_length_le (by simp only [length_append, length_drop, size]; omega), slice, drop_take]

theorem le_doubleUntil {needed fuel capacity : Nat} (positive : 0 < capacity)
    (enough : needed ≤ capacity + fuel) : needed ≤ doubleUntil needed fuel capacity := by
  induction fuel generalizing capacity with
  | zero => exact enough
  | succ fuel ih =>
    rw [doubleUntil]
    split
    · apply ih
      · omega
      · omega
    · omega

theorem le_grownCapacity (buffer : Bytes) (needed : Nat) : needed ≤ grownCapacity buffer needed := by
  apply le_doubleUntil
  · split
    · decide
    · rename_i nonempty
      cases buffer with
      | nil => exact absurd rfl nonempty
      | cons byte rest => simp
  · omega

variable (holds : r.Holds binary unread)

include holds

/-- Compaction keeps what is unread, and makes the room. -/
theorem makeRoom_holds (chunk : Bytes) : (r.makeRoom chunk).Holds binary unread ∧
      (r.makeRoom chunk).stop + chunk.length ≤ (r.makeRoom chunk).buffer.length := by
  have high := holds.high
  have size := holds.length
  have isUnread := holds.isUnread
  generalize targetIs : (if r.stop - r.start + chunk.length ≤ r.buffer.length then r.buffer
    else List.replicate (grownCapacity r.buffer (r.stop - r.start + chunk.length)) 0) = target
  have room : r.stop - r.start + chunk.length ≤ target.length := by
    rw [← targetIs]
    split
    · assumption
    · rw [length_replicate]
      exact le_grownCapacity r.buffer _
  have length : (setRange target 0 unread).length = target.length := setRange_length (by omega)
  rw [makeRoom, targetIs, isUnread]
  refine ⟨⟨holds.mode, ?_, Nat.zero_le _, ?_, ?_, holds.searched⟩, ?_⟩
  · have written := slice_setRange (Nat.le_refl 0) (show 0 + unread.length ≤ target.length by omega)
    rw [slice_self, Nat.zero_add, size] at written
    exact written
  · show r.lineScanFrom - r.start ≤ r.stop - r.start
    omega
  · show r.stop - r.start ≤ (setRange target 0 unread).length
    omega
  · show r.stop - r.start + chunk.length ≤ (setRange target 0 unread).length
    omega

theorem append_holds (chunk : Bytes) : (r.append chunk).Holds binary (unread ++ chunk) := by
  rw [append]
  split
  · rename_i empty
    rw [isEmpty_iff.mp empty, append_nil]
    exact holds
  · generalize roomyIs : (if r.buffer.length - r.stop < chunk.length then r.makeRoom chunk else r) = roomy
    have held : roomy.Holds binary unread ∧ roomy.stop + chunk.length ≤ roomy.buffer.length := by
      rw [← roomyIs]
      split
      · exact makeRoom_holds holds chunk
      · have inside := holds.inside
        exact ⟨holds, by omega⟩
    obtain ⟨holds, room⟩ := held
    have low := holds.low
    have high := holds.high
    refine ⟨holds.mode, ?_, low, ?_, ?_, ?_⟩
    · show slice (setRange roomy.buffer roomy.stop chunk) roomy.start (roomy.stop + chunk.length) = _
      rw [slice_setRange (by omega) room, holds.isUnread]
    · show roomy.lineScanFrom ≤ roomy.stop + chunk.length
      omega
    · rw [setRange_length room]
      exact room
    · show binary = false → ∀ byte ∈ (unread ++ chunk).take (roomy.lineScanFrom - roomy.start), byte ≠ 0x0a
      rw [take_append_of_le_length (by rw [holds.length]; omega)]
      exact holds.searched

theorem releaseIfDrained_holds : r.releaseIfDrained.Holds binary unread := by
  rw [releaseIfDrained]
  split
  · exact holds
  · have empty : unread = [] := by
      apply eq_nil_of_length_eq_zero
      rw [holds.length]
      omega
    subst empty
    refine ⟨holds.mode, ?_, Nat.le_refl _, Nat.le_refl _, Nat.zero_le _, ?_⟩
    · exact slice_self _ _
    · simp

/-- A range of the buffer, as a range of what is unread. -/
theorem Holds.slice_eq {i j : Nat} (within : j ≤ unread.length) :
    slice r.buffer (r.start + i) (r.start + j) = slice unread i j := by
  have size := holds.length
  rw [← holds.isUnread, slice, slice, slice, drop_take, drop_drop, take_take]
  congr 1
  omega

theorem Holds.getD_eq {i : Nat} (within : i < unread.length) :
    r.buffer.getD (r.start + i) 0 = unread.getD i 0 := by
  have size := holds.length
  rw [← holds.isUnread, slice, getD_eq_getElem?_getD, getD_eq_getElem?_getD, getElem?_take,
    if_pos (by omega), getElem?_drop]

end Buffer

/-! ## One line -/

section Lines

variable {utf8} {r : FrameReader} {unread line rest : Bytes}

/-- The search goes on behind what was searched. -/
theorem takeLine_search (holds : r.Holds false unread) :
    (slice r.buffer (if r.lineScanFrom < r.start then r.start else r.lineScanFrom) r.stop) =
      unread.drop (r.lineScanFrom - r.start) := by
  have low := holds.low
  have high := holds.high
  have size := holds.length
  have first : (if r.lineScanFrom < r.start then r.start else r.lineScanFrom) =
      r.start + (r.lineScanFrom - r.start) := by
    rw [if_neg (by omega)]
    omega
  have stop : r.stop = r.start + unread.length := by omega
  rw [first]
  conv => lhs; rw [stop]
  rw [holds.slice_eq (Nat.le_refl _), slice, take_of_length_le (by rw [length_drop])]

theorem newline_absent {bytes : Bytes} (absent : (0x0a : UInt8) ∉ bytes) (n : Nat) :
    (bytes.drop n).findIdx? (fun byte => decide (byte = 0x0a)) = none := by
  rw [findIdx?_eq_none_iff]
  intro byte member
  simp only [decide_eq_false_iff_not]
  rintro rfl
  exact absent (mem_of_mem_drop member)

theorem takeLine_complete (holds : r.Holds false (line ++ 0x0a :: rest)) (oneLine : (0x0a : UInt8) ∉ line) :
    ∃ t, r.takeLine utf8 = (some (.json (utf8.decode line)), t) ∧
      t.Holds (announcesFrames (utf8.decode line)) rest := by
  have low := holds.low
  have inside := holds.inside
  have size := holds.length
  rw [length_append, length_cons] at size
  -- the end of the line lies behind what was searched
  have behind : r.lineScanFrom - r.start ≤ line.length := by
    by_contra past
    have found : (0x0a : UInt8) ∈ (line ++ 0x0a :: rest).take (r.lineScanFrom - r.start) := by
      rw [take_append]
      obtain ⟨n, isNext⟩ : ∃ n, r.lineScanFrom - r.start - line.length = n + 1 :=
        ⟨r.lineScanFrom - r.start - line.length - 1, by omega⟩
      rw [isNext]
      simp
    exact holds.searched rfl _ found rfl
  have search : ((line ++ 0x0a :: rest).drop (r.lineScanFrom - r.start)).findIdx? (· = 0x0a) =
      some (line.length - (r.lineScanFrom - r.start)) := by
    rw [drop_append_of_le_length behind, findIdx?_append, newline_absent oneLine]
    simp [findIdx?_cons]
  have newline : (if r.lineScanFrom < r.start then r.start else r.lineScanFrom) +
      (line.length - (r.lineScanFrom - r.start)) = r.start + line.length := by
    rw [if_neg (by omega)]
    omega
  have isLine : slice r.buffer r.start (r.start + line.length) = line := by
    have whole := holds.slice_eq (show line.length ≤ (line ++ 0x0a :: rest).length by simp) (i := 0)
    rw [Nat.add_zero] at whole
    rw [whole, slice, drop_zero, Nat.sub_zero, take_left]
  have isRest : slice r.buffer (r.start + line.length + 1) r.stop = rest := by
    have stop : r.stop = r.start + (line ++ 0x0a :: rest).length := by
      rw [length_append, length_cons]
      omega
    rw [stop, Nat.add_assoc, holds.slice_eq (Nat.le_refl _), slice, take_of_length_le (by rw [length_drop])]
    simp
  rw [takeLine]
  simp only [takeLine_search holds, search, newline, isLine]
  refine ⟨_, rfl, ?_, isRest, Nat.le_refl _, ?_, inside, ?_⟩
  · rw [holds.mode, Bool.false_or]
  · show r.start + line.length + 1 ≤ r.stop
    omega
  · simp

theorem takeLine_waits (holds : r.Holds false unread) (absent : (0x0a : UInt8) ∉ unread) :
    ∃ t, r.takeLine utf8 = (none, t) ∧ t.Holds false unread := by
  have low := holds.low
  have high := holds.high
  rw [takeLine]
  simp only [takeLine_search holds, newline_absent absent]
  refine ⟨_, rfl, holds.mode, holds.isUnread, Nat.le_trans low high, Nat.le_refl _, holds.inside, ?_⟩
  rintro - byte member rfl
  exact absent (mem_of_mem_take member)

end Lines

/-! ## One frame -/

section Frames

variable {utf8} {r : FrameReader} {kind : UInt8}

/-- The length that a header announces. -/
theorem header_length {n : Nat} {unread : Bytes} (fits : n < 256 ^ 4)
    (holds : r.Holds true unread) {later : Bytes} (isUnread : unread = kind :: toBE 4 n ++ later) :
    r.byteAt (r.start + 1) <<< 24 ||| r.byteAt (r.start + 2) <<< 16 ||| r.byteAt (r.start + 3) <<< 8 |||
      r.byteAt (r.start + 4) = n := by
  subst isUnread
  have size : ∀ i, i < 5 → i < (kind :: toBE 4 n ++ later).length := by
    simp only [cons_append, length_cons, length_append, toBE_length]
    omega
  simp only [byteAt]
  rw [holds.getD_eq (size 1 (by decide)), holds.getD_eq (size 2 (by decide)), holds.getD_eq (size 3 (by decide)),
    holds.getD_eq (size 4 (by decide)), shifts_eq_ofBE]
  exact ofBE_toBE fits

theorem takeBinaryFrame_waits {payload part missing : Bytes} (fits : payload.length < 256 ^ 4)
    (holds : r.Holds true part) (cut : frame kind payload = part ++ missing) (some_ : missing ≠ []) :
    ∃ t, r.takeBinaryFrame utf8 = (none, t) ∧ t.Holds true part := by
  have size := holds.length
  have total := congrArg List.length cut
  simp only [frame, cons_append, length_cons, length_append, toBE_length] at total
  have positive := length_pos_of_ne_nil some_
  refine ⟨r, ?_, holds⟩
  rw [takeBinaryFrame]
  by_cases short : r.stop - r.start < frameHeaderLength
  · rw [if_pos short]
  · -- the header is there, and the payload is not
    rw [if_neg short]
    have five : 5 ≤ part.length := by
      rw [frameHeaderLength] at short
      omega
    have isPart : part = kind :: toBE 4 payload.length ++ payload.take (part.length - 5) := by
      have front := congrArg (List.take part.length) cut
      rw [take_left] at front
      rw [← front, frame, cons_append]
      obtain ⟨n, isNext⟩ : ∃ n, part.length = n + 5 := ⟨part.length - 5, by omega⟩
      rw [isNext, take_succ_cons, take_append, take_of_length_le (by simp)]
      simp
    simp only [header_length fits holds isPart, frameHeaderLength]
    rw [if_pos (by omega)]

theorem takeBinaryFrame_complete {payload rest : Bytes} (fits : payload.length < 256 ^ 4)
    (holds : r.Holds true (frame kind payload ++ rest)) {value : Frame}
    (decodes : ∀ t : FrameReader, t.Holds true (frame kind payload ++ rest) →
      (if kind = frameKindJson then some (Frame.json (utf8.decode (slice t.buffer (t.start + 5) (t.start + 5 + payload.length))))
        else if kind = frameKindOutput then
          t.decodeOutputFrame utf8 (t.start + 5) (t.start + 5 + payload.length) else none) = some value) :
    ∃ t, r.takeBinaryFrame utf8 = (some value, t) ∧ t.Holds true rest := by
  have size := holds.length
  have inside := holds.inside
  have total : (frame kind payload ++ rest).length = 5 + payload.length + rest.length := by
    simp only [frame, cons_append, length_cons, length_append, toBE_length]
    omega
  have isFrame : frame kind payload ++ rest = kind :: toBE 4 payload.length ++ (payload ++ rest) := by
    simp [frame]
  have isKind : r.buffer.getD r.start 0 = kind := by
    have first := holds.getD_eq (i := 0) (by omega)
    rw [Nat.add_zero] at first
    rw [first]
    rfl
  have isRest : slice r.buffer (r.start + 5 + payload.length) r.stop = rest := by
    have stop : r.stop = r.start + (frame kind payload ++ rest).length := by omega
    have front : (frame kind payload).length = 5 + payload.length := by
      rw [length_append] at total
      omega
    rw [stop, Nat.add_assoc, holds.slice_eq (Nat.le_refl _), slice, take_of_length_le (by simp), ← front,
      drop_left]
  have taken := decodes r holds
  refine ⟨{ r with start := r.start + 5 + payload.length, lineScanFrom := r.start + 5 + payload.length }, ?_, ?_⟩
  · rw [takeBinaryFrame, if_neg (by rw [frameHeaderLength]; omega)]
    simp only [header_length fits holds isFrame, frameHeaderLength, isKind]
    rw [if_neg (by omega)]
    split at taken
    · rw [taken]
      rename_i isJson
      rw [if_pos isJson]
    · rename_i notJson
      rw [if_neg notJson]
      split at taken
      · rename_i isOutput
        rw [if_pos isOutput, taken]
      · cases taken
  · refine ⟨holds.mode, isRest, Nat.le_refl _, ?_, inside, fun text => Bool.noConfusion text⟩
    show r.start + 5 + payload.length ≤ r.stop
    omega

/-- The payload of a frame, as a range of the buffer. -/
theorem payload_eq {payload rest : Bytes} (holds : r.Holds true (frame kind payload ++ rest))
    {i j : Nat} (within : j ≤ payload.length) :
    slice r.buffer (r.start + 5 + i) (r.start + 5 + j) = slice payload i j := by
  have header : (kind :: toBE 4 payload.length).length = 5 := by simp
  have whole : frame kind payload ++ rest = (kind :: toBE 4 payload.length) ++ (payload ++ rest) := by
    simp [frame]
  have shift : slice (frame kind payload ++ rest) (5 + i) (5 + j) = slice (payload ++ rest) i j := by
    rw [whole]
    exact slice_append_right _ _ i j
  rw [Nat.add_assoc, Nat.add_assoc, holds.slice_eq (by rw [whole, length_append, length_append]; omega),
    shift, slice_append_left rest within]

/-- An output payload is read back, but for a byte order mark at the start of the id. -/
theorem decodeOutputFrame_payload {sessionId : Text} {data rest : Bytes}
    (shortId : (encodeUtf8 sessionId).length < 256 ^ 2)
    (holds : r.Holds true (frame frameKindOutput (encodeOutputPayload sessionId data) ++ rest)) :
    r.decodeOutputFrame utf8 (r.start + 5) (r.start + 5 + (encodeOutputPayload sessionId data).length) =
      some (.output (dropByteOrderMark sessionId) data) := by
  generalize idIs : encodeUtf8 sessionId = id at shortId
  have isPayload : encodeOutputPayload sessionId data = toBE 2 id.length ++ (id ++ data) := by
    rw [encodeOutputPayload, idIs, append_assoc]
  have size : (encodeOutputPayload sessionId data).length = 2 + (id.length + data.length) := by
    simp [isPayload]
  have idLength : r.byteAt (r.start + 5) <<< 8 ||| r.byteAt (r.start + 5 + 1) = id.length := by
    have whole : frame frameKindOutput (encodeOutputPayload sessionId data) ++ rest =
        frameKindOutput :: toBE 4 (encodeOutputPayload sessionId data).length ++
          (toBE 2 id.length ++ (id ++ data) ++ rest) := by
      simp [frame, isPayload]
    have long : 6 < (frame frameKindOutput (encodeOutputPayload sessionId data) ++ rest).length := by
      simp only [whole, cons_append, length_cons, length_append, toBE_length]
      omega
    rw [byteAt, byteAt, holds.getD_eq (i := 5) (by omega), holds.getD_eq (i := 5 + 1) long,
      shift_eq_ofBE, whole]
    exact ofBE_toBE shortId
  have isId : slice r.buffer (r.start + 5 + 2) (r.start + 5 + (2 + id.length)) = id := by
    rw [payload_eq holds (by omega), isPayload]
    have shift := slice_append_right (toBE 2 id.length) (id ++ data) 0 id.length
    rw [toBE_length] at shift
    rw [shift, slice_append_left data (Nat.le_refl _), slice_zero_length]
  have isData : slice r.buffer (r.start + 5 + (2 + id.length))
      (r.start + 5 + (2 + (id.length + data.length))) = data := by
    rw [payload_eq holds (by omega), isPayload, ← append_assoc]
    have shift := slice_append_right (toBE 2 id.length ++ id) data 0 data.length
    simp only [length_append, toBE_length, Nat.add_zero] at shift
    rw [← Nat.add_assoc 2, shift, slice_zero_length]
  rw [decodeOutputFrame, if_neg (by omega)]
  simp only [idLength, size]
  rw [if_neg (by omega), Nat.add_assoc _ 2 id.length, isId, isData, ← idIs, utf8.decode_encode]

end Frames

end FrameReader

/-! ## Streams -/

/-- JSON starts with a brace, a bracket, a quote, a digit, a sign or a letter. -/
def StartsAscii (json : Text) : Prop := ∀ c ∈ json.head?, c.toNat < 128

theorem startsAscii_of_all {json : Text} (ascii : json.head?.all (·.toNat < 128) = true) :
    StartsAscii json := by
  intro c isHead
  rw [Option.mem_def.mp isHead] at ascii
  exact of_decide_eq_true ascii

/-- A line of JSON. -/
structure IsLine (line : Text) : Prop where
  ascii : StartsAscii line
  oneLine : '\n' ∉ line

def encodeLine (line : Text) : Bytes := encodeUtf8 line ++ [0x0a]

/-- What a host sends for a frame. -/
def Frame.encode : Frame → Bytes
  | .json text => encodeJsonFrame text
  | .output sessionId data => encodeOutputFrame sessionId data

/-- The lengths fit their fields. -/
def Frame.Sendable : Frame → Prop
  | .json text => StartsAscii text ∧ (encodeUtf8 text).length < 2 ^ 32
  | .output sessionId data =>
    (encodeUtf8 sessionId).length < 65536 ∧ (encodeOutputPayload sessionId data).length < 2 ^ 32

/-- What the app makes of it. -/
def Frame.received : Frame → Frame
  | .json text => .json text
  | .output sessionId data => .output (dropByteOrderMark sessionId) data

/-- A line in a connection that has not switched, or a frame in one that has. -/
inductive Item : Bool → Bytes → Frame → Bool → Prop where
  | line {line : Text} (isLine : IsLine line) : Item false (encodeLine line) (.json line) (announcesFrames line)
  | frame {frame : Frame} (sendable : frame.Sendable) : Item true frame.encode frame.received true

theorem dropByteOrderMark_of_ascii {text : Text} (ascii : StartsAscii text) : dropByteOrderMark text = text := by
  cases text with
  | nil => rfl
  | cons c rest =>
    have small : c.toNat < 128 := ascii c rfl
    rw [dropByteOrderMark, if_neg]
    rintro rfl
    exact absurd small (by decide)

theorem newline_not_mem {line : Text} (isLine : IsLine line) : (0x0a : UInt8) ∉ encodeUtf8 line := by
  intro member
  obtain ⟨c, inside, value⟩ := exists_char_of_mem_encodeUtf8 (by decide) member
  have isNewline : c = '\n' := Char.ext (UInt32.toNat_inj.mp value)
  exact isLine.oneLine (isNewline ▸ inside)

/-- What stands before the end of a frame that is there in full. -/
theorem takeFrame_of_complete {utf8 : Utf8Decoder} {frame : Frame} (sendable : frame.Sendable) {r : FrameReader}
    {rest : Bytes} (holds : r.Holds true (frame.encode ++ rest)) :
    ∃ t, r.takeBinaryFrame utf8 = (some frame.received, t) ∧ t.Holds true rest := by
  cases frame with
  | json text =>
    refine FrameReader.takeBinaryFrame_complete sendable.2 holds fun t holds => ?_
    have payload := FrameReader.payload_eq holds (i := 0) (Nat.le_refl _)
    rw [slice_zero_length] at payload
    rw [payload, utf8.decode_encode, dropByteOrderMark_of_ascii sendable.1]
    rfl
  | output sessionId data =>
    refine FrameReader.takeBinaryFrame_complete sendable.2 holds fun t holds => ?_
    exact FrameReader.decodeOutputFrame_payload sendable.1 holds

theorem takeFrame_of_part {utf8 : Utf8Decoder} {frame : Frame} (sendable : frame.Sendable) {r : FrameReader}
    {part missing : Bytes} (cut : frame.encode = part ++ missing) (some_ : missing ≠ [])
    (holds : r.Holds true part) : ∃ t, r.takeBinaryFrame utf8 = (none, t) ∧ t.Holds true part := by
  cases frame with
  | json text | output sessionId data =>
    exact FrameReader.takeBinaryFrame_waits sendable.2 holds cut some_

/-- The reader takes a line or a frame when all of it is there. -/
theorem frameReader (utf8 : Utf8Decoder) :
    Theory.Reader Item (FrameReader.takeFrame utf8) FrameReader.Holds where
  nonempty item := by
    cases item with
    | line isLine => simp [encodeLine]
    | frame sendable =>
      rename_i frame
      cases frame with
      | json text => exact cons_ne_nil _ _
      | output sessionId data => exact cons_ne_nil _ _
  complete {r mode bytes value next rest} item holds := by
    cases item with
    | @line line isLine =>
      have held : r.Holds false (encodeUtf8 line ++ 0x0a :: rest) := by simpa [encodeLine] using holds
      have taken : ∃ t, r.takeLine utf8 = (some (.json (utf8.decode (encodeUtf8 line))), t) ∧
          t.Holds (announcesFrames (utf8.decode (encodeUtf8 line))) rest :=
        FrameReader.takeLine_complete held (newline_not_mem isLine)
      rw [utf8.decode_encode, dropByteOrderMark_of_ascii isLine.ascii] at taken
      rw [FrameReader.takeFrame, if_neg (by rw [holds.mode]; decide)]
      exact taken
    | frame sendable =>
      rw [FrameReader.takeFrame, if_pos holds.mode]
      exact takeFrame_of_complete sendable holds
  waits {r mode bytes value next part rest} item cut some_ holds := by
    cases item with
    | @line line isLine =>
      have absent : (0x0a : UInt8) ∉ part := by
        obtain ⟨front, isFront⟩ : ∃ front, encodeUtf8 line = part ++ front := by
          obtain ⟨front, last, rfl⟩ := (eq_nil_or_concat rest).resolve_left some_
          rw [concat_eq_append, ← append_assoc] at cut
          exact ⟨front, (append_inj' cut rfl).1⟩
        intro member
        exact newline_not_mem isLine (isFront ▸ mem_append_left _ member)
      rw [FrameReader.takeFrame, if_neg (by rw [holds.mode]; decide)]
      exact FrameReader.takeLine_waits holds absent
    | frame sendable =>
      rw [FrameReader.takeFrame, if_pos holds.mode]
      exact takeFrame_of_part sendable cut some_ holds
  idle {r mode} holds := by
    cases mode with
    | false =>
      rw [FrameReader.takeFrame, if_neg (by rw [holds.mode]; decide)]
      exact FrameReader.takeLine_waits holds not_mem_nil
    | true =>
      have size := holds.length
      rw [length_nil] at size
      refine ⟨r, ?_, holds⟩
      rw [FrameReader.takeFrame, if_pos holds.mode, FrameReader.takeBinaryFrame,
        if_pos (by rw [frameHeaderLength]; omega)]

/-- Everything a host sends: lines, of which the last announces frames, and frames. -/
def wire (lines : List Text) (frames : List Frame) : Bytes :=
  lines.flatMap encodeLine ++ frames.flatMap Frame.encode

def items (lines : List Text) (frames : List Frame) : List (Bytes × Frame) :=
  lines.map (fun line => (encodeLine line, .json line)) ++ frames.map fun frame => (frame.encode, frame.received)

theorem bytesOf_items (lines : List Text) (frames : List Frame) :
    bytesOf (items lines frames) = wire lines frames := by
  simp only [bytesOf, items, wire, flatMap_append, flatMap_map]

theorem stream_items {lines : List Text} {sentinel : Text} {frames : List Frame}
    (areLines : ∀ line ∈ lines, IsLine line ∧ announcesFrames line = false)
    (isSentinel : IsLine sentinel ∧ announcesFrames sentinel = true)
    (sendable : ∀ frame ∈ frames, frame.Sendable) :
    Stream Item false (items (lines ++ [sentinel]) frames) true := by
  have plainLines : Stream Item false (lines.map fun line => (encodeLine line, .json line)) false := by
    apply Stream.of_forall
    intro item member
    obtain ⟨line, inside, rfl⟩ := mem_map.mp member
    obtain ⟨isLine, plain⟩ := areLines line inside
    have item := Item.line isLine
    rw [plain] at item
    exact item
  have lastLine : Stream Item false [(encodeLine sentinel, .json sentinel)] true := by
    have item := Item.line isSentinel.1
    rw [isSentinel.2] at item
    exact .cons item (.nil true)
  have allFrames : Stream Item true (frames.map fun frame => (frame.encode, frame.received)) true := by
    apply Stream.of_forall
    intro item member
    obtain ⟨frame, inside, rfl⟩ := mem_map.mp member
    exact .frame (sendable frame inside)
  rw [items, map_append]
  exact (plainLines.append Item lastLine).append Item allFrames

/-- What an app that is fed all of it in any chunks has read. -/
theorem feed_wire (utf8 : Utf8Decoder) {lines : List Text} {sentinel : Text} {frames : List Frame}
    {chunks : List Bytes} (areLines : ∀ line ∈ lines, IsLine line ∧ announcesFrames line = false)
    (isSentinel : IsLine sentinel ∧ announcesFrames sentinel = true)
    (sendable : ∀ frame ∈ frames, frame.Sendable)
    (cut : chunks.flatten = wire (lines ++ [sentinel]) frames) :
    (feed (FrameReader.add utf8) .empty chunks).1 =
        (lines ++ [sentinel]).map .json ++ frames.map Frame.received ∧
      (feed (FrameReader.add utf8) .empty chunks).2.Holds true [] := by
  have start : FrameReader.empty.Holds false [] :=
    ⟨rfl, rfl, Nat.le_refl _, Nat.le_refl _, Nat.le_refl _, by simp⟩
  have read := (frameReader utf8).feed_eq (FrameReader.add utf8) ?_
    (stream_items areLines isSentinel sendable) chunks start ?_ ?_
  · rw [items, map_append, map_map, map_map] at read
    exact read
  · intro r mode unread chunk holds
    have appended := FrameReader.append_holds holds chunk
    refine ⟨r.append chunk, _, appended, ?_, rfl, fun next rest held => ?_⟩
    · rw [appended.length]
      exact Nat.lt_succ_self _
    · exact FrameReader.releaseIfDrained_holds held
  · rw [nil_append, bytesOf_items, cut]
  · intro nothing
    rw [bytesOf_items, wire] at nothing
    simp [encodeLine] at nothing

/-- **Frames round-trip under any chunking, exactly when no session id starts with a byte order
mark.**  Whatever the cuts, the app reads the lines and the frames, in order and without a byte left. -/
theorem frames_round_trip_iff (utf8 : Utf8Decoder) (lines : List Text) (sentinel : Text) (frames : List Frame)
    (chunks : List Bytes) (areLines : ∀ line ∈ lines, IsLine line ∧ announcesFrames line = false)
    (isSentinel : IsLine sentinel ∧ announcesFrames sentinel = true)
    (sendable : ∀ frame ∈ frames, frame.Sendable)
    (cut : chunks.flatten = wire (lines ++ [sentinel]) frames) :
    ((feed (FrameReader.add utf8) .empty chunks).1 = (lines ++ [sentinel]).map .json ++ frames ∧
        (feed (FrameReader.add utf8) .empty chunks).2.start =
          (feed (FrameReader.add utf8) .empty chunks).2.stop) ↔
      ∀ sessionId data, Frame.output sessionId data ∈ frames → sessionId.head? ≠ some byteOrderMark := by
  obtain ⟨read, holds⟩ := feed_wire utf8 areLines isSentinel sendable cut
  have drained : (feed (FrameReader.add utf8) .empty chunks).2.start =
      (feed (FrameReader.add utf8) .empty chunks).2.stop := by
    have size := holds.length
    have low := holds.low
    have high := holds.high
    rw [length_nil] at size
    omega
  rw [read, append_right_inj, and_iff_left drained]
  have iffFixed : frames.map Frame.received = frames ↔ ∀ frame ∈ frames, frame.received = frame := by
    conv => lhs; rhs; rw [← map_id frames]
    exact map_inj_left
  rw [iffFixed]
  constructor
  · intro fixed sessionId data member marked
    have same := fixed _ member
    cases sessionId with
    | nil => cases marked
    | cons c rest =>
      rw [Frame.received, dropByteOrderMark, if_pos (Option.some.inj marked), Frame.output.injEq] at same
      exact absurd (congrArg List.length same.1) (by simp)
  · intro unmarked frame member
    cases frame with
    | json text => rfl
    | output sessionId data =>
      have plain := unmarked sessionId data member
      cases sessionId with
      | nil => rfl
      | cons c rest => rw [Frame.received, dropByteOrderMark, if_neg fun isMark => plain (congrArg some isMark)]

/-- The decoder of the core library, for texts that are encoded well. -/
def coreDecoder : Utf8Decoder where
  decode bytes := dropByteOrderMark ((bytes.toByteArray.utf8Decode?.map Array.toList).getD [])
  decode_encode text := by rw [utf8Decode_encodeUtf8, Option.map_some, Option.getD_some]

/-- A line, the announcement and a frame, byte by byte. -/
theorem frames_round_trip_iff_bytewise :
    (feed (FrameReader.add coreDecoder) .empty
      ((wire ["\x7b\x7d".toList, binaryFramesEnabledLine] [.output "s".toList [7]]).map fun byte => [byte])).1 =
      [.json "\x7b\x7d".toList, .json binaryFramesEnabledLine, .output "s".toList [7]] := by
  have isJson : IsLine "\x7b\x7d".toList := ⟨startsAscii_of_all (by decide), by decide⟩
  have isLine : IsLine binaryFramesEnabledLine := ⟨startsAscii_of_all (by decide), by decide⟩
  have sendable : (Frame.output "s".toList [7]).Sendable := by
    rw [Frame.Sendable]
    decide +kernel
  refine ((frames_round_trip_iff coreDecoder ["\x7b\x7d".toList] binaryFramesEnabledLine
    [.output "s".toList [7]] _ ?_ ⟨isLine, by decide +kernel⟩ ?_ ?_).mpr ?_).1
  · intro line member
    rw [mem_singleton.mp member]
    exact ⟨isJson, by decide +kernel⟩
  · intro frame member
    rw [mem_singleton.mp member]
    exact sendable
  · decide +kernel
  · intro sessionId data member
    rw [mem_singleton, Frame.output.injEq] at member
    rw [member.1]
    decide

/-- Output for the session `\uFEFFs` reaches the app as output for the session `s`. -/
theorem marked_session_id_is_cut :
    (Frame.output "\uFEFFs".toList [7]).Sendable ∧
      (feed (FrameReader.add coreDecoder) .empty [wire [binaryFramesEnabledLine] [.output "\uFEFFs".toList [7]]]).1 =
        [.json binaryFramesEnabledLine, .output "s".toList [7]] := by
  have isLine : IsLine binaryFramesEnabledLine := ⟨startsAscii_of_all (by decide), by decide⟩
  have sendable : (Frame.output "\uFEFFs".toList [7]).Sendable := by
    rw [Frame.Sendable]
    decide +kernel
  have read : (feed (FrameReader.add coreDecoder) .empty
        [wire ([] ++ [binaryFramesEnabledLine]) [.output "\uFEFFs".toList [7]]]).1 =
      ([] ++ [binaryFramesEnabledLine]).map .json ++ [Frame.output "\uFEFFs".toList [7]].map Frame.received := by
    refine (feed_wire coreDecoder (fun line member => absurd member not_mem_nil) ⟨isLine, by decide +kernel⟩
      (fun frame member => ?_) ?_).1
    · rw [mem_singleton.mp member]
      exact sendable
    · exact append_nil _
  exact ⟨sendable, read.trans (by decide +kernel)⟩

end Alera.Terminal.FrameCodec
