/-
# Alera.Terminal.Session -- a hosted terminal session's output state

`rust/alera-cli/src/terminal_host/session.rs` with `session/output_batching.rs`
and `session/output_backpressure.rs`.  PTY output enters through `appendOutput`
and leaves on two independent tracks: the delivery batch is what clients
receive, the durable batch is what reaches the history store.  They carry the
same bytes and drain on their own generations, so the durable track is a record
of its own and no delivery operation can touch it.

Hash sets of clients are finite sets and the cursor map is a partial function;
iteration order is chosen by the step that iterates (`OutputDelivery`).  The
PTY handles, dimensions, checkpoint and title state of a session take no part in
either track and are not modelled.
-/
import Alera.Theory.FixedWidth
import Alera.Theory.Lists
import Mathlib.Data.Finset.Basic
import Mathlib.Logic.Function.Basic

namespace Alera.Terminal

open Theory List

set_option autoImplicit false

/-! ## The bounded scrollback of a session

`rust/alera-cli/src/terminal_host/buffer.rs`.  The buffer keeps the newest
`maxBytes` bytes of PTY output as a queue of chunks and a cached length.  Both
facts the code maintains by hand are fields of the structure: the cached length
is the length of the retained bytes, and it never exceeds the cap.

The chunk queue is only a representation.  Every operation is specified over
the retained bytes `toBytes`: `append` and `setMaxBytes` keep the newest bytes
(`List.rtake`), and `sliceFrom` drops a prefix.
-/

/-- The loop of `trim_to_limit`: drop whole chunks while they fit in the excess,
then the excess's share of the first chunk that does not. -/
def trimLoop : List (List UInt8) → Nat → Nat → List (List UInt8) × Nat
  | chunks, length, 0 => (chunks, length)
  | [], length, _ + 1 => ([], length)
  | first :: rest, length, excess + 1 =>
    if first.length ≤ excess + 1 then
      trimLoop rest (length - first.length) (excess + 1 - first.length)
    else
      (first.drop (excess + 1) :: rest, length - (excess + 1))

variable (chunks : List (List UInt8)) (length excess : Nat)

theorem trimLoop_bytes :
    (trimLoop chunks length excess).1.flatten = chunks.flatten.drop excess := by
  fun_induction trimLoop chunks length excess with
  | case1 => simp
  | case2 => simp
  | case3 first rest length excess fits ih =>
    rw [ih, flatten_cons, drop_append, drop_eq_nil_of_le fits, nil_append]
  | case4 first rest length excess isOver =>
    rw [flatten_cons, flatten_cons, drop_append_of_le_length (by omega)]

theorem trimLoop_length
    (counted : length = chunks.flatten.length) (within : excess ≤ length) :
    (trimLoop chunks length excess).2 = length - excess := by
  fun_induction trimLoop chunks length excess with
  | case1 => rfl
  | case2 length excess =>
    simp only [flatten_nil, length_nil] at counted
    omega
  | case3 first rest length excess fits ih =>
    simp only [flatten_cons, length_append] at counted
    omega
  | case4 => rfl

/-- `ScrollbackBuffer`, with the cached length and the cap as invariants. -/
structure ScrollbackBuffer where
  chunks : List (List UInt8)
  length : Nat
  maxBytes : Nat
  counted : length = chunks.flatten.length
  bounded : length ≤ maxBytes

namespace ScrollbackBuffer

/-- `to_bytes`. -/
def toBytes (buffer : ScrollbackBuffer) : List UInt8 := buffer.chunks.flatten

variable (buffer : ScrollbackBuffer)

@[simp] theorem toBytes_length :
    buffer.toBytes.length = buffer.length :=
  buffer.counted.symm

/-- `trim_to_limit`, on the chunks and cached length a caller has just changed. -/
def trimToLimit (chunks : List (List UInt8)) (length maxBytes : Nat)
    (counted : length = chunks.flatten.length) : ScrollbackBuffer :=
  if within : length ≤ maxBytes then
    ⟨chunks, length, maxBytes, counted, within⟩
  else
    { chunks := (trimLoop chunks length (length - maxBytes)).1
      length := (trimLoop chunks length (length - maxBytes)).2
      maxBytes := maxBytes
      counted := by
        rw [trimLoop_length _ _ _ counted (by omega), trimLoop_bytes, length_drop, counted]
      bounded := by
        rw [trimLoop_length _ _ _ counted (by omega)]
        omega }

theorem trimToLimit_toBytes (length maxBytes : Nat)
    (counted : length = chunks.flatten.length) :
    (trimToLimit chunks length maxBytes counted).toBytes = chunks.flatten.rtake maxBytes := by
  unfold trimToLimit
  split
  · rename_i within
    exact (rtake_of_length_le (counted ▸ within)).symm
  · rw [toBytes, trimLoop_bytes, List.rtake, counted]

@[simp] theorem trimToLimit_maxBytes (length maxBytes : Nat)
    (counted : length = chunks.flatten.length) :
    (trimToLimit chunks length maxBytes counted).maxBytes = maxBytes := by
  unfold trimToLimit
  split <;> rfl

/-- `set_max_bytes`. -/
def setMaxBytes (buffer : ScrollbackBuffer) (value : Nat) : ScrollbackBuffer :=
  trimToLimit buffer.chunks buffer.length value buffer.counted

theorem setMaxBytes_toBytes (value : Nat) :
    (buffer.setMaxBytes value).toBytes = buffer.toBytes.rtake value :=
  trimToLimit_toBytes _ _ _ _

/-- `append`.  A single write at least as large as the cap replaces the buffer
by its own tail; any other write is queued and the oldest bytes are trimmed. -/
def append (buffer : ScrollbackBuffer) (data : List UInt8) : ScrollbackBuffer :=
  if data.isEmpty then
    buffer
  else if data.length ≥ buffer.maxBytes then
    { chunks := [data.drop (data.length - buffer.maxBytes)]
      length := (data.drop (data.length - buffer.maxBytes)).length
      maxBytes := buffer.maxBytes
      counted := by simp
      bounded := by simp only [length_drop]; omega }
  else
    trimToLimit (buffer.chunks ++ [data]) (buffer.length + data.length) buffer.maxBytes
      (by simp [buffer.counted])

/-- **`append` keeps the newest bytes of the old content followed by the new.** -/
theorem append_toBytes (data : List UInt8) :
    (buffer.append data).toBytes = (buffer.toBytes ++ data).rtake buffer.maxBytes := by
  unfold append
  split
  · rename_i empty
    rw [isEmpty_iff.mp empty, append_nil, rtake_of_length_le (buffer.toBytes_length ▸ buffer.bounded)]
  · split
    · rename_i large
      rw [rtake_append_of_le large]
      simp [toBytes, List.rtake]
    · rw [trimToLimit_toBytes]
      simp [toBytes]

@[simp] theorem append_maxBytes (data : List UInt8) :
    (buffer.append data).maxBytes = buffer.maxBytes := by
  unfold append
  split
  · rfl
  · split
    · rfl
    · exact trimToLimit_maxBytes _ _ _ _

/-- `ScrollbackBuffer::new`. -/
def new (maxBytes : Nat) (initial : List UInt8) : ScrollbackBuffer :=
  let buffer : ScrollbackBuffer := ⟨[], 0, maxBytes, rfl, Nat.zero_le _⟩
  if initial.isEmpty then buffer else buffer.append initial

theorem new_toBytes (maxBytes : Nat) (initial : List UInt8) :
    (new maxBytes initial).toBytes = initial.rtake maxBytes := by
  unfold new
  split
  · rename_i empty
    rw [isEmpty_iff.mp empty]
    simp [toBytes, List.rtake]
  · rw [append_toBytes]
    simp [toBytes]

/-- The loop of `slice_from` over the chunks, with the bytes passed so far. -/
def sliceLoop (start : Nat) : Nat → List (List UInt8) → List UInt8
  | _, [] => []
  | skipped, chunk :: rest =>
    if skipped + chunk.length ≤ start then
      sliceLoop start (skipped + chunk.length) rest
    else
      chunk.drop (start - skipped) ++ sliceLoop start (skipped + chunk.length) rest

/-- `slice_from`: the buffer from `start` on. -/
def sliceFrom (buffer : ScrollbackBuffer) (start : Nat) : List UInt8 :=
  if start ≥ buffer.length then [] else sliceLoop start 0 buffer.chunks

/-- The loop drops what of `start` is still ahead of it; once past `start` the
saturating offset is zero and it copies whole chunks. -/
theorem sliceLoop_eq (start : Nat) (chunks : List (List UInt8)) (skipped : Nat) :
    sliceLoop start skipped chunks = chunks.flatten.drop (start - skipped) := by
  induction chunks generalizing skipped with
  | nil => simp [sliceLoop]
  | cons chunk rest ih =>
    rw [sliceLoop, flatten_cons, drop_append, ih, Nat.sub_add_eq]
    split
    · have passed : chunk.length ≤ start - skipped := by omega
      rw [drop_eq_nil_of_le passed, nil_append]
    · rfl

theorem sliceFrom_eq (start : Nat) :
    buffer.sliceFrom start = buffer.toBytes.drop start := by
  unfold sliceFrom
  split
  · rename_i past
    rw [drop_eq_nil_of_le (by simpa using past)]
  · rw [sliceLoop_eq]
    simp [toBytes]

/-- How far into a trimmed tail `tail` looks for a line break. -/
def lineAlignScanBytes : Nat := 4 * 1024

/-- `is_utf8_continuation`: the byte has the form `10xxxxxx`. -/
def isUtf8Continuation (byte : UInt8) : Bool := byte &&& 0xC0 == 0x80

/-- `tail`: the last `maxBytes`, started after a line break when one is near,
else at a code point boundary. -/
def tail (buffer : ScrollbackBuffer) (maxBytes : Nat) : List UInt8 :=
  if buffer.length ≤ maxBytes then
    buffer.toBytes
  else
    let bytes := buffer.sliceFrom (buffer.length - maxBytes)
    let start :=
      match (bytes.take lineAlignScanBytes).findIdx? (· == 10) with
      | some newline => newline + 1
      | none => (bytes.findIdx? fun byte => !isUtf8Continuation byte).getD bytes.length
    bytes.drop start

/-- The bytes do not start in the middle of a UTF-8 scalar. -/
def StartsOnScalar (bytes : List UInt8) : Prop :=
  ∀ byte ∈ bytes.head?, isUtf8Continuation byte = false

/-- Dropping the leading continuation bytes leaves the longest suffix that starts on a scalar. -/
theorem suffix_dropWhile_continuation {bytes other : List UInt8} (suffix : other <:+ bytes)
    (starts : StartsOnScalar other) : other <:+ bytes.dropWhile isUtf8Continuation := by
  induction bytes with
  | nil => exact suffix
  | cons byte rest ih =>
    cases continuation : isUtf8Continuation byte with
    | false =>
      rw [dropWhile_cons_of_neg (by simp [continuation])]
      exact suffix
    | true =>
      rw [dropWhile_cons_of_pos continuation]
      rcases suffix_cons_iff.mp suffix with rfl | shorter
      · exact absurd (starts byte rfl) (by simp [continuation])
      · exact ih shorter

theorem tail_eq {maxBytes : Nat} (cut : maxBytes < buffer.length) :
    ∃ start, buffer.tail maxBytes = (buffer.toBytes.rtake maxBytes).drop start ∧
      (10 ∉ (buffer.toBytes.rtake maxBytes).take lineAlignScanBytes →
        buffer.tail maxBytes = (buffer.toBytes.rtake maxBytes).dropWhile isUtf8Continuation) := by
  have bytes : buffer.sliceFrom (buffer.length - maxBytes) = buffer.toBytes.rtake maxBytes := by
    rw [sliceFrom_eq, List.rtake, toBytes_length]
  rw [tail, if_neg (Nat.not_le.mpr cut), bytes]
  refine ⟨_, rfl, fun noBreak => ?_⟩
  have unfound : ((buffer.toBytes.rtake maxBytes).take lineAlignScanBytes).findIdx? (· == 10) =
      none := by
    rw [findIdx?_eq_none_iff]
    intro byte listed
    exact beq_false_of_ne (fun same => noBreak (same ▸ listed))
  dsimp only
  rw [unfound, dropWhile_eq_drop_findIdx_not, findIdx_eq_getD_findIdx?]

/-! ## The bounded byte queue -/

/-- A call that changes the buffer. -/
inductive Operation where
  | append (data : List UInt8)
  | setMaxBytes (value : Nat)

def step (buffer : ScrollbackBuffer) : Operation → ScrollbackBuffer
  | .append data => buffer.append data
  | .setMaxBytes value => buffer.setMaxBytes value

/-- What the buffer is for: a byte string and the length it is cut to from the front. -/
structure Queue where
  content : List UInt8
  maxBytes : Nat

def Queue.step (queue : Queue) : Operation → Queue
  | .append data => ⟨(queue.content ++ data).rtake queue.maxBytes, queue.maxBytes⟩
  | .setMaxBytes value => ⟨queue.content.rtake value, value⟩

/-- The queue a buffer stands for. -/
def queue (buffer : ScrollbackBuffer) : Queue := ⟨buffer.toBytes, buffer.maxBytes⟩

theorem step_queue (operation : Operation) :
    (buffer.step operation).queue = buffer.queue.step operation := by
  cases operation with
  | append data => exact congrArg₂ Queue.mk (append_toBytes buffer data) (append_maxBytes buffer data)
  | setMaxBytes value =>
    exact congrArg₂ Queue.mk (setMaxBytes_toBytes buffer value) (trimToLimit_maxBytes _ _ _ _)

theorem run_queue (operations : List Operation) :
    (operations.foldl step buffer).queue = operations.foldl Queue.step buffer.queue := by
  induction operations generalizing buffer with
  | nil => rfl
  | cons operation rest ih => rw [foldl_cons, foldl_cons, ih, step_queue]

theorem new_queue (maxBytes : Nat) (initial : List UInt8) :
    (new maxBytes initial).queue = ⟨initial.rtake maxBytes, maxBytes⟩ := by
  refine congrArg₂ Queue.mk (new_toBytes maxBytes initial) ?_
  unfold new
  split
  · rfl
  · exact append_maxBytes _ _

/-- **After any calls the buffer is the bounded queue after the same calls.**  Its
length is that of its bytes and within the cap, a slice drops a prefix, and `tail`
is a suffix within its budget: when it is cut and no line break is near, the longest
one that starts on a scalar. -/
theorem buffer_refines_queue (maxBytes : Nat) (initial : List UInt8) (operations : List Operation) :
    let buffer := operations.foldl step (new maxBytes initial)
    buffer.queue = operations.foldl Queue.step ⟨initial.rtake maxBytes, maxBytes⟩ ∧
      buffer.length = buffer.toBytes.length ∧ buffer.length ≤ buffer.maxBytes ∧
      (∀ start, buffer.sliceFrom start = buffer.toBytes.drop start) ∧
      ∀ budget, buffer.tail budget <:+ buffer.toBytes ∧ (buffer.tail budget).length ≤ budget ∧
        (budget < buffer.length →
          10 ∉ (buffer.toBytes.rtake budget).take lineAlignScanBytes →
          StartsOnScalar (buffer.tail budget) ∧
            ∀ other, other <:+ buffer.toBytes → other.length ≤ budget → StartsOnScalar other →
              other.length ≤ (buffer.tail budget).length) := by
  intro buffer
  refine ⟨by rw [run_queue, new_queue], buffer.counted, buffer.bounded, buffer.sliceFrom_eq, ?_⟩
  intro budget
  by_cases cut : budget < buffer.length
  · obtain ⟨start, tail, unbroken⟩ := buffer.tail_eq cut
    have newest : (buffer.toBytes.rtake budget).length ≤ budget := by
      rw [rtake_length]
      omega
    refine ⟨?_, ?_, fun _ noBreak => ?_⟩
    · rw [tail]
      exact (drop_suffix _ _).trans (drop_suffix _ _)
    · rw [tail, length_drop]
      omega
    · rw [unbroken noBreak]
      constructor
      · intro byte first
        have stopped := head?_dropWhile_not isUtf8Continuation (buffer.toBytes.rtake budget)
        rw [Option.mem_def.mp first] at stopped
        exact stopped
      · intro other suffix short starts
        have within : other <:+ buffer.toBytes.rtake budget := by
          apply suffix_of_suffix_length_le suffix (drop_suffix _ _)
          rw [length_drop, toBytes_length]
          omega
        exact (suffix_dropWhile_continuation within starts).length_le
  · have whole : buffer.tail budget = buffer.toBytes := if_pos (Nat.not_lt.mp cut)
    rw [whole]
    refine ⟨suffix_refl _, ?_, fun shorter => absurd shorter cut⟩
    rw [toBytes_length]
    omega

/-- **How output is cut into pieces does not matter**: one after the other they leave the bytes and
the cap that they leave as one. -/
theorem append_pieces (pieces : List (List UInt8)) :
    ((pieces.map .append).foldl step buffer).queue = (buffer.step (.append pieces.flatten)).queue := by
  induction pieces generalizing buffer with
  | nil =>
    rw [step_queue, Queue.step, queue, flatten_nil, append_nil, rtake_of_length_le]
    · rfl
    · exact buffer.toBytes_length ▸ buffer.bounded
  | cons piece pieces ih =>
    rw [map_cons, foldl_cons, ih, step_queue, step_queue, step_queue, flatten_cons]
    simp only [Queue.step, queue, Queue.mk.injEq, and_true]
    -- Bytes that an append has cut off are cut off by the next one.
    by_cases fits : (buffer.toBytes ++ piece).length ≤ buffer.maxBytes
    · rw [rtake_of_length_le fits, append_assoc]
    · rw [← append_assoc]
      apply rtake_eq_of_suffix
      · exact (suffix_append_inj_of_length_eq rfl).mpr ⟨rtake_suffix _ _, rfl⟩
      · rw [length_append, rtake_length]
        omega

end ScrollbackBuffer

/-- A client id as the server hands it out. -/
abbrev ClientId := Nat

/-- `DurableOutputBatch`: bytes under the sequence the history store keys them by. -/
structure DurableOutputBatch where
  data : List UInt8
  sequence : Int
  deriving DecidableEq, Repr

/-- `DURABLE_OUTPUT_BATCH_MAX_BYTES`. -/
def durableOutputBatchMaxBytes : Nat := 64 * 1024

/-! ## The durable track -/

/-- The session fields `durable_output_*`. -/
structure DurableTrack where
  outputBatch : List UInt8
  batchGen : Nat
  batchArmed : Bool
  batchSequence : Int
  /-- Batches the writer accepted but could not persist, by sequence. -/
  failures : List DurableOutputBatch
  deriving DecidableEq

namespace DurableTrack

/-- The durable half of `append_output`; returns the generation to arm. -/
def appendOutput (track : DurableTrack) (data : List UInt8) : DurableTrack × Option Nat :=
  ({ track with
      outputBatch := track.outputBatch ++ data
      batchArmed := true },
    if track.batchArmed then none else some track.batchGen)

/-- `flush_durable_output_batch`: retry the oldest failure, else cut a fresh
batch of at most the maximum size off the live bytes. -/
def flushDurableOutputBatch (track : DurableTrack) : Option DurableOutputBatch × DurableTrack :=
  match track.failures with
  | batch :: rest => (some batch, { track with failures := rest })
  | [] =>
    if track.outputBatch.isEmpty then
      (none, { track with batchArmed := false })
    else
      let takeLen := min track.outputBatch.length durableOutputBatchMaxBytes
      let remaining := track.outputBatch.drop takeLen
      (some ⟨track.outputBatch.take takeLen, track.batchSequence⟩,
        { track with
          outputBatch := remaining
          batchGen := wrappingAdd track.batchGen 1
          batchArmed := !remaining.isEmpty
          batchSequence := wrappingSucc track.batchSequence })

/-- Insert before the first queued batch with a larger sequence. -/
def insertBySequence (batch : DurableOutputBatch) :
    List DurableOutputBatch → List DurableOutputBatch
  | [] => [batch]
  | queued :: rest =>
    if queued.sequence > batch.sequence then batch :: queued :: rest
    else queued :: insertBySequence batch rest

/-- `restore_durable_output_batch`; returns the generation to schedule. -/
def restoreDurableOutputBatch (track : DurableTrack) (batch : DurableOutputBatch) :
    DurableTrack × Nat :=
  let generation := wrappingAdd track.batchGen 1
  ({ track with
      failures := insertBySequence batch track.failures
      batchGen := generation
      batchArmed := true },
    generation)

/-- `disarm_durable_output_batch_if_empty`. -/
def disarmIfEmpty (track : DurableTrack) : DurableTrack :=
  if track.failures.isEmpty && track.outputBatch.isEmpty then
    { track with batchArmed := false }
  else
    track

end DurableTrack

/-! ## The session -/

structure Session where
  clients : Finset ClientId
  observerClients : Finset ClientId
  outputPausedClients : Finset ClientId
  outputResyncPendingClients : Finset ClientId
  /-- How far into the stream each client has been served; absent when the host
  cannot prove what the client missed. -/
  deliveredOutputCursors : ClientId → Option Nat
  buffer : ScrollbackBuffer
  outputBatch : List UInt8
  outputBatchGen : Nat
  outputBatchArmed : Bool
  outputStreamBytes : Nat
  durable : DurableTrack

namespace Session

/-- The output state `Session::start` builds.  `initialOutputStreamBytes` is the
position the previous incarnation reached and `nextOutputSequence` is what the
history store answered. -/
def start (maxBytes : Nat) (initialScrollback : List UInt8) (initialOutputStreamBytes : Nat)
    (nextOutputSequence : Int) : Session where
  clients := ∅
  observerClients := ∅
  outputPausedClients := ∅
  outputResyncPendingClients := ∅
  deliveredOutputCursors := fun _ => none
  buffer := ScrollbackBuffer.new maxBytes initialScrollback
  outputBatch := []
  outputBatchGen := 0
  outputBatchArmed := false
  outputStreamBytes := max initialOutputStreamBytes initialScrollback.length
  durable := ⟨[], 0, false, nextOutputSequence, []⟩

/-- `set_max_bytes`. -/
def setMaxBytes (session : Session) (maxBytes : Nat) : Session :=
  { session with buffer := session.buffer.setMaxBytes maxBytes }

/-- `attach`: the reply carries the whole buffer, so the client starts caught up
with the stream as it stands. -/
def attach (session : Session) (client : ClientId) : Session :=
  { session with
    clients := insert client session.clients
    outputPausedClients := session.outputPausedClients.erase client
    outputResyncPendingClients := session.outputResyncPendingClients.erase client
    deliveredOutputCursors :=
      Function.update session.deliveredOutputCursors client (some session.outputStreamBytes) }

/-- `attach_for_resync`. -/
def attachForResync (session : Session) (client : ClientId) : Session :=
  { session with
    clients := insert client session.clients
    deliveredOutputCursors := Function.update session.deliveredOutputCursors client none
    outputPausedClients := insert client session.outputPausedClients
    outputResyncPendingClients := insert client session.outputResyncPendingClients }

/-- `detach`. -/
def detach (session : Session) (client : ClientId) : Session :=
  { session with
    observerClients := session.observerClients.erase client
    clients := session.clients.erase client
    outputPausedClients := session.outputPausedClients.erase client
    outputResyncPendingClients := session.outputResyncPendingClients.erase client
    deliveredOutputCursors := Function.update session.deliveredOutputCursors client none }

/-- `append_output`; returns the two timer generations to arm.  The title
tracker's answer is not modelled. -/
def appendOutput (session : Session) (data : List UInt8) : Session × Option Nat × Option Nat :=
  let durable := session.durable.appendOutput data
  ({ session with
      outputStreamBytes := saturatingAdd session.outputStreamBytes data.length
      buffer := session.buffer.append data
      outputBatch := session.outputBatch ++ data
      outputBatchArmed := true
      durable := durable.1 },
    if session.outputBatchArmed then none else some session.outputBatchGen, durable.2)

/-- `output_stream_range`: the stream positions the buffer covers. -/
def outputStreamRange (session : Session) : Nat × Nat :=
  (session.outputStreamBytes - session.buffer.length, session.outputStreamBytes)

/-- `flush_output_batch`: take the coalesced bytes, if there are any. -/
def flushOutputBatch (session : Session) : Option (List UInt8) × Session :=
  if session.outputBatch.isEmpty then
    (none, { session with outputBatchArmed := false })
  else
    (some session.outputBatch,
      { session with
        outputBatchGen := wrappingAdd session.outputBatchGen 1
        outputBatchArmed := false
        outputBatch := [] })

/-! ### Backpressure -/

/-- `set_output_paused`. -/
def setOutputPaused (session : Session) (client : ClientId) (paused : Bool) : Session :=
  { session with
    outputResyncPendingClients := session.outputResyncPendingClients.erase client
    outputPausedClients :=
      if paused then insert client session.outputPausedClients
      else session.outputPausedClients.erase client }

/-- `mark_output_backpressured`; answers whether a resync was not yet pending. -/
def markOutputBackpressured (session : Session) (client : ClientId) : Session × Bool :=
  ({ session with
      outputPausedClients := insert client session.outputPausedClients
      outputResyncPendingClients := insert client session.outputResyncPendingClients },
    decide (client ∉ session.outputResyncPendingClients))

/-- `mark_output_resync_sent`. -/
def markOutputResyncSent (session : Session) (client : ClientId) : Session :=
  { session with
    outputResyncPendingClients := session.outputResyncPendingClients.erase client }

/-- `set_delivered_output_cursor`. -/
def setDeliveredOutputCursor (session : Session) (client : ClientId) (cursor : Nat) : Session :=
  { session with
    deliveredOutputCursors :=
      Function.update session.deliveredOutputCursors client (some cursor) }

/-- `advance_delivered_output_cursor`, only for bytes the queue accepted. -/
def advanceDeliveredOutputCursor (session : Session) (client : ClientId) (bytes : Nat) : Session :=
  { session with
    deliveredOutputCursors :=
      Function.update session.deliveredOutputCursors client
        ((session.deliveredOutputCursors client).map (saturatingAdd · bytes)) }

/-- `output_clients`: attached and not paused. -/
def outputClients (session : Session) : Finset ClientId :=
  session.clients.filter (· ∉ session.outputPausedClients)

theorem mem_outputClients {session : Session} {client : ClientId} :
    client ∈ session.outputClients ↔
      client ∈ session.clients ∧ client ∉ session.outputPausedClients :=
  Finset.mem_filter

/-- `restore_payload` and `attachment_payload` carry this tail of the buffer. -/
def snapshot (session : Session) (restoreBytes : Nat) : List UInt8 :=
  session.buffer.tail restoreBytes

end Session

end Alera.Terminal
