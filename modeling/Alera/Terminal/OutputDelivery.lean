/-
# Alera.Terminal.OutputDelivery -- delivering PTY output to attached clients

`rust/alera-cli/src/terminal_host/server/output_delivery.rs`, driven by the
request handlers of `server/requests.rs` and `server/terminal_session_requests.rs`.

A client falls behind in two ways: it asked to be paused, or its bounded queue
filled up and a frame was dropped.  Both are served from the delivery cursor the
host keeps per client.  `Delivery` is one session together with what its clients'
queues accepted; the history fields (`origin`, `output`, `snapshotAt`,
`delivered`) record what happened and no operation reads them.

The invariant is `Consistent`.  Its two client clauses are the contract:

* `served`: a client with a cursor was handed, since its last snapshot, exactly
  the stream between that snapshot and the cursor;
* `live`: an attached client that is not paused misses exactly the coalesced
  batch.

Between taking the batch and the last send of a broadcast the second clause is
broken for the clients still to be served; `Broadcasting` is the invariant of
that loop.  Every clause is under the hypothesis that the stream position is
below the `u64` limit, because both position counters saturate there:
`saturated_stream_breaks_delivery` is what happens at the limit.
-/
import Alera.Terminal.Session
import Alera.Theory.Runs

namespace Alera.Terminal

open Theory List

set_option autoImplicit false

/-- What a client's bounded terminal queue answers. -/
inductive SendResult where
  | ok
  | full
  | closed
  deriving DecidableEq, Repr

/-- One session, its clients' queues, and the history of both. -/
structure Delivery where
  session : Session
  /-- Clients a resync timer was armed for, in order. -/
  resyncTimers : List ClientId
  /-- Clients `disconnect_client_soon` was called for, in order. -/
  disconnecting : List ClientId
  /-- The stream position the session started at. -/
  origin : Nat
  /-- Every PTY byte accepted since the session started. -/
  output : List UInt8
  /-- The stream position of each client's last snapshot. -/
  snapshotAt : ClientId → Nat
  /-- The output frames each client's queue accepted since that snapshot. -/
  delivered : ClientId → List (List UInt8)

/-- The reply of `setOutputPaused`. -/
inductive ResumeReply where
  | empty
  | delta (resumed : Bool)
  | snapshot (bytes : List UInt8)
  deriving DecidableEq, Repr

namespace Delivery

/-- A session that was just started, with no client yet. -/
def start (maxBytes : Nat) (initialScrollback : List UInt8) (initialOutputStreamBytes : Nat)
    (nextOutputSequence : Int) : Delivery where
  session := Session.start maxBytes initialScrollback initialOutputStreamBytes nextOutputSequence
  resyncTimers := []
  disconnecting := []
  origin := max initialOutputStreamBytes initialScrollback.length
  output := []
  snapshotAt := fun _ => 0
  delivered := fun _ => []

/-- `Session::append_output`, as the actor calls it for PTY output. -/
def appendOutput (d : Delivery) (data : List UInt8) : Delivery :=
  { d with session := (d.session.appendOutput data).1, output := d.output ++ data }

/-- `send_terminal_output`: only an accepted frame advances the cursor. -/
def sendTerminalOutput (d : Delivery) (client : ClientId) (data : List UInt8) :
    SendResult → Delivery × Bool
  | .ok =>
    ({ d with
        session := d.session.advanceDeliveredOutputCursor client data.length
        delivered := Function.update d.delivered client (d.delivered client ++ [data]) },
      true)
  | .full =>
    let marked := d.session.markOutputBackpressured client
    ({ d with
        session := marked.1
        resyncTimers := if marked.2 then d.resyncTimers ++ [client] else d.resyncTimers },
      false)
  | .closed => ({ d with disconnecting := d.disconnecting ++ [client] }, false)

/-- The broadcast loop of `flush_output_batch` over the clients in `order`. -/
def broadcast (data : List UInt8) (results : ClientId → SendResult) :
    List ClientId → Delivery → Delivery
  | [], d => d
  | client :: rest, d =>
    broadcast data results rest (d.sendTerminalOutput client data (results client)).1

/-- `flush_output_batch`.  `order` is the order the hash set of output clients
is iterated in; the step is undefined for any other list. -/
def flushOutputBatch (d : Delivery) (order : List ClientId) (results : ClientId → SendResult) :
    Option Delivery :=
  match d.session.flushOutputBatch with
  | (none, session) => some { d with session := session }
  | (some data, session) =>
    if order.Nodup ∧ order.toFinset = session.outputClients then
      some (broadcast data results order { d with session := session })
    else none

/-- `flush_all_output`: the delivery batch, then whatever the history pipeline
does to the durable track. -/
def flushAllOutput (d : Delivery) (order : List ClientId) (results : ClientId → SendResult)
    (durable : DurableTrack) : Option Delivery :=
  (d.flushOutputBatch order results).map fun d =>
    { d with session := { d.session with durable := durable } }

/-- Forget what the queue accepted: the client now replays from `position`. -/
def recordSnapshot (d : Delivery) (client : ClientId) (position : Nat) : Delivery :=
  { d with
    snapshotAt := Function.update d.snapshotAt client position
    delivered := Function.update d.delivered client [] }

/-- `Session::attach`; the attach reply is the snapshot. -/
def attach (d : Delivery) (client : ClientId) : Delivery :=
  { d.recordSnapshot client d.session.outputStreamBytes with
    session := d.session.attach client }

/-- `resend_output_snapshot`. -/
def resendOutputSnapshot (d : Delivery) (client : ClientId) (restoreBytes : Nat) :
    Delivery × ResumeReply :=
  let endCursor := d.session.outputStreamRange.2
  let session :=
    (d.session.setOutputPaused client false).setDeliveredOutputCursor client endCursor
  ({ d.recordSnapshot client endCursor with session := session },
    .snapshot (session.snapshot restoreBytes))

/-- The bytes a resuming client missed, when the ring still covers them. -/
def missedOutput (d : Delivery) (client : ClientId) : Option (List UInt8) :=
  let range := d.session.outputStreamRange
  match d.session.deliveredOutputCursors client with
  | some cursor =>
    if range.1 ≤ cursor ∧ cursor ≤ range.2 then
      some (d.session.buffer.sliceFrom (cursor - range.1))
    else none
  | none => none

/-- `resume_output_for_client`: send the gap, or fall back to a snapshot. -/
def resumeOutputForClient (d : Delivery) (client : ClientId) (restoreBytes : Nat)
    (result : SendResult) : Delivery × ResumeReply :=
  match d.missedOutput client with
  | none => d.resendOutputSnapshot client restoreBytes
  | some data =>
    let sent := if data.isEmpty then (d, true) else d.sendTerminalOutput client data result
    if sent.2 then
      ({ sent.1 with session := sent.1.session.setOutputPaused client false }, .delta true)
    else
      (sent.1, .delta false)

/-- `set_output_paused_for_client`. -/
def setOutputPausedForClient (d : Delivery) (client : ClientId) (paused : Bool)
    (restoreBytes : Nat) (result : SendResult) : Delivery × ResumeReply :=
  if paused then
    ({ d with session := d.session.setOutputPaused client true }, .empty)
  else
    d.resumeOutputForClient client restoreBytes result

/-- `handle_output_resync_tick`: ask a client that fell behind to resume. -/
def handleOutputResyncTick (d : Delivery) (client : ClientId) (result : SendResult) : Delivery :=
  if client ∉ d.session.outputResyncPendingClients then
    d
  else
    match result with
    | .ok => { d with session := d.session.markOutputResyncSent client }
    | .full => { d with resyncTimers := d.resyncTimers ++ [client] }
    | .closed =>
      { d with
        session := d.session.markOutputResyncSent client
        disconnecting := d.disconnecting ++ [client] }

end Delivery

/-- A queue that is open: it accepts the frame or reports that it is full. -/
def SendResult.ofAccepts : Bool → SendResult
  | true => .ok
  | false => .full

/-- The events of one session.  `order` and `accepts` are the iteration order
and the queue outcomes of the flush an event starts with, `durable` what the
history half of that flush leaves behind. -/
inductive DeliveryEvent where
  | ptyOutput (data : List UInt8)
  | flushOutputBatch (order : List ClientId) (accepts : ClientId → Bool)
  | attach (client : ClientId) (order : List ClientId) (accepts : ClientId → Bool)
      (durable : DurableTrack)
  | setOutputPaused (client : ClientId) (paused : Bool) (order : List ClientId)
      (accepts : ClientId → Bool) (durable : DurableTrack) (deltaAccepted : Bool)
  | outputResyncTick (client : ClientId) (accepted : Bool)
  | attachForResync (client : ClientId)
  | detach (client : ClientId)
  | setMaxBytes (maxBytes : Nat)

/-- One event of the actor that owns the session. -/
def Delivery.step (restoreBytes : Nat) (d : Delivery) : DeliveryEvent → Option Delivery
  | .ptyOutput data => some (d.appendOutput data)
  | .flushOutputBatch order accepts =>
    d.flushOutputBatch order fun client => .ofAccepts (accepts client)
  | .attach client order accepts durable =>
    (d.flushAllOutput order (fun c => .ofAccepts (accepts c)) durable).map (·.attach client)
  | .setOutputPaused client paused order accepts durable deltaAccepted =>
    (d.flushAllOutput order (fun c => .ofAccepts (accepts c)) durable).map fun d =>
      (d.setOutputPausedForClient client paused restoreBytes (.ofAccepts deltaAccepted)).1
  | .outputResyncTick client accepted =>
    some (d.handleOutputResyncTick client (.ofAccepts accepted))
  | .attachForResync client => some { d with session := d.session.attachForResync client }
  | .detach client => some { d with session := d.session.detach client }
  | .setMaxBytes maxBytes => some { d with session := d.session.setMaxBytes maxBytes }

/-! ## The invariant -/

namespace Delivery

/-- The PTY stream between two positions of this session. -/
def stream (d : Delivery) (i j : Nat) : List UInt8 := slice d.output (i - d.origin) (j - d.origin)

/-- The client was handed exactly the stream from its last snapshot to `cursor`. -/
structure Served (d : Delivery) (client : ClientId) (cursor : Nat) : Prop where
  started : d.origin ≤ d.snapshotAt client
  ordered : d.snapshotAt client ≤ cursor
  reached : cursor ≤ d.origin + d.output.length
  exact : (d.delivered client).flatten = d.stream (d.snapshotAt client) cursor

/-- The stream counters are in order and every client served by broadcasts is
exactly `lag` bytes behind the stream. -/
structure Tracking (d : Delivery) (lag : ClientId → Nat) : Prop where
  position : d.session.outputStreamBytes = d.origin + d.output.length
  ring : ∃ before : List UInt8,
    before.length ≤ d.origin ∧ d.session.buffer.toBytes <:+ before ++ d.output
  served : ∀ client cursor, d.session.deliveredOutputCursors client = some cursor →
    d.Served client cursor
  live : ∀ client ∈ d.session.outputClients, ∃ cursor,
    d.session.deliveredOutputCursors client = some cursor ∧
      cursor + lag client = d.session.outputStreamBytes

/-- Between two events: the coalesced batch is the end of the stream, and it is
what every live client is missing. -/
structure Consistent (d : Delivery) : Prop where
  tracking : d.Tracking fun _ => d.session.outputBatch.length
  batched : d.session.outputBatch <:+ d.output

/-- The stream position is below the `u64` limit, so no counter has saturated. -/
def Fits (d : Delivery) : Prop := d.origin + d.output.length ≤ u64Max

variable {d : Delivery} {cursor : Nat}

theorem stream_to_end (started : d.origin ≤ cursor) :
    d.stream cursor (d.origin + d.output.length) =
      d.output.rtake (d.origin + d.output.length - cursor) := by
  have total : d.origin + d.output.length - d.origin = d.output.length := by omega
  have missing : d.output.length - (cursor - d.origin) = d.origin + d.output.length - cursor := by
    omega
  rw [stream, total, slice_length, missing]

theorem stream_append_stream (d : Delivery) {i j k : Nat} (ij : i ≤ j) (jk : j ≤ k) :
    d.stream i j ++ d.stream j k = d.stream i k :=
  slice_append_slice _ (by omega) (by omega)

variable {data : List UInt8}

/-- An end of the output is the stream from where it starts. -/
theorem stream_of_suffix (ending : data <:+ d.output)
    (behind : cursor + data.length = d.origin + d.output.length) :
    d.stream cursor (cursor + data.length) = data := by
  have shorter : data.length ≤ d.output.length := ending.length_le
  have missing : d.origin + d.output.length - cursor = data.length := by omega
  rw [behind, stream_to_end (by omega), missing,
    ← rtake_eq_of_suffix ending (Nat.le_refl _), rtake_of_length_le (Nat.le_refl _)]

variable {lag : ClientId → Nat}

theorem Tracking.congr {lag' : ClientId → Nat} (tracking : d.Tracking lag)
    (same : ∀ client ∈ d.session.outputClients, lag client = lag' client) :
    d.Tracking lag' := by
  refine ⟨tracking.position, tracking.ring, tracking.served, ?_⟩
  intro client isLive
  rw [← same client isLive]
  exact tracking.live client isLive

variable {d' : Delivery} {client : ClientId}

/-- Serving only looks at the origin, the output, and the client's own history. -/
theorem Served.congr (served : d.Served client cursor) (origin : d'.origin = d.origin)
    (output : d'.output = d.output) (snapshotAt : d'.snapshotAt client = d.snapshotAt client)
    (delivered : d'.delivered client = d.delivered client) : d'.Served client cursor := by
  obtain ⟨started, ordered, reached, exact⟩ := served
  refine ⟨?_, ?_, ?_, ?_⟩
  · rwa [origin, snapshotAt]
  · rwa [snapshotAt]
  · rwa [origin, output]
  · rwa [stream, origin, output, snapshotAt, delivered]

/-- An operation that keeps the histories, keeps or shortens the ring, records
no new cursor and lets no new client into the broadcast. -/
theorem Tracking.restrict (tracking : d.Tracking lag) (origin : d'.origin = d.origin)
    (output : d'.output = d.output) (snapshotAt : d'.snapshotAt = d.snapshotAt)
    (delivered : d'.delivered = d.delivered)
    (position : d'.session.outputStreamBytes = d.session.outputStreamBytes)
    (ring : d'.session.buffer.toBytes <:+ d.session.buffer.toBytes)
    (cursors : ∀ client cursor, d'.session.deliveredOutputCursors client = some cursor → d.session.deliveredOutputCursors client = some cursor)
    (live : ∀ client ∈ d'.session.outputClients, client ∈ d.session.outputClients ∧ d'.session.deliveredOutputCursors client = d.session.deliveredOutputCursors client) :
    d'.Tracking lag := by
  obtain ⟨before, older, within⟩ := tracking.ring
  refine ⟨?_, ⟨before, ?_, ?_⟩, ?_, ?_⟩
  · rw [position, origin, output, tracking.position]
  · rwa [origin]
  · rw [output]
    exact ring.trans within
  · intro client cursor found
    exact (tracking.served client cursor (cursors client cursor found)).congr origin output
      (congrFun snapshotAt client) (congrFun delivered client)
  · intro client isLive
    obtain ⟨wasLive, same⟩ := live client isLive
    rw [same, position]
    exact tracking.live client wasLive

/-- Nothing of it is touched. -/
theorem Tracking.unmoved (tracking : d.Tracking lag) (origin : d'.origin = d.origin)
    (output : d'.output = d.output) (snapshotAt : d'.snapshotAt = d.snapshotAt)
    (delivered : d'.delivered = d.delivered)
    (position : d'.session.outputStreamBytes = d.session.outputStreamBytes)
    (ring : d'.session.buffer = d.session.buffer)
    (cursors : d'.session.deliveredOutputCursors = d.session.deliveredOutputCursors)
    (live : d'.session.outputClients = d.session.outputClients) : d'.Tracking lag :=
  tracking.restrict origin output snapshotAt delivered position (ring ▸ suffix_rfl)
    (fun _ _ found => cursors ▸ found) fun _ isLive => ⟨live ▸ isLive, by rw [cursors]⟩

/-! ### One send -/

variable {result : SendResult}

@[simp] theorem sendTerminalOutput_output :
    (d.sendTerminalOutput client data result).1.output = d.output := by
  cases result <;> rfl

@[simp] theorem sendTerminalOutput_origin :
    (d.sendTerminalOutput client data result).1.origin = d.origin := by
  cases result <;> rfl

@[simp] theorem sendTerminalOutput_outputBatch :
    (d.sendTerminalOutput client data result).1.session.outputBatch = d.session.outputBatch := by
  cases result <;> rfl

@[simp] theorem sendTerminalOutput_outputStreamBytes :
    (d.sendTerminalOutput client data result).1.session.outputStreamBytes =
      d.session.outputStreamBytes := by
  cases result <;> rfl

attribute [local simp] Session.mem_outputClients Session.advanceDeliveredOutputCursor
  SendResult.ofAccepts Session.attachForResync recordSnapshot Session.detach Session.start
  appendOutput

/-- A send to one client leaves every other client in the broadcast. -/
theorem mem_outputClients_sendTerminalOutput {other : ClientId} (different : other ≠ client) :
    other ∈ (d.sendTerminalOutput client data result).1.session.outputClients ↔
      other ∈ d.session.outputClients := by
  cases result <;>
    simp [sendTerminalOutput, Session.markOutputBackpressured, different]

/-- An accepted frame that continues the client's stream moves its cursor past
the frame. -/
theorem Served.extend (served : d.Served client cursor)
    (continues : d.stream cursor (cursor + data.length) = data)
    (within : cursor + data.length ≤ d.origin + d.output.length) :
    (d.sendTerminalOutput client data .ok).1.Served client (cursor + data.length) := by
  refine ⟨served.started, Nat.le_trans served.ordered (Nat.le_add_right _ _), within, ?_⟩
  calc ((d.sendTerminalOutput client data .ok).1.delivered client).flatten
      = (d.delivered client).flatten ++ data := by simp [sendTerminalOutput]
    _ = d.stream (d.snapshotAt client) cursor ++ d.stream cursor (cursor + data.length) := by
        rw [served.exact, continues]
    _ = d.stream (d.snapshotAt client) (cursor + data.length) :=
        d.stream_append_stream served.ordered (Nat.le_add_right _ _)

theorem sendTerminalOutput_tracking (accepted : Bool) (fits : d.Fits) (tracking : d.Tracking lag)
    (placed : d.session.deliveredOutputCursors client = some cursor)
    (continues : d.stream cursor (cursor + data.length) = data)
    (within : cursor + data.length ≤ d.origin + d.output.length) :
    (d.sendTerminalOutput client data (.ofAccepts accepted)).1.Tracking
      (Function.update lag client (lag client - data.length)) := by
  have advanced : saturatingAdd cursor data.length = cursor + data.length :=
    saturatingAdd_of_le (Nat.le_trans within fits)
  cases accepted with
  | true =>
    refine ⟨tracking.position, tracking.ring, ?_, ?_⟩
    · intro other position found
      by_cases same : other = client
      · subst same
        have moved : position = cursor + data.length := by
          simpa [sendTerminalOutput, placed, advanced] using found.symm
        subst moved
        exact (tracking.served other cursor placed).extend continues within
      · have unmoved : d.session.deliveredOutputCursors other = some position := by
          simpa [sendTerminalOutput, same] using found
        refine (tracking.served other position unmoved).congr rfl rfl rfl ?_
        simp [sendTerminalOutput, same]
    · intro other isLive
      by_cases same : other = client
      · subst same
        refine ⟨cursor + data.length, ?_, ?_⟩
        · simp [sendTerminalOutput, placed, advanced]
        · obtain ⟨position, found, behind⟩ := tracking.live other isLive
          have agree : position = cursor := by simpa [placed] using found.symm
          have counted := tracking.position
          simp only [Function.update_self]
          change cursor + data.length + (lag other - data.length) = d.session.outputStreamBytes
          omega
      · obtain ⟨position, found, behind⟩ :=
          tracking.live other ((mem_outputClients_sendTerminalOutput same).mp isLive)
        refine ⟨position, ?_, ?_⟩
        · simpa [sendTerminalOutput, same] using found
        · simpa [same] using behind
  | false =>
    refine ⟨tracking.position, tracking.ring, ?_, ?_⟩
    · intro other position found
      exact (tracking.served other position found).congr rfl rfl rfl rfl
    · intro other isLive
      have different : other ≠ client := by
        intro same
        simp [same, sendTerminalOutput, Session.markOutputBackpressured] at isLive
      obtain ⟨position, found, behind⟩ :=
        tracking.live other ((mem_outputClients_sendTerminalOutput different).mp isLive)
      exact ⟨position, found, by simpa [different] using behind⟩

/-! ### A broadcast -/

/-- The loop invariant: clients still to be served lack the whole batch, the
others nothing. -/
def Broadcasting (d : Delivery) (data : List UInt8) (remaining : List ClientId) : Prop :=
  d.Tracking fun client => if client ∈ remaining then data.length else 0

theorem broadcast_tracking (data : List UInt8) (accepts : ClientId → Bool) :
    ∀ (order : List ClientId) (d : Delivery), order.Nodup →
      (∀ client ∈ order, client ∈ d.session.outputClients) → data <:+ d.output → d.Fits →
      d.Broadcasting data order →
      (broadcast data (fun client => .ofAccepts (accepts client)) order d).Tracking fun _ => 0
  | [], d, _, _, _, _, tracking => tracking.congr fun _ _ => by simp
  | client :: rest, d, unique, waiting, ending, fits, tracking => by
      obtain ⟨notAgain, restUnique⟩ := nodup_cons.mp unique
      obtain ⟨cursor, placed, behind⟩ := tracking.live client (waiting client (by simp))
      have missing : cursor + data.length = d.origin + d.output.length := by
        have counted := tracking.position
        simp only [mem_cons, true_or, if_true] at behind
        omega
      have sent := sendTerminalOutput_tracking (accepts client) fits tracking placed
        (stream_of_suffix ending missing) (Nat.le_of_eq missing)
      refine broadcast_tracking data accepts rest _ restUnique ?_ (by simpa using ending)
        (by simpa [Fits] using fits) ?_
      · intro other later
        have different : other ≠ client := fun same => notAgain (same ▸ later)
        exact (mem_outputClients_sendTerminalOutput different).mpr
          (waiting other (mem_cons_of_mem _ later))
      · refine sent.congr fun other _ => ?_
        by_cases same : other = client
        · subst same
          simp [notAgain]
        · simp [same]

/-- What a broadcast leaves alone. -/
theorem broadcast_frame (data : List UInt8) (results : ClientId → SendResult) :
    ∀ (order : List ClientId) (d : Delivery),
      (broadcast data results order d).output = d.output ∧
        (broadcast data results order d).origin = d.origin ∧
        (broadcast data results order d).session.outputBatch = d.session.outputBatch
  | [], _ => ⟨rfl, rfl, rfl⟩
  | client :: rest, d => by
      obtain ⟨output, origin, batch⟩ :=
        broadcast_frame data results rest (d.sendTerminalOutput client data (results client)).1
      exact ⟨output.trans (by simp), origin.trans (by simp), batch.trans (by simp)⟩

variable {order : List ClientId}

theorem flushOutputBatch_frame {results : ClientId → SendResult}
    (flush : d.flushOutputBatch order results = some d') :
    d'.output = d.output ∧ d'.origin = d.origin ∧ d'.session.outputBatch = [] := by
  unfold flushOutputBatch Session.flushOutputBatch at flush
  by_cases empty : d.session.outputBatch.isEmpty
  · simp only [empty, if_true, Option.some.injEq] at flush
    subst flush
    exact ⟨rfl, rfl, isEmpty_iff.mp empty⟩
  · simp only [empty, Bool.false_eq_true, if_false] at flush
    split at flush
    · cases flush
      exact broadcast_frame _ _ _ _
    · cases flush

/-- After a flush nothing is coalesced and every live client is caught up. -/
structure Flushed (d d' : Delivery) : Prop where
  tracking : d'.Tracking fun _ => 0
  batch : d'.session.outputBatch = []
  output : d'.output = d.output
  origin : d'.origin = d.origin

theorem Flushed.consistent (flushed : Flushed d d') : d'.Consistent := by
  refine ⟨flushed.tracking.congr fun _ _ => ?_, ?_⟩
  · simp [flushed.batch]
  · rw [flushed.batch]
    exact nil_suffix

theorem flushOutputBatch_flushed {accepts : ClientId → Bool} (fits : d.Fits)
    (consistent : d.Consistent)
    (flush : d.flushOutputBatch order (fun client => .ofAccepts (accepts client)) = some d') :
    Flushed d d' := by
  obtain ⟨tracking, batched⟩ := consistent
  obtain ⟨output, origin, nothingLeft⟩ := flushOutputBatch_frame flush
  refine ⟨?_, nothingLeft, output, origin⟩
  unfold flushOutputBatch Session.flushOutputBatch at flush
  by_cases empty : d.session.outputBatch.isEmpty
  · simp only [empty, if_true, Option.some.injEq] at flush
    subst flush
    refine (tracking.congr fun _ _ => ?_).unmoved rfl rfl rfl rfl rfl rfl rfl rfl
    simp [isEmpty_iff.mp empty]
  · simp only [empty, Bool.false_eq_true, if_false] at flush
    obtain ⟨iterated, flush⟩ := of_when flush
    obtain ⟨unique, covers⟩ := iterated
    cases flush
    refine broadcast_tracking _ _ _ _ unique ?_ batched fits ?_
    · intro client chosen
      rw [← covers]
      exact mem_toFinset.mpr chosen
    · refine (tracking.congr fun client isLive => ?_).unmoved rfl rfl rfl rfl rfl rfl rfl rfl
      have chosen : client ∈ order.toFinset := covers ▸ isLive
      rw [if_pos (mem_toFinset.mp chosen)]

theorem flushAllOutput_flushed {accepts : ClientId → Bool} {durable : DurableTrack} (fits : d.Fits)
    (consistent : d.Consistent)
    (flush : d.flushAllOutput order (fun client => .ofAccepts (accepts client)) durable = some d') :
    Flushed d d' := by
  obtain ⟨middle, flushed, rfl⟩ := of_map flush
  obtain ⟨tracking, batch, output, origin⟩ := flushOutputBatch_flushed fits consistent flushed
  exact ⟨tracking.unmoved rfl rfl rfl rfl rfl rfl rfl rfl, batch, output, origin⟩

/-! ### Events that send nothing -/

theorem appendOutput_consistent (consistent : d.Consistent) (fits : (d.appendOutput data).Fits) :
    (d.appendOutput data).Consistent := by
  obtain ⟨⟨position, ⟨before, older, within⟩, served, live⟩, batched⟩ := consistent
  have moved : (d.appendOutput data).session.outputStreamBytes =
      d.session.outputStreamBytes + data.length := by
    refine saturatingAdd_of_le ?_
    simp only [Fits, appendOutput, length_append] at fits
    omega
  refine ⟨⟨?_, ⟨before, older, ?_⟩, ?_, ?_⟩, ?_⟩
  · rw [moved]
    simp only [appendOutput, length_append]
    omega
  · have kept : (d.appendOutput data).session.buffer.toBytes <:+
        d.session.buffer.toBytes ++ data := by
      change (d.session.buffer.append data).toBytes <:+ _
      rw [ScrollbackBuffer.append_toBytes]
      exact rtake_suffix _ _
    obtain ⟨earlier, joined⟩ := within
    refine kept.trans ⟨earlier, ?_⟩
    rw [← append_assoc, joined]
    simp
  · intro client cursor found
    obtain ⟨started, ordered, reached, exact⟩ := served client cursor found
    refine ⟨started, ordered, ?_, ?_⟩
    · simp only [appendOutput, length_append]
      omega
    · change (d.delivered client).flatten =
        slice (d.output ++ data) (d.snapshotAt client - d.origin) (cursor - d.origin)
      rw [exact, stream, slice_append_left data (by omega)]
  · intro client isLive
    obtain ⟨cursor, found, behind⟩ := live client isLive
    refine ⟨cursor, found, ?_⟩
    rw [moved]
    simp only [appendOutput, Session.appendOutput, length_append]
    omega
  · obtain ⟨earlier, joined⟩ := batched
    rw [← show d.output ++ data = (d.appendOutput data).output from rfl, ← joined]
    simp [Session.appendOutput]

/-! ### Snapshots -/

/-- A client placed at the head of the stream by a fresh snapshot is served. -/
theorem served_at_snapshot {position : Nat} (placed : position = d.origin + d.output.length)
    (taken : d.snapshotAt client = position) (nothing : d.delivered client = []) :
    d.Served client position := by
  refine ⟨?_, ?_, ?_, ?_⟩
  · omega
  · omega
  · omega
  · rw [nothing, taken, stream, slice_self]
    rfl

/-- Both ways a client is given a snapshot after a flush: `attach` and the
fallback of a resume.  Only the client's own entries change. -/
theorem Flushed.snapshot {session : Session} (flushed : Flushed d d')
    (position : session.outputStreamBytes = d'.session.outputStreamBytes)
    (buffer : session.buffer = d'.session.buffer)
    (batch : session.outputBatch = d'.session.outputBatch)
    (cursors : session.deliveredOutputCursors = Function.update d'.session.deliveredOutputCursors client (some d'.session.outputStreamBytes))
    (others : ∀ other ∈ session.outputClients, other ≠ client → other ∈ d'.session.outputClients) :
    ({ d'.recordSnapshot client d'.session.outputStreamBytes with
      session := session } : Delivery).Consistent := by
  obtain ⟨⟨counted, ring, served, live⟩, nothing, output, origin⟩ := flushed
  have noBatch : session.outputBatch = [] := batch.trans nothing
  refine ⟨⟨position.trans counted, ?_, ?_, ?_⟩, ?_⟩
  · simpa [buffer] using ring
  · intro other cursor found
    by_cases same : other = client
    · subst same
      have placed : d'.session.outputStreamBytes = cursor := by simpa [cursors] using found
      subst placed
      exact served_at_snapshot counted (by simp) (by simp)
    · have unmoved : d'.session.deliveredOutputCursors other = some cursor := by
        simpa [cursors, same] using found
      refine (served other cursor unmoved).congr rfl rfl ?_ ?_
      · simp [same]
      · simp [same]
  · intro other isLive
    by_cases same : other = client
    · subst same
      exact ⟨d'.session.outputStreamBytes, by simp [cursors], by simp [noBatch, position]⟩
    · obtain ⟨cursor, found, behind⟩ := live other (others other isLive same)
      exact ⟨cursor, by simpa [cursors, same] using found, by simpa [noBatch, position] using behind⟩
  · simp [noBatch]

theorem Flushed.attach (flushed : Flushed d d') (client : ClientId) :
    (d'.attach client).Consistent := by
  refine flushed.snapshot rfl rfl rfl rfl ?_
  intro other isLive different
  simpa [Session.attach, different] using isLive

theorem Flushed.resendOutputSnapshot (flushed : Flushed d d') (client : ClientId)
    (restoreBytes : Nat) :
    (d'.resendOutputSnapshot client restoreBytes).1.Consistent := by
  refine flushed.snapshot rfl rfl rfl rfl ?_
  intro other isLive different
  simpa [Session.setDeliveredOutputCursor, Session.setOutputPaused, different] using isLive

/-! ### Resuming -/

/-- **The gap a resume sends is the stream from the client's cursor to the end.** -/
theorem missedOutput_eq (tracking : d.Tracking lag) (missed : d.missedOutput client = some data) :
    ∃ cursor, d.session.deliveredOutputCursors client = some cursor ∧
      cursor + data.length = d.origin + d.output.length ∧
      d.stream cursor (cursor + data.length) = data := by
  unfold missedOutput Session.outputStreamRange at missed
  cases found : d.session.deliveredOutputCursors client with
  | none => simp [found] at missed
  | some cursor =>
    simp only [found] at missed
    obtain ⟨_, missed⟩ := of_when missed
    cases missed
    obtain ⟨started, ordered, reached, -⟩ := tracking.served client cursor found
    obtain ⟨before, older, within⟩ := tracking.ring
    have counted := tracking.position
    have size : d.session.buffer.toBytes.length = d.session.buffer.length :=
      d.session.buffer.toBytes_length
    have bounded := within.length_le
    simp only [length_append] at bounded
    have sliced : d.session.buffer.sliceFrom
        (cursor - (d.session.outputStreamBytes - d.session.buffer.length)) =
        d.session.buffer.toBytes.rtake (d.origin + d.output.length - cursor) := by
      rw [ScrollbackBuffer.sliceFrom_eq, List.rtake]
      congr 1
      omega
    have length : cursor + (d.session.buffer.sliceFrom
        (cursor - (d.session.outputStreamBytes - d.session.buffer.length))).length =
        d.origin + d.output.length := by
      rw [sliced, rtake_length]
      omega
    refine ⟨cursor, rfl, length, ?_⟩
    rw [length, sliced, rtake_eq_of_suffix within (by omega), rtake_append_of_le (by omega), stream_to_end (by omega)]

/-- Lifting a pause is sound for a client that is caught up. -/
theorem Tracking.unpause (tracking : d.Tracking lag)
    (found : d.session.deliveredOutputCursors client = some cursor)
    (behind : cursor + lag client = d.session.outputStreamBytes) :
    ({ d with session := d.session.setOutputPaused client false } : Delivery).Tracking lag := by
  refine ⟨tracking.position, tracking.ring, ?_, ?_⟩
  · intro other position placed
    exact (tracking.served other position placed).congr rfl rfl rfl rfl
  · intro other isLive
    by_cases same : other = client
    · subst same
      exact ⟨cursor, found, behind⟩
    · refine tracking.live other ?_
      simpa [Session.setOutputPaused, same] using isLive

theorem Flushed.resumeOutputForClient (flushed : Flushed d d') (fits : d'.Fits) (client : ClientId)
    (restoreBytes : Nat) (accepted : Bool) :
    (d'.resumeOutputForClient client restoreBytes (.ofAccepts accepted)).1.Consistent := by
  unfold Delivery.resumeOutputForClient
  cases missed : d'.missedOutput client with
  | none => exact flushed.resendOutputSnapshot client restoreBytes
  | some data =>
    obtain ⟨cursor, found, behind, continues⟩ := missedOutput_eq flushed.tracking missed
    have counted := flushed.tracking.position
    by_cases empty : data.isEmpty
    · have caughtUp : cursor + 0 = d'.session.outputStreamBytes := by
        rw [isEmpty_iff.mp empty] at behind
        rw [counted]
        exact behind
      simp only [empty, if_true]
      refine Flushed.consistent (d := d) ⟨?_, flushed.batch, flushed.output, flushed.origin⟩
      exact flushed.tracking.unpause found caughtUp
    · have sent := sendTerminalOutput_tracking accepted fits flushed.tracking found continues
        (Nat.le_of_eq behind)
      have level : (d'.sendTerminalOutput client data (.ofAccepts accepted)).1.Tracking
          fun _ => 0 := by
        refine sent.congr fun other _ => ?_
        by_cases same : other = client
        · simp
        · simp [same]
      simp only [empty, Bool.false_eq_true, if_false]
      cases accepted with
      | true =>
        have placed : (d'.session.advanceDeliveredOutputCursor client
            data.length).deliveredOutputCursors client = some (cursor + data.length) := by
          have advanced : saturatingAdd cursor data.length = cursor + data.length :=
            saturatingAdd_of_le (behind ▸ fits)
          simp [found, advanced]
        refine Flushed.consistent (d := d)
          ⟨level.unpause placed ?_, flushed.batch, flushed.output, flushed.origin⟩
        change cursor + data.length + 0 = d'.session.outputStreamBytes
        rw [counted]
        exact behind
      | false =>
        exact Flushed.consistent (d := d)
          ⟨level, flushed.batch, flushed.output, flushed.origin⟩

/-! ## Runs -/

theorem start_consistent (maxBytes : Nat) (initialScrollback : List UInt8)
    (initialOutputStreamBytes : Nat) (nextOutputSequence : Int) :
    (start maxBytes initialScrollback initialOutputStreamBytes nextOutputSequence).Consistent := by
  refine ⟨⟨?_, ⟨initialScrollback, Nat.le_max_right _ _, ?_⟩, ?_, ?_⟩, ?_⟩
  · simp [start]
  · change (ScrollbackBuffer.new maxBytes initialScrollback).toBytes <:+ initialScrollback ++ []
    rw [ScrollbackBuffer.new_toBytes, append_nil]
    exact rtake_suffix _ _
  · intro client cursor found
    simp [start] at found
  · intro client isLive
    simp [start, Session.outputClients] at isLive
  · exact suffix_rfl

theorem resumeOutputForClient_frame (d : Delivery) (client : ClientId) (restoreBytes : Nat)
    (result : SendResult) :
    (d.resumeOutputForClient client restoreBytes result).1.output = d.output ∧
      (d.resumeOutputForClient client restoreBytes result).1.origin = d.origin := by
  unfold resumeOutputForClient
  cases d.missedOutput client with
  | none => exact ⟨rfl, rfl⟩
  | some data =>
    by_cases empty : data.isEmpty
    · simp [empty]
    · simp only [empty, Bool.false_eq_true, if_false]
      split <;> simp

variable {restoreBytes : Nat} {event : DeliveryEvent}

/-- Events keep the origin and only ever add to the output. -/
theorem step_grows (stepped : d.step restoreBytes event = some d') :
    d'.origin = d.origin ∧ d.output.length ≤ d'.output.length := by
  cases event with
  | ptyOutput data =>
    cases stepped
    simp
  | flushOutputBatch order accepts =>
    obtain ⟨output, origin, -⟩ := flushOutputBatch_frame stepped
    exact ⟨origin, by rw [output]⟩
  | attach client order accepts durable =>
    simp only [step, flushAllOutput, Option.map_map, Option.map_eq_some_iff] at stepped
    obtain ⟨flushed, flush, rfl⟩ := stepped
    obtain ⟨output, origin, -⟩ := flushOutputBatch_frame flush
    exact ⟨origin, Nat.le_of_eq (congrArg List.length output).symm⟩
  | setOutputPaused client paused order accepts durable deltaAccepted =>
    simp only [step, flushAllOutput, Option.map_map, Option.map_eq_some_iff] at stepped
    obtain ⟨flushed, flush, rfl⟩ := stepped
    obtain ⟨output, origin, -⟩ := flushOutputBatch_frame flush
    cases paused with
    | true => exact ⟨origin, Nat.le_of_eq (congrArg List.length output).symm⟩
    | false =>
      obtain ⟨sameOutput, sameOrigin⟩ := resumeOutputForClient_frame
        { flushed with session := { flushed.session with durable := durable } } client
        restoreBytes (.ofAccepts deltaAccepted)
      exact ⟨sameOrigin.trans origin,
        Nat.le_of_eq (congrArg List.length (sameOutput.trans output)).symm⟩
  | outputResyncTick client accepted =>
    cases stepped
    unfold handleOutputResyncTick
    split
    · simp
    · cases accepted <;> simp
  | attachForResync client | detach client | setMaxBytes maxBytes =>
    cases stepped
    simp

/-- A state within the limit was reached through states within the limit. -/
theorem step_fits (stepped : d.step restoreBytes event = some d') (fits : d'.Fits) : d.Fits := by
  obtain ⟨origin, grown⟩ := step_grows stepped
  unfold Fits at fits ⊢
  omega

theorem handleOutputResyncTick_consistent (consistent : d.Consistent) (client : ClientId)
    (result : SendResult) :
    (d.handleOutputResyncTick client result).Consistent := by
  unfold handleOutputResyncTick
  split
  · exact consistent
  · obtain ⟨tracking, batched⟩ := consistent
    cases result with
    | ok | full | closed => exact ⟨tracking.unmoved rfl rfl rfl rfl rfl rfl rfl rfl, batched⟩

theorem step_consistent (consistent : d.Consistent) (fits : d'.Fits)
    (stepped : d.step restoreBytes event = some d') :
    d'.Consistent := by
  have before : d.Fits := step_fits stepped fits
  cases event with
  | ptyOutput data =>
    cases stepped
    exact appendOutput_consistent consistent fits
  | flushOutputBatch order accepts =>
    exact (flushOutputBatch_flushed before consistent stepped).consistent
  | attach client order accepts durable =>
    obtain ⟨middle, flush, rfl⟩ := of_map stepped
    exact (flushAllOutput_flushed before consistent flush).attach client
  | setOutputPaused client paused order accepts durable deltaAccepted =>
    obtain ⟨middle, flush, rfl⟩ := of_map stepped
    have flushed := flushAllOutput_flushed before consistent flush
    cases paused with
    | true =>
      obtain ⟨tracking, batched⟩ := flushed.consistent
      refine ⟨tracking.restrict rfl rfl rfl rfl rfl suffix_rfl (fun _ _ h => h) ?_, batched⟩
      intro other isLive
      refine ⟨?_, rfl⟩
      simp only [setOutputPausedForClient, if_true, Session.mem_outputClients,
        Session.setOutputPaused, Finset.mem_insert, not_or] at isLive ⊢
      exact ⟨isLive.1, isLive.2.2⟩
    | false =>
      refine flushed.resumeOutputForClient ?_ client restoreBytes deltaAccepted
      unfold Fits at before ⊢
      rwa [flushed.origin, flushed.output]
  | outputResyncTick client accepted =>
    cases stepped
    exact handleOutputResyncTick_consistent consistent client _
  | attachForResync client | detach client =>
    cases stepped
    obtain ⟨tracking, batched⟩ := consistent
    refine ⟨tracking.restrict rfl rfl rfl rfl rfl suffix_rfl ?_ ?_, batched⟩
    · intro other cursor found
      by_cases same : other = client
      · simp [same] at found
      · simpa [same] using found
    · intro other isLive
      by_cases same : other = client
      · simp [same] at isLive
      · simpa [same] using isLive
  | setMaxBytes maxBytes =>
    cases stepped
    obtain ⟨tracking, batched⟩ := consistent
    refine ⟨tracking.restrict rfl rfl rfl rfl rfl ?_ (fun _ _ h => h) (fun _ h => ⟨h, rfl⟩), batched⟩
    change (d.session.buffer.setMaxBytes maxBytes).toBytes <:+ _
    rw [ScrollbackBuffer.setMaxBytes_toBytes]
    exact rtake_suffix _ _

/-- Every state a session reaches within the limit is consistent. -/
theorem run_consistent {maxBytes initialOutputStreamBytes : Nat} {initialScrollback : List UInt8}
    {nextOutputSequence : Int} {events : List DeliveryEvent}
    (ran : run (step restoreBytes) (start maxBytes initialScrollback initialOutputStreamBytes nextOutputSequence) events = some d)
    (fits : d.Fits) : d.Consistent := by
  refine run_invariant (fun d => d.Fits → d.Consistent) ?_ events _ d
    (fun _ => start_consistent _ _ _ _) ran fits
  intro before event after holds stepped fits
  exact step_consistent (holds (step_fits stepped fits)) fits stepped

/-- What a client may rely on in a state: it was handed exactly the stream
between its last snapshot and its cursor, and while it is live it misses exactly
the coalesced batch. -/
def GapFree (d : Delivery) : Prop :=
  (∀ client ∈ d.session.clients, ∀ cursor,
      d.session.deliveredOutputCursors client = some cursor →
        d.origin ≤ d.snapshotAt client ∧ d.snapshotAt client ≤ cursor ∧
          cursor ≤ d.origin + d.output.length ∧
          (d.delivered client).flatten = d.stream (d.snapshotAt client) cursor) ∧
    ∀ client ∈ d.session.clients, client ∉ d.session.outputPausedClients → ∃ cursor,
      d.session.deliveredOutputCursors client = some cursor ∧
        cursor + d.session.outputBatch.length = d.session.outputStreamBytes

/-- **Delivery is gap-free and duplicate-free.**  In every state of every run,
whatever the queues answered, as long as the stream position stays within `u64`. -/
theorem delivery_gapFree (restoreBytes maxBytes initialOutputStreamBytes : Nat)
    (initialScrollback : List UInt8) (nextOutputSequence : Int) (events : List DeliveryEvent)
    (d : Delivery)
    (ran : run (step restoreBytes)
      (start maxBytes initialScrollback initialOutputStreamBytes nextOutputSequence) events = some d)
    (fits : max initialOutputStreamBytes initialScrollback.length + d.output.length ≤ u64Max) :
    d.GapFree := by
  have origin : d.origin = max initialOutputStreamBytes initialScrollback.length := by
    refine run_invariant
      (fun d => d.origin = max initialOutputStreamBytes initialScrollback.length)
      ?_ events _ d rfl ran
    intro before event after same stepped
    exact (step_grows stepped).1.trans same
  have consistent := run_consistent ran (by rw [Fits, origin]; exact fits)
  refine ⟨?_, ?_⟩
  · intro client _ cursor found
    obtain ⟨started, ordered, reached, exact⟩ := consistent.tracking.served client cursor found
    exact ⟨started, ordered, reached, exact⟩
  · intro client attached unpaused
    exact consistent.tracking.live client (Session.mem_outputClients.mpr ⟨attached, unpaused⟩)

/-- One client attaches, falls behind on a full queue, and catches up. -/
def catchUpRun : List DeliveryEvent :=
  [.attach 1 [] (fun _ => true) ⟨[], 0, false, 0, []⟩,
    .ptyOutput [104, 105],
    .flushOutputBatch [1] (fun _ => false),
    .ptyOutput [33], .setOutputPaused 1 false [] (fun _ => true) ⟨[], 0, false, 0, []⟩ true]

theorem delivery_gapFree_catchUpRun :
    ∃ d, run (step 16) (start 8 [36] 5 0) catchUpRun = some d ∧ d.output = [104, 105, 33] ∧
      d.delivered 1 = [[104, 105, 33]] ∧ d.GapFree := by
  refine ⟨_, rfl, rfl, rfl, ?_⟩
  exact delivery_gapFree 16 8 5 [36] 0 catchUpRun _ rfl (by decide)

/-- At the limit the stream counter stops while the batch keeps growing: a live
client's cursor and the batch no longer add up to the stream position. -/
theorem saturated_stream_breaks_delivery :
    ¬ ∀ (restoreBytes maxBytes initialOutputStreamBytes : Nat) (initialScrollback : List UInt8)
        (nextOutputSequence : Int) (events : List DeliveryEvent) (d : Delivery),
        initialOutputStreamBytes ≤ u64Max →
        run (step restoreBytes)
          (start maxBytes initialScrollback initialOutputStreamBytes nextOutputSequence) events =
            some d →
        d.GapFree := by
  intro always
  have broken := always 16 8 (u64Max - 1) [] 0
    [.attach 1 [] (fun _ => true) ⟨[], 0, false, 0, []⟩, .ptyOutput [104, 105]] _ (by decide) rfl
  obtain ⟨cursor, found, added⟩ := broken.2 1 (by decide) (by decide)
  have placed : some (u64Max - 1) = some cursor := found
  have total : cursor + 2 = u64Max := added
  rw [← Option.some.inj placed] at total
  exact absurd total (by decide)

end Delivery

end Alera.Terminal
