/-
# Alera.Terminal.HistoryWriter -- the history store and its serial writer

`rust/alera-cli/src/terminal_host/server/history_writer.rs`.  The actor side
(`tryEnqueue`, `pollCompleted`) and the worker task share a bounded request
queue and one completion channel per request.  A channel is named by the number
it was created under and its state is kept with the pending write that holds
its receiver.

The worker runs concurrently, so each of its await points is a step of its own:
receive a request, attempt the write, report the result, wake the actor, hand
the queue back after a failure, drop the receiver.

`Coherent` says which pending writes are answered: the ones the worker is done
with come first and carry an answer, the ones it holds or has not received yet
follow in the queue's order and carry none.  While the worker is `serving`, no
answer is a failure.
-/
import Alera.Theory.Runs
import Alera.Terminal.Session

namespace Alera.Terminal

open Theory List

set_option autoImplicit false

/-! ## Persisted output chunks, keyed by sequence

`rust/alera-cli/src/terminal_host/history_store.rs`, the `outputChunks` rows of
one session in insertion order and whether its checkpoint row exists.

`appendOutput` is the source's idempotent append: one conditional `INSERT`, and
when it inserts nothing, a `SELECT` that compares the bytes already under the
sequence.  A durable write can report an error after SQLite has committed, so
the caller names where the call fails (`WriteFault`).

`numbered first log` is the chunk list whose sequences count up from `first`;
the rest of the module is what a store whose rows are such a list does with the
next write (`appendOutput_numbered`).
-/

/-- The `outputChunks` rows of one session, with its `checkpoints` row. -/
structure HistoryStore where
  checkpoint : Bool
  rows : List DurableOutputBatch
  deriving DecidableEq, Repr

/-- Where a call to the database fails, if it does, and the error it reports. -/
inductive WriteFault where
  | none
  /-- The `INSERT` fails and nothing was committed. -/
  | beforeCommit (error : String)
  /-- The `INSERT` committed and its result is lost. -/
  | afterCommit (error : String)
  /-- The comparing `SELECT` fails. -/
  | onSelect (error : String)
  deriving DecidableEq, Repr

namespace HistoryStore

/-- `upsert`, as far as `append_output` can see it. -/
def upsert (store : HistoryStore) : HistoryStore := { store with checkpoint := true }

/-- The conditional `INSERT` of `append_output`; answers whether a row went in. -/
def insertIfAbsent (store : HistoryStore) (batch : DurableOutputBatch) : HistoryStore × Bool :=
  if store.checkpoint && store.rows.all fun row => row.sequence != batch.sequence then
    ({ store with rows := store.rows ++ [batch] }, true)
  else
    (store, false)

/-- The rows of the comparing `SELECT` in `append_output`. -/
def existingRows (store : HistoryStore) (sequence : Int) : List DurableOutputBatch :=
  if store.checkpoint then store.rows.filter fun row => row.sequence == sequence else []

/-- `append_output`. -/
def appendOutput (store : HistoryStore) (sessionId : String) (batch : DurableOutputBatch)
    (fault : WriteFault) : HistoryStore × Except String Unit :=
  if batch.data.isEmpty then
    (store, .ok ())
  else
    match fault with
    | .beforeCommit error => (store, .error error)
    | .afterCommit error => ((store.insertIfAbsent batch).1, .error error)
    | _ =>
      let inserted := store.insertIfAbsent batch
      if inserted.2 then
        (inserted.1, .ok ())
      else
        match fault with
        | .onSelect error => (store, .error error)
        | _ =>
          if (store.existingRows batch.sequence).all fun row => row.data == batch.data then
            (store, .ok ())
          else
            (store, .error
              s!"history output conflict for session {sessionId} at sequence {batch.sequence}")

/-- `next_output_sequence`. -/
def nextOutputSequence (store : HistoryStore) : Int :=
  saturatingSucc ((store.rows.map DurableOutputBatch.sequence).max?.getD (-1))

end HistoryStore

/-! ## Consecutively numbered batches -/

/-- The batches `log` cut in order, under sequences counting up from `first`. -/
def numbered (first : Int) (log : List (List UInt8)) : List DurableOutputBatch :=
  log.mapIdx fun i data => ⟨data, first + i⟩

@[simp] theorem numbered_length (first : Int) (log : List (List UInt8)) :
    (numbered first log).length = log.length := by simp [numbered]

theorem numbered_append (first : Int) (log later : List (List UInt8)) :
    numbered first (log ++ later) = numbered first log ++ numbered (first + log.length) later := by
  simp only [numbered, mapIdx_append, append_cancel_left_eq]
  refine ext_getElem (by simp) fun i _ _ => ?_
  simp only [getElem_mapIdx, DurableOutputBatch.mk.injEq, true_and]
  omega

theorem getElem?_numbered (first : Int) (log : List (List UInt8)) (i : Nat) :
    (numbered first log)[i]? = log[i]?.map fun data => ⟨data, first + i⟩ := by
  simp [numbered]

theorem numbered_data (first : Int) (log : List (List UInt8)) :
    (numbered first log).map DurableOutputBatch.data = log := by
  refine ext_getElem (by simp) fun i _ _ => ?_
  simp [numbered]

section

variable {first : Int} {log : List (List UInt8)} {batch : DurableOutputBatch}

/-- A batch of the list is its entry at some index. -/
theorem mem_numbered :
    batch ∈ numbered first log ↔ ∃ i : Nat, log[i]? = some batch.data ∧ batch.sequence = first + i := by
  rw [mem_iff_getElem?]
  constructor
  · rintro ⟨i, found⟩
    rw [getElem?_numbered, Option.map_eq_some_iff] at found
    obtain ⟨data, atIndex, rfl⟩ := found
    exact ⟨i, atIndex, rfl⟩
  · rintro ⟨i, atIndex, counted⟩
    refine ⟨i, ?_⟩
    rw [getElem?_numbered, atIndex, Option.map_some, ← counted]

/-- Within one numbered list a sequence determines the batch. -/
theorem numbered_sequence_inj {x y : DurableOutputBatch} (hx : x ∈ numbered first log)
    (hy : y ∈ numbered first log) (same : x.sequence = y.sequence) : x = y := by
  obtain ⟨i, atI, countedI⟩ := mem_numbered.mp hx
  obtain ⟨j, atJ, countedJ⟩ := mem_numbered.mp hy
  cases x
  cases y
  simp_all

/-! ### Segments -/

/-- The batches at positions `i, …, j - 1`. -/
def segment (first : Int) (log : List (List UInt8)) (i j : Nat) : List DurableOutputBatch :=
  slice (numbered first log) i j

variable {i j : Nat}

theorem segment_subset (inside : batch ∈ segment first log i j) : batch ∈ numbered first log :=
  mem_of_mem_drop (mem_of_mem_take inside)

theorem mem_segment :
    batch ∈ segment first log i j ↔
      ∃ t : Nat, i ≤ t ∧ t < j ∧ log[t]? = some batch.data ∧ batch.sequence = first + t := by
  rw [segment, slice, mem_iff_getElem?]
  constructor
  · rintro ⟨t, found⟩
    obtain ⟨within, atIndex⟩ : t < j - i ∧ (numbered first log)[i + t]? = some batch := by
      rw [getElem?_take] at found
      split at found
      · exact ⟨‹_›, by rwa [getElem?_drop] at found⟩
      · cases found
    rw [getElem?_numbered, Option.map_eq_some_iff] at atIndex
    obtain ⟨data, entry, rfl⟩ := atIndex
    exact ⟨i + t, by omega, by omega, entry, by simp⟩
  · rintro ⟨t, after, before, entry, counted⟩
    refine ⟨t - i, ?_⟩
    have position : i + (t - i) = t := by omega
    rw [getElem?_take_of_lt (by omega), getElem?_drop, position, getElem?_numbered,
      entry, Option.map_some, ← counted]

variable {data : List UInt8}

/-- The first batch of a segment that is not empty. -/
theorem segment_cons (entry : log[i]? = some data) (before : i < j) :
    segment first log i j = ⟨data, first + i⟩ :: segment first log (i + 1) j := by
  have total : j - i = (j - (i + 1)) + 1 := by omega
  rw [segment, slice, drop_eq_getElem?_toList_append, getElem?_numbered, entry, Option.map_some, total]
  rfl

theorem segment_self (first : Int) (log : List (List UInt8)) (i : Nat) :
    segment first log i i = [] :=
  slice_self _ _

variable {k : Nat}

theorem segment_append_segment (first : Int) (log : List (List UInt8)) (ij : i ≤ j) (jk : j ≤ k) :
    segment first log i j ++ segment first log j k = segment first log i k :=
  slice_append_slice _ ij jk

/-- Cutting a later batch changes no segment of the earlier ones. -/
theorem segment_of_append (later : List (List UInt8)) (within : j ≤ log.length) :
    segment first (log ++ later) i j = segment first log i j := by
  rw [segment, numbered_append]
  exact slice_append_left _ (by simpa using within)

theorem segment_zero_length (first : Int) (log : List (List UInt8)) :
    segment first log 0 log.length = numbered first log := by
  rw [segment, slice, drop_zero, Nat.sub_zero,
    take_of_length_le (Nat.le_of_eq (numbered_length first log))]

theorem segment_length (first : Int) (i : Nat) (within : j ≤ log.length) :
    (segment first log i j).length = j - i := by
  rw [segment, slice, length_take, length_drop, numbered_length]
  omega

theorem segment_eq_nil_iff (within : j ≤ log.length) : segment first log i j = [] ↔ j ≤ i := by
  rw [← length_eq_zero_iff, segment_length first i within, Nat.sub_eq_zero_iff_le]

/-- Cutting a segment in two cuts it at a position. -/
theorem segment_eq_append {front back : List DurableOutputBatch} (ordered : i ≤ j)
    (within : j ≤ log.length) (split : segment first log i j = front ++ back) :
    i + front.length ≤ j ∧ front = segment first log i (i + front.length) ∧
      back = segment first log (i + front.length) j := by
  have total := congrArg List.length split
  rw [segment_length first i within, length_append] at total
  have middle : i + front.length ≤ j := by omega
  have again := segment_append_segment first log (Nat.le_add_right i front.length) middle
  rw [split] at again
  have lengths : (segment first log i (i + front.length)).length = front.length := by
    rw [segment_length first i (Nat.le_trans middle within)]
    omega
  obtain ⟨sameFront, sameBack⟩ := append_inj again lengths
  exact ⟨middle, sameFront.symm, sameBack.symm⟩

/-- The head of a segment is the batch at its first position. -/
theorem segment_eq_cons {rest : List DurableOutputBatch} (within : j ≤ log.length)
    (split : segment first log i j = batch :: rest) :
    i < j ∧ log[i]? = some batch.data ∧ batch.sequence = first + i ∧
      rest = segment first log (i + 1) j := by
  have before : i < j := by
    by_contra past
    rw [(segment_eq_nil_iff within).mpr (Nat.le_of_not_lt past)] at split
    cases split
  have entry : log[i]? = some log[i] := getElem?_eq_getElem (Nat.lt_of_lt_of_le before within)
  rw [segment_cons entry before] at split
  obtain ⟨rfl, rfl⟩ := List.cons.inj split
  exact ⟨before, entry, rfl, rfl⟩

/-! ### Appending to a numbered store -/

/-- Inserting any batch up to the next one leaves it persisted, under rows that
are still consecutive. -/
theorem insertIfAbsent_numbered {store : HistoryStore} (checkpoint : store.checkpoint = true)
    (rows : store.rows = segment first log 0 k) (within : k ≤ log.length)
    (entry : log[i]? = some data) (inOrder : i ≤ k) :
    ∃ k', k ≤ k' ∧ k' ≤ log.length ∧ i < k' ∧
      (store.insertIfAbsent ⟨data, first + i⟩).1 = ⟨true, segment first log 0 k'⟩ := by
  have bound : i < log.length := (List.getElem?_eq_some_iff.mp entry).1
  obtain ⟨checkpointed, persisted⟩ := store
  subst checkpoint rows
  unfold HistoryStore.insertIfAbsent
  by_cases already : i < k
  · have member : (⟨data, first + i⟩ : DurableOutputBatch) ∈ segment first log 0 k :=
      mem_segment.mpr ⟨i, Nat.zero_le _, already, entry, rfl⟩
    have occupied : ((segment first log 0 k).all fun row => row.sequence != first + i) = false := by
      rw [all_eq_false]
      exact ⟨_, member, by simp⟩
    refine ⟨k, Nat.le_refl _, within, already, ?_⟩
    simp [occupied]
  · have next : i = k := by omega
    subst next
    have vacant : ((segment first log 0 i).all fun row => row.sequence != first + i) = true := by
      rw [all_eq_true]
      intro row inRows
      obtain ⟨t, -, before, -, counted⟩ := mem_segment.mp inRows
      have apart : row.sequence ≠ first + i := by omega
      simpa using apart
    refine ⟨i + 1, Nat.le_succ _, bound, Nat.lt_succ_self _, ?_⟩
    simp only [vacant, Bool.and_true, if_true]
    rw [← segment_append_segment first log (Nat.zero_le i) (Nat.le_succ i),
      segment_cons entry (Nat.lt_succ_self i), segment_self]

/-- **An append in order keeps the rows consecutive.**  A store that persists the
first `k` batches, asked to append any batch up to the `k`-th, still persists
consecutive batches whatever fails, and answers success only once that batch is
among them. -/
theorem appendOutput_numbered {store : HistoryStore} (sessionId : String) (fault : WriteFault)
    (checkpoint : store.checkpoint = true) (rows : store.rows = segment first log 0 k)
    (within : k ≤ log.length) (entry : log[i]? = some data) (inOrder : i ≤ k) (nonempty : data ≠ []) :
    ∃ k', k ≤ k' ∧ k' ≤ log.length ∧
      (store.appendOutput sessionId ⟨data, first + i⟩ fault).1 = ⟨true, segment first log 0 k'⟩ ∧
      ((store.appendOutput sessionId ⟨data, first + i⟩ fault).2 = .ok () → i < k') := by
  have unchanged : store = ⟨true, segment first log 0 k⟩ := by
    rw [← checkpoint, ← rows]
  have full : data.isEmpty = false := by simpa using nonempty
  obtain ⟨k', grows, bounded, persisted, inserted⟩ :=
    insertIfAbsent_numbered checkpoint rows within entry inOrder
  unfold HistoryStore.appendOutput
  simp only [full, Bool.false_eq_true, if_false]
  -- When nothing was inserted, the batch was there before the call.
  have kept : (store.insertIfAbsent ⟨data, first + i⟩).2 = false → i < k := by
    intro absent
    have same : (store.insertIfAbsent ⟨data, first + i⟩).1 = store := by
      unfold HistoryStore.insertIfAbsent at absent ⊢
      split at absent
      · cases absent
      · rw [if_neg ‹_›]
    rw [same, unchanged] at inserted
    have lengths := congrArg (fun store : HistoryStore => store.rows.length) inserted
    simp only [segment_length _ _ within, segment_length _ _ bounded] at lengths
    omega
  cases fault with
  | beforeCommit error => exact ⟨k, Nat.le_refl _, within, unchanged, by simp⟩
  | afterCommit error => exact ⟨k', grows, bounded, inserted, by simp⟩
  | _ =>
    by_cases wrote : (store.insertIfAbsent ⟨data, first + i⟩).2 = true
    · simp only [wrote, if_true]
      exact ⟨k', grows, bounded, inserted, fun _ => persisted⟩
    · have absent := Bool.eq_false_of_not_eq_true wrote
      simp only [absent, Bool.false_eq_true, if_false]
      refine ⟨k, Nat.le_refl _, within, ?_, fun _ => kept absent⟩
      first
      | exact unchanged
      | split <;> exact unchanged

end

/-! ## The writer -/

/-- `HISTORY_WRITER_QUEUE_CAPACITY`. -/
def historyWriterQueueCapacity : Nat := 7

/-- `HISTORY_WRITER_MAX_PENDING`. -/
def historyWriterMaxPending : Nat := historyWriterQueueCapacity + 1

/-- `HISTORY_WRITE_MAX_ATTEMPTS`. -/
def historyWriteMaxAttempts : Nat := 3

/-- `HistoryWriteFailure`. -/
structure HistoryWriteFailure where
  batch : DurableOutputBatch
  error : String
  deriving DecidableEq, Repr

/-- What the receiver of a completion channel finds in it. -/
inductive Completion where
  | empty
  | written
  | failed (failure : HistoryWriteFailure)
  /-- The sender is gone without an answer. -/
  | closed
  deriving DecidableEq, Repr

/-- `HistoryWriteRequest`, with the channel its sender belongs to. -/
structure HistoryWriteRequest where
  channel : Nat
  batch : DurableOutputBatch
  deriving DecidableEq, Repr

/-- `PendingWrite`, with the state of the channel its receiver belongs to. -/
structure PendingWrite where
  channel : Nat
  batch : DurableOutputBatch
  completion : Completion
  deriving DecidableEq, Repr

/-- The pending write of a request nobody has answered. -/
def PendingWrite.awaiting (request : HistoryWriteRequest) : PendingWrite :=
  ⟨request.channel, request.batch, .empty⟩

/-- The answer says that the batch may not be persisted. -/
def PendingWrite.outstanding (write : PendingWrite) : Bool :=
  match write.completion with
  | .written => false
  | _ => true

open PendingWrite (awaiting batch channel)

/-- Where the worker task stands. -/
inductive HistoryWorker where
  /-- In `receiver.recv()`. -/
  | receiving
  /-- In `append_with_retries`, before the attempt with this number. -/
  | writing (request : HistoryWriteRequest) (attempt : Nat)
  /-- `append_with_retries` returned; the result is not sent yet. -/
  | reporting (request : HistoryWriteRequest) (result : Except String Unit)
  /-- In the `send_wait` after a report. -/
  | waking (failed : Bool)
  /-- In the loop that hands queued requests back after a failure. -/
  | returning
  /-- That loop found the queue empty; the receiver still exists. -/
  | leaving
  /-- The receiver was dropped. -/
  | stopped

namespace HistoryWorker

/-- The request the worker has received and not answered. -/
def current : HistoryWorker → Option HistoryWriteRequest
  | .writing request _ => some request
  | .reporting request _ => some request
  | _ => none

/-- The worker has reported no failure. -/
def serving : HistoryWorker → Bool
  | .receiving | .writing .. | .reporting .. | .waking false => true
  | _ => false

end HistoryWorker

/-- `OrderedHistoryWriter` together with its worker task and their queue. -/
structure OrderedHistoryWriter where
  /-- Whether `sender` is still there. -/
  sender : Bool
  pending : List PendingWrite
  queue : List HistoryWriteRequest
  worker : HistoryWorker
  lastEnqueuedSequence : Option Int
  failed : Bool
  /-- The name of the next completion channel. -/
  nextChannel : Nat

namespace OrderedHistoryWriter

/-- `new`. -/
def new : OrderedHistoryWriter where
  sender := true
  pending := []
  queue := []
  worker := .receiving
  lastEnqueuedSequence := none
  failed := false
  nextChannel := 0

/-! ## The actor's side -/

/-- `pending_len`. -/
def pendingLen (writer : OrderedHistoryWriter) : Nat := writer.pending.length

/-- The reason `try_enqueue` refuses a batch before it touches the queue. -/
def refusal (writer : OrderedHistoryWriter) (sessionId : String) (batch : DurableOutputBatch) :
    Option String :=
  if writer.failed then
    some "history writer is closed after a storage failure"
  else
    match writer.lastEnqueuedSequence.map saturatingSucc with
    | some expected =>
      if batch.sequence ≠ expected then
        some s!"history sequence gap for {sessionId}: expected {expected}, got {batch.sequence}"
      else capacity
    | none => capacity
where
  capacity : Option String :=
    if writer.pending.length ≥ historyWriterMaxPending then
      some "history writer queue is full"
    else if !writer.sender then
      some "history writer is closed"
    else none

/-- `try_enqueue`.  A refused batch is handed back with the reason. -/
def tryEnqueue (writer : OrderedHistoryWriter) (sessionId : String) (batch : DurableOutputBatch) :
    OrderedHistoryWriter × Except HistoryWriteFailure Unit :=
  match writer.refusal sessionId batch with
  | some error => (writer, .error ⟨batch, error⟩)
  | none =>
    match writer.worker with
    | .stopped =>
      ({ writer with failed := true }, .error ⟨batch, "history writer task stopped"⟩)
    | _ =>
      if writer.queue.length ≥ historyWriterQueueCapacity then
        (writer, .error ⟨batch, "history writer queue is full"⟩)
      else
        let request : HistoryWriteRequest := ⟨writer.nextChannel, batch⟩
        ({ writer with
            queue := writer.queue ++ [request]
            pending := writer.pending ++ [awaiting request]
            lastEnqueuedSequence := some batch.sequence
            nextChannel := writer.nextChannel + 1 },
          .ok ())

/-- The loop of `poll_completed`: the failures, what stays pending, and the
writer's failure flag. -/
def pollLoop : List PendingWrite → Bool → List HistoryWriteFailure × List PendingWrite × Bool
  | [], failed => ([], [], failed)
  | write :: rest, failed =>
    match write.completion with
    | .written => pollLoop rest failed
    | .failed failure =>
      let polled := pollLoop rest true
      (failure :: polled.1, polled.2)
    | .empty => ([], write :: rest, failed)
    | .closed =>
      let polled := pollLoop rest true
      (⟨write.batch, "history writer completion was dropped"⟩ :: polled.1, polled.2)

/-- `poll_completed`. -/
def pollCompleted (writer : OrderedHistoryWriter) :
    List HistoryWriteFailure × OrderedHistoryWriter :=
  let polled := pollLoop writer.pending writer.failed
  (polled.1, { writer with pending := polled.2.1, failed := polled.2.2 })

/-! ## The worker's side -/

/-- The state of one completion channel changes. -/
def complete (writer : OrderedHistoryWriter) (channel : Nat) (completion : Completion) :
    OrderedHistoryWriter :=
  { writer with
    pending := writer.pending.map fun write =>
      if write.channel = channel then { write with completion := completion } else write }

/-- `receiver.recv()` in the main loop. -/
def workerReceive (writer : OrderedHistoryWriter) : Option OrderedHistoryWriter :=
  match writer.worker, writer.queue with
  | .receiving, request :: rest =>
    some { writer with queue := rest, worker := .writing request 0 }
  | _, _ => none

/-- One attempt of `append_with_retries`, ending it or leaving the next one. -/
def workerAttempt (writer : OrderedHistoryWriter) (store : HistoryStore) (sessionId : String)
    (fault : WriteFault) : Option (OrderedHistoryWriter × HistoryStore) :=
  match writer.worker with
  | .writing request attempt =>
    let appended := store.appendOutput sessionId request.batch fault
    let worker :=
      match appended.2 with
      | .ok () => HistoryWorker.reporting request (.ok ())
      | .error error =>
        if attempt + 1 < historyWriteMaxAttempts then .writing request (attempt + 1)
        else .reporting request (.error error)
    some ({ writer with worker := worker }, appended.1)
  | _ => none

/-- `request.completion.send(result)`. -/
def workerReport (writer : OrderedHistoryWriter) : Option OrderedHistoryWriter :=
  match writer.worker with
  | .reporting request (.ok ()) =>
    some { writer.complete request.channel .written with worker := .waking false }
  | .reporting request (.error error) =>
    some { writer.complete request.channel (.failed ⟨request.batch, error⟩) with
      worker := .waking true }
  | _ => none

/-- The wake was delivered or dropped. -/
def workerResume (writer : OrderedHistoryWriter) : Option OrderedHistoryWriter :=
  match writer.worker with
  | .waking failed => some { writer with worker := if failed then .returning else .receiving }
  | _ => none

/-- One round of the loop that returns queued requests after a failure. -/
def workerReturn (writer : OrderedHistoryWriter) : Option OrderedHistoryWriter :=
  match writer.worker, writer.queue with
  | .returning, request :: rest =>
    some { writer.complete request.channel
        (.failed ⟨request.batch, "history writer stopped after a storage failure"⟩) with
      queue := rest }
  | .returning, [] => some { writer with worker := .leaving }
  | _, _ => none

/-- The task ends: whatever was enqueued since the loop found the queue empty is
dropped with the receiver. -/
def workerStop (writer : OrderedHistoryWriter) : Option OrderedHistoryWriter :=
  match writer.worker with
  | .leaving =>
    some { writer.queue.foldl (fun writer request => writer.complete request.channel .closed)
        writer with
      queue := []
      worker := .stopped }
  | _ => none

/-! ## Which pending writes are answered -/

/-- The requests nobody has answered, in the order they will be. -/
def unanswered (writer : OrderedHistoryWriter) : List HistoryWriteRequest :=
  writer.worker.current.toList ++ writer.queue

/-- The writer with `answered` as the pending writes the worker is done with. -/
structure Coherent (writer : OrderedHistoryWriter) (answered : List PendingWrite) : Prop where
  pending : writer.pending = answered ++ writer.unanswered.map awaiting
  answers : ∀ write ∈ answered, write.completion ≠ .empty
  copies : ∀ write ∈ answered, ∀ failure, write.completion = .failed failure →
    failure.batch = write.batch
  channels : (writer.pending.map channel).Nodup
  created : ∀ write ∈ writer.pending, write.channel < writer.nextChannel
  serving : writer.worker.serving = true →
    writer.failed = false ∧ ∀ write ∈ answered, write.completion = .written
  stopped : writer.worker = .stopped → writer.queue = []

/-- The batches that may not be persisted, in order. -/
def outstanding (writer : OrderedHistoryWriter) : List DurableOutputBatch :=
  (writer.pending.filter PendingWrite.outstanding).map batch

variable {writer : OrderedHistoryWriter} {answered : List PendingWrite}

attribute [local simp] unanswered HistoryWorker.current HistoryWorker.serving awaiting PendingWrite.outstanding

theorem Coherent.outstanding_eq (coherent : writer.Coherent answered) :
    writer.outstanding =
      (answered.filter PendingWrite.outstanding).map batch ++
        writer.unanswered.map HistoryWriteRequest.batch := by
  have waiting : ∀ requests : List HistoryWriteRequest,
      ((requests.map awaiting).filter PendingWrite.outstanding).map
        batch = requests.map HistoryWriteRequest.batch := by
    intro requests
    induction requests with
    | nil => rfl
    | cons request rest ih =>
      rw [map_cons, filter_cons_of_pos rfl, map_cons, ih]
      rfl
  rw [outstanding, coherent.pending, filter_append, map_append, waiting]

/-- While the worker serves, exactly the unanswered batches are outstanding. -/
theorem Coherent.outstanding_of_serving (coherent : writer.Coherent answered)
    (serving : writer.worker.serving = true) :
    writer.outstanding = writer.unanswered.map HistoryWriteRequest.batch := by
  have settled : answered.filter PendingWrite.outstanding = [] := by
    rw [filter_eq_nil_iff]
    intro write member
    simp [(coherent.serving serving).2 write member]
  rw [coherent.outstanding_eq, settled, map_nil, nil_append]

theorem coherent_new : new.Coherent [] where
  pending := rfl
  answers := by simp
  copies := by simp
  channels := nodup_nil
  created := by simp [new]
  serving := by simp [new]
  stopped := by simp [new]

/-! ### Enqueueing -/

/-- Everything `tryEnqueue` can do. -/
theorem tryEnqueue_cases (writer : OrderedHistoryWriter) (sessionId : String)
    (batch : DurableOutputBatch) :
    (∃ error, writer.tryEnqueue sessionId batch = (writer, .error ⟨batch, error⟩)) ∨
    (∃ error, writer.worker = .stopped ∧ writer.tryEnqueue sessionId batch =
      ({ writer with failed := true }, .error ⟨batch, error⟩)) ∨
    (writer.failed = false ∧ writer.worker ≠ .stopped ∧ writer.tryEnqueue sessionId batch =
      ({ writer with
          queue := writer.queue ++ [⟨writer.nextChannel, batch⟩]
          pending := writer.pending ++ [awaiting ⟨writer.nextChannel, batch⟩]
          lastEnqueuedSequence := some batch.sequence
          nextChannel := writer.nextChannel + 1 }, .ok ())) := by
  unfold tryEnqueue
  cases refused : writer.refusal sessionId batch with
  | some error => exact .inl ⟨error, rfl⟩
  | none =>
    have running : writer.failed = false := by
      by_contra stoppedByFailure
      rw [refusal, if_pos (Bool.eq_true_of_not_eq_false stoppedByFailure)] at refused
      cases refused
    dsimp only
    split
    · exact .inr (.inl ⟨_, ‹_›, rfl⟩)
    · rename_i open'
      split
      · exact .inl ⟨_, rfl⟩
      · exact .inr (.inr ⟨running, open', rfl⟩)

theorem Coherent.enqueue (coherent : writer.Coherent answered) (batch : DurableOutputBatch)
    (receiver : writer.worker ≠ .stopped) :
    ({ writer with
        queue := writer.queue ++ [⟨writer.nextChannel, batch⟩]
        pending := writer.pending ++ [awaiting ⟨writer.nextChannel, batch⟩]
        lastEnqueuedSequence := some batch.sequence
        nextChannel := writer.nextChannel + 1 } : OrderedHistoryWriter).Coherent answered where
  pending := by
    rw [coherent.pending]
    simp
  answers := coherent.answers
  copies := coherent.copies
  channels := by
    rw [map_append]
    refine List.Nodup.append coherent.channels (nodup_singleton _) ?_
    intro channel old fresh
    obtain ⟨write, member, rfl⟩ := mem_map.mp old
    have name : write.channel = writer.nextChannel := by
      simpa using fresh
    exact absurd name (Nat.ne_of_lt (coherent.created write member))
  created := forall_mem_snoc
    (fun write old => Nat.lt_succ_of_lt (coherent.created write old)) (Nat.lt_succ_self _)
  serving := coherent.serving
  stopped := fun ended => absurd ended receiver

/-! ### Polling -/

/-- Polling takes every answered write, in order, and stops at the first one
nobody has answered. -/
theorem pollLoop_answered (requests : List HistoryWriteRequest)
    (answers : ∀ write ∈ answered, write.completion ≠ .empty)
    (copies : ∀ write ∈ answered, ∀ failure, write.completion = .failed failure → failure.batch = write.batch)
    (failed : Bool) :
    (pollLoop (answered ++ requests.map awaiting) failed).1.map
        HistoryWriteFailure.batch =
      (answered.filter PendingWrite.outstanding).map batch ∧
    (pollLoop (answered ++ requests.map awaiting) failed).2 =
      (requests.map awaiting, failed || answered.any PendingWrite.outstanding) := by
  induction answered generalizing failed with
  | nil =>
    cases requests with
    | nil => simp [pollLoop]
    | cons request rest => simp [pollLoop]
  | cons write answered ih =>
    have rest := ih (fun w member => answers w (.tail _ member))
      (fun w member => copies w (.tail _ member))
    cases answer : write.completion with
    | empty => exact absurd answer (answers write (.head _))
    | written => simpa [pollLoop, answer] using rest failed
    | closed => simpa [pollLoop, answer] using rest true
    | failed failure =>
      have copy := copies write (.head _) failure answer
      simpa [pollLoop, answer, copy] using rest true

/-- What polling does to a coherent writer: the outstanding answers are returned
as failures and only unanswered writes stay. -/
theorem Coherent.poll (coherent : writer.Coherent answered) :
    writer.pollCompleted.1.map HistoryWriteFailure.batch =
        (answered.filter PendingWrite.outstanding).map batch ∧
      writer.pollCompleted.2 =
        { writer with
          pending := writer.unanswered.map awaiting
          failed := writer.failed || answered.any PendingWrite.outstanding } ∧
      writer.pollCompleted.2.Coherent [] := by
  obtain ⟨failures, remaining⟩ :=
    pollLoop_answered writer.unanswered coherent.answers coherent.copies writer.failed
  rw [← coherent.pending] at failures remaining
  have polled : writer.pollCompleted.2 =
      { writer with
        pending := writer.unanswered.map awaiting
        failed := writer.failed || answered.any PendingWrite.outstanding } := by
    rw [pollCompleted, remaining]
  refine ⟨failures, polled, ?_⟩
  have suffix : writer.unanswered.map awaiting <:+ writer.pending :=
    ⟨answered, coherent.pending.symm⟩
  rw [polled]
  refine ⟨rfl, by simp, by simp, ?_, ?_, ?_, coherent.stopped⟩
  · exact coherent.channels.sublist (suffix.sublist.map _)
  · intro write member
    exact coherent.created write (suffix.subset member)
  · intro serving
    obtain ⟨running, settled⟩ := coherent.serving serving
    have quiet : answered.any PendingWrite.outstanding = false := by
      rw [any_eq_false]
      intro write member
      simp [settled write member]
    exact ⟨by simp [running, quiet], by simp⟩

/-! ### Answering -/

variable {request : HistoryWriteRequest} {rest : List HistoryWriteRequest}

/-- An answer never changes which batch a pending write retains. -/
@[simp] theorem complete_batches (writer : OrderedHistoryWriter) (channel : Nat)
    (completion : Completion) :
    (writer.complete channel completion).pending.map batch =
      writer.pending.map batch := by
  rw [complete, map_map]
  refine map_congr_left fun write _ => ?_
  rw [Function.comp_apply]
  split <;> rfl

/-- Completing the channel of the first unanswered request touches no other
pending write, because channels are created once. -/
theorem complete_eq
    (pending : writer.pending = answered ++ (request :: rest).map awaiting)
    (channels : (writer.pending.map channel).Nodup) (completion : Completion) :
    writer.complete request.channel completion =
      { writer with
        pending := answered ++ [⟨request.channel, request.batch, completion⟩] ++
          rest.map awaiting } := by
  rw [pending, map_append] at channels
  obtain ⟨-, tailNodup, apart⟩ := nodup_append.mp channels
  have earlier : ∀ write ∈ answered, write.channel ≠ request.channel := by
    intro write member
    exact apart write.channel (mem_map_of_mem member) request.channel (.head _)
  have later : ∀ write ∈ rest.map awaiting, write.channel ≠ request.channel := by
    intro write member same
    have inTail : write.channel ∈ (rest.map awaiting).map channel :=
      mem_map_of_mem member
    rw [same] at inTail
    exact (nodup_cons.mp tailNodup).1 inTail
  have untouched : ∀ writes : List PendingWrite,
      (∀ write ∈ writes, write.channel ≠ request.channel) →
      (writes.map fun write => if write.channel = request.channel then
        { write with completion := completion } else write) = writes := by
    intro writes others
    refine (map_congr_left fun write member => ?_).trans (map_id _)
    rw [if_neg (others write member)]
    rfl
  rw [complete, pending, map_append, map_cons, map_cons, untouched _ earlier,
    untouched _ later]
  simp

variable {after : OrderedHistoryWriter}

section

variable (coherent : writer.Coherent answered)

include coherent

/-- The first unanswered request is answered. -/
theorem Coherent.answer {completion : Completion}
    (front : writer.unanswered = request :: rest) (answer : completion ≠ .empty)
    (copy : ∀ failure, completion = .failed failure → failure.batch = request.batch)
    (pending : after.pending = (writer.complete request.channel completion).pending)
    (nextChannel : after.nextChannel = writer.nextChannel) (remaining : after.unanswered = rest)
    (serving : after.worker.serving = true → writer.worker.serving = true ∧ after.failed = writer.failed ∧ completion = .written)
    (stopped : after.worker = .stopped → after.queue = []) :
    after.Coherent (answered ++ [⟨request.channel, request.batch, completion⟩]) := by
  have split := coherent.pending
  rw [front] at split
  rw [complete_eq split coherent.channels] at pending
  refine ⟨by rw [pending, remaining], ?_, ?_, ?_, ?_, ?_, stopped⟩
  · exact forall_mem_snoc coherent.answers answer
  · exact forall_mem_snoc coherent.copies copy
  · have channels := coherent.channels
    rw [split] at channels
    rw [pending]
    simpa using channels
  · intro write member
    rw [pending, append_assoc] at member
    rw [nextChannel]
    rcases mem_append.mp member with old | held
    · exact coherent.created write (split ▸ mem_append_left _ old)
    · have created : ∀ held ∈ (request :: rest).map awaiting,
          held.channel < writer.nextChannel := fun held member =>
        coherent.created held (split ▸ mem_append_right _ member)
      rcases mem_cons.mp held with rfl | later
      · exact created (awaiting request) (.head _)
      · exact created write (.tail _ later)
  · intro stillServing
    obtain ⟨was, kept, written⟩ := serving stillServing
    obtain ⟨running, settled⟩ := coherent.serving was
    exact ⟨kept.trans running, forall_mem_snoc settled written⟩

/-- An answer other than success leaves the request's batch outstanding. -/
theorem Coherent.outstanding_answer {completion : Completion}
    (front : writer.unanswered = request :: rest)
    (answeredLater : after.Coherent (answered ++ [⟨request.channel, request.batch, completion⟩]))
    (remaining : after.unanswered = rest) (unwritten : completion ≠ .written) :
    after.outstanding = writer.outstanding := by
  have still : PendingWrite.outstanding ⟨request.channel, request.batch, completion⟩ = true := by
    cases completion with
    | written => exact absurd rfl unwritten
    | _ => rfl
  rw [answeredLater.outstanding_eq, coherent.outstanding_eq, front, remaining, filter_append]
  simp

/-! ### Worker steps -/

/-- A worker step that answers nothing and keeps the order of the requests. -/
theorem Coherent.move (queue : List HistoryWriteRequest)
    (worker : HistoryWorker) (same : { writer with queue, worker }.unanswered = writer.unanswered)
    (serving : worker.serving = true → writer.worker.serving = true) (receiver : worker ≠ .stopped) :
    { writer with queue, worker }.Coherent answered where
  pending := by rw [same, coherent.pending]
  answers := coherent.answers
  copies := coherent.copies
  channels := coherent.channels
  created := coherent.created
  serving still := coherent.serving (serving still)
  stopped ended := absurd ended receiver

end

/-- What a step of the worker that persists nothing leaves behind. -/
structure Settles (writer after : OrderedHistoryWriter) : Prop where
  coherent : ∃ answered, after.Coherent answered
  outstanding : after.outstanding = writer.outstanding
  batches : after.pending.map batch = writer.pending.map batch
  failed : after.failed = writer.failed
  unreported : ∀ request, after.worker ≠ .reporting request (.ok ())

variable (coherent : writer.Coherent answered)

include coherent

/-- A failed answer to the first unanswered request, by a worker that serves no
more. -/
theorem Coherent.fail (front : writer.unanswered = request :: rest) (error : String)
    (pending : after.pending = (writer.complete request.channel (.failed ⟨request.batch, error⟩)).pending)
    (nextChannel : after.nextChannel = writer.nextChannel) (failed : after.failed = writer.failed)
    (remaining : after.unanswered = rest)
    (ended : (after.worker.serving || after.worker matches .stopped) = false) :
    writer.Settles after := by
  obtain ⟨idle, receiver⟩ := Bool.or_eq_false_iff.mp ended
  have later : after.Coherent
      (answered ++ [⟨request.channel, request.batch, .failed ⟨request.batch, error⟩⟩]) := by
    refine coherent.answer front (by simp) ?_ pending nextChannel remaining ?_ ?_
    · rintro failure ⟨⟩
      rfl
    · intro serving
      rw [idle] at serving
      cases serving
    · intro stopped
      rw [stopped] at receiver
      cases receiver
  refine ⟨⟨_, later⟩, coherent.outstanding_answer front later remaining (by simp), ?_, failed, ?_⟩
  · rw [pending, complete_batches]
  intro reported reporting
  rw [reporting] at idle
  cases idle

theorem Coherent.workerReceive
    (stepped : writer.workerReceive = some after) : writer.Settles after := by
  unfold OrderedHistoryWriter.workerReceive at stepped
  split at stepped
  · rename_i request rest receiving queued
    cases stepped
    have moved := coherent.move rest (.writing request 0)
      (by simp [receiving, queued])
      (by simp [receiving]) (by simp)
    exact ⟨⟨answered, moved⟩, rfl, rfl, rfl, by simp⟩
  · cases stepped

theorem Coherent.workerResume
    (stepped : writer.workerResume = some after) : writer.Settles after := by
  unfold OrderedHistoryWriter.workerResume at stepped
  split at stepped
  · rename_i failed waking
    cases stepped
    cases failed with
    | false =>
      have moved := coherent.move writer.queue .receiving
        (by simp [waking])
        (by simp [waking]) (by simp)
      exact ⟨⟨answered, moved⟩, rfl, rfl, rfl, by simp⟩
    | true =>
      have moved := coherent.move writer.queue .returning
        (by simp [waking]) (by simp)
        (by simp)
      exact ⟨⟨answered, moved⟩, rfl, rfl, rfl, by simp⟩
  · cases stepped

/-- An attempt writes the oldest unanswered batch, and the worker is about to
report success only if the store answered so. -/
theorem Coherent.workerAttempt {store stored : HistoryStore} {sessionId : String}
    {fault : WriteFault}
    (stepped : writer.workerAttempt store sessionId fault = some (after, stored)) :
    ∃ request rest, writer.worker.serving = true ∧ writer.unanswered = request :: rest ∧
      stored = (store.appendOutput sessionId request.batch fault).1 ∧
      after.Coherent answered ∧ after.outstanding = writer.outstanding ∧
      after.pending = writer.pending ∧ after.failed = writer.failed ∧
      ∀ reported, after.worker = .reporting reported (.ok ()) →
        (store.appendOutput sessionId request.batch fault).2 = .ok () := by
  unfold OrderedHistoryWriter.workerAttempt at stepped
  split at stepped
  · rename_i request attempt writing
    have front : writer.unanswered = request :: writer.queue := by
      simp [writing]
    have serving : writer.worker.serving = true := by simp [writing]
    obtain ⟨rfl, rfl⟩ : _ ∧ _ := by simpa using stepped
    refine ⟨request, writer.queue, serving, front, rfl, ?_⟩
    have moved (worker : HistoryWorker) (same : worker.current = some request) :=
      coherent.move writer.queue worker
        (by rw [front, unanswered, same]; rfl) fun _ => serving
    cases answer : (store.appendOutput sessionId request.batch fault).2 with
    | ok => exact ⟨moved (.reporting request (.ok ())) rfl (by simp), rfl, rfl, rfl, fun _ _ => rfl⟩
    | error error =>
      dsimp only
      split
      · exact ⟨moved (.writing request (attempt + 1)) rfl (by simp), rfl, rfl, rfl, by simp⟩
      · exact ⟨moved (.reporting request (.error error)) rfl (by simp), rfl, rfl, rfl, by simp⟩
  · cases stepped

/-- A report either answers the oldest unanswered request with success or
leaves its batch outstanding. -/
theorem Coherent.workerReport (stepped : writer.workerReport = some after) :
    (∃ request rest, writer.worker = .reporting request (.ok ()) ∧
      writer.unanswered = request :: rest ∧ (∃ answered, after.Coherent answered) ∧
      after.worker.serving = true ∧ after.unanswered = rest ∧
      after.pending.map batch = writer.pending.map batch ∧
      after.failed = writer.failed ∧ ∀ reported, after.worker ≠ .reporting reported (.ok ())) ∨
    writer.Settles after := by
  unfold OrderedHistoryWriter.workerReport at stepped
  split at stepped
  · rename_i request reporting
    have front : writer.unanswered = request :: writer.queue := by
      simp [reporting]
    cases stepped
    refine .inl ⟨request, writer.queue, reporting, front, ?_, rfl, ?_, complete_batches _ _ _, rfl,
      by simp⟩
    · refine ⟨_, coherent.answer front (by simp) (by simp) rfl rfl ?_ ?_ (by simp)⟩
      · simp [complete]
      · intro _
        exact ⟨by simp [reporting], rfl, rfl⟩
    · simp [complete]
  · rename_i request error reporting
    have front : writer.unanswered = request :: writer.queue := by
      simp [reporting]
    cases stepped
    refine .inr (coherent.fail front error rfl rfl rfl ?_ rfl)
    simp [complete]
  · cases stepped

theorem Coherent.workerReturn
    (stepped : writer.workerReturn = some after) : writer.Settles after := by
  unfold OrderedHistoryWriter.workerReturn at stepped
  split at stepped
  · rename_i request rest returning queued
    have front : writer.unanswered = request :: rest := by
      simp [returning, queued]
    cases stepped
    refine coherent.fail front _ rfl rfl rfl ?_ ?_
    · simp [returning, complete]
    · simp [complete, returning]
  · rename_i returning queued
    cases stepped
    have moved := coherent.move writer.queue .leaving
      (by simp [returning]) (by simp)
      (by simp)
    exact ⟨⟨answered, moved⟩, rfl, rfl, rfl, by simp⟩
  · cases stepped

omit coherent

/-! #### Dropping the receiver -/

/-- The pending write of a request that was dropped with the receiver. -/
def dropped (request : HistoryWriteRequest) : PendingWrite :=
  ⟨request.channel, request.batch, .closed⟩

/-- Dropping queued requests one after another closes exactly their channels. -/
theorem drop_eq {requests : List HistoryWriteRequest}
    (pending : writer.pending = answered ++ requests.map awaiting)
    (channels : (writer.pending.map channel).Nodup) :
    requests.foldl (fun writer request => writer.complete request.channel .closed) writer =
      { writer with pending := answered ++ requests.map dropped } := by
  induction requests generalizing writer answered with
  | nil =>
    rw [map_nil] at pending ⊢
    rw [foldl_nil, ← pending]
  | cons request rest ih =>
    have first := complete_eq pending channels .closed
    have nodup : ((writer.complete request.channel .closed).pending.map
        channel).Nodup := by
      rw [pending] at channels
      rw [first]
      simpa using channels
    rw [foldl_cons, ih (by rw [first]) nodup, first]
    simp [dropped]

theorem Coherent.workerStop (coherent : writer.Coherent answered)
    (stepped : writer.workerStop = some after) : writer.Settles after := by
  unfold OrderedHistoryWriter.workerStop at stepped
  split at stepped
  · rename_i leaving
    have waiting : writer.unanswered = writer.queue := by
      simp [leaving]
    have split := coherent.pending
    rw [waiting] at split
    rw [drop_eq split coherent.channels] at stepped
    cases stepped
    have stopped : ({ writer with
        pending := answered ++ writer.queue.map dropped
        queue := []
        worker := .stopped } : OrderedHistoryWriter).Coherent
          (answered ++ writer.queue.map dropped) := by
      refine ⟨by simp, ?_, ?_, ?_, ?_, ?_, fun _ => rfl⟩
      · intro write member
        rcases mem_append.mp member with old | fresh
        · exact coherent.answers write old
        · obtain ⟨request, -, rfl⟩ := mem_map.mp fresh
          simp [dropped]
      · intro write member failure failed
        rcases mem_append.mp member with old | fresh
        · exact coherent.copies write old failure failed
        · obtain ⟨request, -, rfl⟩ := mem_map.mp fresh
          cases failed
      · have channels := coherent.channels
        rw [split] at channels
        simpa [Function.comp_def, dropped] using channels
      · intro write member
        rcases mem_append.mp member with old | fresh
        · exact coherent.created write (split ▸ mem_append_left _ old)
        · obtain ⟨request, queued, rfl⟩ := mem_map.mp fresh
          exact coherent.created (awaiting request)
            (split ▸ mem_append_right _ (mem_map_of_mem queued))
      · simp
    refine ⟨⟨_, stopped⟩, ?_, ?_, rfl, by simp⟩
    swap
    · simp [split, Function.comp_def, dropped]
    have unanswered : ∀ requests : List HistoryWriteRequest,
        (requests.map dropped).filter PendingWrite.outstanding = requests.map dropped := by
      intro requests
      rw [filter_eq_self]
      intro write member
      obtain ⟨request, -, rfl⟩ := mem_map.mp member
      rfl
    rw [stopped.outstanding_eq, coherent.outstanding_eq, waiting, filter_append, unanswered]
    simp [OrderedHistoryWriter.unanswered, Function.comp_def, dropped]
  · cases stepped

end OrderedHistoryWriter

end Alera.Terminal
