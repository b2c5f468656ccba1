/-
# Alera.Terminal.HistoryPersistence -- the durable history pipeline of a session

`rust/alera-cli/src/terminal_host/server/history_persistence.rs`: the actor moves
batches from the session's durable track to the ordered writer, and back when
the writer refuses or fails them.

`History` is the track, the writer with its worker, and the store of one session.
The fields `first`, `log` and `accepted` record what happened and no operation
reads them: `log` is the data of every batch that was ever given a sequence,
starting with `first`, and `accepted` is every byte the pipeline took in.

Timers, wakes and PTY pauses only decide when a step happens.  Here every step
may happen at any time, so they are not modelled.

`Ledger` is the invariant.  It cuts the numbered log at four positions:

      0 ........ u ........ a ........ b ........ N
      persisted  | restored | writer   | restored
      0 ....................... k
      rows

Rows reach `k`, somewhere at or past `u`: a write that committed and reported an
error leaves its batch both persisted and retained.  A writer that has not
failed has `a = u`, so the next write always continues the rows.
-/
import Alera.Terminal.HistoryWriter
import Mathlib.Data.List.Chain
import Mathlib.Data.List.Dedup
import Mathlib.Data.List.Sort

namespace Alera.Terminal

open Theory List
open Option (elim_some getD_some)
open OrderedHistoryWriter (coherent_new workerReceive workerReport workerResume workerReturn workerStop)
open DurableTrack (insertBySequence)

set_option autoImplicit false

/-- One session's durable pipeline, and the history of it. -/
structure History where
  sessionId : String
  track : DurableTrack
  /-- `checkpoint_output_blocked`: a checkpoint worker holds the barrier. -/
  checkpointOutputBlocked : Bool
  writer : Option OrderedHistoryWriter
  store : HistoryStore
  /-- The sequence of the oldest batch. -/
  first : Int
  /-- The data of every batch that was given a sequence, oldest first. -/
  log : List (List UInt8)
  /-- Every byte accepted, those persisted before the session started included. -/
  accepted : List UInt8

namespace History

/-- The pipeline `Session::start` leaves: it asks the store for the next sequence
and writes the initial checkpoint. -/
def start (sessionId : String) (store : HistoryStore) : History where
  sessionId := sessionId
  track := ⟨[], 0, false, store.nextOutputSequence, []⟩
  checkpointOutputBlocked := false
  writer := none
  store := store.upsert
  first := (store.rows.head?.map DurableOutputBatch.sequence).getD 0
  log := store.rows.map DurableOutputBatch.data
  accepted := (store.rows.map DurableOutputBatch.data).flatten

/-- `Session::append_output`, the durable half. -/
def appendOutput (h : History) (data : List UInt8) : History :=
  { h with track := (h.track.appendOutput data).1, accepted := h.accepted ++ data }

/-- `restore_failed_history_batch`, for each failure in turn. -/
def restoreFailures (track : DurableTrack) (failures : List HistoryWriteFailure) : DurableTrack :=
  failures.foldl (fun track failure => (track.restoreDurableOutputBatch failure.batch).1) track

/-- `collect_history_writer_completions`. -/
def collectHistoryWriterCompletions (h : History) : History :=
  match h.writer with
  | none => h
  | some writer =>
    let polled := writer.pollCompleted
    { h with writer := some polled.2, track := restoreFailures h.track polled.1 }

/-- `retire_history_writer`: only a writer with nothing pending is stopped. -/
def retireHistoryWriter (h : History) : History :=
  match h.writer with
  | none => h
  | some writer => if writer.pendingLen = 0 then { h with writer := none } else h

/-- Hand a batch the track gave up to the writer, creating one if there is none. -/
def enqueueBatch (h : History) (batch : DurableOutputBatch) : History :=
  let enqueued := (h.writer.getD .new).tryEnqueue h.sessionId batch
  match enqueued.2 with
  | .error failure =>
    { h with
      writer := some enqueued.1
      track := (h.track.restoreDurableOutputBatch failure.batch).1 }
  | .ok () => { h with writer := some enqueued.1, track := h.track.disarmIfEmpty }

/-- The second half of `flush_durable_output_batch`: take the next batch off the
track.  A batch that was not restored is a fresh one. -/
def flushTrack (h : History) : History :=
  match h.track.flushDurableOutputBatch with
  | (none, track) => { h with track := track }
  | (some batch, track) =>
    let log := if h.track.failures.isEmpty then h.log ++ [batch.data] else h.log
    { h with track := track, log := log }.enqueueBatch batch

/-- `flush_durable_output_batch`. -/
def flushDurableOutputBatch (h : History) : History :=
  if h.checkpointOutputBlocked then
    h
  else
    let h := h.collectHistoryWriterCompletions
    match h.writer with
    | none => h.flushTrack
    | some writer =>
      if writer.failed then
        if writer.pendingLen > 0 then h else h.retireHistoryWriter.flushTrack
      else
        h.flushTrack

/-- `await_output_writes`; answers whether nothing is left to persist. -/
def awaitOutputWrites (h : History) : History × Bool :=
  let h := h.collectHistoryWriterCompletions
  if h.writer.any fun writer => writer.pendingLen > 0 then
    (h, false)
  else
    let h := h.retireHistoryWriter
    (h, h.track.failures.isEmpty && h.track.outputBatch.isEmpty && !h.checkpointOutputBlocked)

/-- A step of the worker, if there is a writer. -/
def onWorker (h : History) (step : OrderedHistoryWriter → Option OrderedHistoryWriter) :
    Option History :=
  h.writer.bind fun writer => (step writer).map fun writer => { h with writer := some writer }

/-- One write attempt of the worker. -/
def workerAttempt (h : History) (fault : WriteFault) : Option History :=
  h.writer.bind fun writer =>
    (writer.workerAttempt h.store h.sessionId fault).map fun attempted =>
      { h with writer := some attempted.1, store := attempted.2 }

end History

/-- The events of the pipeline: what the actor does, and the worker's steps. -/
inductive HistoryEvent where
  | ptyOutput (data : List UInt8)
  | flushDurableOutputBatch
  | historyWriterReady
  | awaitOutputWrites
  | checkpointOutputBlocked (blocked : Bool)
  | workerReceive
  | workerAttempt (fault : WriteFault)
  | workerReport
  | workerResume
  | workerReturn
  | workerStop

namespace History

/-- One event; a worker step is undefined where the worker cannot take it. -/
def step (h : History) : HistoryEvent → Option History
  | .ptyOutput data => some (h.appendOutput data)
  | .flushDurableOutputBatch => some h.flushDurableOutputBatch
  | .historyWriterReady => some h.collectHistoryWriterCompletions
  | .awaitOutputWrites => some h.awaitOutputWrites.1
  | .checkpointOutputBlocked blocked => some { h with checkpointOutputBlocked := blocked }
  | .workerReceive => h.onWorker workerReceive
  | .workerAttempt fault => h.workerAttempt fault
  | .workerReport => h.onWorker workerReport
  | .workerResume => h.onWorker workerResume
  | .workerReturn => h.onWorker workerReturn
  | .workerStop => h.onWorker workerStop

/-! ## The invariant -/

/-- The batches the writer may not have persisted. -/
def outstanding (h : History) : List DurableOutputBatch :=
  h.writer.elim [] OrderedHistoryWriter.outstanding

/-- The pipeline cut at `u`, `k`, `a` and `b`. -/
structure Ledger (h : History) (u k a b : Nat) : Prop where
  checkpoint : h.store.checkpoint = true
  rows : h.store.rows = segment h.first h.log 0 k
  failures : h.track.failures = segment h.first h.log u a ++ segment h.first h.log b h.log.length
  outstanding : h.outstanding = segment h.first h.log a b
  persisted : u ≤ k ∧ k ≤ h.log.length
  cut : u ≤ a ∧ a ≤ b ∧ b ≤ h.log.length
  accepted : h.accepted = h.log.flatten ++ h.track.outputBatch
  /-- The next sequence continues the log until the `i64` counter ends. -/
  sequence : h.first + h.log.length ≤ i64Max → h.track.batchSequence = h.first + h.log.length
  nonempty : ∀ i data, u ≤ i → h.log[i]? = some data → data ≠ []
  coherent : ∀ writer, h.writer = some writer → ∃ answered, writer.Coherent answered
  retained : ∀ writer, h.writer = some writer → ∀ batch ∈ writer.pending.map PendingWrite.batch,
    batch ∈ numbered h.first h.log
  inOrder : (∀ writer, h.writer = some writer → writer.failed = false) → a = u
  reported : ∀ writer request, h.writer = some writer →
    writer.worker = .reporting request (.ok ()) → u < k

/-- The pipeline has a ledger. -/
def Consistent (h : History) : Prop := ∃ u k a b, h.Ledger u k a b

/-- Every sequence handed out is an `i64`. -/
def Fits (h : History) : Prop := h.first + h.log.length ≤ i64Max + 1

/-! ### Restoring batches -/

/-- A batch goes back between the smaller and the larger sequences. -/
theorem insertBySequence_between {batch : DurableOutputBatch}
    {smaller larger : List DurableOutputBatch}
    (below : ∀ queued ∈ smaller, queued.sequence ≤ batch.sequence)
    (above : ∀ queued ∈ larger, batch.sequence < queued.sequence) :
    insertBySequence batch (smaller ++ larger) = smaller ++ batch :: larger := by
  induction smaller with
  | nil =>
    cases larger with
    | nil => rfl
    | cons queued rest =>
      have greater : queued.sequence > batch.sequence := above queued (.head _)
      simp [insertBySequence, greater]
  | cons queued smaller ih =>
    have notGreater : ¬ queued.sequence > batch.sequence := Int.not_lt.mpr (below queued (.head _))
    rw [cons_append, insertBySequence, if_neg notGreater,
      ih fun other member => below other (.tail _ member), cons_append]

variable {u a b : Nat} {log : List (List UInt8)}

/-- The next batch of the writer's part goes back right behind the restored ones. -/
theorem insertBySequence_segment {first : Int} {n : Nat}
    {data : List UInt8} (entry : log[a]? = some data) (started : u ≤ a) (before : a < b) :
    insertBySequence ⟨data, first + a⟩ (segment first log u a ++ segment first log b n) =
      segment first log u (a + 1) ++ segment first log b n := by
  have below : ∀ queued ∈ segment first log u a, queued.sequence ≤ first + a := by
    intro queued member
    obtain ⟨t, -, earlier, -, counted⟩ := mem_segment.mp member
    omega
  have above : ∀ queued ∈ segment first log b n, first + a < queued.sequence := by
    intro queued member
    obtain ⟨t, later, -, -, counted⟩ := mem_segment.mp member
    omega
  rw [insertBySequence_between below above,
    ← segment_append_segment first log started (Nat.le_succ a),
    segment_cons entry (Nat.lt_succ_self a), segment_self, append_assoc]
  rfl

/-- Restoring changes the failures only. -/
theorem restoreFailures_frame (track : DurableTrack) (failures : List HistoryWriteFailure) :
    (restoreFailures track failures).outputBatch = track.outputBatch ∧
      (restoreFailures track failures).batchSequence = track.batchSequence := by
  induction failures generalizing track with
  | nil => exact ⟨rfl, rfl⟩
  | cons failure rest ih => exact ih (track.restoreDurableOutputBatch failure.batch).1

/-- Restoring the front of the writer's part moves the cut past it. -/
theorem restoreFailures_segment {first : Int} {n : Nat}
    {failures : List HistoryWriteFailure} {track : DurableTrack}
    (queued : track.failures = segment first log u a ++ segment first log b n)
    (returned : failures.map HistoryWriteFailure.batch = segment first log a (a + failures.length))
    (started : u ≤ a) (before : a + failures.length ≤ b) (within : b ≤ log.length) :
    (restoreFailures track failures).failures =
      segment first log u (a + failures.length) ++ segment first log b n := by
  induction failures generalizing a track with
  | nil => exact queued
  | cons failure rest ih =>
    have total : a + (failure :: rest).length = a + 1 + rest.length := by
      rw [length_cons]
      omega
    rw [total] at returned before ⊢
    obtain ⟨-, entry, counted, later⟩ :=
      segment_eq_cons (Nat.le_trans before within) returned.symm
    have batch : failure.batch = ⟨failure.batch.data, first + a⟩ := by
      rw [← counted]
    refine ih ?_ later (Nat.le_succ_of_le started) before
    change insertBySequence failure.batch track.failures = _
    rw [queued, batch]
    exact insertBySequence_segment entry started (by omega)

/-! ### The actor's steps -/

variable {h : History} {k : Nat}

theorem appendOutput_ledger (ledger : h.Ledger u k a b) (data : List UInt8) :
    (h.appendOutput data).Ledger u k a b :=
  { ledger with
    accepted := by
      change h.accepted ++ data = h.log.flatten ++ (h.track.outputBatch ++ data)
      rw [ledger.accepted, append_assoc] }

/-- Collecting completions moves failed batches from the writer to the track. -/
theorem collect_consistent (consistent : h.Consistent) :
    h.collectHistoryWriterCompletions.Consistent := by
  obtain ⟨u, k, a, b, ledger⟩ := consistent
  unfold collectHistoryWriterCompletions
  cases present : h.writer with
  | none => exact ⟨u, k, a, b, ledger⟩
  | some writer =>
    obtain ⟨answered, coherent⟩ := ledger.coherent writer present
    obtain ⟨failures, polled, later⟩ := coherent.poll
    obtain ⟨started, ordered, within⟩ := ledger.cut
    have outstanding := ledger.outstanding
    rw [History.outstanding, present, elim_some, coherent.outstanding_eq, ← failures]
      at outstanding
    obtain ⟨middle, returned, unanswered⟩ :=
      segment_eq_append ordered within outstanding.symm
    rw [length_map] at middle returned unanswered
    obtain ⟨sameBatch, sameSequence⟩ := restoreFailures_frame h.track writer.pollCompleted.1
    refine ⟨u, k, a + writer.pollCompleted.1.length, b, ?_⟩
    refine
      { checkpoint := ledger.checkpoint
        rows := ledger.rows
        failures := restoreFailures_segment ledger.failures returned started middle within
        outstanding := ?_
        persisted := ledger.persisted
        cut := ⟨Nat.le_add_right_of_le started, middle, within⟩
        accepted := by rw [sameBatch]; exact ledger.accepted
        sequence := by rw [sameSequence]; exact ledger.sequence
        nonempty := ledger.nonempty
        coherent := ?_
        retained := ?_
        inOrder := ?_
        reported := ?_ }
    · change writer.pollCompleted.2.outstanding = _
      rw [later.outstanding_eq]
      exact unanswered
    · rintro _ ⟨⟩
      exact ⟨[], later⟩
    · rintro _ ⟨⟩ batch member
      refine ledger.retained writer present batch ?_
      rw [polled] at member
      rw [coherent.pending, map_append]
      exact mem_append_right _ member
    · intro unfailed
      -- A poll that leaves the writer unfailed returned nothing.
      have quiet : (writer.failed || answered.any PendingWrite.outstanding) = false := by
        have flag := unfailed _ rfl
        rwa [polled] at flag
      obtain ⟨running, none⟩ := Bool.or_eq_false_iff.mp quiet
      have settled : answered.filter PendingWrite.outstanding = [] := by
        rw [filter_eq_nil_iff]
        exact any_eq_false.mp none
      rw [settled, map_nil, map_eq_nil_iff] at failures
      rw [failures]
      refine ledger.inOrder ?_
      intro other found
      rw [present] at found
      cases found
      exact running
    · rintro _ request ⟨⟩ reporting
      exact ledger.reported writer request present reporting

/-- Without a writer, everything not persisted is on the track. -/
theorem Ledger.withoutWriter (ledger : h.Ledger u k a b) (nothing : h.outstanding = []) :
    ({ h with writer := none } : History).Ledger u k u u := by
  obtain ⟨started, ordered, within⟩ := ledger.cut
  have joined : a = b := by
    have empty := ledger.outstanding
    rw [nothing] at empty
    exact Nat.le_antisymm ordered ((segment_eq_nil_iff within).mp empty.symm)
  subst joined
  exact
    { ledger with
      failures := by
        rw [segment_self]
        exact ledger.failures.trans (segment_append_segment _ _ started within)
      outstanding := (segment_self _ _ _).symm
      cut := ⟨Nat.le_refl _, Nat.le_refl _, Nat.le_trans started within⟩
      coherent := by rintro _ ⟨⟩
      retained := by rintro _ ⟨⟩
      inOrder := fun _ => rfl
      reported := by rintro _ _ ⟨⟩ }

theorem retire_consistent (consistent : h.Consistent) :
    h.retireHistoryWriter.Consistent := by
  obtain ⟨u, k, a, b, ledger⟩ := consistent
  unfold retireHistoryWriter
  cases present : h.writer with
  | none => exact ⟨u, k, a, b, ledger⟩
  | some writer =>
    dsimp only
    split
    · rename_i idle
      refine ⟨u, k, u, u, ledger.withoutWriter ?_⟩
      have empty : writer.pending = [] := length_eq_zero_iff.mp idle
      rw [History.outstanding, present, elim_some, OrderedHistoryWriter.outstanding, empty]
      rfl
    · exact ⟨u, k, a, b, ledger⟩

/-- The writer a batch is handed to, new or not. -/
theorem Ledger.withWriter (ledger : h.Ledger u k a b) :
    ({ h with writer := some (h.writer.getD .new) } : History).Ledger u k a b := by
  cases present : h.writer with
  | some writer =>
    rw [getD_some, ← present]
    exact ledger
  | none =>
    have inOrder : a = u := ledger.inOrder (by simp [present])
    have outstanding := ledger.outstanding
    rw [History.outstanding, present] at outstanding
    exact
      { ledger with
        outstanding := outstanding
        coherent := by
          rintro _ ⟨⟩
          exact ⟨[], coherent_new⟩
        retained := by
          rintro _ ⟨⟩ batch member
          cases member
        inOrder := fun _ => inOrder
        reported := by
          rintro _ _ ⟨⟩ ⟨⟩ }

@[simp] theorem enqueueBatch_first (h : History) (batch : DurableOutputBatch) :
    (h.enqueueBatch batch).first = h.first := by
  unfold enqueueBatch
  dsimp only
  split <;> rfl

@[simp] theorem enqueueBatch_log (h : History) (batch : DurableOutputBatch) :
    (h.enqueueBatch batch).log = h.log := by
  unfold enqueueBatch
  dsimp only
  split <;> rfl

/-- The history with `batch` back at the front of the track's failures. -/
def withFront (h : History) (batch : DurableOutputBatch) : History :=
  { h with track := { h.track with failures := batch :: h.track.failures } }

/-- Handing over the batch at the front of the track keeps the pipeline
consistent, whatever the writer answers. -/
theorem enqueueBatch_consistent {batch : DurableOutputBatch}
    (ledger : (h.withFront batch).Ledger u k u b) : (h.enqueueBatch batch).Consistent := by
  obtain ⟨started, ordered, within⟩ := ledger.cut
  have front : segment h.first h.log b h.log.length = batch :: h.track.failures := by
    have queued := ledger.failures
    rw [segment_self] at queued
    exact queued.symm
  obtain ⟨before, entry, counted, rest⟩ := segment_eq_cons (Nat.le_refl _) front
  have above : ∀ queued ∈ h.track.failures, batch.sequence < queued.sequence := by
    intro queued member
    rw [rest] at member
    obtain ⟨t, later, -, -, position⟩ := mem_segment.mp member
    omega
  have restored : insertBySequence batch ([] ++ h.track.failures) =
      [] ++ batch :: h.track.failures := insertBySequence_between (by simp) above
  have ready := ledger.withWriter
  obtain ⟨answered, coherent⟩ := ready.coherent _ rfl
  unfold enqueueBatch
  rcases (h.writer.getD .new).tryEnqueue_cases h.sessionId batch with
    ⟨error, refused⟩ | ⟨error, stopped, refused⟩ | ⟨-, receiver, enqueued⟩
  · rw [refused]
    exact ⟨u, k, u, b, { ready with failures := restored.trans ready.failures }⟩
  · rw [refused]
    refine ⟨u, k, u, b, { ready with
      failures := restored.trans ready.failures
      outstanding := ready.outstanding
      coherent := ?_
      retained := ?_
      inOrder := fun _ => rfl
      reported := ?_ }⟩
    · rintro _ ⟨⟩
      exact ⟨answered, { coherent with
        serving := by
          intro serving
          rw [stopped] at serving
          cases serving }⟩
    · rintro _ ⟨⟩
      exact ready.retained (h.writer.getD .new) rfl
    · rintro _ request ⟨⟩
      exact ready.reported (h.writer.getD .new) request rfl
  · rw [enqueued]
    have later := coherent.enqueue batch receiver
    have disarmed : h.track.disarmIfEmpty.failures = h.track.failures ∧
        h.track.disarmIfEmpty.outputBatch = h.track.outputBatch ∧
        h.track.disarmIfEmpty.batchSequence = h.track.batchSequence := by
      unfold DurableTrack.disarmIfEmpty
      split <;> exact ⟨rfl, rfl, rfl⟩
    obtain ⟨sameFailures, sameBatch, sameSequence⟩ := disarmed
    refine ⟨u, k, u, b + 1, { ready with
      failures := ?_
      outstanding := ?_
      cut := ⟨started, Nat.le_succ_of_le ordered, before⟩
      accepted := ?_
      sequence := ?_
      coherent := ?_
      retained := ?_
      inOrder := fun _ => rfl
      reported := ?_ }⟩
    · rw [segment_self]
      exact sameFailures.trans rest
    · have outstanding := ready.outstanding
      change (h.writer.getD .new).outstanding = segment h.first h.log u b at outstanding
      change OrderedHistoryWriter.outstanding _ = segment h.first h.log u (b + 1)
      rw [← segment_append_segment h.first h.log ordered (Nat.le_succ b), ← outstanding,
        segment_cons entry (Nat.lt_succ_self b), segment_self, ← counted, OrderedHistoryWriter.outstanding, filter_append,
        map_append]
      rfl
    · rw [sameBatch]
      exact ready.accepted
    · rw [sameSequence]
      exact ready.sequence
    · rintro _ ⟨⟩
      exact ⟨answered, later⟩
    · rintro _ ⟨⟩ other member
      rw [map_append] at member
      rcases mem_append.mp member with old | fresh
      · exact ready.retained (h.writer.getD .new) rfl other old
      · rw [mem_singleton.mp fresh]
        exact mem_numbered.mpr ⟨b, entry, counted⟩
    · rintro _ request ⟨⟩
      exact ready.reported (h.writer.getD .new) request rfl

/-- The track after a batch of `takeLen` live bytes was cut off. -/
def cutTrack (track : DurableTrack) (takeLen : Nat) : DurableTrack :=
  { track with
    outputBatch := track.outputBatch.drop takeLen
    batchGen := wrappingAdd track.batchGen 1
    batchArmed := !(track.outputBatch.drop takeLen).isEmpty
    batchSequence := wrappingSucc track.batchSequence }

/-- Everything taking a batch off the track can do. -/
theorem flushDurableOutputBatch_cases (track : DurableTrack) :
    (∃ batch rest, track.failures = batch :: rest ∧
      track.flushDurableOutputBatch = (some batch, { track with failures := rest })) ∨
    (track.failures = [] ∧
      track.flushDurableOutputBatch = (none, { track with batchArmed := false })) ∨
    (∃ takeLen, 0 < takeLen ∧ track.failures = [] ∧ track.outputBatch ≠ [] ∧
      track.flushDurableOutputBatch =
        (some ⟨track.outputBatch.take takeLen, track.batchSequence⟩, cutTrack track takeLen)) := by
  unfold DurableTrack.flushDurableOutputBatch
  cases queued : track.failures with
  | cons batch rest => exact .inl ⟨batch, rest, rfl, rfl⟩
  | nil =>
    by_cases empty : track.outputBatch = []
    · exact .inr (.inl ⟨rfl, by simp [empty]⟩)
    · refine .inr (.inr ⟨min track.outputBatch.length durableOutputBatchMaxBytes, ?_, rfl, empty,
        by simp [empty, cutTrack, queued]⟩)
      exact Nat.lt_min.mpr ⟨length_pos_of_ne_nil empty, by decide⟩

/-- Cutting a fresh batch off the live bytes, seen before it is handed over. -/
theorem Ledger.cutFresh {takeLen : Nat} (ledger : h.Ledger u k u b) (positive : 0 < takeLen)
    (drained : h.track.failures = []) (live : h.track.outputBatch ≠ [])
    (room : h.first + h.log.length ≤ i64Max) :
    (({ h with
        track := cutTrack h.track takeLen
        log := h.log ++ [h.track.outputBatch.take takeLen] } : History).withFront
      ⟨h.track.outputBatch.take takeLen, h.track.batchSequence⟩).Ledger u k u b := by
  obtain ⟨started, ordered, within⟩ := ledger.cut
  have whole : b = h.log.length := by
    have queued := ledger.failures
    rw [drained, segment_self] at queued
    exact Nat.le_antisymm within ((segment_eq_nil_iff (Nat.le_refl _)).mp queued.symm)
  subst whole
  have sequence := ledger.sequence room
  have lengths : (h.log ++ [h.track.outputBatch.take takeLen]).length = h.log.length + 1 := by simp
  have entry : (h.log ++ [h.track.outputBatch.take takeLen])[h.log.length]? =
      some (h.track.outputBatch.take takeLen) := by simp
  refine
    { checkpoint := ledger.checkpoint
      rows := ledger.rows.trans (segment_of_append _ ledger.persisted.2).symm
      failures := ?_
      outstanding := ledger.outstanding.trans (segment_of_append _ (Nat.le_refl _)).symm
      persisted := ⟨ledger.persisted.1, by
        change k ≤ (h.log ++ [h.track.outputBatch.take takeLen]).length
        rw [lengths]
        exact Nat.le_succ_of_le ledger.persisted.2⟩
      cut := ⟨Nat.le_refl _, ordered, by
        change h.log.length ≤ (h.log ++ [h.track.outputBatch.take takeLen]).length
        rw [lengths]
        exact Nat.le_succ _⟩
      accepted := ?_
      sequence := ?_
      nonempty := ?_
      coherent := ledger.coherent
      retained := ?_
      inOrder := fun _ => rfl
      reported := ledger.reported }
  · change _ :: h.track.failures = segment h.first (h.log ++ [h.track.outputBatch.take takeLen]) u u ++
      segment h.first (h.log ++ [h.track.outputBatch.take takeLen]) h.log.length
        (h.log ++ [h.track.outputBatch.take takeLen]).length
    rw [drained, segment_self, nil_append, lengths,
      segment_cons entry (Nat.lt_succ_self _), segment_self, sequence]
  · change h.accepted = (h.log ++ [h.track.outputBatch.take takeLen]).flatten ++
      h.track.outputBatch.drop takeLen
    rw [ledger.accepted, flatten_append, flatten_singleton, append_assoc, take_append_drop]
  · intro fits
    change wrappingSucc h.track.batchSequence =
      h.first + ((h.log ++ [h.track.outputBatch.take takeLen]).length : Nat)
    change h.first + ((h.log ++ [h.track.outputBatch.take takeLen]).length : Nat) ≤ i64Max at fits
    rw [wrappingSucc_of_lt (by omega)]
    omega
  · intro i data after found
    change (h.log ++ [h.track.outputBatch.take takeLen])[i]? = some data at found
    rcases Nat.lt_trichotomy i h.log.length with earlier | same | past
    · rw [getElem?_append_left earlier] at found
      exact ledger.nonempty i data after found
    · rw [same, entry] at found
      cases found
      intro empty
      rcases take_eq_nil_iff.mp empty with zero | nil
      · omega
      · exact live nil
    · rw [getElem?_eq_none (by omega)] at found
      cases found
  · intro writer present batch member
    change batch ∈ numbered h.first (h.log ++ [h.track.outputBatch.take takeLen])
    rw [numbered_append]
    exact mem_append_left _ (ledger.retained writer present batch member)

/-- Taking the next batch off the track while the writer has not failed. -/
theorem flushTrack_consistent (consistent : h.Consistent)
    (unfailed : ∀ writer, h.writer = some writer → writer.failed = false) (fits : h.flushTrack.Fits) :
    h.flushTrack.Consistent := by
  obtain ⟨u, k, a, b, ledger⟩ := consistent
  have inOrder : a = u := ledger.inOrder unfailed
  subst inOrder
  unfold flushTrack at fits ⊢
  rcases flushDurableOutputBatch_cases h.track with
    ⟨batch, rest, queued, popped⟩ | ⟨-, nothing⟩ | ⟨takeLen, positive, drained, live, cut⟩
  · rw [popped]
    dsimp only
    rw [queued, isEmpty_cons, if_neg Bool.false_ne_true]
    refine enqueueBatch_consistent (u := a) (k := k) (b := b) ?_
    have same : ({ h with track := { h.track with failures := rest } } : History).withFront batch =
        h := by
      rw [withFront]
      simp only [← queued]
    rw [same]
    exact ledger
  · rw [nothing]
    exact ⟨a, k, a, b, { ledger with }⟩
  · rw [cut] at fits ⊢
    dsimp only at fits ⊢
    rw [drained, isEmpty_nil, if_pos rfl] at fits ⊢
    refine enqueueBatch_consistent (ledger.cutFresh positive drained live ?_)
    rw [Fits, enqueueBatch_first, enqueueBatch_log] at fits
    simp only [length_append, length_singleton] at fits
    omega

variable {writer : OrderedHistoryWriter}

theorem retire_writer_failed (present : h.writer = some writer) (idle : ¬ writer.pendingLen > 0) :
    h.retireHistoryWriter.writer = none := by
  rw [retireHistoryWriter, present]
  dsimp only
  rw [if_pos (Nat.eq_zero_of_not_pos idle)]

theorem flush_consistent (consistent : h.Consistent) (fits : h.flushDurableOutputBatch.Fits) :
    h.flushDurableOutputBatch.Consistent := by
  unfold flushDurableOutputBatch at fits ⊢
  split at fits
  · rw [if_pos ‹_›]
    exact consistent
  · rw [if_neg ‹_›]
    have collected := collect_consistent consistent
    dsimp only at fits ⊢
    generalize h.collectHistoryWriterCompletions = h at collected fits ⊢
    cases present : h.writer with
    | none =>
      rw [present] at fits
      exact flushTrack_consistent collected (by simp [present]) fits
    | some writer =>
      rw [present] at fits
      dsimp only at fits ⊢
      split at fits
      · rename_i failed
        rw [if_pos failed]
        split at fits
        · rw [if_pos ‹_›]
          exact collected
        · rename_i idle
          rw [if_neg idle]
          refine flushTrack_consistent (retire_consistent collected) ?_ fits
          simp [retire_writer_failed present idle]
      · rename_i running
        rw [if_neg running]
        refine flushTrack_consistent collected ?_ fits
        intro other found
        rw [present] at found
        cases found
        exact Bool.eq_false_of_not_eq_true running

theorem await_consistent (consistent : h.Consistent) :
    h.awaitOutputWrites.1.Consistent := by
  unfold awaitOutputWrites
  dsimp only
  split
  · exact collect_consistent consistent
  · exact retire_consistent (collect_consistent consistent)

/-! ### The worker's steps -/

/-- A worker step that persists nothing keeps the ledger where it is. -/
theorem Ledger.settle {after : OrderedHistoryWriter} (ledger : h.Ledger u k a b)
    (present : h.writer = some writer) (settles : writer.Settles after) :
    ({ h with writer := some after } : History).Ledger u k a b := by
  refine
    { ledger with
      outstanding := ?_
      coherent := ?_
      retained := ?_
      inOrder := ?_
      reported := ?_ }
  · have outstanding := ledger.outstanding
    rw [History.outstanding, present] at outstanding
    exact settles.outstanding.trans outstanding
  · rintro _ ⟨⟩
    exact settles.coherent
  · rintro _ ⟨⟩
    rw [settles.batches]
    exact ledger.retained writer present
  · intro unfailed
    refine ledger.inOrder ?_
    intro other found
    rw [present] at found
    cases found
    exact settles.failed.symm.trans (unfailed after rfl)
  · rintro _ request ⟨⟩ reporting
    exact absurd reporting (settles.unreported request)

/-- While the worker serves, nothing was restored from it. -/
theorem Ledger.inOrder_of_serving (ledger : h.Ledger u k a b) (present : h.writer = some writer)
    (serving : writer.worker.serving = true) : a = u := by
  obtain ⟨answered, coherent⟩ := ledger.coherent writer present
  refine ledger.inOrder ?_
  intro other found
  rw [present] at found
  cases found
  exact (coherent.serving serving).1

/-- While the worker serves, its oldest request continues the persisted part. -/
theorem Ledger.unanswered_of_serving (ledger : h.Ledger u k a b) (present : h.writer = some writer)
    (serving : writer.worker.serving = true) :
    writer.unanswered.map HistoryWriteRequest.batch = segment h.first h.log a b := by
  obtain ⟨answered, coherent⟩ := ledger.coherent writer present
  have outstanding := ledger.outstanding
  rw [History.outstanding, present, elim_some, coherent.outstanding_of_serving serving]
    at outstanding
  exact outstanding

variable {after : History} {move : OrderedHistoryWriter → Option OrderedHistoryWriter}

theorem onWorker_consistent (consistent : h.Consistent)
    (settles : ∀ writer moved answered, writer.Coherent answered → move writer = some moved → writer.Settles moved)
    (stepped : h.onWorker move = some after) : after.Consistent := by
  obtain ⟨u, k, a, b, ledger⟩ := consistent
  obtain ⟨writer, present, mapped⟩ := of_bind stepped
  obtain ⟨moved, took, rfl⟩ := of_map mapped
  obtain ⟨answered, coherent⟩ := ledger.coherent writer present
  exact ⟨u, k, a, b, ledger.settle present (settles writer moved answered coherent took)⟩

/-- An attempt of the worker writes the batch right after the persisted ones. -/
theorem workerAttempt_consistent {fault : WriteFault} (consistent : h.Consistent)
    (stepped : h.workerAttempt fault = some after) :
    after.Consistent := by
  obtain ⟨u, k, a, b, ledger⟩ := consistent
  obtain ⟨writer, present, mapped⟩ := of_bind stepped
  obtain ⟨⟨moved, stored⟩, took, rfl⟩ := of_map mapped
  obtain ⟨answered, coherent⟩ := ledger.coherent writer present
  obtain ⟨request, rest, serving, front, rfl, movedCoherent, sameOutstanding, samePending,
    sameFailed, succeeded⟩ := coherent.workerAttempt took
  have inOrder := ledger.inOrder_of_serving present serving
  subst inOrder
  have queued := ledger.unanswered_of_serving present serving
  rw [front] at queued
  obtain ⟨-, entry, counted, -⟩ := segment_eq_cons ledger.cut.2.2 queued.symm
  have batch : request.batch = ⟨request.batch.data, h.first + a⟩ := by rw [← counted]
  obtain ⟨k', grows, bounded, appended, written⟩ :=
    appendOutput_numbered h.sessionId fault ledger.checkpoint ledger.rows ledger.persisted.2 entry
      ledger.persisted.1 (ledger.nonempty a _ (Nat.le_refl _) entry)
  rw [← batch] at appended written
  refine ⟨a, k', a, b, { ledger with
    checkpoint := by rw [appended]
    rows := by rw [appended]
    persisted := ⟨Nat.le_trans ledger.persisted.1 grows, bounded⟩
    outstanding := ?_
    coherent := ?_
    retained := ?_
    inOrder := fun _ => rfl
    reported := ?_ }⟩
  · have outstanding := ledger.outstanding
    rw [History.outstanding, present] at outstanding
    exact sameOutstanding.trans outstanding
  · rintro _ ⟨⟩
    exact ⟨answered, movedCoherent⟩
  · rintro _ ⟨⟩
    rw [samePending]
    exact ledger.retained writer present
  · rintro _ reported ⟨⟩ reporting
    exact written (succeeded reported reporting)

/-- A report of success moves the first cut past the batch it is about. -/
theorem workerReport_consistent (consistent : h.Consistent)
    (stepped : h.onWorker workerReport = some after) : after.Consistent := by
  obtain ⟨u, k, a, b, ledger⟩ := consistent
  obtain ⟨writer, present, mapped⟩ := of_bind stepped
  obtain ⟨moved, took, rfl⟩ := of_map mapped
  obtain ⟨answered, coherent⟩ := ledger.coherent writer present
  rcases coherent.workerReport took with
    ⟨request, rest, reporting, front, ⟨answered', movedCoherent⟩, movedServing, remaining,
      sameBatches, sameFailed, unreported⟩ | settles
  · have serving : writer.worker.serving = true := by rw [reporting]; rfl
    have inOrder := ledger.inOrder_of_serving present serving
    subst inOrder
    have queued := ledger.unanswered_of_serving present serving
    rw [front] at queued
    obtain ⟨before, -, -, later⟩ := segment_eq_cons ledger.cut.2.2 queued.symm
    refine ⟨a + 1, k, a + 1, b, { ledger with
      failures := by
        have failures := ledger.failures
        rw [segment_self] at failures ⊢
        exact failures
      outstanding := ?_
      persisted := ⟨ledger.reported writer request present reporting, ledger.persisted.2⟩
      cut := ⟨Nat.le_refl _, before, ledger.cut.2.2⟩
      nonempty := fun i data after => ledger.nonempty i data (Nat.le_of_succ_le after)
      coherent := ?_
      retained := ?_
      inOrder := fun _ => rfl
      reported := ?_ }⟩
    · refine (movedCoherent.outstanding_of_serving movedServing).trans ?_
      rw [remaining]
      exact later
    · rintro _ ⟨⟩
      exact ⟨answered', movedCoherent⟩
    · rintro _ ⟨⟩
      rw [sameBatches]
      exact ledger.retained writer present
    · rintro _ other ⟨⟩ again
      exact absurd again (unreported other)
  · exact ⟨u, k, a, b, ledger.settle present settles⟩

/-! ## Runs -/

/-- The log only grows, from where it started. -/
def Extends (h after : History) : Prop := after.first = h.first ∧ h.log.length ≤ after.log.length

theorem collect_extends (h : History) : h.Extends h.collectHistoryWriterCompletions := by
  unfold collectHistoryWriterCompletions
  split <;> exact ⟨rfl, Nat.le_refl _⟩

theorem retire_extends (h : History) : h.Extends h.retireHistoryWriter := by
  unfold retireHistoryWriter
  split
  · exact ⟨rfl, Nat.le_refl _⟩
  · split <;> exact ⟨rfl, Nat.le_refl _⟩

theorem flushTrack_extends (h : History) : h.Extends h.flushTrack := by
  unfold flushTrack
  split
  · exact ⟨rfl, Nat.le_refl _⟩
  · refine ⟨by simp, ?_⟩
    simp only [enqueueBatch_log]
    split
    · simp
    · exact Nat.le_refl _

theorem Extends.trans {middle : History} (one : h.Extends middle) (two : middle.Extends after) :
    h.Extends after :=
  ⟨two.1.trans one.1, Nat.le_trans one.2 two.2⟩

theorem flush_extends (h : History) : h.Extends h.flushDurableOutputBatch := by
  unfold flushDurableOutputBatch
  split
  · exact ⟨rfl, Nat.le_refl _⟩
  · have collected := collect_extends h
    dsimp only
    split
    · exact collected.trans (flushTrack_extends _)
    · split
      · split
        · exact collected
        · exact collected.trans ((retire_extends _).trans (flushTrack_extends _))
      · exact collected.trans (flushTrack_extends _)

theorem onWorker_extends (stepped : h.onWorker move = some after) : h.Extends after := by
  obtain ⟨writer, -, mapped⟩ := of_bind stepped
  obtain ⟨moved, -, rfl⟩ := of_map mapped
  exact ⟨rfl, Nat.le_refl _⟩

variable {event : HistoryEvent}

theorem step_extends (stepped : h.step event = some after) : h.Extends after := by
  cases event with
  | ptyOutput data | historyWriterReady | checkpointOutputBlocked blocked =>
    cases stepped
    first
      | exact collect_extends h
      | exact ⟨rfl, Nat.le_refl _⟩
  | flushDurableOutputBatch =>
    cases stepped
    exact flush_extends h
  | awaitOutputWrites =>
    cases stepped
    unfold awaitOutputWrites
    dsimp only
    split
    · exact collect_extends h
    · exact (collect_extends h).trans (retire_extends _)
  | workerAttempt fault =>
    obtain ⟨writer, -, mapped⟩ := of_bind stepped
    obtain ⟨moved, -, rfl⟩ := of_map mapped
    exact ⟨rfl, Nat.le_refl _⟩
  | workerReceive | workerReport | workerResume | workerReturn | workerStop =>
    exact onWorker_extends stepped

theorem step_fits (stepped : h.step event = some after) (fits : after.Fits) : h.Fits := by
  obtain ⟨same, grew⟩ := step_extends stepped
  unfold Fits at fits ⊢
  omega

/-- Every step keeps the pipeline consistent. -/
theorem step_consistent (consistent : h.Consistent) (fits : after.Fits)
    (stepped : h.step event = some after) : after.Consistent := by
  cases event with
  | ptyOutput data =>
    cases stepped
    obtain ⟨u, k, a, b, ledger⟩ := consistent
    exact ⟨u, k, a, b, appendOutput_ledger ledger data⟩
  | flushDurableOutputBatch =>
    cases stepped
    exact flush_consistent consistent fits
  | historyWriterReady =>
    cases stepped
    exact collect_consistent consistent
  | awaitOutputWrites =>
    cases stepped
    exact await_consistent consistent
  | checkpointOutputBlocked blocked =>
    cases stepped
    obtain ⟨u, k, a, b, ledger⟩ := consistent
    exact ⟨u, k, a, b, { ledger with }⟩
  | workerAttempt fault => exact workerAttempt_consistent consistent stepped
  | workerReport => exact workerReport_consistent consistent stepped
  | workerReceive =>
    exact onWorker_consistent consistent (fun _ _ _ coherent => coherent.workerReceive) stepped
  | workerResume =>
    exact onWorker_consistent consistent (fun _ _ _ coherent => coherent.workerResume) stepped
  | workerReturn =>
    exact onWorker_consistent consistent (fun _ _ _ coherent => coherent.workerReturn) stepped
  | workerStop =>
    exact onWorker_consistent consistent (fun _ _ _ coherent => coherent.workerStop) stepped

/-! ### Where a session starts -/

/-- The sequences count up by one. -/
def Consecutive (rows : List DurableOutputBatch) : Prop :=
  rows.IsChain fun row next => next.sequence = row.sequence + 1

instance (rows : List DurableOutputBatch) : Decidable (Consecutive rows) :=
  inferInstanceAs (Decidable (rows.IsChain _))

theorem numbered_cons (first : Int) (data : List UInt8) (log : List (List UInt8)) :
    numbered first (data :: log) = ⟨data, first⟩ :: numbered (first + 1) log := by
  have split := numbered_append first [data] log
  simpa [numbered] using split

theorem consecutive_numbered (first : Int) (log : List (List UInt8)) :
    Consecutive (numbered first log) := by
  induction log generalizing first with
  | nil => exact .nil
  | cons data log ih =>
    rw [numbered_cons]
    cases log with
    | nil => exact .singleton _
    | cons next rest =>
      have later := ih (first + 1)
      rw [numbered_cons] at later ⊢
      exact .cons_cons rfl later

/-- Consecutive rows are the numbered list of their own data. -/
theorem Consecutive.eq_numbered {rows : List DurableOutputBatch} (consecutive : Consecutive rows) :
    rows = numbered ((rows.head?.map DurableOutputBatch.sequence).getD 0)
      (rows.map DurableOutputBatch.data) := by
  induction rows with
  | nil => rfl
  | cons row rest ih =>
    rw [map_cons, numbered_cons]
    refine congrArg (row :: ·) ?_
    cases rest with
    | nil => rfl
    | cons next rest =>
      obtain ⟨counted, later⟩ := isChain_cons_cons.mp consecutive
      have same := ih later
      rw [head?_cons, Option.map_some, counted] at same
      exact same

/-- The largest sequence of a numbered list is its last. -/
theorem max_sequence_numbered (first : Int) (log : List (List UInt8)) (nonempty : log ≠ []) :
    ((numbered first log).map DurableOutputBatch.sequence).max? =
      some (first + (log.length - 1 : Nat)) := by
  have positive := length_pos_of_ne_nil nonempty
  rw [max?_eq_some_iff]
  constructor
  · have entry : log[log.length - 1]? = some (log[log.length - 1]) :=
      getElem?_eq_getElem (by omega)
    exact List.mem_map.mpr ⟨⟨log[log.length - 1], _⟩, mem_numbered.mpr ⟨_, entry, rfl⟩, rfl⟩
  · intro sequence member
    obtain ⟨batch, inside, rfl⟩ := List.mem_map.mp member
    obtain ⟨i, entry, counted⟩ := mem_numbered.mp inside
    have bound : i < log.length := (List.getElem?_eq_some_iff.mp entry).1
    omega

variable {store : HistoryStore} {sessionId : String}

/-- The store continues where consecutive rows end. -/
theorem nextOutputSequence_of_consecutive (consecutive : Consecutive store.rows)
    (room : (start sessionId store).first + store.rows.length ≤ i64Max) :
    store.nextOutputSequence = (start sessionId store).first + store.rows.length := by
  by_cases empty : store.rows = []
  · simp [HistoryStore.nextOutputSequence, start, empty, saturatingSucc, i64Max]
  · have largest := max_sequence_numbered (start sessionId store).first
      (store.rows.map DurableOutputBatch.data) (by simpa using empty)
    have rows := consecutive.eq_numbered
    have positive := length_pos_of_ne_nil empty
    change store.rows = numbered (start sessionId store).first _ at rows
    rw [← rows, length_map] at largest
    rw [HistoryStore.nextOutputSequence, largest, getD_some, saturatingSucc_of_lt (by omega)]
    omega

/-- A session starts consistent, with everything persisted. -/
theorem start_consistent (sessionId : String) (consecutive : Consecutive store.rows) :
    (start sessionId store).Consistent := by
  have rows : store.rows = numbered (start sessionId store).first (start sessionId store).log :=
    consecutive.eq_numbered
  have lengths : (start sessionId store).log.length = store.rows.length :=
    length_map _
  generalize total : (start sessionId store).log.length = n at lengths
  refine ⟨n, n, n, n, ?_⟩
  refine
    { checkpoint := rfl
      rows := ?_
      failures := ?_
      outstanding := (segment_self _ _ _).symm
      persisted := ⟨Nat.le_refl _, Nat.le_of_eq total.symm⟩
      cut := ⟨Nat.le_refl _, Nat.le_refl _, Nat.le_of_eq total.symm⟩
      accepted := (append_nil _).symm
      sequence := ?_
      nonempty := ?_
      coherent := by rintro _ ⟨⟩
      retained := by rintro _ ⟨⟩
      inOrder := fun _ => rfl
      reported := by rintro _ _ ⟨⟩ }
  · rw [← total, segment_zero_length]
    exact rows
  · rw [total, segment_self]
    rfl
  · rw [total, lengths]
    exact nextOutputSequence_of_consecutive consecutive
  · intro i data past found
    rw [getElem?_eq_none (by omega)] at found
    cases found

theorem run_consistent {events : List HistoryEvent}
    (consecutive : Consecutive store.rows) (ran : run step (start sessionId store) events = some h)
    (fits : h.Fits) : h.Consistent := by
  refine run_invariant (fun h => h.Fits → h.Consistent) ?_ events _ h
    (fun _ => start_consistent sessionId consecutive) ran fits
  intro before event after holds stepped fits
  exact step_consistent (holds (step_fits stepped fits)) fits stepped

/-! ## Nothing is lost, duplicated or reordered -/

/-- Every copy of a batch the writer and its worker hold. -/
def inFlight (h : History) : List DurableOutputBatch :=
  h.writer.elim [] fun writer =>
    writer.pending.map PendingWrite.batch ++ writer.unanswered.map HistoryWriteRequest.batch ++
      writer.pending.filterMap fun write =>
        match write.completion with
        | .failed failure => some failure.batch
        | _ => none

/-- Every persisted or retained batch. -/
def batches (h : History) : List DurableOutputBatch :=
  h.store.rows ++ h.track.failures ++ h.inFlight

/-- The distinct batches in the order of their sequences. -/
def orderBySequence (batches : List DurableOutputBatch) : List DurableOutputBatch :=
  batches.dedup.insertionSort fun x y => x.sequence ≤ y.sequence

/-- The batches of a consistent pipeline are those of the log. -/
theorem Ledger.mem_batches (ledger : h.Ledger u k a b) (batch : DurableOutputBatch) :
    batch ∈ h.batches ↔ batch ∈ numbered h.first h.log := by
  constructor
  · intro member
    rcases mem_append.mp member with stored | flying
    · rcases mem_append.mp stored with row | restored
      · rw [ledger.rows] at row
        exact segment_subset row
      · rw [ledger.failures] at restored
        rcases mem_append.mp restored with left | right
        · exact segment_subset left
        · exact segment_subset right
    · cases present : h.writer with
      | none =>
        rw [inFlight, present] at flying
        cases flying
      | some writer =>
        obtain ⟨answered, coherent⟩ := ledger.coherent writer present
        have retained := ledger.retained writer present
        rw [inFlight, present] at flying
        rcases mem_append.mp flying with held | returned
        · rcases mem_append.mp held with pending | unanswered
          · exact retained batch pending
          · refine retained batch ?_
            rw [coherent.pending, map_append, map_map]
            exact mem_append_right _ unanswered
        · obtain ⟨write, pending, copied⟩ := mem_filterMap.mp returned
          refine retained batch ?_
          have copy : write.batch = batch := by
            rw [coherent.pending] at pending
            rcases mem_append.mp pending with old | waiting
            · split at copied
              · rename_i failure failed
                cases copied
                exact (coherent.copies write old failure failed).symm
              · cases copied
            · obtain ⟨request, -, rfl⟩ := List.mem_map.mp waiting
              cases copied
          exact copy ▸ mem_map_of_mem pending
  · intro member
    obtain ⟨i, entry, counted⟩ := mem_numbered.mp member
    have bound : i < h.log.length := (List.getElem?_eq_some_iff.mp entry).1
    -- Which of the four parts of the log position `i` falls into.
    by_cases persisted : i < u
    · refine mem_append_left _ (mem_append_left _ ?_)
      rw [ledger.rows]
      exact mem_segment.mpr
        ⟨i, Nat.zero_le _, Nat.lt_of_lt_of_le persisted ledger.persisted.1, entry, counted⟩
    by_cases held : a ≤ i ∧ i < b
    · have outstanding : batch ∈ h.outstanding := by
        rw [ledger.outstanding]
        exact mem_segment.mpr ⟨i, held.1, held.2, entry, counted⟩
      refine mem_append_right _ ?_
      cases present : h.writer with
      | none =>
        rw [History.outstanding, present] at outstanding
        cases outstanding
      | some writer =>
        rw [History.outstanding, present] at outstanding
        obtain ⟨write, kept, rfl⟩ := List.mem_map.mp outstanding
        rw [inFlight, present, elim_some, append_assoc]
        exact mem_append_left _ (mem_map_of_mem (mem_filter.mp kept).1)
    · refine mem_append_left _ (mem_append_right _ ?_)
      rw [ledger.failures]
      by_cases left : i < a
      · exact mem_append_left _
          (mem_segment.mpr ⟨i, Nat.le_of_not_lt persisted, left, entry, counted⟩)
      · exact mem_append_right _
          (mem_segment.mpr ⟨i, by omega, bound, entry, counted⟩)

/-- Ordering a consistent pipeline's batches gives back the numbered log. -/
theorem Ledger.orderBySequence_batches (ledger : h.Ledger u k a b) :
    orderBySequence h.batches = numbered h.first h.log := by
  have increasing : (numbered h.first h.log).Pairwise fun x y => x.sequence < y.sequence := by
    rw [pairwise_iff_getElem]
    simp only [numbered, getElem_mapIdx]
    omega
  have nodup : (numbered h.first h.log).Nodup :=
    increasing.imp fun less same => absurd (congrArg DurableOutputBatch.sequence same)
      (Int.ne_of_lt less)
  have members : h.batches.dedup.Perm (numbered h.first h.log) := by
    rw [perm_ext_iff_of_nodup (nodup_dedup _) nodup]
    intro batch
    rw [mem_dedup]
    exact ledger.mem_batches batch
  have sorted := (perm_insertionSort (fun x y : DurableOutputBatch =>
    x.sequence ≤ y.sequence) h.batches.dedup).trans members
  refine sorted.eq_of_pairwise ?_ (pairwise_insertionSort _ _)
    (increasing.imp fun less => Int.le_of_lt less)
  intro x y inside other le ge
  exact numbered_sequence_inj (sorted.mem_iff.mp inside) other (Int.le_antisymm le ge)

/-- What the pipeline owes in a state: a sequence names one batch, the persisted
sequences have no gap, and persisted, retained and live bytes are exactly the
accepted ones, in order. -/
structure Exact (h : History) : Prop where
  agree : ∀ x ∈ h.batches, ∀ y ∈ h.batches, x.sequence = y.sequence → x.data = y.data
  consecutive : Consecutive h.store.rows
  complete : ((orderBySequence h.batches).map DurableOutputBatch.data).flatten ++
    h.track.outputBatch = h.accepted

/-- **The durable pipeline loses, duplicates and reorders nothing.**  In every
state of every interleaving, whatever writes fail and wherever, as long as every
sequence handed out is an `i64`. -/
theorem history_exact (sessionId : String) (store : HistoryStore)
    (consecutive : Consecutive store.rows) (events : List HistoryEvent) (h : History)
    (ran : run step (start sessionId store) events = some h)
    (fits : h.first + h.log.length ≤ i64Max + 1) : h.Exact := by
  obtain ⟨u, k, a, b, ledger⟩ := run_consistent consecutive ran fits
  refine ⟨?_, ?_, ?_⟩
  · intro x inX y inY same
    exact congrArg DurableOutputBatch.data (numbered_sequence_inj
      ((ledger.mem_batches x).mp inX) ((ledger.mem_batches y).mp inY) same)
  · rw [ledger.rows]
    exact List.IsChain.infix (consecutive_numbered h.first h.log)
      ((List.take_prefix _ _).isInfix.trans (drop_suffix _ _).isInfix)
  · rw [ledger.orderBySequence_batches, numbered_data]
    exact ledger.accepted.symm

/-- A write commits three times over without its result arriving; the batch comes
back, goes to a new writer and is found persisted. -/
def retriedRun : List HistoryEvent :=
  [.ptyOutput [104], .flushDurableOutputBatch, .workerReceive,
    .workerAttempt (.afterCommit "disk I/O error"), .workerAttempt (.afterCommit "disk I/O error"),
    .workerAttempt (.afterCommit "disk I/O error"), .workerReport, .ptyOutput [105],
    .flushDurableOutputBatch, .workerReceive, .workerAttempt .none, .workerReport,
    .flushDurableOutputBatch]

theorem history_exact_retriedRun :
    ∃ h, run step (start "s1" ⟨false, []⟩) retriedRun = some h ∧ h.store.rows = [⟨[104], 0⟩] ∧
      h.accepted = [104, 105] ∧ h.Exact := by
  refine ⟨_, rfl, rfl, rfl, ?_⟩
  exact history_exact "s1" ⟨false, []⟩ .nil retriedRun _ rfl (by decide)

/-- After the last `i64` the counter wraps: the next batch sorts before all others. -/
theorem wrapped_sequence_reorders_history :
    ¬ ∀ (sessionId : String) (store : HistoryStore) (events : List HistoryEvent) (h : History),
        (∀ row ∈ store.rows, i64Min ≤ row.sequence ∧ row.sequence ≤ i64Max) →
        Consecutive store.rows → run step (start sessionId store) events = some h → h.Exact := by
  intro always
  have broken := always "s1" ⟨true, [⟨[1], i64Max - 1⟩]⟩
    [.ptyOutput [2], .flushDurableOutputBatch, .ptyOutput [3], .flushDurableOutputBatch] _
    (by decide) (by decide) rfl
  exact absurd broken.complete (by decide)

end History

end Alera.Terminal
