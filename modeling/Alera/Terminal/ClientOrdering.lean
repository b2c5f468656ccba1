/-
# Alera.Terminal.ClientOrdering -- the two outbound lanes of one client

`rust/alera-cli/src/terminal_host/client.rs` (`ClientFrameOrdering`,
`connection_loop`, `write_control_frame`) and `client_handle.rs`
(`ClientHandle`).  The server sends control frames on an unbounded lane and
terminal frames on a bounded one; a single writer merges them.  A terminal frame
carries its sequence and a control frame the sequence current when it was sent,
and the writer holds at most one terminal frame it took too early.

Producer and writer interleave at every queue operation: collecting the terminal
frames that precede a control frame is one step per `try_recv`, so a frame may be
sent while the writer is half way through `before_control`.

The argument rests on one list, the accepted frames not yet handed to the writer's
output, of which the two lanes are projections (`Theory.WatermarkMerge`).

What a frame contains and how `write_frame` encodes it play no part and are
left abstract (`F`); so are the client's inbound lines, which touch neither lane.
-/
import Alera.Theory.FixedWidth
import Alera.Theory.Runs
import Alera.Theory.WatermarkMerge

namespace Alera.Terminal

open Theory

set_option autoImplicit false

universe u

variable {F : Type u}

/-- `ClientFrame`: `plain` stands for the kinds the ordering never looks into. -/
inductive ClientFrame (F : Type u) where
  | plain (frame : F)
  | budgeted (frame : ClientFrame F)
  | orderedControl (terminalWatermark : Nat) (frame : ClientFrame F)
  | sequencedTerminal (sequence : Nat) (frame : ClientFrame F)
  deriving DecidableEq, Repr

namespace ClientFrame

/-- `into_control`: a frame without its envelope waits for every terminal frame. -/
def intoControl : ClientFrame F → Nat × ClientFrame F
  | .orderedControl terminalWatermark frame => (terminalWatermark, frame)
  | frame => (u64Max, frame)

/-- `into_terminal`: a frame without its envelope waits for no control frame. -/
def intoTerminal : ClientFrame F → Nat × ClientFrame F
  | .sequencedTerminal sequence frame => (sequence, frame)
  | frame => (0, frame)

end ClientFrame

/-- `CLIENT_TERMINAL_OUT_QUEUE_CAPACITY`. -/
def clientTerminalOutQueueCapacity : Nat := 8

/-- Where `connection_loop` stands. -/
inductive ConnectionWriter (F : Type u) where
  /-- At the top of the loop, or with a terminal frame just staged: both look at
  the control lane next and do the same with what they find. -/
  | ready
  /-- In the loop of `before_control`. -/
  | collecting (terminalWatermark : Nat) (control : ClientFrame F) (terminal : List (ClientFrame F))
  /-- In `write_frame`, with the rest of this round's frames behind it. -/
  | writing (frame : ClientFrame F) (rest : List (ClientFrame F))
  /-- Left the loop; both receivers are dropped. -/
  | ended

namespace ConnectionWriter

def isEnded : ConnectionWriter F → Bool
  | .ended => true
  | _ => false

/-- Write a round's frames one after another, then go round the loop. -/
def writeAll : List (ClientFrame F) → ConnectionWriter F
  | [] => .ready
  | frame :: rest => .writing frame rest

/-- Frames the writer has decided to write next. -/
def taken : ConnectionWriter F → List (ClientFrame F)
  | .collecting _ _ terminal => terminal
  | .writing frame rest => frame :: rest
  | _ => []

/-- The control frame taken off its lane that still waits for terminal frames. -/
def held : ConnectionWriter F → List (Nat × ClientFrame F)
  | .collecting terminalWatermark control _ => [(terminalWatermark, control)]
  | _ => []

variable (frames : List (ClientFrame F))

@[simp] theorem taken_writeAll :
    (writeAll frames).taken = frames := by
  cases frames <;> rfl

@[simp] theorem held_writeAll : (writeAll frames).held = [] := by
  cases frames <;> rfl

@[simp] theorem isEnded_writeAll :
    (writeAll frames).isEnded = false := by
  cases frames <;> rfl

end ConnectionWriter

/-- A handle, its two channels and the writer at their other end. -/
structure ClientConnection (F : Type u) where
  /-- Capacity of the terminal channel; the control channel is unbounded. -/
  capacity : Nat
  controlOut : List (ClientFrame F)
  terminalOut : List (ClientFrame F)
  terminalSequence : Nat
  /-- The handle's budget, if it has one: whether it is exhausted. -/
  budget : Option Bool
  pendingTerminal : Option (Nat × ClientFrame F)
  writer : ConnectionWriter F
  written : List (ClientFrame F)
  /-- The send order with the rejected terminal frames removed. -/
  sent : List (ClientFrame F)
  /-- How often a terminal frame was given a sequence, accepted or not. -/
  terminalSends : Nat

namespace ClientConnection

/-- `ClientHandle::new` and a spawned `connection_loop`, as the accept loop pairs
them: the handle has no budget. -/
def start (capacity : Nat) : ClientConnection F :=
  ⟨capacity, [], [], 0, none, none, .ready, [], [], 0⟩

/-! ## The producer -/

/-- `ClientBudget::reserve`, if there is a budget; `reserved` is whether both
semaphores had the permits. -/
def reserve (c : ClientConnection F) (frame : ClientFrame F) (reserved : Bool) :
    Option (ClientFrame F) :=
  match c.budget with
  | none => some frame
  | some _ => if reserved then some (.budgeted frame) else none

/-- `send_control`; answers whether the frame was accepted. -/
def sendControl (c : ClientConnection F) (frame : ClientFrame F) (reserved : Bool) :
    Bool × ClientConnection F :=
  match c.reserve frame reserved with
  | none => (false, { c with budget := some true })
  | some frame =>
    if c.writer.isEnded then
      (false, c)
    else
      (true, { c with controlOut := c.controlOut ++ [.orderedControl c.terminalSequence frame] })

/-- `try_send_terminal`; answers whether the frame was accepted.  The sequence is
spent before the queue can refuse. -/
def trySendTerminal (c : ClientConnection F) (frame : ClientFrame F) (reserved : Bool) :
    Bool × ClientConnection F :=
  match c.reserve frame reserved with
  | none => (false, c)
  | some frame =>
    let sequence := wrappingAdd c.terminalSequence 1
    let c := { c with terminalSequence := sequence, terminalSends := c.terminalSends + 1 }
    if c.writer.isEnded || decide (c.capacity ≤ c.terminalOut.length) then
      (false, c)
    else
      (true, { c with terminalOut := c.terminalOut ++ [.sequencedTerminal sequence frame] })

/-! ## The writer -/

/-- `control_out_rx.recv()` and `try_recv()` when a frame is there. -/
def receiveControl (c : ClientConnection F) : Option (ClientConnection F) :=
  match c.writer, c.controlOut with
  | .ready, control :: rest =>
    let (terminalWatermark, control) := control.intoControl
    some { c with controlOut := rest, writer := .collecting terminalWatermark control [] }
  | _, _ => none

/-- `terminal_out_rx.recv()` with `stage_terminal`; only reached with no terminal
frame pending. -/
def receiveTerminal (c : ClientConnection F) : Option (ClientConnection F) :=
  match c.writer, c.pendingTerminal, c.terminalOut with
  | .ready, none, terminal :: rest =>
    some { c with terminalOut := rest, pendingTerminal := some terminal.intoTerminal }
  | _, _, _ => none

/-- A terminal frame is pending and `control_out_rx.try_recv()` finds nothing. -/
def takePendingTerminal (c : ClientConnection F) : Option (ClientConnection F) :=
  match c.writer, c.pendingTerminal, c.controlOut with
  | .ready, some (_, frame), [] =>
    some { c with pendingTerminal := none, writer := .writing frame [] }
  | _, _, _ => none

/-- The pending terminal frame, or else the next of the lane. -/
def nextTerminal (c : ClientConnection F) : Option (Nat × ClientFrame F) × ClientConnection F :=
  match c.pendingTerminal, c.terminalOut with
  | some next, _ => (some next, { c with pendingTerminal := none })
  | none, terminal :: rest => (some terminal.intoTerminal, { c with terminalOut := rest })
  | none, [] => (none, c)

/-- One turn of the loop in `before_control`. -/
def beforeControl (c : ClientConnection F) : Option (ClientConnection F) :=
  match c.writer with
  | .collecting terminalWatermark control terminal =>
    match c.nextTerminal with
    | (none, c) => some { c with writer := .writeAll (terminal ++ [control]) }
    | (some (sequence, frame), c) =>
      if sequence ≤ terminalWatermark then
        some { c with writer := .collecting terminalWatermark control (terminal ++ [frame]) }
      else
        some { c with
          pendingTerminal := some (sequence, frame)
          writer := .writeAll (terminal ++ [control]) }
  | _ => none

/-- `write_frame` succeeds. -/
def writeFrame (c : ClientConnection F) : Option (ClientConnection F) :=
  match c.writer with
  | .writing frame rest => some { c with written := c.written ++ [frame], writer := .writeAll rest }
  | _ => none

/-- Why the loop is left (end of input, a failed write, a dropped handle) makes no
difference to the lanes. -/
def breakLoop (c : ClientConnection F) : Option (ClientConnection F) :=
  some { c with writer := .ended }

end ClientConnection

inductive ConnectionEvent (F : Type u) where
  | sendControl (frame : ClientFrame F) (reserved : Bool)
  | trySendTerminal (frame : ClientFrame F) (reserved : Bool)
  | receiveControl
  | receiveTerminal
  | takePendingTerminal
  | beforeControl
  | writeFrame
  | breakLoop

namespace ClientConnection

/-- One step of the producer or of the writer. -/
def step (c : ClientConnection F) : ConnectionEvent F → Option (ClientConnection F)
  | .sendControl frame reserved =>
    let after := (c.sendControl frame reserved).2
    some { after with sent := after.sent ++ [frame] }
  | .trySendTerminal frame reserved =>
    let sending := c.trySendTerminal frame reserved
    some (if sending.1 then { sending.2 with sent := sending.2.sent ++ [frame] } else sending.2)
  | .receiveControl => c.receiveControl
  | .receiveTerminal => c.receiveTerminal
  | .takePendingTerminal => c.takePendingTerminal
  | .beforeControl => c.beforeControl
  | .writeFrame => c.writeFrame
  | .breakLoop => c.breakLoop

/-! ## What the lanes still hold -/

/-- Control frames not yet written or collected for, in lane order. -/
def controlLane (c : ClientConnection F) : List (Nat × ClientFrame F) :=
  c.writer.held ++ c.controlOut.map ClientFrame.intoControl

/-- Terminal frames not yet written or collected, in lane order. -/
def terminalLane (c : ClientConnection F) : List (Nat × ClientFrame F) :=
  c.pendingTerminal.toList ++ c.terminalOut.map ClientFrame.intoTerminal

/-- Taking the next terminal frame takes the head of the lane, and nothing else
changes. -/
theorem nextTerminal_cases (c : ClientConnection F) :
    (c.nextTerminal = (none, c) ∧ c.terminalLane = []) ∨
      ∃ next rest, c.nextTerminal =
          (some next, { c with pendingTerminal := none, terminalOut := rest }) ∧
        c.terminalLane = next :: rest.map ClientFrame.intoTerminal := by
  rcases c with ⟨_, _, terminalOut, _, _, pendingTerminal, _, _, _, _⟩
  cases pendingTerminal with
  | some next => exact .inr ⟨next, terminalOut, rfl, rfl⟩
  | none =>
    cases terminalOut with
    | nil => exact .inl ⟨rfl, rfl⟩
    | cons terminal rest => exact .inr ⟨terminal.intoTerminal, rest, rfl, rfl⟩

/-- `unwritten` is the send order of what the writer has not decided on yet: the
two lanes are its projections and its numbers agree with it. -/
structure Ordered (c : ClientConnection F) (unwritten : List (Sent (ClientFrame F))) : Prop where
  running : c.writer.isEnded = false
  unbudgeted : c.budget = none
  sent : c.sent = c.written ++ c.writer.taken ++ unwritten.map Sent.item
  controls : Sent.markers unwritten = c.controlLane
  terminals : Sent.stampeds unwritten = c.terminalLane
  inOrder : Sent.InOrder unwritten
  bounded : ∀ x ∈ unwritten, x.number ≤ c.terminalSequence
  counted : c.terminalSequence = c.terminalSends

/-- While the loop runs the send order is recoverable; afterwards nothing more is
written. -/
inductive Consistent (c : ClientConnection F) : Prop where
  | running (unwritten : List (Sent (ClientFrame F))) (ordered : c.Ordered unwritten)
  | isOver (ended : c.writer.isEnded = true) (written : c.written <+: c.sent)

variable {c : ClientConnection F} {unwritten : List (Sent (ClientFrame F))}

theorem Ordered.follows (ordered : c.Ordered unwritten) : c.written <+: c.sent := by
  rw [ordered.sent, List.append_assoc]
  exact List.prefix_append _ _

theorem Consistent.follows (consistent : c.Consistent) : c.written <+: c.sent := by
  cases consistent with
  | running unwritten ordered => exact ordered.follows
  | isOver ended written => exact written

theorem start_consistent (capacity : Nat) : (start capacity : ClientConnection F).Consistent := by
  refine .running [] ⟨rfl, rfl, rfl, rfl, rfl, List.Pairwise.nil, ?_, rfl⟩
  intro x member
  cases member

/-! ### Sending -/

/-- A new number at the end of the send order is the largest so far. -/
theorem bounded_push {before after : Nat} {fresh : Sent (ClientFrame F)}
    (bounded : ∀ x ∈ unwritten, x.number ≤ before) (grows : before ≤ after)
    (last : fresh.number ≤ after) :
    ∀ x ∈ unwritten ++ [fresh], x.number ≤ after := by
  exact forall_mem_snoc (fun x old => Nat.le_trans (bounded x old) grows) last

variable {t : ClientConnection F} {frame : ClientFrame F}

theorem sendControl_consistent {reserved : Bool} (consistent : c.Consistent)
    (stepped : c.step (.sendControl frame reserved) = some t) :
    t.Consistent := by
  cases stepped
  cases consistent with
  | isOver ended written =>
    -- The channel is closed, so whatever the budget says nothing is queued.
    refine .isOver ?_ ?_ <;>
      (unfold sendControl; split <;> simp only [ended, if_true])
    · exact written.trans (List.prefix_append _ _)
    · exact written.trans (List.prefix_append _ _)
  | running unwritten ordered =>
    have accepted : c.reserve frame reserved = some frame := by
      rw [reserve, ordered.unbudgeted]
    simp only [sendControl, accepted, ordered.running, Bool.false_eq_true, if_false]
    refine .running (unwritten ++ [.marker c.terminalSequence frame])
      ⟨ordered.running, ordered.unbudgeted, ?_, ?_, ?_,
        ordered.inOrder.push_marker frame ordered.bounded,
        bounded_push ordered.bounded (Nat.le_refl _) (Nat.le_refl _), ordered.counted⟩
    · simp [ordered.sent, Sent.item]
    · simp [controlLane, ordered.controls, Sent.markers, ClientFrame.intoControl]
    · simp [terminalLane, ordered.terminals, Sent.stampeds]

/-- With the loop left, a terminal frame is refused. -/
theorem trySendTerminal_of_ended (ended : c.writer.isEnded = true) (frame : ClientFrame F)
    (reserved : Bool) :
    (c.trySendTerminal frame reserved).1 = false ∧
      (c.trySendTerminal frame reserved).2.writer = c.writer ∧
      (c.trySendTerminal frame reserved).2.written = c.written ∧
      (c.trySendTerminal frame reserved).2.sent = c.sent := by
  unfold trySendTerminal
  split <;> simp [ended]

theorem trySendTerminal_consistent {reserved : Bool}
    (consistent : c.Consistent) (stepped : c.step (.trySendTerminal frame reserved) = some t)
    (fits : t.terminalSends ≤ u64Max) : t.Consistent := by
  cases stepped
  cases consistent with
  | isOver ended written =>
    obtain ⟨refused, writer, wrote, sent⟩ := trySendTerminal_of_ended ended frame reserved
    refine .isOver ?_ ?_ <;> simp only [refused, Bool.false_eq_true, if_false]
    · rw [writer, ended]
    · rw [wrote, sent]
      exact written
  | running unwritten ordered =>
    have accepted : c.reserve frame reserved = some frame := by
      rw [reserve, ordered.unbudgeted]
    simp only [trySendTerminal, accepted, ordered.running, Bool.false_or] at fits ⊢
    have spent : c.terminalSends + 1 ≤ u64Max := by
      split at fits <;> exact fits
    have next : wrappingAdd c.terminalSequence 1 = c.terminalSequence + 1 := by
      apply wrappingAdd_of_le
      rw [ordered.counted]
      exact spent
    rw [next]
    by_cases full : c.capacity ≤ c.terminalOut.length
    · -- Rejected: the sequence is spent, the lanes are as before.
      simp only [full, decide_true, if_true, Bool.false_eq_true, if_false]
      refine .running unwritten ⟨ordered.running, ordered.unbudgeted, ordered.sent,
        ordered.controls, ordered.terminals, ordered.inOrder, ?_, ?_⟩
      · intro x member
        exact Nat.le_succ_of_le (ordered.bounded x member)
      · exact congrArg (· + 1) ordered.counted
    · simp only [full, decide_false, Bool.false_eq_true, if_false, if_true]
      refine .running (unwritten ++ [.stamped (c.terminalSequence + 1) frame])
        ⟨ordered.running, ordered.unbudgeted, ?_, ?_, ?_,
          ordered.inOrder.push_stamped frame ordered.bounded,
          bounded_push ordered.bounded (Nat.le_succ _) (Nat.le_refl _),
          congrArg (· + 1) ordered.counted⟩
      · simp [ordered.sent, Sent.item]
      · simp [controlLane, ordered.controls, Sent.markers]
      · simp [terminalLane, ordered.terminals, Sent.stampeds, ClientFrame.intoTerminal]

/-! ### Writing -/

section

variable (ordered : c.Ordered unwritten)

include ordered

theorem receiveControl_ordered (stepped : c.receiveControl = some t) : t.Ordered unwritten := by
  unfold receiveControl at stepped
  split at stepped
  · rename_i control rest ready lane
    cases stepped
    refine ⟨rfl, ordered.unbudgeted, ?_, ?_, ordered.terminals, ordered.inOrder, ordered.bounded,
      ordered.counted⟩
    · have sent := ordered.sent
      rw [ready] at sent
      exact sent
    · have controls := ordered.controls
      rw [controlLane, ready, lane] at controls
      exact controls
  · cases stepped

theorem receiveTerminal_ordered (stepped : c.receiveTerminal = some t) : t.Ordered unwritten := by
  unfold receiveTerminal at stepped
  split at stepped
  · rename_i terminal rest ready empty lane
    cases stepped
    refine ⟨ordered.running, ordered.unbudgeted, ordered.sent, ordered.controls, ?_,
      ordered.inOrder, ordered.bounded, ordered.counted⟩
    have terminals := ordered.terminals
    rw [terminalLane, empty, lane] at terminals
    exact terminals
  · cases stepped

omit ordered in
/-- The head of the send order moves to the frames the writer has decided on. -/
theorem Ordered.sent_move {x : Sent (ClientFrame F)} {rest : List (Sent (ClientFrame F))}
    (ordered : c.Ordered (x :: rest)) :
    c.sent = c.written ++ (c.writer.taken ++ [x.item]) ++ rest.map Sent.item := by
  rw [ordered.sent]
  simp

/-- No control frame waits, so the pending terminal frame is next. -/
theorem takePendingTerminal_ordered
    (stepped : c.takePendingTerminal = some t) : ∃ rest, t.Ordered rest := by
  unfold takePendingTerminal at stepped
  split at stepped
  · rename_i sequence frame ready pending lane
    cases stepped
    have controls := ordered.controls
    rw [controlLane, ready, lane] at controls
    have terminals := ordered.terminals
    rw [terminalLane, pending] at terminals
    obtain ⟨rest, rfl, unmarked, numbered⟩ := Sent.stamped_first ordered.inOrder terminals (by
      rw [controls]
      exact nofun)
    refine ⟨rest, rfl, ordered.unbudgeted, ?_, ?_, numbered,
      (List.pairwise_cons.mp ordered.inOrder).2,
      fun x member => ordered.bounded x (.tail _ member), ordered.counted⟩
    · have sent := ordered.sent_move
      rw [ready] at sent
      exact sent
    · rw [unmarked, controls, lane]
      rfl
  · cases stepped

omit ordered in
/-- The collected frames go out with the control frame behind them once no
terminal frame sent before it is left. -/
theorem writeControl_ordered {watermark : Nat} {control : ClientFrame F}
    {terminal : List (ClientFrame F)} (pending : Option (Nat × ClientFrame F))
    (queue : List (ClientFrame F)) (ordered : c.Ordered unwritten)
    (collecting : c.writer = .collecting watermark control terminal)
    (lane : c.terminalLane = pending.toList ++ queue.map ClientFrame.intoTerminal)
    (beyond : ∀ sequence frame rest, c.terminalLane = (sequence, frame) :: rest → watermark < sequence) :
    ∃ rest, Ordered { c with
      pendingTerminal := pending
      terminalOut := queue
      writer := .writeAll (terminal ++ [control]) } rest := by
  have controls := ordered.controls
  rw [controlLane, collecting] at controls
  obtain ⟨rest, rfl, markers, stampeds⟩ := Sent.marker_first ordered.inOrder controls (by
    rw [ordered.terminals]
    exact beyond)
  refine ⟨rest, ConnectionWriter.isEnded_writeAll _, ordered.unbudgeted, ?_, ?_, ?_,
    (List.pairwise_cons.mp ordered.inOrder).2,
    fun x member => ordered.bounded x (.tail _ member), ordered.counted⟩
  · have sent := ordered.sent_move
    rw [collecting] at sent
    rw [ConnectionWriter.taken_writeAll]
    exact sent
  · rw [controlLane, ConnectionWriter.held_writeAll]
    exact markers
  · rw [stampeds, ordered.terminals, lane]
    rfl

theorem beforeControl_ordered (stepped : c.beforeControl = some t) : ∃ rest, t.Ordered rest := by
  unfold beforeControl at stepped
  split at stepped
  · rename_i watermark control terminal collecting
    rcases c.nextTerminal_cases with ⟨next, empty⟩ | ⟨⟨sequence, frame⟩, queue, next, lane⟩
    · -- The terminal lane is empty.
      rw [next] at stepped
      cases stepped
      refine writeControl_ordered c.pendingTerminal c.terminalOut ordered collecting rfl ?_
      intro sequence frame rest nonempty
      rw [empty] at nonempty
      cases nonempty
    · rw [next] at stepped
      dsimp only at stepped
      split at stepped
      · -- Sent before the control frame: collect it.
        rename_i within
        cases stepped
        have controls := ordered.controls
        rw [controlLane, collecting] at controls
        obtain ⟨rest, rfl, markers, stampeds⟩ := Sent.stamped_first ordered.inOrder
          (ordered.terminals.trans lane) (by
            rintro mark m ms head
            cases controls.symm.trans head
            exact within)
        refine ⟨rest, rfl, ordered.unbudgeted, ?_, markers.trans controls, stampeds,
          (List.pairwise_cons.mp ordered.inOrder).2,
          fun x member => ordered.bounded x (.tail _ member), ordered.counted⟩
        have sent := ordered.sent_move
        rw [collecting] at sent
        exact sent
      · -- Sent after it: keep the frame in the lookahead slot.
        rename_i beyond
        cases stepped
        refine writeControl_ordered (some (sequence, frame)) queue ordered collecting lane ?_
        intro number item rest head
        rw [lane] at head
        cases head
        exact Nat.lt_of_not_le beyond
  · cases stepped

theorem writeFrame_ordered (stepped : c.writeFrame = some t) : t.Ordered unwritten := by
  unfold writeFrame at stepped
  split at stepped
  · rename_i frame rest writing
    cases stepped
    refine ⟨ConnectionWriter.isEnded_writeAll _, ordered.unbudgeted, ?_, ?_, ordered.terminals,
      ordered.inOrder, ordered.bounded, ordered.counted⟩
    · have sent := ordered.sent
      rw [writing] at sent
      rw [ConnectionWriter.taken_writeAll, sent]
      simp [ConnectionWriter.taken]
    · have controls := ordered.controls
      rw [controlLane, writing] at controls
      rw [controlLane, ConnectionWriter.held_writeAll]
      exact controls
  · cases stepped

/-! ## Whole runs -/

omit ordered in
/-- A writer that left its loop takes nothing off a lane and writes nothing. -/
theorem writer_stops (ended : c.writer.isEnded = true) :
    c.receiveControl = none ∧ c.receiveTerminal = none ∧ c.takePendingTerminal = none ∧
      c.beforeControl = none ∧ c.writeFrame = none := by
  have isOver : c.writer = .ended := by
    cases state : c.writer <;> rw [state] at ended <;> first | rfl | cases ended
  simp [receiveControl, receiveTerminal, takePendingTerminal, beforeControl, writeFrame, isOver]

/-- A step of the writer while its loop runs. -/
theorem writerStep_consistent :
    c.receiveControl = some t ∨ c.receiveTerminal = some t ∨ c.takePendingTerminal = some t ∨
      c.beforeControl = some t ∨ c.writeFrame = some t → t.Consistent := by
  rintro (stepped | stepped | stepped | stepped | stepped)
  · exact .running _ (receiveControl_ordered ordered stepped)
  · exact .running _ (receiveTerminal_ordered ordered stepped)
  · obtain ⟨rest, after⟩ := takePendingTerminal_ordered ordered stepped
    exact .running rest after
  · obtain ⟨rest, after⟩ := beforeControl_ordered ordered stepped
    exact .running rest after
  · exact .running _ (writeFrame_ordered ordered stepped)

end

theorem step_consistent {event : ConnectionEvent F} (consistent : c.Consistent)
    (stepped : c.step event = some t) (fits : t.terminalSends ≤ u64Max) : t.Consistent := by
  cases event with
  | sendControl frame reserved => exact sendControl_consistent consistent stepped
  | trySendTerminal frame reserved => exact trySendTerminal_consistent consistent stepped fits
  | breakLoop =>
    cases stepped
    exact .isOver rfl consistent.follows
  | receiveControl | receiveTerminal | takePendingTerminal | beforeControl | writeFrame =>
    cases consistent with
    | isOver ended written => simp [step, writer_stops ended] at stepped
    | running unwritten ordered =>
      refine writerStep_consistent ordered ?_
      simp only [step] at stepped
      simp only [stepped, true_or, or_true]

/-- The count of terminal sends never goes back. -/
theorem step_terminalSends_le {event : ConnectionEvent F} (stepped : c.step event = some t) :
    c.terminalSends ≤ t.terminalSends := by
  cases event with
  | sendControl frame reserved =>
    cases stepped
    unfold sendControl
    split
    · exact Nat.le_refl _
    · split <;> exact Nat.le_refl _
  | trySendTerminal frame reserved =>
    cases stepped
    unfold trySendTerminal
    split
    · exact Nat.le_refl _
    · dsimp only
      split <;> exact Nat.le_succ _
  | breakLoop =>
    cases stepped
    exact Nat.le_refl _
  | receiveControl | receiveTerminal | takePendingTerminal | writeFrame =>
    simp only [step, receiveControl, receiveTerminal, takePendingTerminal, writeFrame] at stepped
    split at stepped <;> cases stepped
    exact Nat.le_refl _
  | beforeControl =>
    rw [step, beforeControl] at stepped
    split at stepped
    · rcases c.nextTerminal_cases with ⟨next, -⟩ | ⟨_, _, next, -⟩ <;> rw [next] at stepped
      · cases stepped
        exact Nat.le_refl _
      · dsimp only at stepped
        split at stepped <;> cases stepped <;> exact Nat.le_refl _
    · cases stepped

/-- **The writer keeps the send order.**  Whatever the interleaving and whichever
terminal frames the queue rejects, the frames written so far are a prefix of the
frames sent, rejected ones removed, as long as the sequence has not wrapped. -/
theorem written_follows_sends (capacity : Nat) (events : List (ConnectionEvent F))
    (c : ClientConnection F) (ran : run step (start capacity) events = some c)
    (fits : c.terminalSends ≤ u64Max) : c.written <+: c.sent := by
  refine (run_invariant (fun c : ClientConnection F => c.terminalSends ≤ u64Max → c.Consistent)
    ?_ events _ c (fun _ => start_consistent capacity) ran fits).follows
  intro s event t consistent stepped fits
  exact step_consistent (consistent (Nat.le_trans (step_terminalSends_le stepped) fits)) stepped fits

/-- On a lane of one place: the second terminal frame is rejected and the third,
sent while the writer looks at the lanes, waits for the control frame before it. -/
def crossingRun : List (ConnectionEvent Nat) :=
  [.trySendTerminal (.plain 1) true, .trySendTerminal (.plain 2) true,
    .sendControl (.plain 3) true, .receiveTerminal, .trySendTerminal (.plain 4) true,
    .receiveControl, .beforeControl, .beforeControl, .writeFrame, .writeFrame,
    .takePendingTerminal, .writeFrame]

theorem written_follows_sends_crossingRun :
    ∃ c, run step (start 1) crossingRun = some c ∧
      c.written = [.plain 1, .plain 3, .plain 4] ∧ c.written <+: c.sent := by
  refine ⟨_, rfl, rfl, ?_⟩
  exact written_follows_sends 1 crossingRun _ rfl (by decide)

/-! ## Past the last sequence -/

/-- A full terminal lane refuses, and the sequence advances all the same. -/
theorem run_rejected (frame : ClientFrame F) (reserved : Bool) :
    ∀ (n : Nat) (c : ClientConnection F), c.writer.isEnded = false → c.budget = none →
      c.capacity ≤ c.terminalOut.length → c.terminalSequence + n ≤ u64Max →
      run step c (List.replicate n (.trySendTerminal frame reserved)) =
        some { c with
          terminalSequence := c.terminalSequence + n
          terminalSends := c.terminalSends + n }
  | 0, _, _, _, _, _ => rfl
  | n + 1, c, running, unbudgeted, full, fits => by
      have next : wrappingAdd c.terminalSequence 1 = c.terminalSequence + 1 :=
        wrappingAdd_of_le (by omega)
      have rejected : c.step (.trySendTerminal frame reserved) = some { c with
          terminalSequence := c.terminalSequence + 1
          terminalSends := c.terminalSends + 1 } := by
        simp [step, trySendTerminal, reserve, unbudgeted, running, full, next]
      have later := run_rejected frame reserved n { c with
          terminalSequence := c.terminalSequence + 1
          terminalSends := c.terminalSends + 1 } running unbudgeted full
        (by dsimp only; omega)
      rw [List.replicate_succ, run_cons, rejected, Option.bind_some, later]
      simp only [Nat.add_assoc, Nat.add_comm 1 n]

/-- Fill the lane of a local client. -/
def fillingRun : List (ConnectionEvent Nat) :=
  List.replicate clientTerminalOutQueueCapacity (.trySendTerminal (.plain 0) true)

/-- What filling it leaves. -/
def filledLane : ClientConnection Nat where
  capacity := clientTerminalOutQueueCapacity
  controlOut := []
  terminalOut := (List.range' 1 8).map fun sequence => .sequencedTerminal sequence (.plain 0)
  terminalSequence := 8
  budget := none
  pendingTerminal := none
  writer := .ready
  written := []
  sent := List.replicate 8 (.plain 0)
  terminalSends := 8

/-- One terminal frame goes out, then a control frame is sent and a terminal frame
after it, and the writer serves the control frame. -/
def overtakingRun : List (ConnectionEvent Nat) :=
  [.receiveTerminal, .takePendingTerminal, .writeFrame, .sendControl (.plain 1) true,
    .trySendTerminal (.plain 2) true, .receiveControl] ++
  List.replicate 9 .beforeControl ++ List.replicate 8 .writeFrame

/-- After the last `u64` the sequence restarts at zero: a terminal frame sent after
a control frame is taken for one sent before it. -/
theorem wrapped_sequence_overtakes :
    ¬ ∀ (capacity : Nat) (events : List (ConnectionEvent Nat)) (c : ClientConnection Nat),
        run step (start capacity) events = some c → c.written <+: c.sent := by
  intro always
  have filled : run step (start clientTerminalOutQueueCapacity) fillingRun = some filledLane := rfl
  have spent := run_rejected (.plain 0) true (u64Max - 8) filledLane rfl rfl (by decide) (by decide)
  have ran : ∃ c, run step (start clientTerminalOutQueueCapacity)
      (fillingRun ++ (List.replicate (u64Max - 8) (.trySendTerminal (.plain 0) true) ++
        overtakingRun)) = some c ∧ ¬ c.written <+: c.sent := by
    rw [run_append, filled, Option.bind_some, run_append, spent]
    exact ⟨_, rfl, by decide⟩
  obtain ⟨c, ran, overtaken⟩ := ran
  exact overtaken (always _ _ c ran)

end ClientConnection

end Alera.Terminal
