/-
# Alera.Terminal.CommandInbox -- admission to the server's command inbox

The terminal host's actor reads commands from one unbounded queue, and admission
(`server_command_inbox_admission.rs`) bounds what is in it: six counters, a number
of commands and a number of bytes for each of three lanes.  A sender charges the
command's class while it holds the admission lock and pushes the command before it
lets the lock go; the receiver recomputes the class from the command it took and
releases the charge.

A send is modelled as one step, a blocked sender's as one look at the state: it is
admitted, refused, or keeps waiting.  The reason of a refusal is read after the
lock was let go, so a send also takes the inbox as it is by then (`later`).

What the rest of the program computes about a command (`Budget`) is arbitrary: the
accounting rests only on the class being a function of the command.  `Effect` is
everything a step does, and `Accounts` what every step keeps while there is a
receiver.
-/
import Alera.Theory.Runs
import Mathlib.Data.Finset.Basic
import Mathlib.Algebra.BigOperators.Group.List.Basic
import Mathlib.Algebra.Ring.Nat

namespace Alera.Terminal.CommandInbox

open Theory List

set_option autoImplicit false

/-! ## Commands and their classes -/

/-- `PtyEvent`, as far as admission looks at it. -/
inductive PtyEvent where
  | output (data : List UInt8)
  | other

/-- `ServerCommand`: the variants that the inbox looks at, and the others. -/
inductive ServerCommand (Other Voice : Type) where
  | clientLine (line : List UInt8)
  | relayClientLine (line : List UInt8)
  | pty (sessionId : String) (event : PtyEvent)
  | voiceRealtime (event : Voice)
  | requestedShutdown
  | requestedRestart
  | other (command : Other)

/-- `AdmissionClass`. -/
inductive AdmissionClass where
  | work (bytes : Nat)
  | control (bytes : Nat)
  | completion (bytes : Nat)
deriving DecidableEq

inductive Lane where
  | work
  | control
  | completion
deriving DecidableEq

def AdmissionClass.lane : AdmissionClass → Lane
  | .work _ => .work
  | .control _ => .control
  | .completion _ => .completion

def AdmissionClass.bytes : AdmissionClass → Nat
  | .work bytes => bytes
  | .control bytes => bytes
  | .completion bytes => bytes

/-- `SERVER_COMMAND_*_CAPACITY`. -/
def capacity : Lane → Nat
  | .work => 256
  | .control => 128
  | .completion => 128

/-- `SERVER_COMMAND_*_BYTES`. -/
def byteLimit : Lane → Nat
  | .work => 64 * 1024 * 1024
  | .control => 16 * 1024 * 1024
  | .completion => 16 * 1024 * 1024

/-- `SERVER_COMMAND_MAX_LINE_BYTES`. -/
def maxLineBytes : Nat := byteLimit .work

/-- `SERVER_COMMAND_SMALL_LINE_BYTES`. -/
def smallLineBytes : Nat := 1024 * 1024

/-- `ServerInboxSendError`. -/
inductive SendError where
  | full
  | oversized
  | closed
deriving DecidableEq

/-- What the command types themselves say: which commands are completions, how much a
command holds, and how an oversized completion is cut down. -/
structure Budget (Other Voice : Type) where
  isCompletionCommand : ServerCommand Other Voice → Bool
  /-- `command_control_bytes` before its last line, `bytes.max(1)`. -/
  payloadBytes : ServerCommand Other Voice → Nat
  voiceRealtimeEventBytes : Voice → Nat
  boundCompletionResult : ServerCommand Other Voice → ServerCommand Other Voice

section Commands

variable {Other Voice : Type} (budget : Budget Other Voice)

/-- `command_control_bytes`. -/
def commandControlBytes (command : ServerCommand Other Voice) : Nat :=
  max (budget.payloadBytes command) 1

/-- The class of a line from a client: a long one is work. -/
def lineClass (line : List UInt8) : Except SendError AdmissionClass :=
  if line.length > maxLineBytes then .error .oversized
  else if max line.length 1 > smallLineBytes then .ok (.work (max line.length 1))
  else .ok (.control (max line.length 1))

/-- `command_admission_class`. -/
def commandAdmissionClass (command : ServerCommand Other Voice) : Except SendError AdmissionClass :=
  if budget.isCompletionCommand command then .ok (.completion (commandControlBytes budget command))
  else match command with
    | .clientLine line => lineClass line
    | .relayClientLine line => lineClass line
    | .pty _ (.output data) =>
      if max data.length 1 > byteLimit .work then .error .oversized
      else .ok (.work (max data.length 1))
    | .pty _ .other => .ok (.work 1)
    | .voiceRealtime event =>
      if budget.voiceRealtimeEventBytes event > byteLimit .work then .error .oversized
      else .ok (.work (budget.voiceRealtimeEventBytes event))
    | command =>
      if commandControlBytes budget command > byteLimit .control then .error .oversized
      else .ok (.control (commandControlBytes budget command))

end Commands

inductive Signal where
  | shutdown
  | restart
deriving DecidableEq

/-- `control_signal`. -/
def controlSignal {Other Voice : Type} : ServerCommand Other Voice → Option Signal
  | .requestedShutdown => some .shutdown
  | .requestedRestart => some .restart
  | _ => none

/-- `pty_session`. -/
def ptySession {Other Voice : Type} : ServerCommand Other Voice → Option String
  | .pty sessionId _ => some sessionId
  | _ => none

/-! ## Admission -/

/-- `AdmissionState`. -/
structure AdmissionState where
  workCommands : Nat
  workBytes : Nat
  controlCommands : Nat
  controlBytes : Nat
  completionCommands : Nat
  completionBytes : Nat
  closed : Bool
  receiverClosed : Bool
  pausedPtySessions : Finset String

namespace AdmissionState

/-- The counters of a lane. -/
def commandsOf (state : AdmissionState) : Lane → Nat
  | .work => state.workCommands
  | .control => state.controlCommands
  | .completion => state.completionCommands

def bytesOf (state : AdmissionState) : Lane → Nat
  | .work => state.workBytes
  | .control => state.controlBytes
  | .completion => state.completionBytes

/-- `can_acquire`. -/
def canAcquire (state : AdmissionState) (cls : AdmissionClass) (ptySessionId : Option String) : Bool :=
  if ptySessionId.any fun id => decide (id ∈ state.pausedPtySessions) then false
  else match cls with
    | .work bytes =>
      decide (state.workCommands < capacity .work) &&
        decide (bytes ≤ byteLimit .work - state.workBytes)
    | .control bytes =>
      decide (state.controlCommands < capacity .control) &&
        decide (bytes ≤ byteLimit .control - state.controlBytes)
    | .completion _ => false

/-- `can_acquire_completion`: a completion over the limit is admitted alone. -/
def canAcquireCompletion (state : AdmissionState) : AdmissionClass → Bool
  | .completion bytes =>
    if state.completionCommands ≥ capacity .completion then false
    else decide (bytes ≤ byteLimit .completion - state.completionBytes) ||
      (state.completionCommands == 0 && state.completionBytes == 0 &&
        decide (bytes > byteLimit .completion))
  | _ => false

/-- `acquire`. -/
def acquire (state : AdmissionState) : AdmissionClass → AdmissionState
  | .work bytes =>
    { state with
      workCommands := state.workCommands + 1
      workBytes := state.workBytes + bytes }
  | .control bytes =>
    { state with
      controlCommands := state.controlCommands + 1
      controlBytes := state.controlBytes + bytes }
  | .completion bytes =>
    { state with
      completionCommands := state.completionCommands + 1
      completionBytes := state.completionBytes + bytes }

/-- `release`, with saturating subtractions. -/
def release (state : AdmissionState) : AdmissionClass → AdmissionState
  | .work bytes =>
    { state with
      workCommands := state.workCommands - 1
      workBytes := state.workBytes - bytes }
  | .control bytes =>
    { state with
      controlCommands := state.controlCommands - 1
      controlBytes := state.controlBytes - bytes }
  | .completion bytes =>
    { state with
      completionCommands := state.completionCommands - 1
      completionBytes := state.completionBytes - bytes }

/-- `try_acquire`. -/
def tryAcquire (state : AdmissionState) (cls : AdmissionClass) (ptySessionId : Option String) :
    Option AdmissionState :=
  if state.closed || !state.canAcquire cls ptySessionId then none else some (state.acquire cls)

/-- `try_acquire_completion`. -/
def tryAcquireCompletion (state : AdmissionState) (cls : AdmissionClass) : Option AdmissionState :=
  if state.receiverClosed || !state.canAcquireCompletion cls then none
  else some (state.acquire cls)

/-- `close`. -/
def close (state : AdmissionState) : AdmissionState := { state with closed := true }

/-- `receiver_closed`. -/
def receiverGone (state : AdmissionState) : AdmissionState :=
  { state with closed := true, receiverClosed := true }

/-- `pause_pty_session`. -/
def pausePtySession (state : AdmissionState) (sessionId : String) : AdmissionState :=
  if state.closed then state
  else { state with pausedPtySessions := insert sessionId state.pausedPtySessions }

/-- `resume_pty_session`. -/
def resumePtySession (state : AdmissionState) (sessionId : String) : AdmissionState :=
  { state with pausedPtySessions := state.pausedPtySessions.erase sessionId }

end AdmissionState

/-- What a waiting sender finds when it looks under the lock. -/
inductive Look where
  | reserved (state : AdmissionState)
  | refused
  | waiting

namespace AdmissionState

/-- One round of `acquire_blocking`. -/
def acquireBlocking (state : AdmissionState) (cls : AdmissionClass) (ptySessionId : Option String) :
    Look :=
  if !state.closed && !state.canAcquire cls ptySessionId then .waiting
  else if state.closed then .refused
  else .reserved (state.acquire cls)

/-- One round of `acquire_completion_blocking`. -/
def acquireCompletionBlocking (state : AdmissionState) (cls : AdmissionClass) : Look :=
  if !state.receiverClosed && !state.canAcquireCompletion cls then .waiting
  else if state.receiverClosed then .refused
  else .reserved (state.acquire cls)

end AdmissionState

/-! ## The inbox -/

/-- The queue, its admission and the wake flag; `txClosed` says that the channel's
receiving half is gone. -/
structure ServerInbox (Other Voice : Type) where
  admission : AdmissionState
  queue : List (ServerCommand Other Voice)
  wake : Option Signal
  txClosed : Bool

/-- How a send ends, or that it goes on waiting. -/
inductive SendResult where
  | sent
  | refused (error : SendError)
  | waiting
deriving DecidableEq

/-- The three ways to send. -/
inductive SendKind where
  | send
  | blocking
  | wait
deriving DecidableEq

namespace ServerInbox

variable {Other Voice : Type}

/-- `ServerInbox::channel`. -/
def channel : ServerInbox Other Voice where
  admission := ⟨0, 0, 0, 0, 0, 0, false, false, ∅⟩
  queue := []
  wake := none
  txClosed := false

/-- `request_control`: the first signal stays until it is taken. -/
def requestControl (inbox : ServerInbox Other Voice) (signal : Signal) : ServerInbox Other Voice :=
  { inbox with
    admission := inbox.admission.close
    wake := inbox.wake.or (some signal) }

/-- `tx.send` under the reservation, and the release if there is nobody to receive. -/
def push (inbox : ServerInbox Other Voice) (reserved : AdmissionState) (cls : AdmissionClass)
    (command : ServerCommand Other Voice) : SendResult × ServerInbox Other Voice :=
  if inbox.txClosed then (.refused .closed, { inbox with admission := reserved.release cls })
  else (.sent, { inbox with admission := reserved, queue := inbox.queue ++ [command] })

/-- The test for a closed inbox that a sender without a reservation makes. -/
def closedFor (later : ServerInbox Other Voice) (isCompletion : Bool) : Bool :=
  later.txClosed || (!isCompletion && later.admission.closed)

/-- The reservation of `send` and of each round of `send_wait`. -/
def reserve (inbox : ServerInbox Other Voice) (cls : AdmissionClass)
    (command : ServerCommand Other Voice) : Option AdmissionState :=
  if cls.lane = .completion then inbox.admission.tryAcquireCompletion cls
  else inbox.admission.tryAcquire cls (ptySession command)

/-- `send`, `send_blocking` and `send_wait` of a command with a class, from the
reservation on. -/
def sendAs (inbox later : ServerInbox Other Voice) (cls : AdmissionClass)
    (command : ServerCommand Other Voice) : SendKind → SendResult × ServerInbox Other Voice
  | .send =>
    match inbox.reserve cls command with
    | some reserved => inbox.push reserved cls command
    | none =>
      (.refused (if later.closedFor (decide (cls.lane = .completion)) then .closed else .full),
        inbox)
  | .blocking =>
    match if cls.lane = .completion then inbox.admission.acquireCompletionBlocking cls
      else inbox.admission.acquireBlocking cls (ptySession command) with
    | .reserved reserved => inbox.push reserved cls command
    | .refused => (.refused .closed, inbox)
    | .waiting => (.waiting, inbox)
  | .wait =>
    match inbox.reserve cls command with
    | some reserved => inbox.push reserved cls command
    | none =>
      (if later.closedFor (decide (cls.lane = .completion)) then .refused .closed else .waiting,
        inbox)

/-- The whole of the three functions: an oversized completion is cut down, a signal
takes no place in the queue, and the rest is admitted by its class. -/
def attempt (budget : Budget Other Voice) (kind : SendKind) (inbox later : ServerInbox Other Voice)
    (command : ServerCommand Other Voice) : SendResult × ServerInbox Other Voice :=
  let command := budget.boundCompletionResult command
  match controlSignal command with
  | some signal => (.sent, inbox.requestControl signal)
  | none =>
    match commandAdmissionClass budget command with
    | .error error => (.refused error, inbox)
    | .ok cls => inbox.sendAs later cls command kind

/-- `release_command`. -/
def releaseCommand (budget : Budget Other Voice) (state : AdmissionState)
    (command : ServerCommand Other Voice) : AdmissionState :=
  match commandAdmissionClass budget command with
  | .ok cls => state.release cls
  | .error _ => state

/-- The command that a signal is received as. -/
def signalCommand : Signal → ServerCommand Other Voice
  | .shutdown => .requestedShutdown
  | .restart => .requestedRestart

/-- `recv`, or that there is nothing yet.  The inbox holds a sender of its own, so the
channel is never disconnected. -/
def recv (budget : Budget Other Voice) (inbox : ServerInbox Other Voice) :
    Option (ServerCommand Other Voice) × ServerInbox Other Voice :=
  match inbox.queue with
  | command :: rest =>
    (some command,
      { inbox with
        admission := releaseCommand budget inbox.admission command
        queue := rest })
  | [] => (inbox.wake.map signalCommand, { inbox with wake := none })

end ServerInbox

/-- Everything that is done to an inbox.  The receiver is dropped in two steps: first
`receiver_closed` runs, then the channel's receiving half goes with what is queued. -/
inductive Action (Other Voice : Type) where
  | send (kind : SendKind) (command : ServerCommand Other Voice)
  | recv
  | close
  | pausePtySession (sessionId : String)
  | resumePtySession (sessionId : String)
  | dropReceiver
  | dropChannel

/-- What an action answers. -/
inductive Answer (Other Voice : Type) where
  | result (result : SendResult)
  | received (command : Option (ServerCommand Other Voice))
  | done

section Runs

variable {Other Voice : Type} (budget : Budget Other Voice)

def step (inbox : ServerInbox Other Voice) :
    Action Other Voice → Answer Other Voice × ServerInbox Other Voice
  | .send kind command =>
    (.result (inbox.attempt budget kind inbox command).1,
      (inbox.attempt budget kind inbox command).2)
  | .recv =>
    -- Without a receiver there is no `recv`.
    if inbox.admission.receiverClosed then (.received none, inbox)
    else (.received (inbox.recv budget).1, (inbox.recv budget).2)
  | .close => (.done, { inbox with admission := inbox.admission.close })
  | .pausePtySession sessionId =>
    (.done, { inbox with admission := inbox.admission.pausePtySession sessionId })
  | .resumePtySession sessionId =>
    (.done, { inbox with admission := inbox.admission.resumePtySession sessionId })
  | .dropReceiver => (.done, { inbox with admission := inbox.admission.receiverGone })
  | .dropChannel =>
    if inbox.admission.receiverClosed then (.done, { inbox with queue := [], txClosed := true })
    else (.done, inbox)

/-- The inbox after a sequence of actions. -/
def after (actions : List (Action Other Voice)) : ServerInbox Other Voice :=
  (transduce (step budget) ServerInbox.channel actions).2

/-- The charges of the queued commands of a lane, in order. -/
def charges (lane : Lane) (queue : List (ServerCommand Other Voice)) : List Nat :=
  queue.filterMap fun command =>
    match commandAdmissionClass budget command with
    | .ok cls => if cls.lane = lane then some cls.bytes else none
    | .error _ => none

end Runs

/-! ## What a step does -/

namespace AdmissionState

variable (state : AdmissionState)

include state

variable (cls : AdmissionClass)

include cls

variable (lane : Lane)

/-- The charge of a class, to the lane it belongs to. -/
theorem commandsOf_acquire : (state.acquire cls).commandsOf lane =
      state.commandsOf lane + if cls.lane = lane then 1 else 0 := by
  cases cls <;> cases lane <;> rfl

theorem bytesOf_acquire : (state.acquire cls).bytesOf lane =
      state.bytesOf lane + if cls.lane = lane then cls.bytes else 0 := by
  cases cls <;> cases lane <;> rfl

theorem commandsOf_release : (state.release cls).commandsOf lane =
      state.commandsOf lane - if cls.lane = lane then 1 else 0 := by
  cases cls <;> cases lane <;> rfl

theorem bytesOf_release : (state.release cls).bytesOf lane =
      state.bytesOf lane - if cls.lane = lane then cls.bytes else 0 := by
  cases cls <;> cases lane <;> rfl

@[simp] theorem closed_acquire : (state.acquire cls).closed = state.closed := by cases cls <;> rfl

@[simp] theorem receiverClosed_acquire :
    (state.acquire cls).receiverClosed = state.receiverClosed := by cases cls <;> rfl

@[simp] theorem closed_release : (state.release cls).closed = state.closed := by cases cls <;> rfl

@[simp] theorem receiverClosed_release :
    (state.release cls).receiverClosed = state.receiverClosed := by cases cls <;> rfl

omit cls

theorem commandsOf_flags (closed : Bool) (paused : Finset String) (lane : Lane) :
    AdmissionState.commandsOf { state with closed := closed, pausedPtySessions := paused } lane =
      state.commandsOf lane := by
  cases lane <;> rfl

theorem bytesOf_flags (closed : Bool) (paused : Finset String) (lane : Lane) :
    AdmissionState.bytesOf { state with closed := closed, pausedPtySessions := paused } lane =
      state.bytesOf lane := by
  cases lane <;> rfl

/-- A reservation that is rolled back leaves no trace. -/
theorem release_acquire (cls : AdmissionClass) : (state.acquire cls).release cls = state := by
  cases cls <;> simp [acquire, release]

omit state

/-- There is room for the class: below the capacity, and within the bytes or, for a
completion, alone. -/
structure Room (state : AdmissionState) (cls : AdmissionClass) : Prop where
  commands : state.commandsOf cls.lane < capacity cls.lane
  bytes : cls.bytes ≤ byteLimit cls.lane - state.bytesOf cls.lane ∨
    cls.lane = .completion ∧ state.commandsOf .completion = 0

variable {state : AdmissionState} {cls : AdmissionClass} {id : Option String}

theorem room_of_canAcquire (can : state.canAcquire cls id = true) : state.Room cls := by
  unfold canAcquire at can
  split at can
  · cases can
  · cases cls with
    | work bytes | control bytes =>
      obtain ⟨commands, fits⟩ := Bool.and_eq_true_iff.mp can
      exact ⟨of_decide_eq_true commands, .inl (of_decide_eq_true fits)⟩
    | completion bytes => cases can

theorem room_of_canAcquireCompletion (can : state.canAcquireCompletion cls = true) :
    state.Room cls := by
  cases cls with
  | work bytes => cases can
  | control bytes => cases can
  | completion bytes =>
    rw [canAcquireCompletion] at can
    split at can
    · cases can
    next below =>
      refine ⟨Nat.not_le.mp below, ?_⟩
      rcases Bool.or_eq_true_iff.mp can with fits | alone
      · exact .inl (of_decide_eq_true fits)
      · simp only [Bool.and_eq_true, beq_iff_eq] at alone
        exact .inr ⟨rfl, alone.1.1⟩

/-- A reservation charges the class, and only where there is room and the lane is open. -/
structure Reserves (state : AdmissionState) (cls : AdmissionClass) (reserved : AdmissionState) :
    Prop where
  charged : reserved = state.acquire cls
  room : state.Room cls
  open_ : if cls.lane = .completion then state.receiverClosed = false else state.closed = false

variable {reserved : AdmissionState}

theorem tryAcquire_some (other : cls.lane ≠ .completion)
    (got : state.tryAcquire cls id = some reserved) : state.Reserves cls reserved := by
  obtain ⟨free, got⟩ := of_unless got
  obtain ⟨isOpen, can⟩ : state.closed = false ∧ state.canAcquire cls id = true := by
    simpa using free
  exact ⟨(Option.some.inj got).symm, room_of_canAcquire can, by rwa [if_neg other]⟩

theorem tryAcquireCompletion_some (completion : cls.lane = .completion)
    (got : state.tryAcquireCompletion cls = some reserved) :
    state.Reserves cls reserved := by
  obtain ⟨free, got⟩ := of_unless got
  obtain ⟨isOpen, can⟩ : state.receiverClosed = false ∧ state.canAcquireCompletion cls = true := by
    simpa using free
  exact ⟨(Option.some.inj got).symm, room_of_canAcquireCompletion can, by rwa [if_pos completion]⟩

end AdmissionState

section Steps

variable {Other Voice : Type} {budget : Budget Other Voice}

namespace ServerInbox

variable {cls : AdmissionClass} {command : ServerCommand Other Voice}
  {inbox : ServerInbox Other Voice}

theorem reserve_some {reserved : AdmissionState} (got : inbox.reserve cls command = some reserved) :
    inbox.admission.Reserves cls reserved := by
  rw [reserve] at got
  split at got
  next completion => exact AdmissionState.tryAcquireCompletion_some completion got
  next other => exact AdmissionState.tryAcquire_some other got

/-- A completion without a reservation: the receiver is gone or there is no capacity. -/
theorem reserve_none
    (got : inbox.reserve cls command = none) (completion : cls.lane = .completion) :
    inbox.admission.receiverClosed = true ∨ inbox.admission.canAcquireCompletion cls = false := by
  rw [reserve, if_pos completion, AdmissionState.tryAcquireCompletion] at got
  split at got
  next refused => simpa using refused
  · cases got

/-- A waiting sender reserves what `send` would, and gives up when its lane is closed. -/
theorem look_eq (inbox : ServerInbox Other Voice) (cls : AdmissionClass)
    (command : ServerCommand Other Voice) :
    (if cls.lane = .completion then inbox.admission.acquireCompletionBlocking cls
      else inbox.admission.acquireBlocking cls (ptySession command)) =
      ((inbox.reserve cls command).map .reserved).getD
        (if (if cls.lane = .completion then inbox.admission.receiverClosed
          else inbox.admission.closed) then .refused else .waiting) := by
  rw [reserve]
  split
  · rw [AdmissionState.acquireCompletionBlocking, AdmissionState.tryAcquireCompletion]
    cases inbox.admission.receiverClosed <;> cases inbox.admission.canAcquireCompletion cls <;> rfl
  · rw [AdmissionState.acquireBlocking, AdmissionState.tryAcquire]
    cases inbox.admission.closed <;> cases inbox.admission.canAcquire cls (ptySession command) <;> rfl

/-- A send that is turned away: nothing changes, a completion only for want of capacity
or of a receiver, and with an error other than `full` only for want of a receiver. -/
structure TurnedAway (inbox later : ServerInbox Other Voice) (cls : AdmissionClass)
    (result : SendResult) : Prop where
  notSent : result ≠ .sent
  cause : cls.lane = .completion →
    inbox.admission.receiverClosed = true ∨ inbox.admission.canAcquireCompletion cls = false
  reason : cls.lane = .completion → ∀ error, result = .refused error → error ≠ .full →
    later.txClosed = true ∨ inbox.admission.receiverClosed = true

theorem closedFor_completion {later : ServerInbox Other Voice} (completion : cls.lane = .completion)
    (closed : later.closedFor (decide (cls.lane = .completion)) = true) :
    later.txClosed = true := by
  simpa [closedFor, completion] using closed

/-- What a send with a class does: it pushes under a reservation, or is turned away. -/
theorem sendAs_cases (inbox later : ServerInbox Other Voice) (cls : AdmissionClass)
    (command : ServerCommand Other Voice) (kind : SendKind) :
    (∃ reserved, inbox.admission.Reserves cls reserved ∧
        inbox.sendAs later cls command kind = inbox.push reserved cls command) ∨
      ∃ result, inbox.sendAs later cls command kind = (result, inbox) ∧
        inbox.TurnedAway later cls result := by
  cases kind with
  | send =>
    rw [sendAs]
    cases got : inbox.reserve cls command with
    | some reserved => exact .inl ⟨reserved, reserve_some got, rfl⟩
    | none =>
      refine .inr ⟨_, rfl, nofun, reserve_none got, ?_⟩
      rintro completion error same notFull
      by_cases closed : later.closedFor (decide (cls.lane = .completion)) = true
      · exact .inl (closedFor_completion completion closed)
      · rw [if_neg closed] at same
        exact absurd (SendResult.refused.inj same).symm notFull
  | wait =>
    rw [sendAs]
    cases got : inbox.reserve cls command with
    | some reserved => exact .inl ⟨reserved, reserve_some got, rfl⟩
    | none =>
      refine .inr ⟨_, rfl, by split <;> nofun, reserve_none got, ?_⟩
      rintro completion error same -
      by_cases closed : later.closedFor (decide (cls.lane = .completion)) = true
      · exact .inl (closedFor_completion completion closed)
      · rw [if_neg closed] at same
        cases same
  | blocking =>
    rw [sendAs, look_eq]
    cases got : inbox.reserve cls command with
    | some reserved => exact .inl ⟨reserved, reserve_some got, rfl⟩
    | none =>
      by_cases gone : (if cls.lane = .completion then inbox.admission.receiverClosed
          else inbox.admission.closed) = true
      · rw [if_pos gone]
        refine .inr ⟨_, rfl, nofun, reserve_none got, fun completion _ _ _ => .inr ?_⟩
        rwa [if_pos completion] at gone
      · rw [if_neg gone]
        exact .inr ⟨_, rfl, nofun, reserve_none got, nofun⟩

end ServerInbox

/-- Everything that a step does to the inbox. -/
inductive Effect (budget : Budget Other Voice) (inbox : ServerInbox Other Voice) :
    ServerInbox Other Voice → Prop
  | unchanged : Effect budget inbox inbox
  | flags {closed : Bool} {paused : Finset String} {wake : Option Signal}
      (stays : inbox.admission.closed = true → closed = true) :
      Effect budget inbox
        { inbox with
          admission := { inbox.admission with closed := closed, pausedPtySessions := paused }
          wake := wake }
  | pushed {cls : AdmissionClass} {command : ServerCommand Other Voice}
      (classified : commandAdmissionClass budget command = .ok cls)
      (room : inbox.admission.Room cls) :
      Effect budget inbox
        { inbox with
          admission := inbox.admission.acquire cls
          queue := inbox.queue ++ [command] }
  | popped {command : ServerCommand Other Voice} {rest : List (ServerCommand Other Voice)}
      (queued : inbox.queue = command :: rest) :
      Effect budget inbox
        { inbox with
          admission := ServerInbox.releaseCommand budget inbox.admission command
          queue := rest }
  | receiverGone : Effect budget inbox { inbox with admission := inbox.admission.receiverGone }
  | channelGone (gone : inbox.admission.receiverClosed = true) :
      Effect budget inbox { inbox with queue := [], txClosed := true }

variable {inbox : ServerInbox Other Voice} {cls : AdmissionClass}
  {command : ServerCommand Other Voice}

theorem ServerInbox.push_effect {reserved : AdmissionState}
    (classified : commandAdmissionClass budget command = .ok cls)
    (reserves : inbox.admission.Reserves cls reserved) :
    Effect budget inbox (inbox.push reserved cls command).2 := by
  rw [push, reserves.charged]
  split
  · rw [AdmissionState.release_acquire]
    exact .unchanged
  · exact .pushed classified reserves.room

theorem ServerInbox.attempt_effect (kind : SendKind) (inbox later : ServerInbox Other Voice)
    (command : ServerCommand Other Voice) :
    Effect budget inbox (inbox.attempt budget kind later command).2 := by
  rw [attempt]
  split
  · exact .flags fun _ => rfl
  · split
    · exact .unchanged
    next cls classified =>
      rcases inbox.sendAs_cases later cls _ kind with ⟨reserved, reserves, same⟩ | ⟨result, same, -⟩
      · rw [same]
        exact push_effect classified reserves
      · rw [same]
        exact .unchanged

theorem step_effect (inbox : ServerInbox Other Voice) (action : Action Other Voice) :
    Effect budget inbox (step budget inbox action).2 := by
  cases action with
  | send kind command => exact inbox.attempt_effect kind inbox command
  | recv =>
    rw [step]
    split
    · exact .unchanged
    · rw [ServerInbox.recv]
      split
      next command rest queued => exact .popped queued
      · exact .flags id
  | close => exact .flags fun _ => rfl
  | pausePtySession sessionId =>
    rw [step, AdmissionState.pausePtySession]
    split
    · exact .unchanged
    · exact .flags id
  | resumePtySession sessionId => exact .flags id
  | dropReceiver => exact .receiverGone
  | dropChannel =>
    rw [step]
    split
    next gone => exact .channelGone gone
    · exact .unchanged

/-! ## Closing is for good -/

/-- The order in which an inbox is taken down. -/
structure Lifecycle (inbox : ServerInbox Other Voice) : Prop where
  channel : inbox.txClosed = true → inbox.admission.receiverClosed = true
  receiver : inbox.admission.receiverClosed = true → inbox.admission.closed = true

theorem releaseCommand_flags (budget : Budget Other Voice) (state : AdmissionState)
    (command : ServerCommand Other Voice) :
    (ServerInbox.releaseCommand budget state command).closed = state.closed ∧
      (ServerInbox.releaseCommand budget state command).receiverClosed = state.receiverClosed := by
  rw [ServerInbox.releaseCommand]
  split
  · exact ⟨AdmissionState.closed_release _ _, AdmissionState.receiverClosed_release _ _⟩
  · exact ⟨rfl, rfl⟩

variable {next : ServerInbox Other Voice}

/-- What is closed stays closed, and in order. -/
theorem Effect.closing (effect : Effect budget inbox next) :
    (inbox.admission.closed = true → next.admission.closed = true) ∧
      (inbox.admission.receiverClosed = true → next.admission.receiverClosed = true) ∧
      (Lifecycle inbox → Lifecycle next) := by
  cases effect with
  | unchanged => exact ⟨id, id, id⟩
  | flags stays => exact ⟨stays, id, fun life => ⟨life.channel, fun gone => stays (life.receiver gone)⟩⟩
  | @pushed cls =>
    have closed := inbox.admission.closed_acquire cls
    have receiver := inbox.admission.receiverClosed_acquire cls
    exact ⟨closed.trans, receiver.trans, fun life => ⟨fun gone => receiver.trans (life.channel gone),
      fun gone => closed.trans (life.receiver (receiver.symm.trans gone))⟩⟩
  | @popped command =>
    obtain ⟨closed, receiver⟩ := releaseCommand_flags budget inbox.admission command
    exact ⟨closed.trans, receiver.trans, fun life => ⟨fun gone => receiver.trans (life.channel gone),
      fun gone => closed.trans (life.receiver (receiver.symm.trans gone))⟩⟩
  | receiverGone => exact ⟨fun _ => rfl, fun _ => rfl, fun _ => ⟨fun _ => rfl, fun _ => rfl⟩⟩
  | channelGone gone => exact ⟨id, id, fun life => ⟨fun _ => gone, life.receiver⟩⟩

/-! ## The accounts -/

/-- The counters are those of the queue, and within the limits but for one oversized
completion. -/
structure Accounts (budget : Budget Other Voice) (inbox : ServerInbox Other Voice) : Prop where
  classified : ∀ command ∈ inbox.queue, ∃ cls, commandAdmissionClass budget command = .ok cls
  commands : ∀ lane, inbox.admission.commandsOf lane = (charges budget lane inbox.queue).length
  bytes : ∀ lane, inbox.admission.bytesOf lane = (charges budget lane inbox.queue).sum
  capacity : ∀ lane, inbox.admission.commandsOf lane ≤ capacity lane
  limit : ∀ lane, inbox.admission.bytesOf lane ≤ byteLimit lane ∨
    lane = .completion ∧ ∃ charge, charges budget lane inbox.queue = [charge]

theorem charges_singleton (classified : commandAdmissionClass budget command = .ok cls)
    (lane : Lane) :
    charges budget lane [command] = if cls.lane = lane then [cls.bytes] else [] := by
  rw [charges]
  split <;> simp_all

theorem charges_append (lane : Lane) (queue more : List (ServerCommand Other Voice)) :
    charges budget lane (queue ++ more) = charges budget lane queue ++ charges budget lane more :=
  filterMap_append

theorem lineClass_lane {line : List UInt8} (classified : lineClass line = .ok cls) :
    cls.lane ≠ .completion := by
  rw [lineClass] at classified
  split_ifs at classified <;> cases classified <;> nofun

/-- Every completion is charged at least one byte. -/
theorem completion_positive (classified : commandAdmissionClass budget command = .ok cls)
    (completion : cls.lane = .completion) : 0 < cls.bytes := by
  unfold commandAdmissionClass at classified
  split at classified
  · cases classified
    exact Nat.lt_of_lt_of_le Nat.zero_lt_one (Nat.le_max_right _ _)
  · split at classified
    · exact absurd completion (lineClass_lane classified)
    · exact absurd completion (lineClass_lane classified)
    all_goals
      first
        | (split at classified <;> cases classified <;> cases completion)
        | (cases classified; cases completion)

theorem Accounts.pushed (accounts : Accounts budget inbox)
    (classified : commandAdmissionClass budget command = .ok cls) (room : inbox.admission.Room cls) :
    Accounts budget
      { inbox with
        admission := inbox.admission.acquire cls
        queue := inbox.queue ++ [command] } where
  classified := by
    intro other member
    rcases mem_append.mp member with old | new
    · exact accounts.classified other old
    · exact ⟨cls, by rwa [mem_singleton.mp new]⟩
  commands := by
    intro lane
    simp only [AdmissionState.commandsOf_acquire, charges_append, charges_singleton classified,
      length_append, accounts.commands lane]
    split <;> rfl
  bytes := by
    intro lane
    simp only [AdmissionState.bytesOf_acquire, charges_append, charges_singleton classified,
      sum_append, accounts.bytes lane]
    split <;> simp
  capacity := by
    intro lane
    have old := accounts.capacity lane
    simp only [AdmissionState.commandsOf_acquire]
    split
    next here =>
      have below := room.commands
      rw [here] at below
      omega
    · exact old
  limit := by
    intro lane
    simp only [AdmissionState.bytesOf_acquire, charges_append, charges_singleton classified]
    by_cases here : cls.lane = lane
    · subst here
      rw [if_pos rfl, if_pos rfl]
      rcases room.bytes with fits | ⟨completion, empty⟩
      · rcases accounts.limit cls.lane with within | ⟨completion, charge, -⟩
        · exact .inl (by omega)
        · -- Behind an oversized completion nothing fits, for every charge is positive.
          have positive := completion_positive classified completion
          exact .inl (by omega)
      · right
        refine ⟨completion, cls.bytes, ?_⟩
        have none : charges budget cls.lane inbox.queue = [] := by
          rw [completion]
          exact eq_nil_of_length_eq_zero ((accounts.commands .completion).symm.trans empty)
        rw [none, nil_append]
    · rw [if_neg here, if_neg here, append_nil]
      exact accounts.limit lane

theorem Accounts.popped (accounts : Accounts budget inbox) {rest : List (ServerCommand Other Voice)}
    (queued : inbox.queue = command :: rest) :
    Accounts budget
      { inbox with
        admission := ServerInbox.releaseCommand budget inbox.admission command
        queue := rest } := by
  obtain ⟨cls, classified⟩ := accounts.classified command (queued ▸ mem_cons_self ..)
  have split_ : ∀ lane, charges budget lane inbox.queue =
      (if cls.lane = lane then [cls.bytes] else []) ++ charges budget lane rest := by
    intro lane
    rw [queued, ← singleton_append, charges_append, charges_singleton classified]
  have commands : ∀ lane, (inbox.admission.release cls).commandsOf lane =
      (charges budget lane rest).length := by
    intro lane
    rw [AdmissionState.commandsOf_release, accounts.commands, split_ lane]
    split <;> simp
  have bytes : ∀ lane, (inbox.admission.release cls).bytesOf lane =
      (charges budget lane rest).sum := by
    intro lane
    rw [AdmissionState.bytesOf_release, accounts.bytes, split_ lane]
    split <;> simp
  simp only [ServerInbox.releaseCommand, classified]
  refine ⟨fun other member => accounts.classified other (queued ▸ mem_cons_of_mem _ member),
    commands, bytes, fun lane => ?_, fun lane => ?_⟩
  · have old := accounts.capacity lane
    simp only [AdmissionState.commandsOf_release]
    omega
  · rcases accounts.limit lane with within | ⟨completion, charge, single⟩
    · simp only [AdmissionState.bytesOf_release]
      omega
    · rw [split_ lane] at single
      by_cases here : cls.lane = lane
      · -- The oversized completion itself was received.
        rw [if_pos here, singleton_append] at single
        left
        simp only [bytes lane, (List.cons.inj single).2, sum_nil, Nat.zero_le]
      · rw [if_neg here] at single
        exact .inr ⟨completion, charge, single⟩

theorem Effect.accounts (effect : Effect budget inbox next)
    (accounts : inbox.admission.receiverClosed = false → Accounts budget inbox)
    (alive : next.admission.receiverClosed = false) : Accounts budget next := by
  have before : inbox.admission.receiverClosed = false := by
    cases gone : inbox.admission.receiverClosed with
    | false => rfl
    | true => rw [effect.closing.2.1 gone] at alive; cases alive
  have old := accounts before
  cases effect with
  | unchanged => exact old
  | flags =>
    refine ⟨old.classified, fun lane => ?_, fun lane => ?_, fun lane => ?_, fun lane => ?_⟩
    · exact (AdmissionState.commandsOf_flags ..).trans (old.commands lane)
    · exact (AdmissionState.bytesOf_flags ..).trans (old.bytes lane)
    · exact (AdmissionState.commandsOf_flags ..).le.trans (old.capacity lane)
    · exact (old.limit lane).imp_left (AdmissionState.bytesOf_flags ..).le.trans
  | pushed classified room => exact old.pushed classified room
  | popped queued => exact old.popped queued
  | receiverGone => cases alive
  | channelGone gone =>
    rw [before] at gone
    cases gone

/-! ## Whole runs -/

theorem after_append (actions more : List (Action Other Voice)) :
    after budget (actions ++ more) = (transduce (step budget) (after budget actions) more).2 := by
  rw [after, transduce_append]
  rfl

/-- What every step keeps, every run keeps. -/
theorem after_invariant (Inv : ServerInbox Other Voice → Prop)
    (steps : ∀ inbox next, Effect budget inbox next → Inv inbox → Inv next) (start : Inv inbox)
    (actions : List (Action Other Voice)) :
    Inv (transduce (step budget) inbox actions).2 :=
  transduce_invariant Inv (fun inbox action => steps inbox _ (step_effect inbox action)) start
    actions

variable (actions : List (Action Other Voice))

theorem lifecycle_after :
    Lifecycle (after budget actions) := by
  have initially : Lifecycle (ServerInbox.channel : ServerInbox Other Voice) :=
    ⟨fun gone => absurd gone Bool.false_ne_true, fun gone => absurd gone Bool.false_ne_true⟩
  exact after_invariant Lifecycle (fun _ _ effect => effect.closing.2.2) initially actions

theorem accounts_after :
    (after budget actions).admission.receiverClosed = false →
      Accounts budget (after budget actions) := by
  refine after_invariant
    (fun inbox => inbox.admission.receiverClosed = false → Accounts budget inbox)
    (fun _ _ effect => effect.accounts) (fun _ => ?_) actions
  exact ⟨nofun, fun lane => by cases lane <;> rfl, fun lane => by cases lane <;> rfl,
    fun lane => by cases lane <;> exact Nat.zero_le _,
    fun lane => .inl (by cases lane <;> exact Nat.zero_le _)⟩

theorem receiverClosed_after_append {actions : List (Action Other Voice)}
    (gone : (after budget actions).admission.receiverClosed = true)
    (more : List (Action Other Voice)) :
    (after budget (actions ++ more)).admission.receiverClosed = true := by
  rw [after_append]
  exact after_invariant (fun inbox => inbox.admission.receiverClosed = true)
    (fun _ _ effect => effect.closing.2.1) gone more

/-- After `close` the inbox is closed for good. -/
theorem closed_after_close (before rest : List (Action Other Voice)) :
    (after budget (before ++ .close :: rest)).admission.closed = true := by
  rw [after_append]
  exact after_invariant (fun inbox => inbox.admission.closed = true)
    (fun _ _ effect => effect.closing.1) rfl rest

variable {kind : SendKind}

variable (ordinary : controlSignal (budget.boundCompletionResult command) = none)
  (classified : commandAdmissionClass budget (budget.boundCompletionResult command) = .ok cls)

include ordinary classified

variable {later : ServerInbox Other Voice}

/-- A send of an ordinary command, from its class on. -/
theorem attempt_eq_sendAs :
    inbox.attempt budget kind later command =
      inbox.sendAs later cls (budget.boundCompletionResult command) kind := by
  simp only [ServerInbox.attempt, ordinary, classified]

/-- A closed inbox turns work and control away. -/
theorem attempt_closed (closed : inbox.admission.closed = true) (other : cls.lane ≠ .completion) :
    ∃ result, inbox.attempt budget kind later command = (result, inbox) ∧ result ≠ .sent := by
  rw [attempt_eq_sendAs ordinary classified]
  rcases inbox.sendAs_cases later cls _ kind with ⟨reserved, reserves, -⟩ | ⟨result, same, turned⟩
  · have isOpen := reserves.open_
    rw [if_neg other, closed] at isOpen
    cases isOpen
  · exact ⟨result, same, turned.notSent⟩

/-- Why a completion is not sent. -/
theorem attempt_completion {actions more : List (Action Other Voice)}
    (completion : cls.lane = .completion) {result : SendResult}
    (answered : ((after budget actions).attempt budget kind (after budget (actions ++ more)) command).1 = result) :
    (result ≠ .sent → (after budget actions).admission.receiverClosed = true ∨
        (after budget actions).admission.canAcquireCompletion cls = false) ∧
      ∀ error, result = .refused error → error ≠ .full →
        (after budget (actions ++ more)).admission.receiverClosed = true := by
  rw [attempt_eq_sendAs ordinary classified] at answered
  rcases (after budget actions).sendAs_cases (after budget (actions ++ more)) cls _ kind with
    ⟨reserved, reserves, same⟩ | ⟨turnedTo, same, turned⟩
  · -- With a reservation the receiver is there, so the channel takes the command.
    have alive := reserves.open_
    rw [if_pos completion] at alive
    have channel : (after budget actions).txClosed = false := by
      cases gone : (after budget actions).txClosed with
      | false => rfl
      | true => rw [(lifecycle_after actions).channel gone] at alive; cases alive
    rw [same, ServerInbox.push, channel] at answered
    cases answered
    exact ⟨fun notSent => absurd rfl notSent, nofun⟩
  · rw [same] at answered
    cases answered
    refine ⟨fun _ => turned.cause completion, fun error refused notFull => ?_⟩
    rcases turned.reason completion error refused notFull with gone | gone
    · exact (lifecycle_after (actions ++ more)).channel gone
    · exact receiverClosed_after_append gone more

omit ordinary classified

/-- **The inbox's accounts are exact.**  After any interleaving of sends, receives,
closing, pausing and resuming, while there is a receiver: every counter is that of the
queued commands of its lane; a receive finds its whole charge in the counters; work and
control stay within capacity and bytes; completions exceed their bytes only when a
single one is queued.  After `close` no work or control command is admitted, and a
completion is turned away for another reason than capacity only once the receiver is
gone. -/
theorem inbox_accounting_exact (budget : Budget Other Voice) (actions : List (Action Other Voice)) :
    ∃ inbox, after budget actions = inbox ∧
    (inbox.admission.receiverClosed = false →
      (∀ lane, inbox.admission.commandsOf lane = (charges budget lane inbox.queue).length ∧
        inbox.admission.bytesOf lane = (charges budget lane inbox.queue).sum) ∧
      (∀ command rest, inbox.queue = command :: rest →
        ∃ cls, commandAdmissionClass budget command = .ok cls ∧
          1 ≤ inbox.admission.commandsOf cls.lane ∧ cls.bytes ≤ inbox.admission.bytesOf cls.lane) ∧
      (∀ lane, lane ≠ .completion → inbox.admission.commandsOf lane ≤ capacity lane ∧
        inbox.admission.bytesOf lane ≤ byteLimit lane) ∧
      (byteLimit .completion < inbox.admission.bytesOf .completion →
        ∃ charge, charges budget .completion inbox.queue = [charge])) ∧
    (∀ before rest, actions = before ++ .close :: rest → ∀ kind later command cls,
      controlSignal (budget.boundCompletionResult command) = none →
      commandAdmissionClass budget (budget.boundCompletionResult command) = .ok cls →
      cls.lane ≠ .completion →
        ∃ result, inbox.attempt budget kind later command = (result, inbox) ∧ result ≠ .sent) ∧
    ∀ kind more command cls result,
      controlSignal (budget.boundCompletionResult command) = none →
      commandAdmissionClass budget (budget.boundCompletionResult command) = .ok cls →
      cls.lane = .completion →
      (inbox.attempt budget kind (after budget (actions ++ more)) command).1 = result →
        (result ≠ .sent → inbox.admission.receiverClosed = true ∨
            inbox.admission.canAcquireCompletion cls = false) ∧
          ∀ error, result = .refused error → error ≠ .full →
            (after budget (actions ++ more)).admission.receiverClosed = true := by
  refine ⟨_, rfl, fun alive => ?_, ?_, ?_⟩
  · have accounts := accounts_after actions alive
    refine ⟨fun lane => ⟨accounts.commands lane, accounts.bytes lane⟩, ?_, ?_, ?_⟩
    · intro command rest queued
      obtain ⟨cls, classified⟩ := accounts.classified command (queued ▸ mem_cons_self ..)
      have charged : charges budget cls.lane (after budget actions).queue =
          [cls.bytes] ++ charges budget cls.lane rest := by
        rw [queued, ← singleton_append, charges_append, charges_singleton classified, if_pos rfl]
      refine ⟨cls, classified, ?_, ?_⟩
      · rw [accounts.commands, charged, length_append, length_singleton]
        omega
      · rw [accounts.bytes, charged, sum_append, sum_singleton]
        omega
    · intro lane other
      exact ⟨accounts.capacity lane,
        (accounts.limit lane).resolve_right fun ⟨completion, _⟩ => other completion⟩
    · intro isOver
      obtain ⟨-, single⟩ := (accounts.limit .completion).resolve_left (Nat.not_le.mpr isOver)
      exact single
  · rintro before rest rfl kind later command cls ordinary classified other
    exact attempt_closed ordinary classified (closed_after_close before rest) other
  · intro kind more command cls result ordinary classified completion answered
    exact attempt_completion ordinary classified completion answered

end Steps

/-- A budget in which the commands outside the inbox's own are completions of twenty
million bytes, which is over the limit. -/
def sampleBudget : Budget Unit Unit where
  isCompletionCommand command := match command with
    | .other () => true
    | _ => false
  payloadBytes _ := 20000000
  voiceRealtimeEventBytes _ := 1
  boundCompletionResult command := command

/-- An oversized completion behind a line: it is queued alone, and both are counted. -/
theorem inbox_accounting_exact_oversized :
    ∃ inbox, after sampleBudget
        [.send .send (.clientLine [0x7b, 0x7d]), .send .wait (.other ()), .send .send (.other ()),
          .close] = inbox ∧
      (∀ lane, inbox.admission.commandsOf lane = (charges sampleBudget lane inbox.queue).length ∧
        inbox.admission.bytesOf lane = (charges sampleBudget lane inbox.queue).sum) ∧
      inbox.admission.completionBytes = 20000000 ∧
      ∃ charge, charges sampleBudget .completion inbox.queue = [charge] := by
  obtain ⟨inbox, rfl, alive, -⟩ := inbox_accounting_exact sampleBudget
    [.send .send (.clientLine [0x7b, 0x7d]), .send .wait (.other ()), .send .send (.other ()), .close]
  obtain ⟨counted, -, -, single⟩ := alive rfl
  exact ⟨_, rfl, counted, rfl, single (by decide)⟩

end Alera.Terminal.CommandInbox
