/-
# Alera.Orchestration.TaskBoard -- tasks, their dispatches and their gates

The operations of the runtime store on tasks: creation with dependencies and their
refresh (`orchestration_contract_store.rs`, `orchestration_task_store.rs`), dispatches
from hand-off to outcome (`orchestration_dispatch_store.rs`, `run_dispatch.rs`,
`orchestration_dispatch_lease_store.rs`, `orchestration_dispatch_outcome_store.rs`),
cancellation (`orchestration_task_cancellation.rs`), recovery
(`orchestration_task_recovery_store.rs`), task gates (`orchestration_gate_store.rs`,
`run_gate_resolution.rs`) and stalls (`orchestration_stall_store.rs`, and the host's
`coordinator_stall_policy.rs`).

Each definition is one operation; `none` is an error, after which nothing has changed.
Ids are texts drawn by the caller.  Dispatches go to terminals; the attempts of isolated
runs, which have launches, are not on this board.  Whether the run of a task is running
(a trigger on new dispatches) and whether its role contract accepts a result are
answers of the caller.  Messages, events and columns that are only written (failure
texts, times of completion) are left out.
-/
import Alera.Orchestration.RunStore
import Alera.Theory.Worklist

namespace Alera.Orchestration.Tasks

open Theory.Tables Theory.Worklist

set_option autoImplicit false

/-! ## Tables -/

/-- A row of `orchestrationTasks`. -/
structure Task where
  id : Text
  deps : List Text
  runId : Option Text
  status : TaskStatus
  result : Option Text
  startupFailureCount : Nat
  contracted : Bool
  deriving DecidableEq

inductive DispatchStatus where
  | pending
  | dispatched
  | completed
  | failed
  | circuitBroken
  | awaitingAcceptance
  | startupFailed
  | stalled
  | cancelled
  | superseded
  deriving DecidableEq

/-- `status IN ('pending','dispatched','awaiting_acceptance','stalled')`. -/
def DispatchStatus.active : DispatchStatus → Bool
  | .pending | .dispatched | .awaitingAcceptance | .stalled => true
  | .completed | .failed | .circuitBroken | .startupFailed | .cancelled | .superseded => false

/-- A row of `orchestrationDispatchContexts`. -/
structure Dispatch where
  id : Text
  taskId : Text
  assigneeHandle : Option Text
  status : DispatchStatus
  failureCount : Nat
  contextTokenHash : Option Text
  dispatchedAt : Option Time
  acceptedAt : Option Time
  lastActivityAt : Option Time
  deriving DecidableEq

/-- A row of `runGates` that belongs to a task. -/
structure Gate where
  id : Text
  taskId : Text
  kind : GateKind
  options : List Text
  status : GateStatus
  resolution : Option Text
  resolvedAt : Option Time
  deriving DecidableEq

structure Board where
  tasks : List Task
  dispatches : List Dispatch
  gates : List Gate
  /-- The isolated runs. -/
  isolated : List Text
  deriving DecidableEq

namespace Board

def task? (board : Board) (id : Text) : Option Task := lookup Task.id id board.tasks

def status? (board : Board) (id : Text) : Option TaskStatus := (board.task? id).map Task.status

def dispatch? (board : Board) (id : Text) : Option Dispatch := lookup Dispatch.id id board.dispatches

def updateTasks (board : Board) (selects : Task → Bool) (set : Task → Task) : Board :=
  { board with tasks := updateWhere board.tasks selects set }

/-- `UPDATE orchestrationTasks … WHERE id = ?`. -/
def updateTask (board : Board) (id : Text) (set : Task → Task) : Board :=
  board.updateTasks (·.id = id) set

def updateDispatches (board : Board) (selects : Dispatch → Bool) (set : Dispatch → Dispatch) : Board :=
  { board with dispatches := updateWhere board.dispatches selects set }

def updateGates (board : Board) (selects : Gate → Bool) (set : Gate → Gate) : Board :=
  { board with gates := updateWhere board.gates selects set }

/-- The active dispatches of a task are closed with one status. -/
def closeDispatches (board : Board) (taskId : Text) (status : DispatchStatus) : Board :=
  board.updateDispatches (fun dispatch => dispatch.taskId = taskId && dispatch.status.active)
    fun dispatch => { dispatch with status }

def isolatedTask (board : Board) (task : Task) : Bool := task.runId.any board.isolated.contains

end Board

def Task.setStatus (status : TaskStatus) (task : Task) : Task := { task with status }

/-! ## Dependencies -/

/-- The loop of `status_for_deps`; `none` is an unknown dependency. -/
def statusForDepsLoop (board : Board) (allCompleted : Bool) : List Text → Option TaskStatus
  | [] => some (if allCompleted then .ready else .pending)
  | dep :: deps =>
    match board.status? dep with
    | none => none
    | some .completed => statusForDepsLoop board allCompleted deps
    | some .failed => some .failed
    | some .cancelled => some .cancelled
    | some _ => statusForDepsLoop board false deps

/-- `status_for_deps`. -/
def statusForDeps (board : Board) (deps : List Text) : Option TaskStatus :=
  statusForDepsLoop board true deps

def Task.dependencyFailed (changed : Text) (task : Task) : Task :=
  { task with
    status := .failed
    result := task.result.or (some ("dependency failed: ".toList ++ changed)) }

/-- The inner loop of `refresh_pending_dependents_after_task_status`, over the rows it has read;
answers the tasks it failed, the last one first. -/
def refreshPass (changed : Text) : List Task → List Text → Board → Option (List Text × Board)
  | [], failed, board => some (failed, board)
  | candidate :: rest, failed, board =>
    if candidate.deps.contains changed then
      match statusForDeps board candidate.deps with
      | none => none
      | some .ready =>
        refreshPass changed rest failed (board.updateTask candidate.id (Task.setStatus .ready))
      | some .failed =>
        refreshPass changed rest (candidate.id :: failed)
          (board.updateTask candidate.id (Task.dependencyFailed changed))
      | some _ => refreshPass changed rest failed board
    else refreshPass changed rest failed board

/-- The pending tasks outside isolated runs. -/
def Board.pendingTasks (board : Board) : List Task :=
  board.tasks.filter fun task => task.status = .pending && !board.isolatedTask task

/-- `refresh_pending_dependents_after_task_status`.  A task is pushed when it fails, so at most one
item more than there are tasks is ever popped. -/
def refreshDependents (board : Board) (changed : Text) : Option Board :=
  drain (fun changed board => refreshPass changed board.pendingTasks [] board)
    (board.tasks.length + 1) [changed] board

structure NewTask where
  deps : List Text
  runId : Option Text
  contracted : Bool
  deriving DecidableEq

/-- `create_orchestration_task`. -/
def createTask (board : Board) (id : Text) (new : NewTask) : Option Board := do
  let status ← statusForDeps board new.deps
  guard (!board.tasks.any (·.id = id))
  let result : Option Text := match status with
    | .failed => some "dependency failed".toList
    | .cancelled => some "dependency cancelled".toList
    | _ => none
  return { board with tasks := board.tasks ++ [⟨id, new.deps, new.runId, status, result, 0, new.contracted⟩] }

/-! ## Dispatches -/

/-- `create_scoped_orchestration_dispatch`. -/
def createDispatch (board : Board) (id taskId handle : Text) (contextTokenHash : Option Text)
    (now : Time) : Option Board := do
  let task ← board.task? taskId
  guard (task.status = .ready)
  guard (!board.dispatches.any fun dispatch =>
    dispatch.assigneeHandle = some handle && dispatch.status.active)
  guard (!board.isolatedTask task)
  guard (!board.dispatches.any (·.id = id))
  let failureCount := ((board.dispatches.filter (·.taskId = taskId)).map Dispatch.failureCount).foldl max 0
  let dispatch : Dispatch :=
    { id, taskId, failureCount, contextTokenHash
      assigneeHandle := some handle
      status := .awaitingAcceptance
      dispatchedAt := some now
      acceptedAt := none
      lastActivityAt := some now }
  return { board with dispatches := board.dispatches ++ [dispatch] }.updateTask taskId
    (Task.setStatus .dispatched)

/-- Whether `accept_orchestration_dispatch` takes the dispatch. -/
def Dispatch.acceptable (id handle contextTokenHash : Text) (dispatch : Dispatch) : Bool :=
  dispatch.id = id && dispatch.assigneeHandle = some handle &&
    (dispatch.contextTokenHash.all (· = contextTokenHash)) &&
    (dispatch.status = .awaitingAcceptance || dispatch.status = .dispatched)

def Dispatch.accept (now : Time) (dispatch : Dispatch) : Dispatch :=
  { dispatch with
    status := .dispatched
    acceptedAt := dispatch.acceptedAt.or (some now)
    lastActivityAt := some now }

/-- `accept_orchestration_dispatch`. -/
def acceptDispatch (board : Board) (id handle contextTokenHash : Text) (now : Time) : Option Board := do
  guard (board.dispatches.any (Dispatch.acceptable id handle contextTokenHash))
  return board.updateDispatches (Dispatch.acceptable id handle contextTokenHash) (Dispatch.accept now)

inductive ActivityOutcome where
  | recorded
  | revived
  | ignored
  deriving DecidableEq

def Dispatch.revive (now : Time) (dispatch : Dispatch) : Dispatch :=
  { dispatch with status := .dispatched, lastActivityAt := some now }

/-- `record_orchestration_activity`, with `revive_stalled_dispatch`. -/
def recordActivity (board : Board) (id : Text) (now : Time) : ActivityOutcome × Board :=
  if board.dispatches.any fun dispatch => dispatch.id = id && dispatch.status = .dispatched then
    (.recorded, board.updateDispatches (fun dispatch => dispatch.id = id && dispatch.status = .dispatched)
      fun dispatch => { dispatch with lastActivityAt := some now })
  else if board.dispatches.any fun dispatch => dispatch.id = id && dispatch.status = .stalled then
    let revived := board.updateDispatches
      (fun dispatch => dispatch.id = id && dispatch.status = .stalled) (Dispatch.revive now)
    (.revived, revived.updateTasks
      (fun task => some task.id = (board.dispatch? id).map Dispatch.taskId && task.status = .stalled)
      (Task.setStatus .dispatched))
  else (.ignored, board)

def Task.startupFailed (task : Task) : Task :=
  { task with
    startupFailureCount := task.startupFailureCount + 1
    status := if 3 ≤ task.startupFailureCount + 1 then .stalled else .ready }

/-- `fail_orchestration_startup`. -/
def failStartup (board : Board) (id : Text) : Option Board := do
  let dispatch ← board.dispatch? id
  if dispatch.status = .startupFailed then return board
  else if dispatch.status = .awaitingAcceptance then
    return (board.updateDispatches (·.id = id) fun row => { row with status := .startupFailed }).updateTask
      dispatch.taskId Task.startupFailed
  else none

/-- `ORCHESTRATION_CIRCUIT_BREAKER_THRESHOLD`. -/
def circuitBreakerThreshold : Nat := 3

def Dispatch.fail (dispatch : Dispatch) : Dispatch :=
  { dispatch with
    failureCount := dispatch.failureCount + 1
    status := if circuitBreakerThreshold ≤ dispatch.failureCount + 1 then .circuitBroken else .failed }

/-- `fail_orchestration_dispatch_with_result`. -/
def failDispatch (board : Board) (id : Text) (result : Option Text) : Option Board := do
  let dispatch ← board.dispatch? id
  let closed := board.updateDispatches (·.id = id) Dispatch.fail
  if circuitBreakerThreshold ≤ dispatch.failureCount + 1 then
    refreshDependents (closed.updateTask dispatch.taskId fun task =>
      { task with status := .failed, result := result.or task.result }) dispatch.taskId
  else
    return closed.updateTask dispatch.taskId fun task =>
      { task with status := .ready, result := result.or task.result }

/-- `complete_orchestration_dispatch`; `accepted` is the verdict of the task's role contract. -/
def completeDispatch (board : Board) (id handle result : Text) (accepted : Bool) (now : Time) :
    Option Board := do
  let dispatch ← board.dispatch? id
  if dispatch.status = .completed then
    if dispatch.assigneeHandle = some handle && board.status? dispatch.taskId = some .completed then
      return board
    else none
  else if (dispatch.status = .dispatched || dispatch.status = .stalled) &&
      dispatch.assigneeHandle = some handle && accepted then
    let closed := board.updateDispatches (·.id = id) fun row =>
      { row with status := .completed, lastActivityAt := some now }
    refreshDependents (closed.updateTask dispatch.taskId fun task =>
      { task with status := .completed, result := some result }) dispatch.taskId
  else none

/-- The dispatches whose lease ran out before the threshold. -/
def Board.expiredDispatches (board : Board) (threshold : Time) : List Dispatch :=
  board.dispatches.filter fun dispatch => dispatch.status = .dispatched &&
    ((dispatch.lastActivityAt.or dispatch.acceptedAt).or dispatch.dispatchedAt).any (· < threshold)

/-- One round of `stall_expired_orchestration_dispatches`. -/
def stallDispatch (board : Board) (dispatch : Dispatch) : Board :=
  (board.updateDispatches (fun row => row.id = dispatch.id && row.status = .dispatched)
    fun row => { row with status := .stalled }).updateTask dispatch.taskId (Task.setStatus .stalled)

/-- `stall_expired_orchestration_dispatches`. -/
def stallExpired (board : Board) (threshold : Time) : Board :=
  (board.expiredDispatches threshold).foldl stallDispatch board

/-! ## Task gates -/

def Board.insertGate (board : Board) (gate : Gate) : Option Board :=
  if board.gates.any (·.id = gate.id) then none else some { board with gates := board.gates ++ [gate] }

/-- The row `insert_task_gate` writes. -/
def newTaskGate (id taskId : Text) (kind : GateKind) (options : List Text) : Gate where
  id
  taskId
  kind
  options
  status := .pending
  resolution := none
  resolvedAt := none

/-- `create_orchestration_gate`. -/
def createGate (board : Board) (id taskId : Text) (options : List Text) : Option Board := do
  let task ← board.task? taskId
  guard (task.status = .ready || task.status = .dispatched)
  let gated ← board.insertGate (newTaskGate id taskId .decision options)
  return (gated.closeDispatches taskId .completed).updateTask taskId (Task.setStatus .blocked)

def Gate.resolve (decision : Text) (now : Time) (gate : Gate) : Gate :=
  { gate with status := .resolved, resolution := some decision, resolvedAt := some now }

/-- `resolve_run_gate` for a task gate that a person may decide. -/
def resolveGate (board : Board) (id decision : Text) (now : Time) : Option Board := do
  let gate ← lookup Gate.id id board.gates
  guard (gate.status = .pending && !decision.isEmpty &&
    (gate.options.isEmpty || gate.options.contains decision))
  let resolved := board.updateGates (fun row => row.id = id && row.status = .pending)
    (Gate.resolve decision now)
  return if gate.kind = .decision then
    resolved.updateTasks (fun task => task.id = gate.taskId && task.status = .blocked)
      (Task.setStatus .ready)
  else resolved

/-! ## Cancellation -/

/-- `status IN ('pending','ready','blocked','stalled')`. -/
def waitsOnDeps : TaskStatus → Bool
  | .pending | .ready | .blocked | .stalled => true
  | .dispatched | .completed | .failed | .cancelled => false

/-- `status IN ('completed','failed','cancelled')`. -/
def terminal : TaskStatus → Bool
  | .completed | .failed | .cancelled => true
  | .pending | .ready | .dispatched | .blocked | .stalled => false

/-- The tasks that wait on a task. -/
def Board.dependents (board : Board) (changed : Text) : List Text :=
  (board.tasks.filter fun task => waitsOnDeps task.status && task.deps.contains changed).map Task.id

/-- The cascade of `cancel_orchestration_task`. -/
def Board.cascade (board : Board) (id : Text) : Option (List Text) :=
  sweep board.dependents (board.tasks.length + 1) 0 [id]

/-- The row of a task that is cancelled with the task `id`. -/
def Task.cancelWith (id reason : Text) (task : Task) : Task :=
  { task with
    status := .cancelled
    result := task.result.or
      (some (if task.id = id then reason else "dependency cancelled: ".toList ++ id)) }

/-- One round of the loop that cancels: the task, its active dispatches and its pending gates. -/
def cancelOne (id reason : Text) (board : Board) (taskId : Text) : Board :=
  ((board.updateTasks (fun task => task.id = taskId && !terminal task.status)
      (Task.cancelWith id reason)).closeDispatches taskId .cancelled).updateGates
    (fun gate => gate.taskId = taskId && gate.status = .pending)
    fun gate => { gate with status := .timeout }

/-- `cancel_orchestration_task`. -/
def cancelTask (board : Board) (id reason : Text) : Option Board :=
  match board.status? id with
  | none | some .completed | some .failed => none
  | some .cancelled => some board
  | some _ => (board.cascade id).map fun cancelled => cancelled.foldl (cancelOne id reason) board

/-! ## Recovery -/

/-- `update_orchestration_task_status`. -/
def updateTaskStatus (board : Board) (id : Text) (status : TaskStatus) (result : Option Text) :
    Option Board := do
  let task ← board.task? id
  guard (!(task.contracted && (status = .completed || task.status = .completed)))
  let updated := board.updateTask id fun task => { task with status, result := result.or task.result }
  match status with
  | .completed => (refreshDependents updated id).map (·.closeDispatches id .completed)
  | .failed => (refreshDependents updated id).map (·.closeDispatches id .failed)
  | .dispatched => return updated
  | _ => return updated.closeDispatches id .failed

/-- `recover_stalled_orchestration_task`. -/
def recoverStalled (board : Board) (id : Text) (status : TaskStatus) (reason : Text) : Option Board := do
  let task ← board.task? id
  guard (task.status = .stalled)
  match status with
  | .cancelled => cancelTask board id reason
  | .ready | .failed =>
    if board.isolatedTask task then none else updateTaskStatus board id status (some reason)
  | _ => none

/-! ## Stalls -/

def killAndFailover : Text := "killAndFailover".toList

def keepWaiting : Text := "keepWaiting".toList

def abortStage : Text := "abortStage".toList

/-- `STALL_GATE_RESUMED`. -/
def resumed : Text := "resumed".toList

/-- `STALL_GATE_OPTIONS`. -/
def stallGateOptions : List Text := [killAndFailover, keepWaiting, abortStage]

/-- `create_orchestration_stall_gate`: a pending task gate is kept. -/
def createStallGate (board : Board) (id taskId : Text) : Option Board := do
  let task ← board.task? taskId
  guard (task.status = .stalled)
  if board.gates.any fun gate => gate.taskId = taskId &&
      (gate.kind = .decision || gate.kind = .stall) && gate.status = .pending then return board
  else board.insertGate (newTaskGate id taskId .stall stallGateOptions)

/-- `resolve_stall_gate_as_resumed`: the newest pending stall gate of the task. -/
def resolveStallGateAsResumed (board : Board) (taskId : Text) (now : Time) : Board :=
  match board.gates.reverse.find? fun gate =>
    gate.taskId = taskId && gate.kind = .stall && gate.status = .pending with
  | none => board
  | some found =>
    board.updateGates (fun gate => gate.id = found.id && gate.status = .pending)
      (Gate.resolve resumed now)

/-- Whether `resolved_stall_gates` selects the gate. -/
def Board.selectsGate (board : Board) (gate : Gate) : Bool :=
  gate.kind = .stall && gate.status = .resolved && board.status? gate.taskId = some .stalled &&
    gate.resolution.any (· ≠ resumed)

/-- `resolved_stall_gates`, in the order of their resolution. -/
def resolvedStallGates (board : Board) : List Gate :=
  (board.gates.filter board.selectsGate).insertionSort fun gate other =>
    gate.resolvedAt.getD 0 ≤ other.resolvedAt.getD 0

/-- `resume_stalled_orchestration_dispatch`. -/
def resumeStalled (board : Board) (taskId : Text) (now : Time) : Board :=
  (board.updateDispatches (fun dispatch => dispatch.taskId = taskId && dispatch.status = .stalled)
    (Dispatch.revive now)).updateTasks (fun task => task.id = taskId && task.status = .stalled)
    (Task.setStatus .dispatched)

/-- `active_orchestration_dispatch_for_task`. -/
def Board.activeDispatch (board : Board) (taskId : Text) : Option Dispatch :=
  board.dispatches.reverse.find? fun dispatch => dispatch.taskId = taskId && dispatch.status.active

/-- `failover_stalled_dispatch`: the errors are only logged. -/
def failoverStalledDispatch (board : Board) (taskId : Text) : Board :=
  match board.activeDispatch taskId with
  | none => board
  | some dispatch =>
    if dispatch.status = .stalled then
      (recoverStalled board taskId .ready "stall policy failover".toList).getD board
    else board

/-- What is done about one resolved stall gate. -/
def actOnGate (now : Time) (board : Board) (gate : Gate) : Board :=
  if gate.resolution = some killAndFailover then failoverStalledDispatch board gate.taskId
  else if gate.resolution = some keepWaiting then resumeStalled board gate.taskId now
  else if gate.resolution = some abortStage then
    (cancelTask board gate.taskId "stage aborted after a stall".toList).getD board
  else board

/-- `coordinator_process_stall_decisions`. -/
def processStallDecisions (board : Board) (now : Time) : Board :=
  (resolvedStallGates board).foldl (actOnGate now) board

/-! ## Histories -/

inductive TaskEvent where
  | createTask (id : Text) (new : NewTask)
  | createDispatch (id taskId handle : Text) (contextTokenHash : Option Text) (now : Time)
  | accept (id handle contextTokenHash : Text) (now : Time)
  | activity (id : Text) (now : Time)
  | failStartup (id : Text)
  /-- `fail_orchestration_dispatch` on an active dispatch. -/
  | failDispatch (id : Text) (result : Option Text)
  | complete (id handle result : Text) (accepted : Bool) (now : Time)
  | createGate (id taskId : Text) (options : List Text)
  | resolveGate (id decision : Text) (now : Time)
  | stallExpired (threshold : Time)
  | cancel (id reason : Text)
  | recover (id : Text) (status : TaskStatus) (reason : Text)
  | openStallGate (id taskId : Text)
  /-- The worker showed activity again. -/
  | resumeGate (taskId : Text) (now : Time)
  | processStallDecisions (now : Time)

def step (board : Board) : TaskEvent → Option Board
  | .createTask id new => createTask board id new
  | .createDispatch id taskId handle contextTokenHash now =>
    createDispatch board id taskId handle contextTokenHash now
  | .accept id handle contextTokenHash now => acceptDispatch board id handle contextTokenHash now
  | .activity id now => some (recordActivity board id now).2
  | .failStartup id => failStartup board id
  | .failDispatch id result =>
    if (board.dispatch? id).any (·.status.active) then failDispatch board id result else none
  | .complete id handle result accepted now => completeDispatch board id handle result accepted now
  | .createGate id taskId options => createGate board id taskId options
  | .resolveGate id decision now => resolveGate board id decision now
  | .stallExpired threshold => some (stallExpired board threshold)
  | .cancel id reason => cancelTask board id reason
  | .recover id status reason => recoverStalled board id status reason
  | .openStallGate id taskId => createStallGate board id taskId
  | .resumeGate taskId now => some (resolveStallGateAsResumed board taskId now)
  | .processStallDecisions now => some (processStallDecisions board now)

/-- A board on which nothing has happened. -/
def Board.empty (isolated : List Text) : Board := ⟨[], [], [], isolated⟩

end Alera.Orchestration.Tasks
