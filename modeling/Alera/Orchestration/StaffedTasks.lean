/-
# Alera.Orchestration.StaffedTasks -- whether a dispatched task has a worker

A task is `dispatched` while a worker is starting on it or at work.  `Held` says that a
task in some status has a dispatch in a matching one; operations are followed for
dispatched tasks and, through the decisions about stalls, for stalled ones.

A task is stalled together with its dispatch when a lease runs out, but without one when
it fails to start for the third time.  "Keep waiting" makes the task `dispatched` either way.
-/
import Alera.Orchestration.StallDecisions

namespace Alera.Orchestration.Tasks

open Theory Tables

set_option autoImplicit false

/-- If the task has the status, it has a dispatch whose status is one of those given. -/
def Held (status : TaskStatus) (covers : DispatchStatus → Bool) (board : Board) (id : Text) : Prop :=
  board.status? id = some status →
    ∃ dispatch ∈ board.dispatches, dispatch.taskId = id ∧ covers dispatch.status = true

/-- A worker is starting or at work. -/
def DispatchStatus.staffs : DispatchStatus → Bool
  | .awaitingAcceptance | .dispatched => true
  | _ => false

def Staffed (board : Board) : Prop := ∀ id, Held .dispatched DispatchStatus.staffs board id

/-- A stalled dispatch. -/
def DispatchStatus.stalls : DispatchStatus → Bool
  | .stalled => true
  | _ => false

/-- Every task that is waited for again has a stalled dispatch. -/
def ResumesDispatches (board : Board) : TaskEvent → Prop
  | .processStallDecisions _ => ∀ gate ∈ resolvedStallGates board, gate.resolution = some keepWaiting →
      ∃ dispatch ∈ board.dispatches, dispatch.taskId = gate.taskId ∧ dispatch.status.stalls = true
  | _ => True

instance (board : Board) : (event : TaskEvent) → Decidable (ResumesDispatches board event)
  | .processStallDecisions _ => inferInstanceAs (Decidable (∀ gate ∈ resolvedStallGates board, _ → _))
  | .createTask .. | .createDispatch .. | .accept .. | .activity .. | .failStartup .. | .failDispatch ..
  | .complete .. | .createGate .. | .resolveGate .. | .stallExpired .. | .cancel .. | .recover ..
  | .openStallGate .. | .resumeGate .. => .isTrue trivial

section Held

variable {board board' : Board} {status : TaskStatus} {covers : DispatchStatus → Bool} {id : Text}

theorem Held.of_same (held : Held status covers board id) (tasks : board'.tasks = board.tasks)
    (dispatches : board'.dispatches = board.dispatches) : Held status covers board' id := by
  simpa only [Held, Board.status?, Board.task?, tasks, dispatches] using held

variable {selects : Task → Bool} {set : Task → Task} {selectsDispatch : Dispatch → Bool}

section

variable (held : Held status covers board id)

include held

/-- Tasks and dispatches are updated: a task that takes the status has a dispatch, and a dispatch is
lost only to a task that does not have the status. -/
theorem Held.update {setDispatch : Dispatch → Dispatch}
    (tasks : board'.tasks = updateWhere board.tasks selects set) (keeps : KeepsTask set)
    (dispatches : board'.dispatches = updateWhere board.dispatches selectsDispatch setDispatch)
    (sameTask : ∀ dispatch, (setDispatch dispatch).taskId = dispatch.taskId)
    (gains : ∀ task, board.status? id = some task.status → task.id = id → selects task = true → (set task).status = status → ∃ dispatch ∈ board'.dispatches, dispatch.taskId = id ∧ covers dispatch.status = true)
    (loses : ∀ dispatch ∈ board.dispatches, dispatch.taskId = id → covers dispatch.status = true → selectsDispatch dispatch = true → covers (setDispatch dispatch).status = true ∨ board'.status? id ≠ some status) :
    Held status covers board' id := by
  intro has
  have after : (board.updateTasks selects set).status? id = some status := by
    rw [← has, Board.status?, Board.task?, Board.status?, Board.task?, tasks]
    rfl
  obtain same | ⟨task, -, isId, selected, old, new⟩ := status?_updateTasks board selects keeps id
  · obtain ⟨dispatch, member, isTask, covered⟩ := held (same ▸ after)
    refine ⟨_, dispatches ▸ mem_updateWhere_of_mem member, ?_⟩
    split
    next selected =>
      obtain stays | gone := loses dispatch member isTask covered selected
      · exact ⟨(sameTask dispatch).trans isTask, stays⟩
      · exact absurd has gone
    · exact ⟨isTask, covered⟩
  · exact gains task old isId selected (Option.mem_unique new after)

/-- Only tasks move, and none to the status. -/
theorem Held.move (keeps : KeepsTask set) (moved : ∀ task, (set task).status ≠ status) :
    Held status covers (board.updateTasks selects set) id := by
  have same : board.dispatches = updateWhere board.dispatches (fun _ => false) fun dispatch => dispatch :=
    updateWhere_false.symm
  exact held.update rfl keeps same (fun _ => rfl) (fun task _ _ _ is => absurd is (moved task))
    fun _ _ _ _ no => absurd no Bool.false_ne_true

theorem Held.refresh {changed : Text} (ready : status ≠ .ready)
    (failed : status ≠ .failed) (done : refreshDependents board changed = some board') :
    Held status covers board' id :=
  refreshDependents_induct (P := (Held status covers · id))
    (fun _ _ held => held.move (setStatus_keeps .ready) fun _ => ready.symm)
    (fun _ _ changed held => held.move (dependencyFailed_keeps changed) fun _ => failed.symm) done held

end

variable {taskId : Text}

variable (held : Held status covers board id)

include held

/-- The dispatches of one task are closed, and it moves elsewhere. -/
theorem Held.close {setDispatch : Dispatch → Dispatch}
    (keeps : KeepsTask set) (moved : ∀ task, (set task).status ≠ status)
    (sameTask : ∀ dispatch, (setDispatch dispatch).taskId = dispatch.taskId)
    (own : ∀ dispatch ∈ board.dispatches, selectsDispatch dispatch = true → dispatch.taskId = taskId) :
    Held status covers ((board.updateDispatches selectsDispatch setDispatch).updateTask taskId set) id := by
  refine held.update rfl keeps rfl sameTask (fun task _ _ _ is => absurd is (moved task)) ?_
  intro dispatch member isTask _ selected
  refine .inr ?_
  rw [status?_updateTask _ keeps, if_pos (isTask.symm.trans (own dispatch member selected))]
  intro is
  obtain ⟨task, -, is⟩ := of_map is
  exact moved task is

theorem Held.cancel {reason : Text}
    (isOpen : terminal status = false) (done : cancelTask board taskId reason = some board') :
    Held status covers board' id := by
  obtain rfl | ⟨ids, -, -, -, -, rfl⟩ := cancelTask_some done
  · exact held
  refine held.update rfl (cancelWith_keeps taskId reason) rfl (fun _ => rfl) (fun task _ _ _ is => ?_)
    fun dispatch _ isTask _ selected => .inr ?_
  · cases is
    cases isOpen
  · -- A task of the cascade is closed afterwards, whatever it was.
    have listed : ids.contains id = true := isTask ▸ (Bool.and_eq_true _ _ ▸ selected).1
    rw [Board.status?, Board.task?, cancelAll, lookup_map_updateWhere (cancelWith_keeps taskId reason).id]
    cases found : lookup Task.id id board.tasks with
    | none =>
      intro is
      cases is
    | some task =>
      rw [Option.map_some, (lookup_some found).2, listed]
      split
      · rintro ⟨⟩
        cases isOpen
      next closed =>
        intro is
        rw [Option.some.inj is, isOpen] at closed
        exact closed rfl

/-- A stalled task fails, its dependents with it, and its dispatches are closed. -/
theorem Held.fail {closed : DispatchStatus}
    (keeps : KeepsTask set) (ready : status ≠ .ready) (failed : status ≠ .failed)
    (moved : ∀ task, (set task).status ≠ status)
    (refreshes : refreshDependents (board.updateTask taskId set) taskId = some board') :
    Held status covers (board'.closeDispatches taskId closed) id := by
  have gone : board'.status? taskId ≠ some status := by
    refine refreshDependents_induct (P := fun now => now.status? taskId ≠ some status)
      (fun now other ne is => ?_) (fun now other changed ne is => ?_) refreshes fun is => ?_
    · obtain same | ⟨_, -, -, -, -, new⟩ := status?_updateTasks now (·.id = other) (setStatus_keeps .ready) taskId
      · exact ne (same ▸ is)
      · exact ready (Option.mem_unique is new)
    · obtain same | ⟨_, -, -, -, -, new⟩ :=
        status?_updateTasks now (·.id = other) (dependencyFailed_keeps changed) taskId
      · exact ne (same ▸ is)
      · exact failed (Option.mem_unique is new)
    · rw [status?_updateTask _ keeps, if_pos rfl] at is
      obtain ⟨task, -, is⟩ := of_map is
      exact moved task is
  have moving : Held status covers (board.updateTask taskId set) id := held.move keeps moved
  have same : board'.tasks = updateWhere board'.tasks (fun _ => false) fun task => task :=
    updateWhere_false.symm
  refine (moving.refresh ready failed refreshes).update same ⟨fun _ => rfl, fun _ => rfl, fun _ => rfl⟩
    rfl (fun _ => rfl) (fun _ _ _ no => absurd no Bool.false_ne_true)
    fun dispatch _ isTask _ selected => .inr ?_
  have isTask' : dispatch.taskId = taskId := of_decide_eq_true (Bool.and_eq_true _ _ ▸ selected).1
  exact isTask.symm.trans isTask' ▸ gone

theorem Held.recover {reason : Text} {next : TaskStatus}
    (isOpen : terminal status = false) (ready : status ≠ .ready)
    (done : recoverStalled board taskId next reason = some board') :
    Held status covers board' id := by
  have failed : status ≠ .failed := (open_ne isOpen).2.1
  obtain ⟨-, cancelled | rfl | ⟨next, refreshes, rfl⟩⟩ := recoverStalled_some done
  · exact held.cancel isOpen cancelled
  · exact held.close (outcome_keeps (some reason) .ready) (fun _ => ready.symm) (fun _ => rfl)
      fun dispatch _ selected => of_decide_eq_true (Bool.and_eq_true _ _ ▸ selected).1
  · exact held.fail (outcome_keeps (some reason) .failed) ready failed (fun _ => failed.symm) refreshes

omit held

/-- Stalled dispatches go on, and tasks with one of them. -/
theorem Held.revive {now : Time} (held : Held .dispatched DispatchStatus.staffs board id)
    (tasks : board'.tasks = updateWhere board.tasks selects (Task.setStatus .dispatched))
    (dispatches : board'.dispatches = updateWhere board.dispatches (fun dispatch => selectsDispatch dispatch && dispatch.status = .stalled) (Dispatch.revive now))
    (gains : ∀ task, board.status? id = some task.status → task.id = id → selects task = true → ∃ dispatch ∈ board.dispatches, dispatch.taskId = id ∧ selectsDispatch dispatch = true ∧ dispatch.status = .stalled) :
    Held .dispatched DispatchStatus.staffs board' id := by
  refine held.update tasks (setStatus_keeps .dispatched) dispatches (fun _ => rfl)
    (fun task old isId selected _ => ?_) fun dispatch _ _ _ _ => .inl rfl
  obtain ⟨dispatch, member, isTask, chosen, stalled⟩ := gains task old isId selected
  refine ⟨dispatch.revive now, ?_, isTask, rfl⟩
  rw [dispatches]
  exact mem_updateWhere_of_selected member (by simp [chosen, stalled])

end Held

section Steps

variable {board board' : Board} {id : Text}

/-- The rows with the id of a dispatch belong to its task. -/
theorem own_of_id (sound : Sound board) {dispatch : Dispatch} (found : board.dispatch? id = some dispatch) :
    ∀ row ∈ board.dispatches, decide (row.id = id) = true → row.taskId = dispatch.taskId := by
  intro row member same
  obtain ⟨member', isId⟩ := lookup_some found
  rw [eq_of_key sound.working.unique member member' ((of_decide_eq_true same).trans isId.symm)]

variable (staffed : Staffed board)

include staffed

theorem createTask_staffed (sound : Sound board) {new : NewTask}
    (done : createTask board id new = some board') : Staffed board' := by
  obtain ⟨status, result, found, -, rfl⟩ := createTask_some done
  intro other dispatched
  obtain ⟨row, isRow, isDispatched⟩ := of_map dispatched
  obtain ⟨member, rfl⟩ := lookup_some isRow
  obtain old | isNew := List.mem_append.mp member
  · exact staffed row.id ((status?_of_mem sound.graph old).trans (congrArg some isDispatched))
  · cases List.mem_singleton.mp isNew
    cases isDispatched
    cases statusForDepsLoop_spec found

variable {taskId handle : Text} {now : Time}

theorem createDispatch_staffed {token : Option Text}
    (done : createDispatch board id taskId handle token now = some board') :
    Staffed board' := by
  obtain ⟨dispatch, -, -, -, isTask, -, awaiting, rfl⟩ := createDispatch_some done
  intro other has
  rw [status?_updateTask _ (setStatus_keeps .dispatched)] at has
  split at has
  next same =>
    refine ⟨dispatch, List.mem_append_right _ (List.mem_singleton.mpr rfl), isTask.trans same.symm, ?_⟩
    rw [awaiting]
    rfl
  next =>
    obtain ⟨row, member, isRow, staffs⟩ := staffed other has
    exact ⟨row, List.mem_append_left _ member, isRow, staffs⟩

theorem acceptDispatch_staffed {token : Text}
    (done : acceptDispatch board id handle token now = some board') : Staffed board' := by
  obtain ⟨_, _, done⟩ := of_bind done
  cases done
  intro other has
  obtain ⟨row, member, isRow, staffs⟩ := staffed other has
  refine ⟨_, mem_updateWhere_of_mem member, ?_⟩
  split
  · exact ⟨isRow, rfl⟩
  · exact ⟨isRow, staffs⟩

theorem recordActivity_staffed (sound : Sound board) (now : Time) :
    Staffed (recordActivity board id now).2 := by
  intro other
  rw [recordActivity]
  split
  · intro has
    obtain ⟨row, member, isRow, staffs⟩ := staffed other has
    refine ⟨_, mem_updateWhere_of_mem member, ?_⟩
    split <;> exact ⟨isRow, staffs⟩
  · split
    next known =>
      refine (staffed other).revive rfl rfl fun task _ isId selected => ?_
      obtain ⟨row, member, selectedRow⟩ := List.any_eq_true.mp known
      rw [Bool.and_eq_true, decide_eq_true_eq, decide_eq_true_eq] at selectedRow
      obtain ⟨rfl, stalled⟩ := selectedRow
      have isRow : board.dispatch? row.id = some row := lookup_of_mem sound.working.unique member
      rw [isRow, isId] at selected
      simp only [Option.map_some, Option.some.injEq, Bool.and_eq_true, decide_eq_true_eq] at selected
      exact ⟨row, member, selected.1.symm, decide_eq_true rfl, stalled⟩
    · exact staffed other

theorem failStartup_staffed (sound : Sound board)
    (done : failStartup board id = some board') : Staffed board' := by
  obtain ⟨dispatch, found, done⟩ := of_bind done
  split at done
  · cases done
    exact staffed
  · obtain ⟨_, done⟩ := of_when done
    cases done
    refine fun other => (staffed other).close ⟨fun _ => rfl, fun _ => rfl, fun _ => rfl⟩ (fun task => ?_)
      (fun _ => rfl) (own_of_id sound found)
    rw [Task.startupFailed]
    split <;> exact TaskStatus.noConfusion

theorem failDispatch_staffed (sound : Sound board) {result : Option Text}
    (done : failDispatch board id result = some board') : Staffed board' := by
  obtain ⟨dispatch, found, done⟩ := of_bind done
  intro other
  split at done
  · refine Held.refresh ?_ (by decide) (by decide) done
    exact (staffed other).close (outcome_keeps result .failed) (fun _ => TaskStatus.noConfusion)
      (fun _ => rfl) (own_of_id sound found)
  · cases done
    exact (staffed other).close (outcome_keeps result .ready) (fun _ => TaskStatus.noConfusion)
      (fun _ => rfl) (own_of_id sound found)

theorem completeDispatch_staffed (sound : Sound board) {result : Text}
    {accepted : Bool} (done : completeDispatch board id handle result accepted now = some board') :
    Staffed board' := by
  obtain rfl | ⟨dispatch, found, -, refreshes⟩ := completeDispatch_some done
  · exact staffed
  refine fun other => Held.refresh ?_ (by decide) (by decide) refreshes
  exact (staffed other).close (outcome_keeps (some result) .completed) (fun _ => TaskStatus.noConfusion)
    (fun _ => rfl) (own_of_id sound found)

theorem createGate_staffed {options : List Text}
    (done : createGate board id taskId options = some board') : Staffed board' := by
  obtain ⟨-, -, -, -, rfl⟩ := createGate_some done
  exact fun other => ((staffed other).of_same rfl rfl).close (setStatus_keeps .blocked) (fun _ => TaskStatus.noConfusion)
    (fun _ => rfl) fun dispatch _ selected => of_decide_eq_true (Bool.and_eq_true _ _ ▸ selected).1

theorem resolveGate_staffed {decision : Text}
    (done : resolveGate board id decision now = some board') : Staffed board' := by
  obtain ⟨gate, _, _, _, done⟩ := of_bind₂ done
  cases done
  intro other
  split
  · exact ((staffed other).of_same rfl rfl).move (setStatus_keeps .ready) fun _ => TaskStatus.noConfusion
  · exact (staffed other).of_same rfl rfl

theorem stallExpired_staffed (sound : Sound board) (threshold : Time) :
    Staffed (stallExpired board threshold) := by
  have known : ∀ context ∈ board.expiredDispatches threshold, context ∈ board.dispatches :=
    fun context listed => (List.mem_filter.mp listed).1
  -- The rows keep their ids and tasks, so that each is the one that was read.
  have own : ∀ context ∈ board.expiredDispatches threshold, ∀ row ∈ board.dispatches,
      row.id = context.id → row.taskId = context.taskId := fun context listed row member same => by
    rw [eq_of_key sound.working.unique member (known context listed) same]
  rw [stallExpired]
  generalize board.expiredDispatches threshold = contexts at own
  clear known sound
  induction contexts generalizing board with
  | nil => exact staffed
  | cons context contexts ih =>
    refine ih (fun other => ?_) fun context' listed row member => ?_
    · exact (staffed other).close (setStatus_keeps .stalled) (fun _ => TaskStatus.noConfusion) (fun _ => rfl)
        fun row member selected => own context List.mem_cons_self row member
          (of_decide_eq_true (Bool.and_eq_true _ _ ▸ selected).1)
    · obtain ⟨old, memberOld, rfl⟩ := mem_updateWhere.mp member
      split <;> exact own context' (.tail _ listed) old memberOld

omit staffed

/-- Acting on a decision about a stall. -/
theorem actOnGate_held {status : TaskStatus} {covers : DispatchStatus → Bool} (gate : Gate) (now : Time)
    (held : Held status covers board id) (isOpen : terminal status = false) (ready : status ≠ .ready)
    (resume : gate.resolution = some keepWaiting →
      Held status covers (resumeStalled board gate.taskId now) id) :
    Held status covers (actOnGate now board gate) id := by
  rw [actOnGate]
  split
  · rw [failoverStalledDispatch]
    split
    · exact held
    · split
      · cases done : recoverStalled board gate.taskId .ready "stall policy failover".toList with
        | none => exact held
        | some board' => exact held.recover isOpen ready done
      · exact held
  · split
    next waits => exact resume waits
    · split
      · cases done : cancelTask board gate.taskId "stage aborted after a stall".toList with
        | none => exact held
        | some board' => exact held.cancel isOpen done
      · exact held

theorem resumeStalled_stalled (now : Time) (held : Held .stalled DispatchStatus.stalls board id) :
    Held .stalled DispatchStatus.stalls (resumeStalled board taskId now) id := by
  refine held.update rfl (setStatus_keeps .dispatched) rfl (fun _ => rfl) (fun _ _ _ _ is => TaskStatus.noConfusion is)
    fun dispatch _ isTask _ selected => .inr ?_
  obtain rfl : id = taskId := isTask.symm.trans (of_decide_eq_true (Bool.and_eq_true _ _ ▸ selected).1)
  rw [Board.status?, Board.task?, resumeStalled, Board.updateTasks,
    lookup_map_updateWhere (setStatus_keeps .dispatched).id]
  cases found : lookup Task.id id board.tasks with
  | none => simp [Board.updateDispatches, found]
  | some task =>
    have isId := (lookup_some found).2
    by_cases stalled : task.status = .stalled
    · simp [Board.updateDispatches, found, isId, stalled, Task.setStatus]
    · simp [Board.updateDispatches, found, stalled]

theorem processStallDecisions_staffed (staffed : Staffed board) (now : Time)
    (meets : ResumesDispatches board (.processStallDecisions now)) :
    Staffed (processStallDecisions board now) := by
  have waits : ∀ gate ∈ resolvedStallGates board, gate.resolution = some keepWaiting →
      Held .stalled DispatchStatus.stalls board gate.taskId :=
    fun gate listed waits _ => meets gate listed waits
  rw [processStallDecisions]
  generalize resolvedStallGates board = gates at waits
  clear meets
  induction gates generalizing board with
  | nil => exact staffed
  | cons gate gates ih =>
    refine ih (fun id => ?_) fun other listed waiting => ?_
    · refine actOnGate_held gate now (staffed id) rfl (by decide) fun waiting => ?_
      refine (staffed id).revive rfl rfl fun task old isId selected => ?_
      rw [Bool.and_eq_true, decide_eq_true_eq, decide_eq_true_eq] at selected
      obtain ⟨isGate, stalled⟩ := selected
      have isId : id = gate.taskId := isId.symm.trans isGate
      obtain ⟨dispatch, member, isTask, stalls⟩ := waits gate List.mem_cons_self waiting
        (by rw [← isId, old, stalled])
      refine ⟨dispatch, member, isTask.trans isId.symm, decide_eq_true isTask, ?_⟩
      unfold DispatchStatus.stalls at stalls
      split at stalls
      · assumption
      · cases stalls
    · refine actOnGate_held gate now (waits other (.tail _ listed) waiting) rfl (by decide) fun _ => ?_
      exact resumeStalled_stalled now (waits other (.tail _ listed) waiting)

theorem step_staffed (sound : Sound board) (staffed : Staffed board) {event : TaskEvent}
    (meets : ResumesDispatches board event) (stepped : step board event = some board') :
    Staffed board' := by
  cases event with
  | createTask id new => exact createTask_staffed staffed sound stepped
  | createDispatch id taskId handle token now => exact createDispatch_staffed staffed stepped
  | accept id handle token now => exact acceptDispatch_staffed staffed stepped
  | activity id now =>
    cases stepped
    exact recordActivity_staffed staffed sound now
  | failStartup id => exact failStartup_staffed staffed sound stepped
  | failDispatch id result =>
    rw [step] at stepped
    split at stepped
    · exact failDispatch_staffed staffed sound stepped
    · cases stepped
  | complete id handle result accepted now => exact completeDispatch_staffed staffed sound stepped
  | createGate id taskId options => exact createGate_staffed staffed stepped
  | resolveGate id decision now => exact resolveGate_staffed staffed stepped
  | stallExpired threshold =>
    cases stepped
    exact stallExpired_staffed staffed sound threshold
  | cancel id reason => exact fun other => (staffed other).cancel rfl stepped
  | recover id status reason => exact fun other => (staffed other).recover rfl (by decide) stepped
  | openStallGate id taskId =>
    obtain ⟨-, rfl | ⟨-, rfl⟩⟩ := createStallGate_some stepped
    · exact staffed
    · exact fun other => (staffed other).of_same rfl rfl
  | resumeGate taskId now =>
    cases stepped
    rw [resolveStallGateAsResumed]
    split
    · exact staffed
    · exact fun other => (staffed other).of_same rfl rfl
  | processStallDecisions now =>
    cases stepped
    exact processStallDecisions_staffed staffed now meets

end Steps

/-- **A dispatched task has a worker**, in every run in which only tasks with a stalled dispatch are
waited for again. -/
theorem dispatched_tasks_staffed (isolated : List Text) (events : List TaskEvent) (board : Board)
    (meets : Guarded step ResumesDispatches (Board.empty isolated) events)
    (ran : run step (Board.empty isolated) events = some board) (id : Text)
    (dispatched : board.status? id = some .dispatched) :
    ∃ dispatch ∈ board.dispatches, dispatch.taskId = id ∧
      (dispatch.status = .awaitingAcceptance ∨ dispatch.status = .dispatched) := by
  have invariant : Sound board ∧ Staffed board := run_invariant_of_guarded
    (fun now => Sound now ∧ Staffed now)
    (fun _ _ _ before meets stepped =>
      ⟨(step_keeps before.1 stepped).sound, step_staffed before.1 before.2 meets stepped⟩)
    events _ board meets ⟨empty_sound isolated, fun _ has => by cases has⟩ ran
  obtain ⟨dispatch, member, isTask, staffs⟩ := invariant.2 id dispatched
  refine ⟨dispatch, member, isTask, ?_⟩
  unfold DispatchStatus.staffs at staffs
  split at staffs
  · exact .inl (by assumption)
  · exact .inr (by assumption)
  · cases staffs

/-- A task whose lease runs out and that is waited for again. -/
def waitedFor : List TaskEvent :=
  [.createTask "t".toList ⟨[], none, false⟩, .createDispatch "d".toList "t".toList "w".toList none 1,
    .accept "d".toList "w".toList "token".toList 1, .stallExpired 2, .openStallGate "g".toList "t".toList,
    .resolveGate "g".toList keepWaiting 3, .processStallDecisions 4]

theorem dispatched_tasks_staffed_waitedFor : ∃ board, run step (Board.empty []) waitedFor = some board ∧
    board.status? "t".toList = some .dispatched ∧ ∃ dispatch ∈ board.dispatches,
      dispatch.taskId = "t".toList ∧
        (dispatch.status = .awaitingAcceptance ∨ dispatch.status = .dispatched) := by
  have evaluated : (run step (Board.empty []) waitedFor).map (·.status? "t".toList) =
      some (some .dispatched) := by
    decide +kernel
  obtain ⟨board, ran, dispatched⟩ := of_map evaluated
  exact ⟨board, ran, dispatched,
    dispatched_tasks_staffed [] waitedFor board (by decide +kernel) ran _ dispatched⟩

/-- The worker fails after all, and the task then fails to start three times. -/
def failedStarts : List TaskEvent :=
  waitedFor ++ .failDispatch "d".toList none :: ["d1", "d2", "d3"].flatMap fun id =>
    [.createDispatch id.toList "t".toList "w".toList none 5, .failStartup id.toList]

/-- The old decision to keep waiting is acted on again: the task is dispatched without a worker. -/
theorem phantom_worker : ∃ board,
    run step (Board.empty []) (failedStarts ++ [.processStallDecisions 6]) = some board ∧
      board.status? "t".toList = some .dispatched ∧
      ∀ dispatch ∈ board.dispatches, dispatch.status.active = false := by
  have evaluated : (run step (Board.empty []) (failedStarts ++ [.processStallDecisions 6])).map
      (fun board => (board.status? "t".toList, board.dispatches.all (!·.status.active))) =
      some (some .dispatched, true) := by
    decide +kernel
  obtain ⟨board, ran, result⟩ := of_map evaluated
  obtain ⟨dispatched, inactive⟩ := Prod.mk.inj result
  refine ⟨board, ran, dispatched, fun dispatch member => ?_⟩
  simpa using List.all_eq_true.mp inactive dispatch member

end Alera.Orchestration.Tasks
