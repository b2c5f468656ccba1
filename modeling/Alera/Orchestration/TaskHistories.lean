/-
# Alera.Orchestration.TaskHistories -- the task board after any history

The operations of `TaskBoard` one by one, and then any sequence of them.

`Sound` joins the graph of tasks with what holds of dispatches: an active dispatch
belongs to a task that is dispatched or stalled, and no task and no terminal has two.
Most operations are of one of two kinds.  Those that close the active dispatch of a
task may move the task anywhere (`Sound.keeps_of_closed`); those that touch active
dispatches without closing any leave the tasks that are at work at work
(`Sound.keeps_of_work`).  New tasks, new dispatches and cancellations are on their own.
-/
import Alera.Orchestration.TaskGraph

namespace Alera.Orchestration.Tasks

open Theory List Tables
open Bool (and_eq_true or_eq_true)
open Option (guard_eq_some' map_some)
open Board (status? task?)

set_option autoImplicit false

/-! ## Dispatches -/

def AtWork (board : Board) (taskId : Text) : Prop :=
  board.status? taskId = some .dispatched ∨ board.status? taskId = some .stalled

structure Working (board : Board) : Prop where
  unique : (board.dispatches.map Dispatch.id).Nodup
  busy : ∀ dispatch ∈ board.dispatches, dispatch.status.active = true → AtWork board dispatch.taskId
  perTask : ∀ dispatch ∈ board.dispatches, ∀ other ∈ board.dispatches,
    dispatch.status.active = true → other.status.active = true →
      dispatch.taskId = other.taskId → dispatch.id = other.id
  perHandle : ∀ dispatch ∈ board.dispatches, ∀ other ∈ board.dispatches,
    dispatch.status.active = true → other.status.active = true →
      dispatch.assigneeHandle = other.assigneeHandle → dispatch.id = other.id

/-- The columns of a dispatch that its outcome leaves alone. -/
structure KeepsDispatch (set : Dispatch → Dispatch) : Prop where
  id : ∀ dispatch, (set dispatch).id = dispatch.id
  taskId : ∀ dispatch, (set dispatch).taskId = dispatch.taskId
  assigneeHandle : ∀ dispatch, (set dispatch).assigneeHandle = dispatch.assigneeHandle

structure Sound (board : Board) : Prop where
  graph : Graph (fun _ => False) board
  working : Working board

/-- What every operation does to a sound board. -/
structure Keeps (board board' : Board) : Prop where
  sound : Sound board'
  completed : ∀ id, board.status? id = some .completed → board'.status? id = some .completed

theorem Keeps.refl {board : Board} (sound : Sound board) : Keeps board board :=
  ⟨sound, fun _ completed => completed⟩

theorem Keeps.trans {board board' board'' : Board} (first : Keeps board board')
    (second : Keeps board' board'') : Keeps board board'' :=
  ⟨second.sound, fun id completed => second.completed id (first.completed id completed)⟩

section Outcomes

variable {board board' : Board} {selects : Dispatch → Bool} {set : Dispatch → Dispatch}

/-- An update of dispatches that makes none active. -/
theorem Working.update (working : Working board)
    (dispatches : board'.dispatches = updateWhere board.dispatches selects set)
    (keeps : KeepsDispatch set)
    (less : ∀ dispatch ∈ board.dispatches, selects dispatch = true →
      (set dispatch).status.active = true → dispatch.status.active = true)
    (busy : ∀ dispatch ∈ board.dispatches, dispatch.status.active = true →
      (selects dispatch = true → (set dispatch).status.active = true) → AtWork board' dispatch.taskId) :
    Working board' := by
  -- every active dispatch was active, with the same columns
  have before : ∀ dispatch ∈ board'.dispatches, dispatch.status.active = true →
      ∃ old ∈ board.dispatches, old.status.active = true ∧
        (selects old = true → (set old).status.active = true) ∧ dispatch.id = old.id ∧
        dispatch.taskId = old.taskId ∧ dispatch.assigneeHandle = old.assigneeHandle := by
    intro dispatch member active
    rw [dispatches] at member
    obtain ⟨old, memberOld, selected, rfl⟩ | ⟨memberOld, kept⟩ := mem_updateWhere_cases member
    · exact ⟨old, memberOld, less old memberOld selected active, fun _ => active, keeps.id old,
        keeps.taskId old, keeps.assigneeHandle old⟩
    · exact ⟨dispatch, memberOld, active, fun selected => absurd selected kept, rfl, rfl, rfl⟩
  refine ⟨?_, fun dispatch member active => ?_, fun dispatch member other memberOther active activeOther same => ?_,
    fun dispatch member other memberOther active activeOther same => ?_⟩
  · rw [dispatches, map_updateWhere keeps.id]
    exact working.unique
  · obtain ⟨old, memberOld, wasActive, still, -, task, -⟩ := before dispatch member active
    rw [task]
    exact busy old memberOld wasActive still
  all_goals
    obtain ⟨old, memberOld, wasActive, -, id, task, handle⟩ := before dispatch member active
    obtain ⟨old', memberOld', wasActive', -, id', task', handle'⟩ := before other memberOther activeOther
    rw [id, id']
  · exact working.perTask old memberOld old' memberOld' wasActive wasActive' (by rw [← task, ← task', same])
  · exact working.perHandle old memberOld old' memberOld' wasActive wasActive'
      (by rw [← handle, ← handle', same])

/-- The active dispatches of a task are closed, and the task goes anywhere. -/
theorem Sound.keeps_of_closed (sound : Sound board) (graph : Graph (fun _ => False) board')
    (dispatches : board'.dispatches = updateWhere board.dispatches selects set)
    (keeps : KeepsDispatch set) (closes : ∀ dispatch, (set dispatch).status.active = false) (taskId : Text)
    (closed : ∀ dispatch ∈ board.dispatches, dispatch.status.active = true → dispatch.taskId = taskId →
      selects dispatch = true)
    (incomplete : board.status? taskId ≠ some .completed)
    (others : ∀ id, id ≠ taskId → board.status? id ≠ some .pending → board'.status? id = board.status? id) :
    Keeps board board' := by
  refine ⟨⟨graph, sound.working.update dispatches keeps (fun dispatch _ _ active => ?_)
    fun dispatch member active still => ?_⟩, fun id completed => ?_⟩
  · rw [closes dispatch] at active
    cases active
  · have elsewhere : dispatch.taskId ≠ taskId := by
      intro here
      have active' := still (closed dispatch member active here)
      rw [closes dispatch] at active'
      cases active'
    have work := sound.working.busy dispatch member active
    have same := others dispatch.taskId elsewhere fun pending => by
      obtain dispatched | stalled := work
      · cases dispatched.symm.trans pending
      · cases stalled.symm.trans pending
    rw [AtWork, same]
    exact work
  · have elsewhere : id ≠ taskId := fun here => incomplete (here ▸ completed)
    rw [others id elsewhere (by rw [completed]; nofun)]
    exact completed

/-- Only active dispatches are touched, and what is at work stays at work. -/
theorem Sound.keeps_of_work (sound : Sound board) (graph : Graph (fun _ => False) board')
    (dispatches : board'.dispatches = updateWhere board.dispatches selects set)
    (keeps : KeepsDispatch set)
    (active : ∀ dispatch, selects dispatch = true → dispatch.status.active = true)
    (work : ∀ id, AtWork board id → AtWork board' id)
    (completed : ∀ id, board.status? id = some .completed → board'.status? id = some .completed) :
    Keeps board board' :=
  ⟨⟨graph, sound.working.update dispatches keeps
    (fun dispatch _ selected _ => active dispatch selected)
    fun dispatch member isActive _ => work _ (sound.working.busy dispatch member isActive)⟩, completed⟩

/-- An operation on gates. -/
theorem Sound.keeps_of_same (sound : Sound board) (tasks : board'.tasks = board.tasks)
    (dispatches : board'.dispatches = board.dispatches) (isolated : board'.isolated = board.isolated) :
    Keeps board board' := by
  have status : ∀ id, board'.status? id = board.status? id := by
    intro id
    rw [status?, task?, tasks]
    rfl
  have untouched : board'.dispatches = updateWhere board.dispatches (fun _ => false) id := by
    rw [updateWhere_false, dispatches]
  refine sound.keeps_of_work (sound.graph.of_same tasks isolated) untouched
    ⟨fun _ => rfl, fun _ => rfl, fun _ => rfl⟩ (fun _ selected => absurd selected Bool.false_ne_true)
    (fun id work => ?_)
    fun id completed => (status id).trans completed
  rw [AtWork, status]
  exact work

end Outcomes

/-! ## Creation -/

section Creation

variable {board board' : Board}

variable {id : Text}

theorem createTask_some {new : NewTask} (done : createTask board id new = some board') :
    ∃ status result, statusForDeps board new.deps = some status ∧ (∀ task ∈ board.tasks, task.id ≠ id) ∧
      board' = { board with
        tasks := board.tasks ++ [⟨id, new.deps, new.runId, status, result, 0, new.contracted⟩] } := by
  obtain ⟨status, found, _, fresh, done⟩ := of_bind₂ done
  cases done
  refine ⟨status, _, found, fun task member same => ?_, rfl⟩
  have unused := (guard_eq_some' _).mp fresh
  simp only [Bool.not_eq_true', any_eq_false, decide_eq_true_eq] at unused
  exact unused task member same

theorem createTask_keeps (sound : Sound board) {new : NewTask}
    (done : createTask board id new = some board') : Keeps board board' := by
  obtain ⟨status, result, found, fresh, rfl⟩ := createTask_some done
  have spec := statusForDepsLoop_spec found
  let task : Task := ⟨id, new.deps, new.runId, status, result, 0, new.contracted⟩
  let next : Board := { board with tasks := board.tasks ++ [task] }
  have stays : ∀ dep, (board.status? dep).isSome → next.status? dep = board.status? dep := by
    intro dep known
    rw [status?, Option.isSome_map] at known
    obtain ⟨row, found⟩ := Option.isSome_iff_exists.mp known
    rw [status?, status?, task?, lookup_append found, found]
  have completed : ∀ dep, board.status? dep = some .completed → next.status? dep = some .completed := by
    intro dep was
    rw [stays dep (by rw [was]; rfl), was]
  -- a pending task, old or new, has known dependencies and waits
  have waits : ∀ row ∈ next.tasks, row.status = .pending →
      (∀ dep ∈ row.deps, (board.status? dep).isSome) ∧
        (board.isolatedTask row = false → Waits board row) := by
    intro row member pending
    obtain old | isNew := mem_append.mp member
    · exact ⟨sound.graph.known row old pending,
        fun outside => sound.graph.waits row old outside pending not_false⟩
    · cases mem_singleton.mp isNew
      cases pending
      cases spec with
      | pending known unbroken incomplete =>
        exact ⟨known, fun _ => ⟨unbroken, incomplete.resolve_left Bool.false_ne_true.symm⟩⟩
  refine ⟨⟨⟨?_, fun row member pending dep listed => ?_, fun row member isStarted dep listed => ?_,
    fun row member outside pending dep listed => ?_, fun row member outside pending _ => ?_⟩,
    ⟨sound.working.unique, fun dispatch member active => ?_, sound.working.perTask,
      sound.working.perHandle⟩⟩, completed⟩
  · exact nodup_append_singleton sound.graph.unique fresh
  · have known := (waits row member pending).1 dep listed
    exact (stays dep known).symm ▸ known
  · obtain old | isNew := mem_append.mp member
    · exact completed dep (sound.graph.started row old isStarted dep listed)
    · cases mem_singleton.mp isNew
      cases spec with
      | ready _ all => exact completed dep (all dep listed)
      | _ => cases isStarted
  · obtain ⟨known, waiting⟩ := waits row member pending
    have unbroken := (waiting outside).unbroken dep listed
    exact (stays dep (known dep listed)).symm ▸ unbroken.2
  · obtain ⟨known, waiting⟩ := waits row member pending
    obtain ⟨unbroken, dep, listed, incomplete⟩ := waiting outside
    refine ⟨fun other depends => ?_, dep, listed, ?_⟩
    · exact (stays other (known other depends)).symm ▸ unbroken other depends
    · exact (stays dep (known dep listed)).symm ▸ incomplete
  · have work := sound.working.busy dispatch member active
    have known : (board.status? dispatch.taskId).isSome := by
      obtain dispatched | stalled := work
      · rw [dispatched]
        rfl
      · rw [stalled]
        rfl
    rw [AtWork, stays dispatch.taskId known]
    exact work

/-- A new dispatch that shares a column with no active one. -/
theorem agree_append {α : Type} {key : Dispatch → α} {dispatches : List Dispatch} {new : Dispatch}
    (agree : ∀ row ∈ dispatches, ∀ other ∈ dispatches,
      row.status.active = true → other.status.active = true → key row = key other → row.id = other.id)
    (free : ∀ row ∈ dispatches, row.status.active = true → key row ≠ key new) :
    ∀ row ∈ dispatches ++ [new], ∀ other ∈ dispatches ++ [new],
      row.status.active = true → other.status.active = true → key row = key other → row.id = other.id := by
  refine forall_mem_snoc (fun row old => forall_mem_snoc (agree row old) ?_)
    (forall_mem_snoc (fun other old => ?_) fun _ _ _ => rfl)
  · intro active _ same
    exact absurd same (free row old active)
  · intro _ active same
    exact absurd same.symm (free other old active)

theorem createDispatch_some {taskId handle : Text} {token : Option Text} {now : Time}
    (done : createDispatch board id taskId handle token now = some board') :
    ∃ dispatch : Dispatch, board.status? taskId = some .ready ∧
      (∀ other ∈ board.dispatches, other.status.active = true → other.assigneeHandle ≠ some handle) ∧
      (∀ other ∈ board.dispatches, other.id ≠ dispatch.id) ∧ dispatch.taskId = taskId ∧
      dispatch.assigneeHandle = some handle ∧ dispatch.status = .awaitingAcceptance ∧
      board' = { board with dispatches := board.dispatches ++ [dispatch] }.updateTask taskId
        (Task.setStatus .dispatched) := by
  obtain ⟨task, found, _, ready, done⟩ := of_bind₂ done
  obtain ⟨_, idle, _, _, done⟩ := of_bind₂ done
  obtain ⟨_, fresh, done⟩ := of_bind done
  cases done
  have ready := (guard_eq_some' _).mp ready
  have idle := (guard_eq_some' _).mp idle
  have fresh := (guard_eq_some' _).mp fresh
  simp only [Bool.not_eq_true', any_eq_false, and_eq_true, decide_eq_true_eq] at idle fresh
  refine ⟨_, ?_, fun other member active same => idle other member ⟨same, active⟩,
    fun other member => fresh other member, rfl, rfl, rfl, rfl⟩
  rw [status?, found, map_some, ready]

theorem createDispatch_keeps (sound : Sound board) {taskId handle : Text} {token : Option Text}
    {now : Time} (done : createDispatch board id taskId handle token now = some board') :
    Keeps board board' := by
  obtain ⟨dispatch, ready, idle, fresh, task, terminal, -, rfl⟩ := createDispatch_some done
  let grown : Board := { board with dispatches := board.dispatches ++ [dispatch] }
  have graph : Graph (fun _ => False) grown := sound.graph.of_same rfl rfl
  have isReady : ∀ row ∈ grown.tasks, decide (row.id = taskId) = true → row.status = .ready := by
    intro row member selected
    have status := status?_of_mem graph member
    rw [of_decide_eq_true selected] at status
    exact Option.mem_unique status ready
  have advances : Advances grown (fun _ => False) (fun _ => False) (·.id = taskId)
      (Task.setStatus .dispatched) := by
    refine graph.advances_started (setStatus_keeps .dispatched) (fun row member selected => ?_)
      fun _ _ _ => ⟨rfl, rfl⟩
    rw [isReady row member selected]
    exact ⟨rfl, nofun⟩
  have status := status?_updateTask grown (setStatus_keeps .dispatched) taskId
  -- a task that is ready has no active dispatch
  have free : ∀ other ∈ board.dispatches, other.status.active = true → other.taskId ≠ taskId := by
    intro other member active here
    obtain dispatched | stalled := sound.working.busy other member active
    · cases (here ▸ dispatched).symm.trans ready
    · cases (here ▸ stalled).symm.trans ready
  refine ⟨⟨graph.advance advances, ⟨?_, fun row member active => ?_, ?_, ?_⟩⟩, advances.completed⟩
  · exact nodup_append_singleton sound.working.unique fresh
  · obtain old | isNew := mem_append.mp member
    · rw [AtWork, status, if_neg (free row old active)]
      exact sound.working.busy row old active
    · rw [mem_singleton.mp isNew, AtWork, status, if_pos task]
      obtain ⟨found, isTask, -⟩ := of_map ready
      have isTask : grown.task? taskId = some found := isTask
      rw [task, isTask]
      exact .inl rfl
  · exact agree_append sound.working.perTask fun row old active => task ▸ free row old active
  · exact agree_append sound.working.perHandle fun row old active => terminal ▸ idle row old active

/-! ## Outcomes -/

end Creation

section Work

variable {board board' : Board} {exempt : Task → Prop}

variable {id : Text}

theorem AtWork.incomplete (work : AtWork board id) : board.status? id ≠ some .completed := by
  obtain dispatched | stalled := work
  · rw [dispatched]
    nofun
  · rw [stalled]
    nofun

theorem AtWork.started {taskId : Text} (work : AtWork board taskId) (graph : Graph exempt board) :
    ∀ task ∈ board.tasks, task.id = taskId → started task.status = true ∧ task.status ≠ .completed := by
  rintro task member rfl
  rw [AtWork, status?_of_mem graph member] at work
  obtain dispatched | stalled := work
  · rw [Option.some.inj dispatched]
    exact ⟨rfl, nofun⟩
  · rw [Option.some.inj stalled]
    exact ⟨rfl, nofun⟩

variable {selectsDispatch : Dispatch → Bool} {selects : Task → Bool}

/-- Started tasks move and none that is at work stops, while active dispatches are touched. -/
theorem Sound.keeps_of_move {set : Task → Task}
    {setDispatch : Dispatch → Dispatch} (sound : Sound board)
    (tasks : board'.tasks = updateWhere board.tasks selects set)
    (dispatches : board'.dispatches = updateWhere board.dispatches selectsDispatch setDispatch)
    (isolated : board'.isolated = board.isolated) (keeps : KeepsTask set)
    (keepsDispatch : KeepsDispatch setDispatch)
    (active : ∀ dispatch, selectsDispatch dispatch = true → dispatch.status.active = true)
    (was : ∀ task ∈ board.tasks, selects task = true → started task.status = true ∧ task.status ≠ .completed)
    (becomes : ∀ task ∈ board.tasks, selects task = true →
      (set task).status = .dispatched ∨ (set task).status = .stalled ∨
        (set task).status = .ready ∧ task.status = .blocked) :
    Keeps board board' := by
  have advances : Advances board (fun _ => False) (fun _ => False) selects set := by
    refine sound.graph.advances_started keeps was fun task member selected => ?_
    obtain dispatched | stalled | ⟨ready, -⟩ := becomes task member selected
    · rw [dispatched]
      exact ⟨rfl, rfl⟩
    · rw [stalled]
      exact ⟨rfl, rfl⟩
    · rw [ready]
      exact ⟨rfl, rfl⟩
  have status : ∀ id, board'.status? id = (board.updateTasks selects set).status? id := by
    intro id
    rw [status?, task?, tasks]
    rfl
  refine sound.keeps_of_work ((sound.graph.advance advances).of_same tasks isolated) dispatches
    keepsDispatch active (fun id work => ?_) fun id completed => ?_
  · rw [AtWork, status]
    obtain same | ⟨task, member, -, selected, old, new⟩ := status?_updateTasks board selects keeps id
    · rw [same]
      exact work
    · rw [new]
      obtain dispatched | stalled | ⟨-, blocked⟩ := becomes task member selected
      · exact .inl (congrArg some dispatched)
      · exact .inr (congrArg some stalled)
      · rw [AtWork, old, blocked] at work
        obtain impossible | impossible := work
        · cases impossible
        · cases impossible
  · rw [status]
    exact advances.completed id completed

variable {now : Time}

section

variable (sound : Sound board)

include sound

theorem acceptDispatch_keeps {handle token : Text}
    (done : acceptDispatch board id handle token now = some board') : Keeps board board' := by
  obtain ⟨_, _, done⟩ := of_bind done
  cases done
  refine sound.keeps_of_work (sound.graph.of_same rfl rfl) rfl ⟨fun _ => rfl, fun _ => rfl, fun _ => rfl⟩
    (fun dispatch selected => ?_) (fun _ work => work) fun _ completed => completed
  simp only [Dispatch.acceptable, and_eq_true, or_eq_true, decide_eq_true_eq] at selected
  obtain awaiting | dispatched := selected.2
  · rw [awaiting]
    rfl
  · rw [dispatched]
    rfl

omit sound in
/-- A selection by one column and a status. -/
theorem status_of_selected {status status' : DispatchStatus} {p : Bool} (is : status'.active = true)
    (selected : (p && decide (status = status')) = true) : status.active = true := by
  rw [and_eq_true, decide_eq_true_eq] at selected
  rw [selected.2, is]

/-- Stalled tasks that go on. -/
theorem Sound.keeps_of_revival
    (tasks : board'.tasks = updateWhere board.tasks (fun task => selects task && task.status = .stalled) (Task.setStatus .dispatched))
    (dispatches : board'.dispatches = updateWhere board.dispatches (fun dispatch => selectsDispatch dispatch && dispatch.status = .stalled) (Dispatch.revive now))
    (isolated : board'.isolated = board.isolated) : Keeps board board' := by
  refine sound.keeps_of_move tasks dispatches isolated (setStatus_keeps .dispatched)
    ⟨fun _ => rfl, fun _ => rfl, fun _ => rfl⟩ (fun dispatch selected => status_of_selected rfl selected)
    (fun task _ selected => ?_) fun _ _ _ => .inl rfl
  rw [and_eq_true, decide_eq_true_eq] at selected
  rw [selected.2]
  exact ⟨rfl, nofun⟩

theorem recordActivity_keeps (id : Text) (now : Time) :
    Keeps board (recordActivity board id now).2 := by
  rw [recordActivity]
  split
  · exact sound.keeps_of_work (sound.graph.of_same rfl rfl) rfl ⟨fun _ => rfl, fun _ => rfl, fun _ => rfl⟩
      (fun dispatch selected => status_of_selected rfl selected) (fun _ work => work)
      fun _ completed => completed
  · split
    · exact sound.keeps_of_revival rfl rfl rfl
    · exact .refl sound

/-- The sweep stalls tasks that are at work, and leaves all others that are at work so. -/
theorem stallDispatch_keeps {dispatch : Dispatch}
    (work : AtWork board dispatch.taskId) : Keeps board (stallDispatch board dispatch) := by
  refine sound.keeps_of_move rfl rfl rfl (setStatus_keeps .stalled) ⟨fun _ => rfl, fun _ => rfl, fun _ => rfl⟩
    (fun row selected => status_of_selected rfl selected)
    (fun task member selected => work.started sound.graph task member (of_decide_eq_true selected))
    fun _ _ _ => .inr (.inl rfl)

omit sound in
theorem stallDispatch_atWork (dispatch : Dispatch) (work : AtWork board id) :
    AtWork (stallDispatch board dispatch) id := by
  obtain same | ⟨task, -, -, -, -, stalled⟩ :=
    status?_updateTasks board (·.id = dispatch.taskId) (setStatus_keeps .stalled) id
  · exact Or.imp same.trans same.trans work
  · exact .inr stalled

theorem stallExpired_keeps (threshold : Time) : Keeps board (stallExpired board threshold) := by
  have work : ∀ dispatch ∈ board.expiredDispatches threshold, AtWork board dispatch.taskId := by
    intro dispatch listed
    obtain ⟨member, selected⟩ := mem_filter.mp listed
    rw [and_eq_true, decide_eq_true_eq] at selected
    exact sound.working.busy dispatch member (by rw [selected.1]; rfl)
  rw [stallExpired]
  generalize board.expiredDispatches threshold = expired at work
  induction expired generalizing board with
  | nil => exact .refl sound
  | cons dispatch expired ih =>
    have first := stallDispatch_keeps sound (work dispatch mem_cons_self)
    exact first.trans (ih first.sound fun other listed =>
      stallDispatch_atWork dispatch (work other (.tail _ listed)))

theorem resolveGate_keeps {decision : Text}
    (done : resolveGate board id decision now = some board') : Keeps board board' := by
  obtain ⟨gate, _, _, _, done⟩ := of_bind₂ done
  cases done
  split
  · have untouched : board.dispatches = updateWhere board.dispatches (fun _ => false) fun row => row := by
      rw [updateWhere_false]
    have blocked : ∀ task : Task, (decide (task.id = gate.taskId) && decide (task.status = .blocked)) = true →
        task.status = .blocked := fun task selected => by
      rw [and_eq_true, decide_eq_true_eq, decide_eq_true_eq] at selected
      exact selected.2
    refine sound.keeps_of_move rfl untouched rfl (setStatus_keeps .ready)
      ⟨fun _ => rfl, fun _ => rfl, fun _ => rfl⟩ nofun (fun task _ selected => ?_)
      fun task _ selected => .inr (.inr ⟨rfl, blocked task selected⟩)
    rw [blocked task selected]
    exact ⟨rfl, nofun⟩
  · exact sound.keeps_of_same rfl rfl rfl

end

end Work

section Closing

variable {board board' : Board} {id : Text} {dispatch : Dispatch}

variable {taskId : Text} {set : Task → Task}

/-- A task at work that is completed or failed, once its dependents are refreshed. -/
theorem refreshed (graph : Graph (fun _ => False) board)
    (work : AtWork board taskId) (keeps : KeepsTask set)
    (becomes : ∀ task, (set task).status = .completed ∨ (set task).status = .failed)
    (done : refreshDependents (board.updateTask taskId set) taskId = some board') :
    Graph (fun _ => False) board' ∧ Refreshes (board.updateTask taskId set) board' ∧
      ∀ id, id ≠ taskId → board.status? id ≠ some .pending → board'.status? id = board.status? id := by
  have advances := graph.advances_closed keeps (work.started graph) becomes
  obtain ⟨next, refreshes, graph', frame⟩ := refreshDependents_spec (graph.advance advances)
  cases refreshes.symm.trans done
  refine ⟨graph', frame, fun id elsewhere unpending => ?_⟩
  have same : (board.updateTask taskId set).status? id = board.status? id := by
    rw [status?_updateTask board keeps, if_neg elsewhere]
  rw [frame.others id (same.symm ▸ unpending)]
  exact same

/-- A started task that goes on, or back. -/
theorem returned (graph : Graph (fun _ => False) board)
    (was : ∀ task ∈ board.tasks, task.id = taskId → started task.status = true ∧ task.status ≠ .completed)
    (keeps : KeepsTask set)
    (becomes : ∀ task, started (set task).status = true ∧ terminal (set task).status = false) :
    Graph (fun _ => False) (board.updateTask taskId set) ∧
      ∀ id, id ≠ taskId → board.status? id ≠ some .pending →
        (board.updateTask taskId set).status? id = board.status? id := by
  have advances : Advances board (fun _ => False) (fun _ => False) (·.id = taskId) set :=
    graph.advances_started keeps (fun task member here => was task member (of_decide_eq_true here))
      fun task _ _ => becomes task
  refine ⟨graph.advance advances, fun id elsewhere _ => ?_⟩
  rw [status?_updateTask board keeps, if_neg elsewhere]

/-- The one active dispatch of its task is closed. -/
theorem Sound.keeps_of_outcome {set : Dispatch → Dispatch} (sound : Sound board)
    (found : board.dispatch? id = some dispatch) (active : dispatch.status.active = true)
    (graph : Graph (fun _ => False) board')
    (dispatches : board'.dispatches = updateWhere board.dispatches (·.id = id) set)
    (keeps : KeepsDispatch set) (closes : ∀ dispatch, (set dispatch).status.active = false)
    (others : ∀ id, id ≠ dispatch.taskId → board.status? id ≠ some .pending →
      board'.status? id = board.status? id) : Keeps board board' := by
  obtain ⟨member, isId⟩ := lookup_some found
  refine sound.keeps_of_closed graph dispatches keeps closes dispatch.taskId
    (fun other memberOther activeOther same => decide_eq_true ?_)
    (sound.working.busy dispatch member active).incomplete others
  rw [← isId]
  exact sound.working.perTask other memberOther dispatch member activeOther active same

theorem failStartup_keeps (sound : Sound board) (done : failStartup board id = some board') :
    Keeps board board' := by
  obtain ⟨dispatch, found, done⟩ := of_bind done
  split at done
  · cases done
    exact .refl sound
  · obtain ⟨awaiting, done⟩ := of_when done
    cases done
    have active : dispatch.status.active = true := by
      rw [awaiting]
      rfl
    have keeps : KeepsTask Task.startupFailed := ⟨fun _ => rfl, fun _ => rfl, fun _ => rfl⟩
    have becomes : ∀ task : Task, started task.startupFailed.status = true ∧
        terminal task.startupFailed.status = false := by
      intro task
      rw [Task.startupFailed]
      split
      · exact ⟨rfl, rfl⟩
      · exact ⟨rfl, rfl⟩
    have work := sound.working.busy dispatch (lookup_some found).1 active
    obtain ⟨graph, others⟩ := returned sound.graph (work.started sound.graph) keeps becomes
    exact sound.keeps_of_outcome found active (graph.of_same rfl rfl) rfl
      ⟨fun _ => rfl, fun _ => rfl, fun _ => rfl⟩ (fun _ => rfl) others

theorem fail_inactive (dispatch : Dispatch) : dispatch.fail.status.active = false := by
  rw [Dispatch.fail]
  split
  · rfl
  · rfl

theorem failDispatch_keeps (sound : Sound board) {result : Option Text}
    (found : board.dispatch? id = some dispatch) (active : dispatch.status.active = true)
    (done : failDispatch board id result = some board') : Keeps board board' := by
  obtain ⟨dispatch', found', done⟩ := of_bind done
  cases found.symm.trans found'
  have work := sound.working.busy dispatch (lookup_some found).1 active
  let closed := board.updateDispatches (·.id = id) Dispatch.fail
  have graph : Graph (fun _ => False) closed := sound.graph.of_same rfl rfl
  split at done
  · obtain ⟨graph', frame, others⟩ := refreshed graph work (outcome_keeps result .failed) (fun _ => .inr rfl) done
    exact sound.keeps_of_outcome found active graph' frame.dispatches
      ⟨fun _ => rfl, fun _ => rfl, fun _ => rfl⟩ fail_inactive others
  · cases done
    obtain ⟨graph', others⟩ := returned graph (AtWork.started work graph) (outcome_keeps result .ready)
      fun _ => ⟨rfl, rfl⟩
    exact sound.keeps_of_outcome found active graph' rfl
      ⟨fun _ => rfl, fun _ => rfl, fun _ => rfl⟩ fail_inactive others

/-- A completion answers a completed dispatch, or closes an active one and refreshes. -/
theorem completeDispatch_some {handle result : Text} {accepted : Bool} {now : Time}
    (done : completeDispatch board id handle result accepted now = some board') :
    board' = board ∨ ∃ dispatch, board.dispatch? id = some dispatch ∧ dispatch.status.active = true ∧
      refreshDependents ((board.updateDispatches (·.id = id) fun row =>
        { row with status := .completed, lastActivityAt := some now }).updateTask dispatch.taskId fun task =>
          { task with status := .completed, result := some result }) dispatch.taskId = some board' := by
  obtain ⟨dispatch, found, done⟩ := of_bind done
  split at done
  · split at done
    · exact .inl (Option.some.inj done).symm
    · cases done
  · obtain ⟨accepts, done⟩ := of_when done
    refine .inr ⟨dispatch, found, ?_, done⟩
    simp only [and_eq_true, or_eq_true, decide_eq_true_eq] at accepts
    obtain dispatched | stalled := accepts.1.1
    · rw [dispatched]
      rfl
    · rw [stalled]
      rfl

theorem completeDispatch_keeps (sound : Sound board) {handle result : Text} {accepted : Bool} {now : Time}
    (done : completeDispatch board id handle result accepted now = some board') : Keeps board board' := by
  obtain rfl | ⟨dispatch, found, active, refreshes⟩ := completeDispatch_some done
  · exact .refl sound
  have work := sound.working.busy dispatch (lookup_some found).1 active
  let closed := board.updateDispatches (·.id = id) fun row =>
    { row with status := .completed, lastActivityAt := some now }
  have graph : Graph (fun _ => False) closed := sound.graph.of_same rfl rfl
  obtain ⟨graph', frame, others⟩ := refreshed graph work (outcome_keeps (some result) .completed) (fun _ => .inl rfl)
    refreshes
  exact sound.keeps_of_outcome found active graph' frame.dispatches
    ⟨fun _ => rfl, fun _ => rfl, fun _ => rfl⟩ (fun _ => rfl) others

theorem insertGate_some {gate : Gate} (done : board.insertGate gate = some board') :
    (∀ other ∈ board.gates, other.id ≠ gate.id) ∧
      board' = { board with gates := board.gates ++ [gate] } := by
  obtain ⟨fresh, done⟩ := of_unless done
  simp only [any_eq_true, decide_eq_true_eq, not_exists, not_and] at fresh
  exact ⟨fresh, (Option.some.inj done).symm⟩

/-- All active dispatches of a task are closed. -/
theorem Sound.keeps_of_closeDispatches (sound : Sound board) {status : DispatchStatus}
    (graph : Graph (fun _ => False) board')
    (dispatches : board'.dispatches = (board.closeDispatches taskId status).dispatches)
    (closes : status.active = false) (incomplete : board.status? taskId ≠ some .completed)
    (others : ∀ id, id ≠ taskId → board.status? id ≠ some .pending → board'.status? id = board.status? id) :
    Keeps board board' := by
  refine sound.keeps_of_closed graph dispatches ⟨fun _ => rfl, fun _ => rfl, fun _ => rfl⟩ (fun _ => closes)
    taskId (fun dispatch _ active here => ?_) incomplete others
  rw [here, active, decide_eq_true rfl]
  rfl

theorem createGate_some {options : List Text}
    (done : createGate board id taskId options = some board') :
    ∃ status, board.status? taskId = some status ∧ (status = .ready ∨ status = .dispatched) ∧
      (∀ gate ∈ board.gates, gate.id ≠ id) ∧
      board' = (({ board with gates := board.gates ++ [newTaskGate id taskId .decision options] } :
        Board).closeDispatches taskId .completed).updateTask taskId (Task.setStatus .blocked) := by
  obtain ⟨task, found, _, movable, done⟩ := of_bind₂ done
  obtain ⟨gated, inserted, done⟩ := of_bind done
  cases done
  have movable := (guard_eq_some' _).mp movable
  rw [or_eq_true, decide_eq_true_eq, decide_eq_true_eq] at movable
  obtain ⟨fresh, rfl⟩ := insertGate_some inserted
  refine ⟨task.status, ?_, movable, fresh, rfl⟩
  rw [status?, found]
  rfl

theorem createGate_keeps (sound : Sound board) {options : List Text}
    (done : createGate board id taskId options = some board') : Keeps board board' := by
  obtain ⟨status, found, movable, -, rfl⟩ := createGate_some done
  have was : started status = true ∧ status ≠ .completed := by
    obtain rfl | rfl := movable
    · exact ⟨rfl, nofun⟩
    · exact ⟨rfl, nofun⟩
  have rows : ∀ row ∈ board.tasks, row.id = taskId → started row.status = true ∧ row.status ≠ .completed := by
    rintro row member rfl
    rw [Option.mem_unique (status?_of_mem sound.graph member) found]
    exact was
  obtain ⟨graph, others⟩ := returned sound.graph rows (setStatus_keeps .blocked) fun _ => ⟨rfl, rfl⟩
  refine sound.keeps_of_closeDispatches (graph.of_same rfl rfl) rfl rfl ?_ others
  rw [found]
  exact fun completed => was.2 (Option.some.inj completed)

/-! ## Cancellation and recovery -/

variable {reason : Text}

theorem cancelTask_keeps (sound : Sound board) (done : cancelTask board id reason = some board') :
    Keeps board board' := by
  obtain rfl | ⟨ids, -, -, -, cascade, rfl⟩ := cancelTask_some done
  · exact .refl sound
  have cases := status?_updateTasks board (fun task => ids.contains task.id && !terminal task.status)
    (cancelWith_keeps id reason)
  refine ⟨⟨cancelAll_graph sound.graph cascade, sound.working.update rfl
    ⟨fun _ => rfl, fun _ => rfl, fun _ => rfl⟩ (fun _ _ _ => nofun) fun dispatch member active kept => ?_⟩,
    fun other completed => ?_⟩
  · have outside : dispatch.taskId ∉ ids := by
      intro listed
      have impossible := kept (by rw [contains_iff_mem.mpr listed, active]; rfl)
      cases impossible
    have same : (cancelAll id reason ids board).status? dispatch.taskId = board.status? dispatch.taskId := by
      obtain same | ⟨task, -, here, selected, -, -⟩ := cases dispatch.taskId
      · exact same
      · rw [here, and_eq_true, contains_iff_mem] at selected
        exact absurd selected.1 outside
    rw [AtWork, same]
    exact sound.working.busy dispatch member active
  · obtain same | ⟨task, -, -, selected, status, -⟩ := cases other
    · exact same.trans completed
    · rw [Option.mem_unique status completed, and_eq_true] at selected
      cases selected.2

/-- A stalled task is cancelled, goes back to ready, or fails with its dependents. -/
theorem recoverStalled_some {status : TaskStatus}
    (done : recoverStalled board id status reason = some board') :
    board.status? id = some .stalled ∧
      (cancelTask board id reason = some board' ∨
        board' = (board.updateTask id fun task =>
          { task with status := .ready, result := (some reason).or task.result }).closeDispatches id .failed ∨
        ∃ next, refreshDependents (board.updateTask id fun task =>
          { task with status := .failed, result := (some reason).or task.result }) id = some next ∧
          board' = next.closeDispatches id .failed) := by
  obtain ⟨task, found, _, stalled, done⟩ := of_bind₂ done
  constructor
  · rw [status?, found, map_some, (guard_eq_some' _).mp stalled]
  · split at done
    · exact .inl done
    · obtain ⟨_, done⟩ := of_unless done
      obtain ⟨_, _, _, _, done⟩ := of_bind₂ done
      exact .inr (.inl (Option.some.inj done).symm)
    · obtain ⟨_, done⟩ := of_unless done
      obtain ⟨_, _, _, _, done⟩ := of_bind₂ done
      obtain ⟨next, refreshes, rfl⟩ := of_map done
      exact .inr (.inr ⟨next, refreshes, rfl⟩)
    · cases done

theorem recoverStalled_keeps (sound : Sound board) {status : TaskStatus}
    (done : recoverStalled board id status reason = some board') : Keeps board board' := by
  obtain ⟨stalled, outcome⟩ := recoverStalled_some done
  have work : AtWork board id := .inr stalled
  obtain cancelled | rfl | ⟨next, refreshes, rfl⟩ := outcome
  · exact cancelTask_keeps sound cancelled
  · obtain ⟨graph, others⟩ := returned sound.graph (work.started sound.graph)
      (outcome_keeps (some reason) .ready) fun _ => ⟨rfl, rfl⟩
    exact sound.keeps_of_closeDispatches (graph.of_same rfl rfl) rfl rfl work.incomplete others
  · obtain ⟨graph, frame, others⟩ := refreshed sound.graph work (outcome_keeps (some reason) .failed)
      (fun _ => .inr rfl) refreshes
    have closed : (next.closeDispatches id .failed).dispatches =
        (board.closeDispatches id .failed).dispatches := by
      rw [Board.closeDispatches, Board.updateDispatches, frame.dispatches]
      rfl
    exact sound.keeps_of_closeDispatches (graph.of_same rfl rfl) closed rfl work.incomplete others

/-! ## Stalls -/

/-- A stalled task is asked about once: a gate that is pending is kept. -/
theorem createStallGate_some (done : createStallGate board id taskId = some board') :
    board.status? taskId = some .stalled ∧ (board' = board ∨
      (∀ gate ∈ board.gates, gate.id ≠ id) ∧
        board' = { board with gates := board.gates ++ [newTaskGate id taskId .stall stallGateOptions] }) := by
  obtain ⟨task, found, _, stalled, done⟩ := of_bind₂ done
  constructor
  · rw [status?, found, map_some, (guard_eq_some' _).mp stalled]
  · split at done
    · exact .inl (Option.some.inj done).symm
    · exact .inr (insertGate_some done)

variable (sound : Sound board)

include sound

theorem createStallGate_keeps
    (done : createStallGate board id taskId = some board') : Keeps board board' := by
  obtain ⟨-, rfl | ⟨-, rfl⟩⟩ := createStallGate_some done
  · exact .refl sound
  · exact sound.keeps_of_same rfl rfl rfl

theorem resolveStallGateAsResumed_keeps (taskId : Text) (now : Time) :
    Keeps board (resolveStallGateAsResumed board taskId now) := by
  rw [resolveStallGateAsResumed]
  split
  · exact .refl sound
  · exact sound.keeps_of_same rfl rfl rfl

/-- An error of the store changes nothing. -/
theorem Keeps.getD {next : Option Board} (each : ∀ board', next = some board' →
    Keeps board board') : Keeps board (next.getD board) := by
  cases next with
  | none => exact .refl sound
  | some board' => exact each board' rfl

theorem actOnGate_keeps (now : Time) (gate : Gate) : Keeps board (actOnGate now board gate) := by
  rw [actOnGate]
  split
  · rw [failoverStalledDispatch]
    split
    · exact .refl sound
    · split
      · exact .getD sound fun _ done => recoverStalled_keeps sound done
      · exact .refl sound
  · split
    · exact sound.keeps_of_revival rfl rfl rfl
    · split
      · exact .getD sound fun _ done => cancelTask_keeps sound done
      · exact .refl sound

theorem processStallDecisions_keeps (now : Time) :
    Keeps board (processStallDecisions board now) := by
  rw [processStallDecisions]
  generalize resolvedStallGates board = gates
  induction gates generalizing board with
  | nil => exact .refl sound
  | cons gate gates ih =>
    have first := actOnGate_keeps sound now gate
    exact first.trans (ih first.sound)

end Closing

/-! ## Histories -/

section Histories

variable {board board' : Board}

/-- Every operation keeps the board sound and completed tasks completed. -/
theorem step_keeps (sound : Sound board) {event : TaskEvent} (stepped : step board event = some board') :
    Keeps board board' := by
  cases event with
  | createTask id new => exact createTask_keeps sound stepped
  | createDispatch id taskId handle token now => exact createDispatch_keeps sound stepped
  | accept id handle token now => exact acceptDispatch_keeps sound stepped
  | activity id now =>
    cases stepped
    exact recordActivity_keeps sound id now
  | failStartup id => exact failStartup_keeps sound stepped
  | failDispatch id result =>
    simp only [step, Option.any_eq_true] at stepped
    obtain ⟨isActive, stepped⟩ := of_when stepped
    obtain ⟨dispatch, found, active⟩ := isActive
    exact failDispatch_keeps sound found active stepped
  | complete id handle result accepted now => exact completeDispatch_keeps sound stepped
  | createGate id taskId options => exact createGate_keeps sound stepped
  | resolveGate id decision now => exact resolveGate_keeps sound stepped
  | stallExpired threshold =>
    cases stepped
    exact stallExpired_keeps sound threshold
  | cancel id reason => exact cancelTask_keeps sound stepped
  | recover id status reason => exact recoverStalled_keeps sound stepped
  | openStallGate id taskId => exact createStallGate_keeps sound stepped
  | resumeGate taskId now =>
    cases stepped
    exact resolveStallGateAsResumed_keeps sound taskId now
  | processStallDecisions now =>
    cases stepped
    exact processStallDecisions_keeps sound now

theorem empty_sound (isolated : List Text) : Sound (Board.empty isolated) where
  graph :=
    { unique := nodup_nil
      known := fun _ member => absurd member not_mem_nil
      started := fun _ member => absurd member not_mem_nil
      uncancelled := fun _ member => absurd member not_mem_nil
      waits := fun _ member => absurd member not_mem_nil }
  working :=
    { unique := nodup_nil
      busy := fun _ member => absurd member not_mem_nil
      perTask := fun _ member => absurd member not_mem_nil
      perHandle := fun _ member => absurd member not_mem_nil }

theorem run_keeps (sound : Sound board) {events : List TaskEvent} (ran : run step board events = some board') :
    Keeps board board' :=
  run_invariant (Keeps board) (fun _ _ _ before stepped => before.trans (step_keeps before.sound stepped))
    events board board' (.refl sound) ran

/-- What the board promises about tasks and dispatches. -/
structure DagInvariant (board : Board) : Prop where
  perTask : ∀ taskId, (board.dispatches.filter fun dispatch =>
    dispatch.taskId = taskId && dispatch.status.active).length ≤ 1
  perTerminal : ∀ handle, (board.dispatches.filter fun dispatch =>
    dispatch.assigneeHandle = some handle && dispatch.status.active).length ≤ 1
  depsCompleted : ∀ task ∈ board.tasks, board.isolatedTask task = false → started task.status = true →
    ∀ dep ∈ task.deps, board.status? dep = some .completed
  depsUnbroken : ∀ task ∈ board.tasks, board.isolatedTask task = false → task.status = .pending →
    ∀ dep ∈ task.deps, board.status? dep ≠ some .failed ∧ board.status? dep ≠ some .cancelled
  depUnfinished : ∀ task ∈ board.tasks, board.isolatedTask task = false → task.status = .pending →
    ∃ dep ∈ task.deps, ∃ status, board.status? dep = some status ∧ terminal status = false

theorem Sound.dagInvariant (sound : Sound board) : DagInvariant board := by
  refine ⟨fun taskId => ?_, fun handle => ?_, fun task member _ => sound.graph.started task member,
    fun task member outside pending => (sound.graph.waits task member outside pending nofun).unbroken,
    fun task member outside pending => ?_⟩
  · refine length_filter_le_one sound.working.unique fun row member other memberOther selected selected' => ?_
    rw [and_eq_true, decide_eq_true_eq] at selected selected'
    exact sound.working.perTask row member other memberOther selected.2 selected'.2
      (selected.1.trans selected'.1.symm)
  · refine length_filter_le_one sound.working.unique fun row member other memberOther selected selected' => ?_
    rw [and_eq_true, decide_eq_true_eq] at selected selected'
    exact sound.working.perHandle row member other memberOther selected.2 selected'.2
      (selected.1.trans selected'.1.symm)
  · obtain ⟨unbroken, dep, listed, incomplete⟩ := sound.graph.waits task member outside pending nofun
    obtain ⟨status, known⟩ := Option.isSome_iff_exists.mp (sound.graph.known task member pending dep listed)
    have broken := unbroken dep listed
    refine ⟨dep, listed, status, known, ?_⟩
    rw [known] at broken incomplete
    cases status with
    | completed => exact absurd rfl incomplete
    | failed => exact absurd rfl broken.1
    | cancelled => exact absurd rfl broken.2
    | _ => rfl

/-- **The task graph holds after every history.**  From an empty board no task and no terminal ever
has two active dispatches, what has started has its dependencies completed, what is pending waits for
something that can still happen, and what is completed stays completed whatever follows. -/
theorem tasks_follow_dag (isolated : List Text) (events more : List TaskEvent) (board later : Board)
    (ran : run step (Board.empty isolated) events = some board) (ranMore : run step board more = some later) :
    DagInvariant board ∧ ∀ id, board.status? id = some .completed → later.status? id = some .completed := by
  have sound := (run_keeps (empty_sound isolated) ran).sound
  exact ⟨sound.dagInvariant, (run_keeps sound ranMore).completed⟩

/-- Two tasks, the second after the first, which is completed. -/
def firstOfTwo : List TaskEvent :=
  [.createTask "plan".toList ⟨[], none, false⟩,
    .createTask "build".toList ⟨["plan".toList], none, false⟩,
    .createDispatch "first".toList "plan".toList "terminal".toList none 1,
    .accept "first".toList "terminal".toList "token".toList 2,
    .complete "first".toList "terminal".toList "done".toList true 3]

/-- The second task of the two, handed to the same terminal. -/
def secondOfTwo : List TaskEvent :=
  [.createDispatch "second".toList "build".toList "terminal".toList none 4,
    .accept "second".toList "terminal".toList "token".toList 5, .stallExpired 6]

theorem tasks_follow_dag_two : ∃ board later, run step (Board.empty []) firstOfTwo = some board ∧
    run step board secondOfTwo = some later ∧ DagInvariant board ∧
    board.status? "plan".toList = some .completed ∧ later.status? "plan".toList = some .completed := by
  have ran : (run step (Board.empty []) firstOfTwo).bind (fun board => (run step board secondOfTwo).map
      fun _ => decide (board.status? "plan".toList = some .completed)) = some true := by decide +kernel
  obtain ⟨board, ran, later⟩ := of_bind ran
  obtain ⟨later, ranMore, completed⟩ := of_map later
  obtain ⟨invariant, stays⟩ := tasks_follow_dag [] firstOfTwo secondOfTwo board later ran ranMore
  exact ⟨board, later, ran, ranMore, invariant, of_decide_eq_true completed,
    stays _ (of_decide_eq_true completed)⟩

end Histories

end Alera.Orchestration.Tasks
