/-
# Alera.Orchestration.StallDecisions -- which stall a decision answers

A worker that stops showing activity stalls its task, a person is asked what to do, and
the next sweep acts on the answer.  Answered gates stay in the table and are found again
by the status of their task alone, so a decision can be acted on in a later stall of
the same task.

`Tracked` is the board with three things nobody stores: how many steps there have been,
when each task last became stalled, and when each gate was opened.  `Effect` says what
a step does to stalled tasks and to gates that may still be acted on (`Gate.live`).  A
decision answers the current stall (`Answers`) in every run in which no task stalls
while one of its gates is live.
-/
import Alera.Orchestration.TaskHistories

namespace Alera.Orchestration.Tasks

open Theory List Tables

set_option autoImplicit false

/-! ## What a step stalls -/

/-- A stall gate that waits for a person, or whose decision would be acted on. -/
def Gate.live (gate : Gate) : Bool :=
  gate.kind = .stall && (gate.status = .pending ||
    gate.status = .resolved && gate.resolution.any (· ≠ resumed))

/-- The tasks that an operation stalls, read from the board before it: those of the dispatches
whose lease ran out, and that of a dispatch that fails to start for the third time. -/
def stalls (board : Board) : TaskEvent → List Text
  | .stallExpired threshold => (board.expiredDispatches threshold).map Dispatch.taskId
  | .failStartup id =>
    match board.dispatch? id with
    | some dispatch =>
      if dispatch.status = .awaitingAcceptance &&
          (board.task? dispatch.taskId).any (3 ≤ ·.startupFailureCount + 1) then [dispatch.taskId]
      else []
    | none => []
  | _ => []

structure Effect (board : Board) (stalls : List Text) (board' : Board) : Prop where
  stalled : ∀ id, board'.status? id = some .stalled → board.status? id = some .stalled ∨ id ∈ stalls
  gates : ∀ gate ∈ board'.gates,
    (∃ old ∈ board.gates, old.id = gate.id ∧ old.taskId = gate.taskId ∧
      (gate.live = true → old.live = true)) ∨
    (∀ old ∈ board.gates, old.id ≠ gate.id) ∧
      (gate.live = true → board.status? gate.taskId = some .stalled)
  kept : ∀ old ∈ board.gates, ∃ gate ∈ board'.gates, gate.id = old.id ∧ gate.taskId = old.taskId
  unique : (board.gates.map Gate.id).Nodup → (board'.gates.map Gate.id).Nodup

/-- No task stalls, and no gate is opened. -/
structure Calm (board board' : Board) : Prop where
  stalled : ∀ id, board'.status? id = some .stalled → board.status? id = some .stalled
  gates : ∀ gate ∈ board'.gates, ∃ old ∈ board.gates, old.id = gate.id ∧ old.taskId = gate.taskId ∧
    (gate.live = true → old.live = true)
  kept : ∀ old ∈ board.gates, ∃ gate ∈ board'.gates, gate.id = old.id ∧ gate.taskId = old.taskId
  unique : (board.gates.map Gate.id).Nodup → (board'.gates.map Gate.id).Nodup

section Effects

variable {board board' : Board}

theorem Calm.effect (calm : Calm board board') (stalls : List Text) : Effect board stalls board' where
  stalled id stalled := .inl (calm.stalled id stalled)
  gates gate member := .inl (calm.gates gate member)
  kept := calm.kept
  unique := calm.unique

theorem Calm.refl (board : Board) : Calm board board :=
  ⟨fun _ stalled => stalled, fun gate member => ⟨gate, member, rfl, rfl, fun live => live⟩,
    fun old member => ⟨old, member, rfl, rfl⟩, fun unique => unique⟩

theorem Calm.trans {board'' : Board} (first : Calm board board') (second : Calm board' board'') :
    Calm board board'' := by
  refine ⟨fun id stalled => first.stalled id (second.stalled id stalled), fun gate member => ?_,
    fun old member => ?_, fun unique => second.unique (first.unique unique)⟩
  · obtain ⟨middle, member', id, task, live⟩ := second.gates gate member
    obtain ⟨old, memberOld, id', task', live'⟩ := first.gates middle member'
    exact ⟨old, memberOld, id'.trans id, task'.trans task, fun isLive => live' (live isLive)⟩
  · obtain ⟨middle, member', id, task⟩ := first.kept old member
    obtain ⟨gate, memberGate, id', task'⟩ := second.kept middle member'
    exact ⟨gate, memberGate, id'.trans id, task'.trans task⟩

variable (stalled : ∀ id, board'.status? id = some .stalled → board.status? id = some .stalled)

include stalled

/-- Gates are closed or answered. -/
theorem calm_of_gates {selects : Gate → Bool} {set : Gate → Gate}
    (gates : board'.gates = updateWhere board.gates selects set)
    (sameId : ∀ gate, (set gate).id = gate.id) (sameTask : ∀ gate, (set gate).taskId = gate.taskId)
    (live : ∀ gate ∈ board.gates, selects gate = true → (set gate).live = true → gate.live = true) :
    Calm board board' := by
  refine ⟨stalled, fun gate member => ?_, fun old member => ?_, fun unique => ?_⟩
  · rw [gates] at member
    obtain ⟨old, memberOld, rfl⟩ := mem_updateWhere.mp member
    refine ⟨old, memberOld, ?_⟩
    split
    · rename_i selected
      exact ⟨(sameId old).symm, (sameTask old).symm, live old memberOld selected⟩
    · exact ⟨rfl, rfl, fun isLive => isLive⟩
  · rw [gates]
    refine ⟨_, mem_updateWhere_of_mem member, ?_⟩
    split
    · exact ⟨sameId old, sameTask old⟩
    · exact ⟨rfl, rfl⟩
  · rw [gates, map_updateWhere sameId]
    exact unique

theorem calm_of_stalled (gates : board'.gates = board.gates) : Calm board board' := by
  have untouched : board'.gates = updateWhere board.gates (fun _ => false) fun gate => gate := by
    rw [updateWhere_false, gates]
  exact calm_of_gates stalled untouched (fun _ => rfl) (fun _ => rfl) nofun

omit stalled

theorem effect_of_stalled {stalls : List Text}
    (stalled : ∀ id, board'.status? id = some .stalled → board.status? id = some .stalled ∨ id ∈ stalls)
    (gates : board'.gates = board.gates) : Effect board stalls board' := by
  refine ⟨stalled, fun gate member => .inl ⟨gate, gates ▸ member, rfl, rfl, fun live => live⟩,
    fun old member => ⟨old, gates ▸ member, rfl, rfl⟩, fun unique => ?_⟩
  rw [gates]
  exact unique

variable {id : Text} {selects : Task → Bool} {set : Task → Task}

/-- Tasks move, but not to a stall. -/
theorem stalled_of_move (keeps : KeepsTask set) (moved : ∀ task, (set task).status ≠ .stalled)
    (stalled : (board.updateTasks selects set).status? id = some .stalled) :
    board.status? id = some .stalled := by
  obtain same | ⟨task, -, -, -, -, status⟩ := status?_updateTasks board selects keeps id
  · exact same.symm.trans stalled
  · exact absurd (Option.mem_unique status stalled) (moved task)

theorem calm_of_move (keeps : KeepsTask set)
    (moved : ∀ task, (set task).status ≠ .stalled) : Calm board (board.updateTasks selects set) :=
  calm_of_stalled (fun _ => stalled_of_move keeps moved) rfl

theorem calm_of_dispatches (selects : Dispatch → Bool) (set : Dispatch → Dispatch) :
    Calm board (board.updateDispatches selects set) :=
  calm_of_stalled (fun _ stalled => stalled) rfl

/-- A gate is opened, and tasks do not stall. -/
theorem effect_of_insert {gate : Gate} (stalls : List Text)
    (stalled : ∀ id, board'.status? id = some .stalled → board.status? id = some .stalled)
    (fresh : ∀ old ∈ board.gates, old.id ≠ gate.id) (gates : board'.gates = board.gates ++ [gate])
    (live : gate.live = true → board.status? gate.taskId = some .stalled) : Effect board stalls board' := by
  refine ⟨fun id is => .inl (stalled id is), fun row member => ?_, fun old member => ?_, fun unique => ?_⟩
  · rw [gates] at member
    obtain old | isNew := mem_append.mp member
    · exact .inl ⟨row, old, rfl, rfl, fun isLive => isLive⟩
    · rw [mem_singleton.mp isNew]
      exact .inr ⟨fresh, live⟩
  · rw [gates]
    exact ⟨old, mem_append_left _ member, rfl, rfl⟩
  · rw [gates]
    exact nodup_append_singleton unique fresh

/-! ## The operations -/

theorem createTask_calm (sound : Sound board) {new : NewTask}
    (done : createTask board id new = some board') : Calm board board' := by
  obtain ⟨status, result, found, -, rfl⟩ := createTask_some done
  refine calm_of_stalled (fun other stalled => ?_) rfl
  obtain ⟨row, isRow, isStalled⟩ := of_map stalled
  obtain ⟨member, rfl⟩ := lookup_some isRow
  obtain old | isNew := mem_append.mp member
  · rw [status?_of_mem sound.graph old, isStalled]
  · cases mem_singleton.mp isNew
    cases isStalled
    cases statusForDepsLoop_spec found

variable {taskId handle : Text} {now : Time}

theorem createDispatch_calm {token : Option Text}
    (done : createDispatch board id taskId handle token now = some board') : Calm board board' := by
  obtain ⟨dispatch, -, -, -, -, -, -, rfl⟩ := createDispatch_some done
  exact calm_of_stalled (fun _ => stalled_of_move (setStatus_keeps .dispatched) fun _ => nofun) rfl

theorem acceptDispatch_calm {token : Text}
    (done : acceptDispatch board id handle token now = some board') : Calm board board' := by
  obtain ⟨_, _, done⟩ := of_bind done
  cases done
  exact calm_of_dispatches _ _

theorem recordActivity_calm (id : Text) (now : Time) : Calm board (recordActivity board id now).2 := by
  rw [recordActivity]
  split
  · exact calm_of_dispatches _ _
  · split
    · exact (calm_of_dispatches _ _).trans (calm_of_move (setStatus_keeps .dispatched) fun _ => TaskStatus.noConfusion)
    · exact .refl board

/-- A failed start stalls the task when it is the third. -/
theorem failStartup_effect (sound : Sound board) (done : failStartup board id = some board') :
    Effect board (stalls board (.failStartup id)) board' := by
  obtain ⟨dispatch, found, done⟩ := of_bind done
  split at done
  · cases done
    exact (Calm.refl board).effect _
  · obtain ⟨awaiting, done⟩ := of_when done
    cases done
    have keeps : KeepsTask Task.startupFailed := ⟨fun _ => rfl, fun _ => rfl, fun _ => rfl⟩
    refine effect_of_stalled (fun other stalled => ?_) rfl
    obtain same | ⟨task, member, rfl, selected, -, status⟩ :=
      status?_updateTasks board (·.id = dispatch.taskId) keeps other
    · exact .inl (same.symm.trans stalled)
    · -- the row that is updated is the one `stalls` has read
      have third : 3 ≤ task.startupFailureCount + 1 := by
        by_contra fewer
        have isStalled := Option.mem_unique status stalled
        rw [Task.startupFailed, if_neg fewer] at isStalled
        cases isStalled
      have isTask := of_decide_eq_true selected
      have here : board.task? dispatch.taskId = some task := by
        rw [← isTask]
        exact lookup_of_mem sound.graph.unique member
      have reads : stalls board (.failStartup id) = [dispatch.taskId] := by
        simp only [stalls, found, awaiting, here, Option.any_some, decide_eq_true third, decide_true,
          Bool.and_self, if_pos]
      rw [reads, isTask]
      exact .inr mem_cons_self

variable {changed : Text} {P : Board → Prop}

/-- A refresh moves tasks to ready or fails them, one at a time. -/
theorem refreshPass_induct (ready : ∀ now id, P now → P (now.updateTask id (Task.setStatus .ready)))
    (failed : ∀ now id changed, P now → P (now.updateTask id (Task.dependencyFailed changed)))
    {rows : List Task} {done pushed : List Text}
    (passed : refreshPass changed rows done board = some (pushed, board')) (start : P board) :
    P board' := by
  induction rows generalizing done board with
  | nil =>
    cases passed
    exact start
  | cons candidate rows ih =>
    rw [refreshPass] at passed
    split at passed
    · split at passed
      · cases passed
      · exact ih passed (ready _ _ start)
      · exact ih passed (failed _ _ _ start)
      · exact ih passed start
    · exact ih passed start

theorem refreshDependents_induct
    (ready : ∀ now id, P now → P (now.updateTask id (Task.setStatus .ready)))
    (failed : ∀ now id changed, P now → P (now.updateTask id (Task.dependencyFailed changed)))
    (done : refreshDependents board changed = some board') (start : P board) : P board' :=
  Worklist.drain_invariant (fun _ now => P now)
    (fun _ _ _ _ _ now passed => refreshPass_induct ready failed passed now) _ _ _ _ start done

theorem dependencyFailed_keeps (changed : Text) : KeepsTask (Task.dependencyFailed changed) :=
  ⟨fun _ => rfl, fun _ => rfl, fun _ => rfl⟩

theorem refreshDependents_calm (done : refreshDependents board changed = some board') :
    Calm board board' :=
  refreshDependents_induct (P := Calm board)
    (fun _ _ calm => calm.trans (calm_of_move (setStatus_keeps .ready) fun _ => nofun))
    (fun _ _ changed calm => calm.trans (calm_of_move (dependencyFailed_keeps changed) fun _ => nofun))
    done (.refl board)

theorem failDispatch_calm {result : Option Text} (done : failDispatch board id result = some board') :
    Calm board board' := by
  obtain ⟨dispatch, -, done⟩ := of_bind done
  refine (calm_of_dispatches (·.id = id) Dispatch.fail).trans ?_
  split at done
  · exact (calm_of_move (outcome_keeps result .failed) fun _ => nofun).trans (refreshDependents_calm done)
  · cases done
    exact calm_of_move (outcome_keeps result .ready) fun _ => nofun

theorem completeDispatch_calm {result : Text} {accepted : Bool}
    (done : completeDispatch board id handle result accepted now = some board') :
    Calm board board' := by
  obtain rfl | ⟨dispatch, -, -, refreshes⟩ := completeDispatch_some done
  · exact .refl _
  · exact (calm_of_dispatches _ _).trans ((calm_of_move (outcome_keeps (some result) .completed)
      fun _ => nofun).trans (refreshDependents_calm refreshes))

/-- The gate of a blocked task is not about a stall. -/
theorem createGate_effect {options : List Text} (stalls : List Text)
    (done : createGate board id taskId options = some board') : Effect board stalls board' := by
  obtain ⟨status, -, -, fresh, rfl⟩ := createGate_some done
  refine effect_of_insert stalls (fun other stalled => ?_) fresh rfl nofun
  exact stalled_of_move (setStatus_keeps .blocked) (fun _ => nofun) stalled

/-- An answer leaves a live gate live. -/
theorem resolveGate_calm {decision : Text} (done : resolveGate board id decision now = some board') :
    Calm board board' := by
  obtain ⟨gate, _, _, _, done⟩ := of_bind₂ done
  cases done
  have live : ∀ row ∈ board.gates, (decide (row.id = id) && decide (row.status = .pending)) = true →
      (row.resolve decision now).live = true → row.live = true := by
    intro row _ selected isLive
    simp only [Bool.and_eq_true, decide_eq_true_eq] at selected
    rw [Gate.live, Bool.and_eq_true] at isLive
    have isStall : row.kind = .stall := of_decide_eq_true isLive.1
    simp [Gate.live, isStall, selected.2]
  split
  · refine calm_of_gates (fun other stalled => ?_) rfl (fun _ => rfl) (fun _ => rfl) live
    exact stalled_of_move (setStatus_keeps .ready) (fun _ => nofun) stalled
  · exact calm_of_gates (fun _ stalled => stalled) rfl (fun _ => rfl) (fun _ => rfl) live

theorem cancelTask_calm {reason : Text} (done : cancelTask board id reason = some board') :
    Calm board board' := by
  obtain rfl | ⟨ids, -, -, -, -, rfl⟩ := cancelTask_some done
  · exact .refl _
  · refine calm_of_gates (fun other stalled => ?_) rfl (fun _ => rfl) (fun _ => rfl) fun gate _ _ live => ?_
    · exact stalled_of_move (cancelWith_keeps id reason) (fun _ => nofun) stalled
    · simp [Gate.live] at live

theorem recoverStalled_calm {reason : Text} {status : TaskStatus}
    (done : recoverStalled board id status reason = some board') : Calm board board' := by
  obtain ⟨-, outcome⟩ := recoverStalled_some done
  obtain cancelled | rfl | ⟨next, refreshes, rfl⟩ := outcome
  · exact cancelTask_calm cancelled
  · exact (calm_of_move (outcome_keeps (some reason) .ready) fun _ => nofun).trans (calm_of_dispatches _ _)
  · have calm := (calm_of_move (outcome_keeps (some reason) .failed) fun _ => nofun).trans
      (refreshDependents_calm refreshes)
    exact calm.trans (calm_of_dispatches _ _)

/-- The gate of a stall is opened while the task is stalled. -/
theorem createStallGate_effect (stalls : List Text)
    (done : createStallGate board id taskId = some board') : Effect board stalls board' := by
  obtain ⟨stalled, rfl | ⟨fresh, rfl⟩⟩ := createStallGate_some done
  · exact (Calm.refl _).effect stalls
  · exact effect_of_insert stalls (fun _ still => still) fresh rfl fun _ => stalled

theorem resolveStallGateAsResumed_calm (taskId : Text) (now : Time) :
    Calm board (resolveStallGateAsResumed board taskId now) := by
  rw [resolveStallGateAsResumed]
  split
  · exact .refl board
  · refine calm_of_gates (fun _ stalled => stalled) rfl (fun _ => rfl) (fun _ => rfl) fun gate _ _ live => ?_
    simp [Gate.live, Gate.resolve] at live

theorem actOnGate_calm (now : Time) (gate : Gate) : Calm board (actOnGate now board gate) := by
  have getD : ∀ next : Option Board, (∀ board', next = some board' → Calm board board') →
      Calm board (next.getD board) := by
    intro next each
    cases next with
    | none => exact .refl board
    | some board' => exact each board' rfl
  rw [actOnGate]
  split
  · rw [failoverStalledDispatch]
    split
    · exact .refl board
    · split
      · exact getD _ fun _ done => recoverStalled_calm done
      · exact .refl board
  · split
    · exact (calm_of_dispatches _ _).trans (calm_of_move (setStatus_keeps .dispatched) fun _ => TaskStatus.noConfusion)
    · split
      · exact getD _ fun _ done => cancelTask_calm done
      · exact .refl board

theorem processStallDecisions_calm (now : Time) : Calm board (processStallDecisions board now) := by
  rw [processStallDecisions]
  generalize resolvedStallGates board = gates
  induction gates generalizing board with
  | nil => exact .refl board
  | cons gate gates ih =>
    exact (actOnGate_calm now gate).trans ih

/-- The sweep stalls the tasks of the dispatches it has read. -/
theorem stallExpired_effect (board : Board) (threshold : Time) :
    Effect board (stalls board (.stallExpired threshold)) (stallExpired board threshold) := by
  rw [stalls, stallExpired]
  generalize board.expiredDispatches threshold = expired
  have gates : ∀ now : Board, (expired.foldl stallDispatch now).gates = now.gates := by
    induction expired with
    | nil => exact fun _ => rfl
    | cons dispatch expired ih => exact fun now => ih (stallDispatch now dispatch)
  have stalled : ∀ (now : Board) (id : Text), (expired.foldl stallDispatch now).status? id = some .stalled →
      now.status? id = some .stalled ∨ id ∈ expired.map Dispatch.taskId := by
    clear gates
    induction expired with
    | nil => exact fun _ _ stalled => .inl stalled
    | cons dispatch expired ih =>
      intro now id stalled
      rw [map_cons, mem_cons]
      obtain before | later := ih (stallDispatch now dispatch) id stalled
      · obtain same | ⟨task, -, rfl, selected, -, -⟩ :=
          status?_updateTasks now (·.id = dispatch.taskId) (setStatus_keeps .stalled) id
        · exact .inl (same.symm.trans before)
        · exact .inr (.inl (of_decide_eq_true selected))
      · exact .inr (.inr later)
  exact effect_of_stalled (stalled board) (gates board)

/-- What a step does to stalls and to their gates. -/
theorem step_effect (sound : Sound board) {event : TaskEvent} (stepped : step board event = some board') :
    Effect board (stalls board event) board' := by
  cases event with
  | createTask id new => exact (createTask_calm sound stepped).effect _
  | createDispatch id taskId handle token now => exact (createDispatch_calm stepped).effect _
  | accept id handle token now => exact (acceptDispatch_calm stepped).effect _
  | activity id now =>
    cases stepped
    exact (recordActivity_calm id now).effect _
  | failStartup id => exact failStartup_effect sound stepped
  | failDispatch id result =>
    rw [step] at stepped
    split at stepped
    · exact (failDispatch_calm stepped).effect _
    · cases stepped
  | complete id handle result accepted now => exact (completeDispatch_calm stepped).effect _
  | createGate id taskId options => exact createGate_effect _ stepped
  | resolveGate id decision now => exact (resolveGate_calm stepped).effect _
  | stallExpired threshold =>
    cases stepped
    exact stallExpired_effect board threshold
  | cancel id reason => exact (cancelTask_calm stepped).effect _
  | recover id status reason => exact (recoverStalled_calm stepped).effect _
  | openStallGate id taskId => exact createStallGate_effect _ stepped
  | resumeGate taskId now =>
    cases stepped
    exact (resolveStallGateAsResumed_calm taskId now).effect _
  | processStallDecisions now =>
    cases stepped
    exact (processStallDecisions_calm now).effect _

end Effects

/-! ## Times -/

/-- The board, and when what happened on it. -/
structure Tracked where
  board : Board
  /-- How many steps there have been. -/
  clock : Nat
  /-- When a task last became stalled. -/
  entered : Text → Option Nat
  /-- When a gate was opened. -/
  opened : Text → Option Nat

namespace Tracked

def empty (isolated : List Text) : Tracked := ⟨Board.empty isolated, 0, fun _ => none, fun _ => none⟩

def next (m : Tracked) (board : Board) : Tracked where
  board
  clock := m.clock + 1
  entered id :=
    if board.status? id = some .stalled && m.board.status? id ≠ some .stalled then some m.clock
    else m.entered id
  opened id :=
    if board.gates.any (·.id = id) && !m.board.gates.any (·.id = id) then some m.clock else m.opened id

def step (m : Tracked) (event : TaskEvent) : Option Tracked := (Tasks.step m.board event).map m.next

end Tracked

/-- The stall gates that `coordinator_process_stall_decisions` acts on. -/
def decidedGates (board : Board) : List Gate :=
  (resolvedStallGates board).filter fun gate => gate.resolution.any stallGateOptions.contains

/-- The gate was opened after its task last became stalled. -/
def Answers (m : Tracked) (gate : Gate) : Prop :=
  ∃ entered opened, m.entered gate.taskId = some entered ∧ m.opened gate.id = some opened ∧ entered < opened

/-- No task stalls while one of its stall gates is live. -/
def StallsAfresh (m : Tracked) (event : TaskEvent) : Prop :=
  ∀ taskId ∈ stalls m.board event, m.board.status? taskId = some .stalled ∨
    ∀ gate ∈ m.board.gates, gate.taskId = taskId → gate.live = false

instance (m : Tracked) (event : TaskEvent) : Decidable (StallsAfresh m event) :=
  inferInstanceAs (Decidable (∀ taskId ∈ stalls m.board event, m.board.status? taskId = some .stalled ∨
    ∀ gate ∈ m.board.gates, gate.taskId = taskId → gate.live = false))

section Times

variable {m later : Tracked} {board : Board}

theorem entered_of_was {id : Text} (was : m.board.status? id = some .stalled) :
    (m.next board).entered id = m.entered id := by
  simp [Tracked.next, was]

theorem entered_of_new {id : Text} (stalled : board.status? id = some .stalled)
    (was : m.board.status? id ≠ some .stalled) : (m.next board).entered id = some m.clock := by
  simp [Tracked.next, stalled, was]

variable {gate : Gate}

theorem opened_of_known (member : gate ∈ m.board.gates) :
    (m.next board).opened gate.id = m.opened gate.id := by
  have known : m.board.gates.any (·.id = gate.id) = true :=
    any_eq_true.mpr ⟨gate, member, decide_eq_true rfl⟩
  simp only [Tracked.next, known, Bool.not_true, Bool.and_false, Bool.false_eq_true, if_false]

theorem opened_of_fresh (member : gate ∈ board.gates)
    (fresh : ∀ old ∈ m.board.gates, old.id ≠ gate.id) :
    (m.next board).opened gate.id = some m.clock := by
  have isThere : board.gates.any (·.id = gate.id) = true :=
    any_eq_true.mpr ⟨gate, member, decide_eq_true rfl⟩
  have unknown : m.board.gates.any (·.id = gate.id) = false := by
    simpa using fresh
  simp only [Tracked.next, isThere, unknown, Bool.not_false, Bool.and_self, if_true]

/-- What holds of the times while no task stalls under a live gate. -/
structure Timely (m : Tracked) : Prop where
  sound : Sound m.board
  unique : (m.board.gates.map Gate.id).Nodup
  opened : ∀ gate ∈ m.board.gates, ∃ time, m.opened gate.id = some time ∧ time < m.clock
  entered : ∀ id, m.board.status? id = some .stalled → ∃ time, m.entered id = some time ∧ time < m.clock
  answers : ∀ gate ∈ m.board.gates, gate.live = true → m.board.status? gate.taskId = some .stalled →
    Answers m gate

theorem empty_timely (isolated : List Text) : Timely (.empty isolated) where
  sound := empty_sound isolated
  unique := nodup_nil
  opened _ member := absurd member not_mem_nil
  entered _ stalled := absurd stalled nofun
  answers _ member := absurd member not_mem_nil

theorem Timely.step (timely : Timely m) {event : TaskEvent} (afresh : StallsAfresh m event)
    (stepped : m.step event = some later) : Timely later := by
  obtain ⟨board, moved, rfl⟩ := of_map stepped
  have effect := step_effect timely.sound moved
  refine ⟨(step_keeps timely.sound moved).sound, effect.unique timely.unique, fun gate member => ?_,
    fun id stalled => ?_, fun gate member live stalled => ?_⟩
  · obtain ⟨old, memberOld, id, -, -⟩ | ⟨fresh, -⟩ := effect.gates gate member
    · obtain ⟨time, opened, before⟩ := timely.opened old memberOld
      refine ⟨time, ?_, Nat.lt_succ_of_lt before⟩
      rw [← id, opened_of_known memberOld, opened]
    · exact ⟨m.clock, opened_of_fresh member fresh, Nat.lt_succ_self _⟩
  · by_cases was : m.board.status? id = some .stalled
    · obtain ⟨time, entered, before⟩ := timely.entered id was
      refine ⟨time, ?_, Nat.lt_succ_of_lt before⟩
      rw [entered_of_was was, entered]
    · exact ⟨m.clock, entered_of_new stalled was, Nat.lt_succ_self _⟩
  · obtain ⟨old, memberOld, id, task, wasLive⟩ | ⟨fresh, whileStalled⟩ := effect.gates gate member
    · have was : m.board.status? gate.taskId = some .stalled := by
        obtain was | stalling := effect.stalled gate.taskId stalled
        · exact was
        · -- a task that stalls now has no live gate
          refine (afresh gate.taskId stalling).resolve_right fun quiet => ?_
          have dead := quiet old memberOld task
          rw [wasLive live] at dead
          cases dead
      obtain ⟨entered, opened, isEntered, isOpened, order⟩ :=
        timely.answers old memberOld (wasLive live) (task.symm ▸ was)
      refine ⟨entered, opened, ?_, ?_, order⟩
      · rw [entered_of_was was, ← task, isEntered]
      · rw [← id, opened_of_known memberOld, isOpened]
    · have was := whileStalled live
      obtain ⟨time, entered, before⟩ := timely.entered gate.taskId was
      refine ⟨time, m.clock, ?_, opened_of_fresh member fresh, before⟩
      rw [entered_of_was was, entered]

/-- What later steps leave of the times. -/
structure Since (m later : Tracked) : Prop where
  clock : m.clock ≤ later.clock
  entered : ∀ id, later.entered id = m.entered id ∨
    ∃ time, later.entered id = some time ∧ m.clock ≤ time
  opened : ∀ gate ∈ m.board.gates, later.opened gate.id = m.opened gate.id
  kept : ∀ gate ∈ m.board.gates, ∃ row ∈ later.board.gates, row.id = gate.id ∧ row.taskId = gate.taskId

theorem Since.refl (m : Tracked) : Since m m :=
  ⟨Nat.le_refl _, fun _ => .inl rfl, fun _ _ => rfl, fun gate member => ⟨gate, member, rfl, rfl⟩⟩

theorem Since.step {after : Tracked} (since : Since m later) (sound : Sound later.board)
    {event : TaskEvent} (stepped : later.step event = some after) : Since m after := by
  obtain ⟨board, moved, rfl⟩ := of_map stepped
  have effect := step_effect sound moved
  refine ⟨Nat.le_succ_of_le since.clock, fun id => ?_, fun gate member => ?_, fun gate member => ?_⟩
  · by_cases enters : board.status? id = some .stalled ∧ later.board.status? id ≠ some .stalled
    · exact .inr ⟨later.clock, entered_of_new enters.1 enters.2, since.clock⟩
    · have same : (later.next board).entered id = later.entered id := by
        simp only [Tracked.next, Bool.and_eq_true, decide_eq_true_eq, if_neg enters]
      rw [same]
      exact since.entered id
  · obtain ⟨row, memberRow, id, -⟩ := since.kept gate member
    rw [← since.opened gate member, ← id, opened_of_known memberRow]
  · obtain ⟨row, memberRow, id, task⟩ := since.kept gate member
    obtain ⟨next, memberNext, id', task'⟩ := effect.kept row memberRow
    exact ⟨next, memberNext, id'.trans id, task'.trans task⟩

/-- A gate that is acted on is live, and its task stalled. -/
theorem mem_decidedGates {board : Board} (decided : gate ∈ decidedGates board) :
    gate ∈ board.gates ∧ gate.live = true ∧ board.status? gate.taskId = some .stalled := by
  have sorted := (mem_filter.mp decided).1
  rw [resolvedStallGates, mem_insertionSort] at sorted
  obtain ⟨member, selected⟩ := mem_filter.mp sorted
  simp only [Board.selectsGate, Bool.and_eq_true, decide_eq_true_eq] at selected
  obtain ⟨⟨⟨kind, status⟩, stalled⟩, decision⟩ := selected
  refine ⟨member, ?_, stalled⟩
  rw [Gate.live, kind, status, decision]
  rfl

/-- **A decision answers the current stall.**  In a run in which no task stalls while one of its
stall gates is live, every gate that is acted on was opened after its task last became stalled, and
a gate that is acted on again later is acted on in the same stall. -/
theorem decisions_answer_their_stall (isolated : List Text) (events more : List TaskEvent)
    (m later : Tracked) (guarded : Guarded Tracked.step StallsAfresh (.empty isolated) (events ++ more))
    (ran : run Tracked.step (.empty isolated) events = some m)
    (ranMore : run Tracked.step m more = some later) :
    (∀ gate ∈ decidedGates m.board, Answers m gate) ∧
      ∀ gate ∈ decidedGates m.board, ∀ again ∈ decidedGates later.board, again.id = gate.id →
        again.taskId = gate.taskId ∧ later.entered gate.taskId = m.entered gate.taskId := by
  obtain ⟨guardedFirst, guardedMore⟩ := guarded.append ran
  have timely : Timely m := run_invariant_of_guarded Timely
    (fun _ _ _ before afresh stepped => before.step afresh stepped) events _ m guardedFirst
    (empty_timely isolated) ran
  have timelySince : Timely later ∧ Since m later := run_invariant_of_guarded
    (fun now => Timely now ∧ Since m now)
    (fun _ _ _ before afresh stepped =>
      ⟨before.1.step afresh stepped, before.2.step before.1.sound stepped⟩)
    more m later guardedMore ⟨timely, .refl m⟩ ranMore
  obtain ⟨timelyLater, since⟩ := timelySince
  refine ⟨fun gate decided => ?_, fun gate decided again decidedAgain same => ?_⟩
  · obtain ⟨member, live, stalled⟩ := mem_decidedGates decided
    exact timely.answers gate member live stalled
  · obtain ⟨member, -, -⟩ := mem_decidedGates decided
    obtain ⟨memberAgain, live, stalled⟩ := mem_decidedGates decidedAgain
    obtain ⟨row, memberRow, id, task⟩ := since.kept gate member
    have isRow : again = row := eq_of_key timelyLater.unique memberAgain memberRow (same.trans id.symm)
    have sameTask : again.taskId = gate.taskId := by rw [isRow, task]
    refine ⟨sameTask, ?_⟩
    obtain ⟨entered, opened, isEntered, isOpened, order⟩ :=
      timelyLater.answers again memberAgain live stalled
    obtain ⟨time, openedThen, before⟩ := timely.opened gate member
    rw [same, since.opened gate member, openedThen] at isOpened
    -- the gate was open before the first decision, so the stall it answers had begun
    obtain unchanged | ⟨restart, isRestart, notBefore⟩ := since.entered gate.taskId
    · exact unchanged
    · rw [sameTask, isRestart] at isEntered
      have := Option.some.inj isEntered
      have := Option.some.inj isOpened
      omega

end Times

/-! ## A stale decision -/

/-- A task is handed out, accepted and stalled; the person asked chooses to fail over. -/
def firstStall : List TaskEvent :=
  [.createTask "task".toList ⟨[], none, false⟩,
    .createDispatch "first".toList "task".toList "one".toList none 1,
    .accept "first".toList "one".toList "token".toList 1, .stallExpired 2,
    .openStallGate "gate".toList "task".toList, .resolveGate "gate".toList killAndFailover 3]

theorem decisions_answer_their_stall_first : ∃ m, run Tracked.step (.empty []) firstStall = some m ∧
    ∃ gate ∈ decidedGates m.board, gate.resolution = some killAndFailover ∧ Answers m gate := by
  have guarded : Guarded Tracked.step StallsAfresh (.empty []) (firstStall ++ []) := by decide +kernel
  have ran : (run Tracked.step (.empty []) firstStall).map (fun m =>
      (decidedGates m.board).any fun gate => gate.resolution = some killAndFailover) = some true := by
    decide +kernel
  obtain ⟨m, ran, acted⟩ := of_map ran
  obtain ⟨gate, decided, resolution⟩ := any_eq_true.mp acted
  exact ⟨m, ran, gate, decided, of_decide_eq_true resolution,
    (decisions_answer_their_stall [] firstStall [] m m guarded ran rfl).1 gate decided⟩

/-- The failover is carried out; the task is handed to another worker, which stalls too. -/
def secondStall : List TaskEvent :=
  firstStall ++ [.processStallDecisions 4,
    .createDispatch "second".toList "task".toList "two".toList none 5,
    .accept "second".toList "two".toList "token".toList 5, .stallExpired 6,
    .openStallGate "question".toList "task".toList]

/-- The sweep that opens the second question acts on the answer to the first, and the second worker
is failed over with its question pending. -/
theorem stale_decision_fails_over : ∃ m, run Tracked.step (.empty []) secondStall = some m ∧
    (∃ gate ∈ decidedGates m.board, gate.id = "gate".toList ∧ ¬ Answers m gate) ∧
    (lookup Gate.id "question".toList m.board.gates).any (·.status = .pending) = true ∧
    m.board.status? "task".toList = some .stalled ∧
    (processStallDecisions m.board 6).status? "task".toList = some .ready := by
  have ran : (run Tracked.step (.empty []) secondStall).map (fun m =>
      (decidedGates m.board).any (fun gate => gate.id = "gate".toList && gate.taskId = "task".toList) &&
        m.entered "task".toList = some 9 && m.opened "gate".toList = some 4 &&
        (lookup Gate.id "question".toList m.board.gates).any (·.status = .pending) &&
        m.board.status? "task".toList = some .stalled &&
        (processStallDecisions m.board 6).status? "task".toList = some .ready) = some true := by
    decide +kernel
  obtain ⟨m, ran, holds⟩ := of_map ran
  simp only [Bool.and_eq_true, decide_eq_true_eq] at holds
  obtain ⟨⟨⟨⟨⟨acted, entered⟩, opened⟩, pending⟩, stalled⟩, ready⟩ := holds
  obtain ⟨gate, decided, isGate⟩ := any_eq_true.mp acted
  rw [Bool.and_eq_true, decide_eq_true_eq, decide_eq_true_eq] at isGate
  refine ⟨m, ran, ⟨gate, decided, isGate.1, ?_⟩, pending, stalled, ready⟩
  rintro ⟨when', since, isEntered, isOpened, order⟩
  rw [isGate.2, entered] at isEntered
  rw [isGate.1, opened] at isOpened
  have := Option.some.inj isEntered
  have := Option.some.inj isOpened
  omega

/-! ## The lease sweep among other writers

`stall_expired_orchestration_dispatches` reads the dispatches whose lease ran out and then
stalls them one transaction at a time; workers report, fail and are cancelled in between.
Each transaction looks again at the status of its dispatch before it stalls it, but stalls
the task in any case, and neither looks at the lease again.
-/

/-- A sweep under way: the dispatches it has read and not come to yet. -/
structure Sweep where
  board : Board
  contexts : List Dispatch
  deriving DecidableEq

inductive SweepEvent where
  /-- The sweep reads the expired dispatches. -/
  | select (threshold : Time)
  /-- The transaction of the next of them. -/
  | stall
  | activity (id : Text) (now : Time)
  | complete (id handle result : Text) (accepted : Bool) (now : Time)
  | failDispatch (id : Text) (result : Option Text)
  | cancel (id reason : Text)

namespace Sweep

def step (s : Sweep) : SweepEvent → Option Sweep
  | .select threshold => some { s with contexts := s.board.expiredDispatches threshold }
  | .stall =>
    match s.contexts with
    | [] => none
    | context :: rest => some ⟨stallDispatch s.board context, rest⟩
  | .activity id now => some { s with board := (recordActivity s.board id now).2 }
  | .complete id handle result accepted now =>
    (completeDispatch s.board id handle result accepted now).map ({ s with board := · })
  | .failDispatch id result => (failDispatch s.board id result).map ({ s with board := · })
  | .cancel id reason => (cancelTask s.board id reason).map ({ s with board := · })

end Sweep

/-- The dispatch has shown activity since it was read. -/
def Renewed (board : Board) (context : Dispatch) : Prop :=
  ∃ row ∈ board.dispatches, row.id = context.id ∧ row.lastActivityAt ≠ context.lastActivityAt

/-- A task is stalled only together with one of its dispatches, and not after a renewal. -/
structure KeepsOutcomes (s s' : Sweep) : Prop where
  together : ∀ id, s'.board.status? id = some .stalled → s.board.status? id ≠ some .stalled →
    ∃ (i : Nat) (dispatch : Dispatch), s.board.dispatches[i]? = some dispatch ∧ dispatch.taskId = id ∧
      dispatch.status = .dispatched ∧
      s'.board.dispatches[i]? = some { dispatch with status := .stalled }
  renewed : ∀ context, s.contexts.head? = some context → Renewed s.board context →
    s'.board.status? context.taskId = some .stalled → s.board.status? context.taskId = some .stalled

/-- The next dispatch is still as it was read, or its task cannot be stalled any more. -/
def StillStale (s : Sweep) : SweepEvent → Prop
  | .stall => ∀ context, s.contexts.head? = some context →
      (s.board.status? context.taskId = none ∨ s.board.status? context.taskId = some .stalled) ∨
        (∃ row ∈ s.board.dispatches, row.id = context.id ∧ row.taskId = context.taskId ∧
          row.status = .dispatched) ∧ ¬ Renewed s.board context
  | _ => True

section Sweep

variable {s s' : Sweep}

theorem keepsOutcomes_of_calm (calm : Calm s.board s'.board) : KeepsOutcomes s s' :=
  ⟨fun id stalled was => absurd (calm.stalled id stalled) was, fun _ _ _ => calm.stalled _⟩

/-- What the transaction of one dispatch does to the tasks. -/
theorem status?_stallDispatch (board : Board) (context : Dispatch) (id : Text) :
    (stallDispatch board context).status? id =
      if id = context.taskId then (board.status? id).map fun _ => .stalled else board.status? id := by
  rw [stallDispatch, status?_updateTask _ (setStatus_keeps .stalled)]
  split
  · rw [Board.status?, Option.map_map]
    rfl
  · rfl

theorem getElem?_stallDispatch (board : Board) (context : Dispatch) (i : Nat) :
    (stallDispatch board context).dispatches[i]? = board.dispatches[i]?.map fun row =>
      if row.id = context.id ∧ row.status = .dispatched then { row with status := .stalled } else row := by
  simp [stallDispatch, Board.updateTask, Board.updateTasks, Board.updateDispatches, updateWhere]

theorem stallDispatch_keeps_iff {context : Dispatch} {rest : List Dispatch}
    (contexts : s.contexts = context :: rest) :
    KeepsOutcomes s ⟨stallDispatch s.board context, rest⟩ ↔ StillStale s .stall := by
  simp only [StillStale, contexts, List.head?_cons, Option.some.injEq, forall_eq']
  constructor
  · intro keeps
    cases status : s.board.status? context.taskId with
    | none => exact .inl (.inl rfl)
    | some was =>
      by_cases already : was = .stalled
      · exact .inl (.inr (already ▸ rfl))
      have before : s.board.status? context.taskId ≠ some .stalled := by simpa [status] using already
      have after : (stallDispatch s.board context).status? context.taskId = some .stalled := by
        simp [status?_stallDispatch, status]
      obtain ⟨i, row, here, task, dispatched, moved⟩ := keeps.together _ after before
      rw [getElem?_stallDispatch, here, Option.map_some, Option.some.injEq] at moved
      have selected : row.id = context.id := by
        by_contra other
        rw [if_neg fun both => other both.1] at moved
        simpa [dispatched] using congrArg Dispatch.status moved
      refine .inr ⟨⟨row, List.mem_of_getElem? here, selected, task, dispatched⟩, fun renewed => ?_⟩
      exact before (keeps.renewed context (by rw [contexts]; rfl) renewed after)
  · intro still
    refine ⟨fun id stalled was => ?_, fun other head renewed stalled => ?_⟩
    · obtain rfl : id = context.taskId := by
        by_contra other
        rw [status?_stallDispatch, if_neg other] at stalled
        exact was stalled
      obtain gone | ⟨⟨row, member, same, task, dispatched⟩, -⟩ := still
      · simp [status?_stallDispatch, gone.resolve_right was] at stalled
      · obtain ⟨i, here⟩ := List.getElem?_of_mem member
        refine ⟨i, row, here, task, dispatched, ?_⟩
        rw [getElem?_stallDispatch, here, Option.map_some, if_pos ⟨same, dispatched⟩]
    · obtain rfl : context = other := by simpa [contexts] using head
      obtain gone | ⟨-, fresh⟩ := still
      · exact gone.resolve_left fun gone => by simp [status?_stallDispatch, gone] at stalled
      · exact absurd renewed fresh

/-- **The sweep overwrites no outcome as long as every dispatch it comes to is still as it was
read.** -/
theorem sweep_keepsOutcomes_iff {event : SweepEvent} (stepped : s.step event = some s') :
    KeepsOutcomes s s' ↔ StillStale s event := by
  cases event with
  | select threshold =>
    cases stepped
    exact iff_of_true (keepsOutcomes_of_calm (.refl _)) trivial
  | stall =>
    rw [Sweep.step] at stepped
    split at stepped
    · cases stepped
    next contexts =>
      cases stepped
      exact stallDispatch_keeps_iff contexts
  | activity id now =>
    cases stepped
    exact iff_of_true (keepsOutcomes_of_calm (recordActivity_calm id now)) trivial
  | complete id handle result accepted now =>
    obtain ⟨board, done, rfl⟩ := of_map stepped
    exact iff_of_true (keepsOutcomes_of_calm (completeDispatch_calm done)) trivial
  | failDispatch id result =>
    obtain ⟨board, done, rfl⟩ := of_map stepped
    exact iff_of_true (keepsOutcomes_of_calm (failDispatch_calm done)) trivial
  | cancel id reason =>
    obtain ⟨board, done, rfl⟩ := of_map stepped
    exact iff_of_true (keepsOutcomes_of_calm (cancelTask_calm done)) trivial

end Sweep

/-- A task at work whose lease has run out, read by a sweep. -/
def expired : Sweep :=
  let dispatch : Dispatch :=
    ⟨"d".toList, "t".toList, some "w".toList, .dispatched, 0, none, some 1, some 1, some 1⟩
  ⟨⟨[⟨"t".toList, [], none, .dispatched, none, 0, false⟩], [dispatch], [], []⟩, [dispatch]⟩

theorem sweep_keepsOutcomes_iff_expired :
    ∃ s', expired.step .stall = some s' ∧ s'.board.status? "t".toList = some .stalled ∧
      (KeepsOutcomes expired s' ↔ StillStale expired .stall) :=
  ⟨_, rfl, by decide +kernel, sweep_keepsOutcomes_iff rfl⟩

/-- The worker reports its result before the sweep comes to its dispatch: the completed task is
stalled, and no dispatch with it. -/
theorem completed_task_stalled : ∃ s s',
    expired.step (.complete "d".toList "w".toList "done".toList true 2) = some s ∧
      s.board.status? "t".toList = some .completed ∧ s.step .stall = some s' ∧
      s'.board.status? "t".toList = some .stalled ∧ s'.board.dispatches = s.board.dispatches :=
  ⟨_, _, rfl, by decide +kernel, rfl, by decide +kernel, by decide +kernel⟩

end Alera.Orchestration.Tasks
