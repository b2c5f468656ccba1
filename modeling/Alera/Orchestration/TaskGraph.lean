/-
# Alera.Orchestration.TaskGraph -- dependencies hold across every operation

What holds of the board after every operation on tasks, dispatches and gates.

A task that has started (ready or later, not failed and not cancelled) has all its
dependencies completed.  A pending task outside isolated runs has none that failed or
was cancelled, and one that is not completed: it waits for something that can still
happen.  An active dispatch belongs to a task that is dispatched or stalled, and no
task and no terminal has two.

`Graph exempt` is the part about tasks, with the pending tasks that still have to be
looked at exempted: between a change of status and the refresh that follows it, those are
the dependents of the changed task, and during the refresh the dependents of what is on
its stack.  `Advances` says which updates of tasks keep it.  A cancellation changes
many tasks at once and is closed under dependents.
-/
import Alera.Orchestration.TaskBoard
import Alera.Theory.Runs

namespace Alera.Orchestration.Tasks

open Theory List Tables Worklist
open Board (status? task? updateTask updateTasks)

set_option autoImplicit false

/-! ## The graph -/

/-- Ready or later, and not broken off. -/
def started : TaskStatus → Bool
  | .ready | .dispatched | .blocked | .stalled | .completed => true
  | .pending | .failed | .cancelled => false

/-- A pending task waits for a dependency that can still be completed. -/
structure Waits (board : Board) (task : Task) : Prop where
  unbroken : ∀ dep ∈ task.deps,
    board.status? dep ≠ some .failed ∧ board.status? dep ≠ some .cancelled
  incomplete : ∃ dep ∈ task.deps, board.status? dep ≠ some .completed

structure Graph (exempt : Task → Prop) (board : Board) : Prop where
  unique : (board.tasks.map Task.id).Nodup
  known : ∀ task ∈ board.tasks, task.status = .pending → ∀ dep ∈ task.deps, (board.status? dep).isSome
  started : ∀ task ∈ board.tasks, started task.status = true →
    ∀ dep ∈ task.deps, board.status? dep = some .completed
  uncancelled : ∀ task ∈ board.tasks, board.isolatedTask task = false → task.status = .pending →
    ∀ dep ∈ task.deps, board.status? dep ≠ some .cancelled
  waits : ∀ task ∈ board.tasks, board.isolatedTask task = false → task.status = .pending →
    ¬ exempt task → Waits board task

/-- The columns of a task that updates of its status leave alone. -/
structure KeepsTask (set : Task → Task) : Prop where
  id : ∀ task, (set task).id = task.id
  deps : ∀ task, (set task).deps = task.deps
  runId : ∀ task, (set task).runId = task.runId

theorem setStatus_keeps (status : TaskStatus) : KeepsTask (Task.setStatus status) :=
  ⟨fun _ => rfl, fun _ => rfl, fun _ => rfl⟩

theorem open_ne {status : TaskStatus} (isOpen : terminal status = false) :
    status ≠ .completed ∧ status ≠ .failed ∧ status ≠ .cancelled := by
  refine ⟨?_, ?_, ?_⟩
  all_goals
    rintro rfl
    cases isOpen

section Updates

variable {board : Board} {selects : Task → Bool} {set : Task → Task} {exempt exempt' : Task → Prop}

/-- What an update does to the status of a task. -/
theorem status?_updateTasks (board : Board) (selects : Task → Bool) (keeps : KeepsTask set) (id : Text) :
    (board.updateTasks selects set).status? id = board.status? id ∨
      ∃ task ∈ board.tasks, task.id = id ∧ selects task = true ∧
        board.status? id = some task.status ∧
        (board.updateTasks selects set).status? id = some (set task).status := by
  rw [status?, task?, updateTasks, lookup_map_updateWhere keeps.id, status?,
    task?]
  cases found : lookup Task.id id board.tasks with
  | none => exact .inl rfl
  | some task =>
    cases selected : selects task with
    | false =>
      refine .inl ?_
      rw [Option.map_some, selected]
      rfl
    | true =>
      refine .inr ⟨task, (lookup_some found).1, (lookup_some found).2, selected, rfl, ?_⟩
      rw [Option.map_some, selected]
      rfl

theorem status?_updateTask (board : Board) (keeps : KeepsTask set) (id id' : Text) :
    (board.updateTask id set).status? id' =
      if id' = id then (board.task? id').map fun task => (set task).status else board.status? id' := by
  rw [status?, task?, updateTask, updateTasks, lookup_updateWhere keeps.id]
  split
  · exact Option.map_map _ _ _
  · rfl

theorem status?_of_mem (graph : Graph exempt board) {task : Task} (member : task ∈ board.tasks) :
    board.status? task.id = some task.status := by
  rw [status?, task?, lookup_of_mem graph.unique member]
  rfl

/-- Pending tasks that are exempt no longer have to wait for something. -/
theorem Graph.settle (graph : Graph exempt board)
    (waits : ∀ task ∈ board.tasks, board.isolatedTask task = false → task.status = .pending →
      exempt task → ¬ exempt' task → Waits board task) : Graph exempt' board where
  unique := graph.unique
  known := graph.known
  started := graph.started
  uncancelled := graph.uncancelled
  waits task member outside pending notExempt := by
    by_cases was : exempt task
    · exact waits task member outside pending was notExempt
    · exact graph.waits task member outside pending was

/-- An update that moves open tasks forward.  What it completes or fails leaves the pending tasks
that depend on it to be looked at. -/
structure Advances (board : Board) (exempt exempt' : Task → Prop) (selects : Task → Bool)
    (set : Task → Task) : Prop where
  keeps : KeepsTask set
  incomplete : ∀ task ∈ board.tasks, selects task = true → task.status ≠ .completed
  moved : ∀ task ∈ board.tasks, selects task = true →
    (set task).status ≠ .pending ∧ (set task).status ≠ .cancelled
  free : ∀ task ∈ board.tasks, selects task = true → Tasks.started (set task).status = true →
    ∀ dep ∈ task.deps, board.status? dep = some .completed
  exempts : ∀ task ∈ board.tasks, selects task = false → task.status = .pending → ¬ exempt' task →
    ¬ exempt task ∧ ∀ other ∈ board.tasks, selects other = true → other.id ∈ task.deps →
      terminal (set other).status = false

theorem Advances.completed (advances : Advances board exempt exempt' selects set) (id : Text)
    (was : board.status? id = some .completed) :
    (board.updateTasks selects set).status? id = some .completed := by
  obtain same | ⟨task, member, -, selected, status, -⟩ :=
    status?_updateTasks board selects advances.keeps id
  · exact same.trans was
  · exact absurd (Option.mem_unique status was) (advances.incomplete task member selected)

/-- Where what is updated does not stay pending, a pending task was not updated. -/
theorem pending_of_updated {task : Task}
    (moved : ∀ task ∈ board.tasks, selects task = true → (set task).status ≠ .pending)
    (member : task ∈ (board.updateTasks selects set).tasks) (pending : task.status = .pending) :
    task ∈ board.tasks ∧ selects task = false := by
  obtain ⟨old, memberOld, selected, rfl⟩ | ⟨memberOld, kept⟩ := mem_updateWhere_cases member
  · exact absurd pending (moved old memberOld selected)
  · exact ⟨memberOld, Bool.eq_false_iff.mpr kept⟩

theorem Graph.advance (graph : Graph exempt board) (advances : Advances board exempt exempt' selects set) :
    Graph exempt' (board.updateTasks selects set) := by
  have cases := status?_updateTasks board selects advances.keeps
  have completed := advances.completed
  have old := fun {task} => @pending_of_updated _ _ set task fun other memberOther selected =>
    (advances.moved other memberOther selected).1
  refine ⟨?_, fun task member pending dep listed => ?_, fun task member isStarted dep listed => ?_,
    fun task member outside pending dep listed => ?_, fun task member outside pending notExempt => ?_⟩
  · rw [updateTasks, map_updateWhere advances.keeps.id]
    exact graph.unique
  · obtain same | ⟨_, -, -, -, -, status⟩ := cases dep
    · rw [same]
      exact graph.known task (old member pending).1 pending dep listed
    · rw [status]
      rfl
  · obtain ⟨old, memberOld, selected, rfl⟩ | ⟨memberOld, -⟩ := mem_updateWhere_cases member
    · rw [advances.keeps.deps] at listed
      exact completed dep (advances.free old memberOld selected isStarted dep listed)
    · exact completed dep (graph.started task memberOld isStarted dep listed)
  · obtain same | ⟨other, memberOther, -, selected, -, status⟩ := cases dep
    · rw [same]
      exact graph.uncancelled task (old member pending).1 outside pending dep listed
    · rw [status]
      exact fun cancelled => (advances.moved other memberOther selected).2 (Option.some.inj cancelled)
  · obtain ⟨memberOld, kept⟩ := old member pending
    obtain ⟨was, open'⟩ := advances.exempts task memberOld kept pending notExempt
    obtain ⟨unbroken, dep', listed', incomplete⟩ := graph.waits task memberOld outside pending was
    refine ⟨fun dep listed => ?_, dep', listed', ?_⟩
    · obtain same | ⟨other, memberOther, id, selected, -, status⟩ := cases dep
      · rw [same]
        exact unbroken dep listed
      · have nonterminal := open_ne (open' other memberOther selected (id ▸ listed))
        rw [status]
        exact ⟨fun failed => nonterminal.2.1 (Option.some.inj failed),
          fun cancelled => nonterminal.2.2 (Option.some.inj cancelled)⟩
    · obtain same | ⟨other, memberOther, id, selected, -, status⟩ := cases dep'
      · rw [same]
        exact incomplete
      · have nonterminal := open_ne (open' other memberOther selected (id ▸ listed'))
        rw [status]
        exact fun completed => nonterminal.1 (Option.some.inj completed)

/-- The graph reads the tasks and which runs are isolated. -/
theorem Graph.of_same {board' : Board} (graph : Graph exempt board) (tasks : board'.tasks = board.tasks)
    (isolated : board'.isolated = board.isolated) : Graph exempt board' := by
  obtain ⟨_, _, _, _⟩ := board
  cases tasks
  cases isolated
  refine ⟨graph.unique, graph.known, graph.started, graph.uncancelled,
    fun task member outside pending notExempt => ?_⟩
  have waits := graph.waits task member outside pending notExempt
  exact ⟨waits.unbroken, waits.incomplete⟩

/-- Started tasks that stay started and open free and break off nothing. -/
theorem Graph.advances_started (graph : Graph exempt board) (keeps : KeepsTask set)
    (was : ∀ task ∈ board.tasks, selects task = true →
      Tasks.started task.status = true ∧ task.status ≠ .completed)
    (becomes : ∀ task ∈ board.tasks, selects task = true →
      Tasks.started (set task).status = true ∧ terminal (set task).status = false) :
    Advances board exempt exempt selects set := by
  refine ⟨keeps, fun task member selected => (was task member selected).2,
    fun task member selected => ⟨fun pending => ?_, (open_ne (becomes task member selected).2).2.2⟩,
    fun task member selected _ => graph.started task member (was task member selected).1,
    fun task _ _ _ notExempt => ⟨notExempt, fun other member selected _ => (becomes other member selected).2⟩⟩
  have isStarted := (becomes task member selected).1
  rw [pending] at isStarted
  cases isStarted

/-- A started task that is completed or failed leaves its dependents to be looked at. -/
theorem Graph.advances_closed (graph : Graph (fun _ => False) board) {changed : Text} (keeps : KeepsTask set)
    (was : ∀ task ∈ board.tasks, task.id = changed →
      Tasks.started task.status = true ∧ task.status ≠ .completed)
    (becomes : ∀ task, (set task).status = .completed ∨ (set task).status = .failed) :
    Advances board (fun _ => False) (fun task => changed ∈ task.deps) (·.id = changed) set := by
  refine ⟨keeps, fun task member selected => (was task member (of_decide_eq_true selected)).2,
    fun task _ _ => ?_,
    fun task member selected _ => graph.started task member (was task member (of_decide_eq_true selected)).1,
    fun task _ _ _ notExempt => ⟨nofun, fun other _ selected depends => ?_⟩⟩
  · obtain completed | failed := becomes task
    · rw [completed]
      exact ⟨nofun, nofun⟩
    · rw [failed]
      exact ⟨nofun, nofun⟩
  · rw [of_decide_eq_true selected] at depends
    exact absurd depends notExempt

end Updates

/-! ## The status of new tasks -/

section Deps

variable {board : Board} {deps : List Text}

/-- What `status_for_deps` has found, at every status it answers. -/
inductive DepsStatus (board : Board) (deps : List Text) (allCompleted : Bool) : TaskStatus → Prop where
  | ready (all : allCompleted = true) (completed : ∀ dep ∈ deps, board.status? dep = some .completed) :
      DepsStatus board deps allCompleted .ready
  | pending (known : ∀ dep ∈ deps, (board.status? dep).isSome)
      (unbroken : ∀ dep ∈ deps, board.status? dep ≠ some .failed ∧ board.status? dep ≠ some .cancelled)
      (incomplete : allCompleted = false ∨ ∃ dep ∈ deps, board.status? dep ≠ some .completed) :
      DepsStatus board deps allCompleted .pending
  | failed (dep : Text) (listed : dep ∈ deps) (failed : board.status? dep = some .failed) :
      DepsStatus board deps allCompleted .failed
  | cancelled (dep : Text) (listed : dep ∈ deps) (cancelled : board.status? dep = some .cancelled) :
      DepsStatus board deps allCompleted .cancelled

/-- A dependency in front that is not broken off. -/
theorem DepsStatus.cons {dep : Text} {status found : TaskStatus} {all : Bool}
    (is : board.status? dep = some found) (unbroken : found ≠ .failed ∧ found ≠ .cancelled)
    (rest : DepsStatus board deps (all && found = .completed) status) :
    DepsStatus board (dep :: deps) all status := by
  cases rest with
  | ready both completed =>
    rw [Bool.and_eq_true, decide_eq_true_eq] at both
    refine .ready both.1 fun other listed => ?_
    obtain rfl | later := mem_cons.mp listed
    · rw [is, both.2]
    · exact completed other later
  | pending known whole incomplete =>
    refine .pending (fun other listed => ?_) (fun other listed => ?_) ?_
    · obtain rfl | later := mem_cons.mp listed
      · rw [is]
        rfl
      · exact known other later
    · obtain rfl | later := mem_cons.mp listed
      · rw [is]
        exact ⟨fun failed => unbroken.1 (Option.some.inj failed),
          fun cancelled => unbroken.2 (Option.some.inj cancelled)⟩
      · exact whole other later
    · obtain open' | ⟨other, later, incomplete⟩ := incomplete
      · by_cases completed : found = .completed
        · exact .inl (by simpa [completed] using open')
        · exact .inr ⟨dep, mem_cons_self, by rw [is]; simpa using completed⟩
      · exact .inr ⟨other, .tail _ later, incomplete⟩
  | failed other later failed => exact .failed other (.tail _ later) failed
  | cancelled other later cancelled => exact .cancelled other (.tail _ later) cancelled

theorem statusForDepsLoop_spec {allCompleted : Bool} {status : TaskStatus}
    (found : statusForDepsLoop board allCompleted deps = some status) :
    DepsStatus board deps allCompleted status := by
  induction deps generalizing allCompleted with
  | nil =>
    cases found
    cases allCompleted with
    | true => exact .ready rfl fun _ listed => absurd listed not_mem_nil
    | false =>
      exact .pending (fun _ listed => absurd listed not_mem_nil)
        (fun _ listed => absurd listed not_mem_nil) (.inl rfl)
  | cons dep deps ih =>
    rw [statusForDepsLoop] at found
    split at found
    · cases found
    · rename_i is
      exact .cons is ⟨nofun, nofun⟩ (by simpa using ih found)
    · rename_i is
      cases found
      exact .failed dep mem_cons_self is
    · rename_i is
      cases found
      exact .cancelled dep mem_cons_self is
    · rename_i other incomplete unfailed uncancelled is
      refine .cons is ⟨unfailed, uncancelled⟩ ?_
      rw [decide_eq_false incomplete, Bool.and_false]
      exact ih found

theorem statusForDepsLoop_isSome {allCompleted : Bool}
    (known : ∀ dep ∈ deps, (board.status? dep).isSome) :
    (statusForDepsLoop board allCompleted deps).isSome := by
  induction deps generalizing allCompleted with
  | nil => rfl
  | cons dep deps ih =>
    have rest : ∀ all, (statusForDepsLoop board all deps).isSome := fun _ =>
      ih fun other later => known other (.tail _ later)
    rw [statusForDepsLoop]
    split
    · rename_i unknown
      have here := known dep mem_cons_self
      rw [unknown] at here
      cases here
    · exact rest _
    · rfl
    · rfl
    · exact rest _

end Deps

/-! ## The refresh -/

/-- What a refresh leaves alone: everything but the pending tasks, which it does not stall. -/
structure Refreshes (board board' : Board) : Prop where
  dispatches : board'.dispatches = board.dispatches
  gates : board'.gates = board.gates
  isolated : board'.isolated = board.isolated
  others : ∀ id, board.status? id ≠ some .pending → board'.status? id = board.status? id
  stalled : ∀ id, board'.status? id = some .stalled → board.status? id = some .stalled

theorem Refreshes.refl (board : Board) : Refreshes board board :=
  ⟨rfl, rfl, rfl, fun _ _ => rfl, fun _ stalled => stalled⟩

theorem Refreshes.trans {board board' board'' : Board} (first : Refreshes board board')
    (second : Refreshes board' board'') : Refreshes board board'' where
  dispatches := second.dispatches.trans first.dispatches
  gates := second.gates.trans first.gates
  isolated := second.isolated.trans first.isolated
  others id other := by
    have same := first.others id other
    rw [second.others id (same ▸ other), same]
  stalled id stalled := first.stalled id (second.stalled id stalled)

def pendingCount (board : Board) : Nat := (board.tasks.filter (·.status = .pending)).length

section Refresh

variable {board : Board} {candidate : Task} {set : Task → Task} {changed : Text} {stack : List Text}
  {exempt : Task → Prop}

theorem updateTask_refreshes (graph : Graph exempt board) (keeps : KeepsTask set)
    (member : candidate ∈ board.tasks) (pending : candidate.status = .pending)
    (unstalled : ∀ task, (set task).status ≠ .stalled) :
    Refreshes board (board.updateTask candidate.id set) := by
  have cases := status?_updateTasks board (·.id = candidate.id) keeps
  refine ⟨rfl, rfl, rfl, fun id other => ?_, fun id stalled => ?_⟩
  · obtain same | ⟨task, -, here, selected, status, -⟩ := cases id
    · exact same
    · have isCandidate : id = candidate.id := here.symm.trans (of_decide_eq_true selected)
      rw [isCandidate, status?_of_mem graph member, pending] at other
      exact absurd rfl other
  · obtain same | ⟨task, -, -, -, -, status⟩ := cases id
    · exact same.symm.trans stalled
    · exact absurd (Option.mem_unique status stalled) (unstalled task)

theorem pendingCount_updateTask (set : Task → Task) (member : candidate ∈ board.tasks) (pending : candidate.status = .pending)
    (moved : ∀ task, (set task).status ≠ .pending) :
    pendingCount (board.updateTask candidate.id set) < pendingCount board := by
  have dropped : ∀ task ∈ board.tasks, decide (task.id = candidate.id) = true →
      decide ((set task).status = .pending) = false := fun task _ _ => decide_eq_false (moved task)
  rw [updateTask, updateTasks, pendingCount,
    filter_updateWhere_of_dropped dropped]
  refine length_filter_lt_length_iff_exists.mpr ⟨candidate, ?_, by simp⟩
  exact mem_filter.mpr ⟨member, decide_eq_true pending⟩

/-- Of the dependents of `changed`, those in `rest` are still to be looked at. -/
def PassExempt (changed : Text) (stack : List Text) (rest : List Task) (failed : List Text) (task : Task) :
    Prop :=
  (∃ dep ∈ task.deps, dep ∈ failed ++ stack) ∨ changed ∈ task.deps ∧ task.id ∈ rest.map Task.id

/-- One candidate is promoted or failed. -/
theorem advances_candidate {rest : List Task} {failed : List Text} (failed' : List Text)
    (graph : Graph (PassExempt changed stack (candidate :: rest) failed) board) (keeps : KeepsTask set)
    (member : candidate ∈ board.tasks) (pending : candidate.status = .pending)
    (moved : ∀ task, (set task).status ≠ .pending ∧ (set task).status ≠ .cancelled)
    (free : started (set candidate).status = true →
      ∀ dep ∈ candidate.deps, board.status? dep = some .completed)
    (more : ∀ dep ∈ failed, dep ∈ failed')
    (pushed : terminal (set candidate).status = true → candidate.id ∈ failed') :
    Advances board (PassExempt changed stack (candidate :: rest) failed)
      (PassExempt changed stack rest failed') (·.id = candidate.id) set := by
  have isCandidate : ∀ task ∈ board.tasks, decide (task.id = candidate.id) = true → task = candidate :=
    fun task memberTask selected =>
      eq_of_key graph.unique memberTask member (of_decide_eq_true selected)
  refine ⟨keeps, fun task memberTask selected => ?_, fun task _ _ => moved task,
    fun task memberTask selected => ?_, fun task memberTask other _ notExempt => ⟨fun was => ?_, ?_⟩⟩
  · rw [isCandidate task memberTask selected, pending]
    nofun
  · rw [isCandidate task memberTask selected]
    exact free
  · refine notExempt ?_
    obtain ⟨dep, listed, onStack⟩ | ⟨depends, listed⟩ := was
    · refine .inl ⟨dep, listed, ?_⟩
      obtain before | below := mem_append.mp onStack
      · exact mem_append_left _ (more dep before)
      · exact mem_append_right _ below
    · obtain here | later := mem_cons.mp listed
      · exact absurd here (of_decide_eq_false other)
      · exact .inr ⟨depends, later⟩
  · intro selectedTask memberSelected selected depends
    by_contra isTerminal
    rw [Bool.not_eq_false, isCandidate selectedTask memberSelected selected] at isTerminal
    rw [isCandidate selectedTask memberSelected selected] at depends
    exact notExempt (.inl ⟨candidate.id, depends, mem_append_left _ (pushed isTerminal)⟩)

/-- The pass looks at each dependent of `changed` once; each task that it fails was pending. -/
theorem refreshPass_spec (changed : Text) (stack : List Text) :
    ∀ (rest : List Task) (failed : List Text) (board : Board),
      Graph (PassExempt changed stack rest failed) board → (rest.map Task.id).Nodup →
      (∀ task ∈ rest, task ∈ board.tasks ∧ task.status = .pending ∧ board.isolatedTask task = false) →
      ∃ failed' board', refreshPass changed rest failed board = some (failed', board') ∧
        Graph (fun task => ∃ dep ∈ task.deps, dep ∈ failed' ++ stack) board' ∧
        Refreshes board board' ∧
        failed'.length + pendingCount board' ≤ failed.length + pendingCount board
  | [], failed, board, graph, _, _ => by
      refine ⟨failed, board, rfl, graph.settle fun task _ _ _ was notExempt => ?_, .refl board,
        Nat.le_refl _⟩
      obtain onStack | ⟨-, listed⟩ := was
      · exact absurd onStack notExempt
      · exact absurd listed not_mem_nil
  | candidate :: rest, failed, board, graph, distinct, candidates => by
      obtain ⟨member, pending, outside⟩ := candidates candidate mem_cons_self
      obtain ⟨fresh, distinctRest⟩ := nodup_cons.mp distinct
      -- the candidates that follow are not touched by an update of this one
      have later : ∀ set, ∀ task ∈ rest, task ∈ (board.updateTask candidate.id set).tasks ∧
          task.status = .pending ∧ (board.updateTask candidate.id set).isolatedTask task = false := by
        intro set task listed
        obtain ⟨memberTask, pendingTask, outsideTask⟩ := candidates task (.tail _ listed)
        refine ⟨mem_updateWhere.mpr ⟨task, memberTask, (if_neg fun same => ?_).symm⟩, pendingTask,
          outsideTask⟩
        exact fresh (mem_map.mpr ⟨task, listed, of_decide_eq_true same⟩)
      have unlisted : ∀ task ∈ board.tasks, PassExempt changed stack (candidate :: rest) failed task →
          ¬ PassExempt changed stack rest failed task → task = candidate ∧ changed ∈ task.deps := by
        intro task memberTask was notExempt
        obtain onStack | ⟨depends, listed⟩ := was
        · exact absurd (.inl onStack) notExempt
        · obtain here | behind := mem_cons.mp (map_cons ▸ listed)
          · exact ⟨eq_of_key graph.unique memberTask member here, depends⟩
          · exact absurd (.inr ⟨depends, behind⟩) notExempt
      rw [refreshPass]
      split
      · obtain ⟨status, found⟩ := Option.isSome_iff_exists.mp
          (statusForDepsLoop_isSome (graph.known candidate member pending))
        have spec := statusForDepsLoop_spec found
        rw [statusForDeps, found]
        cases spec with
        | ready _ completed =>
          have advances := advances_candidate failed graph (setStatus_keeps .ready) member pending
            (fun _ => ⟨nofun, nofun⟩) (fun _ => completed) (fun _ before => before) nofun
          obtain ⟨failed', board', passed, graph', refreshes, paid⟩ :=
            refreshPass_spec changed stack rest failed
              (board.updateTask candidate.id (Task.setStatus .ready)) (graph.advance advances)
              distinctRest (later _)
          have fewer := pendingCount_updateTask (Task.setStatus .ready) member pending fun _ => nofun
          exact ⟨failed', board', passed, graph',
            (updateTask_refreshes graph (setStatus_keeps .ready) member pending fun _ => nofun).trans
              refreshes, by omega⟩
        | failed _ _ _ =>
          have keeps : KeepsTask (Task.dependencyFailed changed) := ⟨fun _ => rfl, fun _ => rfl, fun _ => rfl⟩
          have advances := advances_candidate (candidate.id :: failed) graph keeps member pending
            (fun _ => ⟨nofun, nofun⟩) nofun (fun _ before => .tail _ before) fun _ => mem_cons_self
          obtain ⟨failed', board', passed, graph', refreshes, paid⟩ :=
            refreshPass_spec changed stack rest (candidate.id :: failed)
              (board.updateTask candidate.id (Task.dependencyFailed changed)) (graph.advance advances)
              distinctRest (later _)
          have fewer := pendingCount_updateTask (Task.dependencyFailed changed) member pending
            fun _ => nofun
          rw [length_cons] at paid
          exact ⟨failed', board', passed, graph',
            (updateTask_refreshes graph keeps member pending fun _ => nofun).trans refreshes, by omega⟩
        | pending _ unbroken incomplete =>
          refine refreshPass_spec changed stack rest failed board (graph.settle ?_) distinctRest
            fun task listed => candidates task (.tail _ listed)
          intro task memberTask _ _ was notExempt
          rw [(unlisted task memberTask was notExempt).1]
          exact ⟨unbroken, incomplete.resolve_left nofun⟩
        | cancelled dep listed cancelled =>
          exact absurd cancelled (graph.uncancelled candidate member outside pending dep listed)
      · rename_i independent
        refine refreshPass_spec changed stack rest failed board (graph.settle ?_) distinctRest
          fun task listed => candidates task (.tail _ listed)
        intro task memberTask _ _ was notExempt
        obtain ⟨rfl, depends⟩ := unlisted task memberTask was notExempt
        exact absurd (contains_iff_mem.mpr depends) independent

/-- **The refresh settles its task**: it ends, after it every pending task waits for something that
can still happen, and only pending tasks have moved. -/
theorem refreshDependents_spec (graph : Graph (fun task => changed ∈ task.deps) board) :
    ∃ board', refreshDependents board changed = some board' ∧ Graph (fun _ => False) board' ∧
      Refreshes board board' := by
  let Inv (stack : List Text) (now : Board) : Prop :=
    Graph (fun task => ∃ dep ∈ task.deps, dep ∈ stack) now ∧ Refreshes board now
  have start : Inv [changed] board := by
    refine ⟨graph.settle fun task _ _ _ depends notExempt => ?_, .refl board⟩
    exact absurd ⟨changed, depends, mem_singleton.mpr rfl⟩ notExempt
  have pays : ∀ a stack now, Inv (a :: stack) now → ∃ pushed next,
      refreshPass a now.pendingTasks [] now = some (pushed, next) ∧ Inv (pushed ++ stack) next ∧
        pushed.length + pendingCount next ≤ pendingCount now := by
    rintro a stack now ⟨graphNow, refreshes⟩
    have exempt : Graph (PassExempt a stack now.pendingTasks []) now := by
      refine graphNow.settle fun task member outside pending was notExempt => ?_
      obtain ⟨dep, listed, onStack⟩ := was
      refine absurd ?_ notExempt
      obtain rfl | below := mem_cons.mp onStack
      · refine .inr ⟨listed, mem_map_of_mem (mem_filter.mpr ⟨member, ?_⟩)⟩
        rw [decide_eq_true pending, outside]
        rfl
      · exact .inl ⟨dep, listed, below⟩
    have distinct : (now.pendingTasks.map Task.id).Nodup :=
      graphNow.unique.sublist (filter_sublist.map Task.id)
    obtain ⟨pushed, next, passed, graphNext, later, paid⟩ :=
      refreshPass_spec a stack now.pendingTasks [] now exempt distinct fun task listed => by
        obtain ⟨member, selected⟩ := mem_filter.mp listed
        simp only [Bool.and_eq_true, decide_eq_true_eq, Bool.not_eq_true'] at selected
        exact ⟨member, selected⟩
    rw [length_nil, Nat.zero_add] at paid
    exact ⟨pushed, next, passed, ⟨graphNext, refreshes.trans later⟩, paid⟩
  have enough : [changed].length + pendingCount board ≤ board.tasks.length + 1 := by
    have bound : pendingCount board ≤ board.tasks.length := length_filter_le _ _
    rw [length_singleton]
    omega
  obtain ⟨board', drained, settled, refreshes⟩ :=
    drain_some Inv pendingCount pays _ [changed] board start enough
  refine ⟨board', drained, settled.settle fun task _ _ _ was _ => ?_, refreshes⟩
  obtain ⟨dep, -, onStack⟩ := was
  exact absurd onStack not_mem_nil

end Refresh

/-! ## Cancellation -/

section Cancellation

variable {board : Board} {id reason : Text} {ids : List Text}

/-- What the loop that cancels comes to. -/
def cancelAll (id reason : Text) (ids : List Text) (board : Board) : Board where
  tasks := updateWhere board.tasks (fun task => ids.contains task.id && !terminal task.status)
    (Task.cancelWith id reason)
  dispatches := updateWhere board.dispatches
    (fun dispatch => ids.contains dispatch.taskId && dispatch.status.active)
    fun dispatch => { dispatch with status := .cancelled }
  gates := updateWhere board.gates (fun gate => ids.contains gate.taskId && gate.status = .pending)
    fun gate => { gate with status := .timeout }
  isolated := board.isolated

theorem foldl_cancelOne (id reason : Text) (ids : List Text) (board : Board) :
    ids.foldl (cancelOne id reason) board = cancelAll id reason ids board := by
  have join : ∀ (first : Text) (rest : List Text) (here : Text) (c : Bool),
      (here = first && c || rest.contains here && c) = ((first :: rest).contains here && c) := by
    intro first rest here c
    rw [contains_cons, ← Bool.and_or_distrib_right, Bool.beq_eq_decide_eq]
  induction ids generalizing board with
  | nil =>
    simp only [foldl_nil, cancelAll, contains_nil, Bool.false_and, updateWhere_false]
  | cons taskId rest ih =>
    rw [foldl_cons, ih]
    simp only [cancelAll, cancelOne, updateTasks, Board.closeDispatches,
      Board.updateDispatches, Board.updateGates]
    rw [updateWhere_updateWhere, updateWhere_updateWhere, updateWhere_updateWhere]
    · simp only [join]
    · intro gate _
      exact Bool.and_false _
    · intro dispatch _
      exact Bool.and_false _
    · intro task _
      exact Bool.and_false _

theorem cancelWith_keeps (id reason : Text) : KeepsTask (Task.cancelWith id reason) :=
  ⟨fun _ => rfl, fun _ => rfl, fun _ => rfl⟩

/-- A task that ends, fails or goes back, with what is known of its result. -/
theorem outcome_keeps (result : Option Text) (status : TaskStatus) :
    KeepsTask fun task => { task with status, result := result.or task.result } :=
  ⟨fun _ => rfl, fun _ => rfl, fun _ => rfl⟩

/-- A cancellation answers a cancelled task, or cancels what waits on an open one. -/
theorem cancelTask_some {board' : Board} (done : cancelTask board id reason = some board') :
    board' = board ∨ ∃ ids status, board.status? id = some status ∧ terminal status = false ∧
      board.cascade id = some ids ∧ board' = cancelAll id reason ids board := by
  rw [cancelTask] at done
  split at done
  · cases done
  · cases done
  · cases done
  · exact .inl (Option.some.inj done).symm
  · rename_i status incomplete unfailed uncancelled found
    obtain ⟨ids, cascade, rfl⟩ := of_map done
    refine .inr ⟨ids, status, found, ?_, cascade, foldl_cancelOne id reason ids board⟩
    cases status with
    | completed => exact absurd rfl incomplete
    | failed => exact absurd rfl unfailed
    | cancelled => exact absurd rfl uncancelled
    | _ => rfl

/-- The cascade ends. -/
theorem cascade_isSome (board : Board) (id : Text) : (board.cascade id).isSome := by
  have inside : ∀ a ∈ id :: board.tasks.map Task.id, ∀ b ∈ board.dependents a,
      b ∈ id :: board.tasks.map Task.id := by
    intro a _ b dependent
    obtain ⟨task, member, rfl⟩ := mem_map.mp dependent
    exact .tail _ (mem_map_of_mem (mem_filter.mp member).1)
  refine sweep_isSome inside _ 0 [id] (nodup_singleton id) (fun a listed => ?_) ?_
  · rw [mem_singleton.mp listed]
    exact mem_cons_self
  · rw [length_cons, length_map]

/-- **A cancellation reaches what waits on the task, directly or through others, and nothing else**,
cycles or not. -/
theorem cascade_exact (board : Board) (id : Text) :
    ∃ ids, board.cascade id = some ids ∧
      ∀ x, x ∈ ids ↔ Relation.ReflTransGen (fun a b => b ∈ board.dependents a) id x := by
  obtain ⟨ids, cascade⟩ := Option.isSome_iff_exists.mp (cascade_isSome board id)
  refine ⟨ids, cascade, fun x => ⟨fun listed => ?_, fun waits => ?_⟩⟩
  · refine sweep_induction (fun a reached b => reached.tail) cascade (fun a first => ?_) x listed
    rw [mem_singleton.mp first]
  · obtain ⟨first, closed⟩ := sweep_closed _ 0 [id] ids (by simp) cascade
    induction waits with
    | refl => exact first id mem_cons_self
    | tail _ dependent ih => exact closed _ ih _ dependent

/-- The cascade holds the task itself and what waits on any of its tasks. -/
theorem cascade_closed (cascade : board.cascade id = some ids) :
    ∀ task ∈ board.tasks, waitsOnDeps task.status = true →
      ∀ dep ∈ task.deps, dep ∈ ids → task.id ∈ ids := by
  obtain ⟨-, closed⟩ := sweep_closed _ 0 [id] ids (fun i small => absurd small (Nat.not_lt_zero i)) cascade
  intro task member waits dep listed inside
  refine closed dep inside task.id (mem_map_of_mem (mem_filter.mpr ⟨member, ?_⟩))
  rw [waits, contains_iff_mem.mpr listed]
  rfl

/-- A pending task outside the cascade depends on nothing in it. -/
theorem cancelAll_graph (graph : Graph (fun _ => False) board) (cascade : board.cascade id = some ids) :
    Graph (fun _ => False) (cancelAll id reason ids board) := by
  have closed := cascade_closed cascade
  have cases := status?_updateTasks board (fun task => ids.contains task.id && !terminal task.status)
    (cancelWith_keeps id reason)
  have pendingOld : ∀ task ∈ (cancelAll id reason ids board).tasks, task.status = .pending →
      task ∈ board.tasks ∧ task.id ∉ ids := by
    intro task member pending
    obtain ⟨memberOld, kept⟩ := @pending_of_updated board _ (Task.cancelWith id reason) task
      (fun _ _ _ isPending => by cases isPending) member pending
    refine ⟨memberOld, fun listed => ?_⟩
    rw [contains_iff_mem.mpr listed, pending] at kept
    cases kept
  have sameDeps : ∀ task ∈ board.tasks, task.status = .pending → task.id ∉ ids → ∀ dep ∈ task.deps,
      (cancelAll id reason ids board).status? dep = board.status? dep := by
    intro task member pending outside dep listed
    obtain same | ⟨other, -, here, selected, -, -⟩ := cases dep
    · exact same
    · rw [Bool.and_eq_true, here, contains_iff_mem] at selected
      exact absurd (closed task member (by rw [pending]; rfl) dep listed selected.1) outside
  refine ⟨?_, fun task member pending dep listed => ?_, fun task member isStarted dep listed => ?_,
    fun task member outside pending dep listed => ?_, fun task member outside pending _ => ?_⟩
  · rw [cancelAll, map_updateWhere (cancelWith_keeps id reason).id]
    exact graph.unique
  · obtain ⟨memberOld, unlisted⟩ := pendingOld task member pending
    rw [sameDeps task memberOld pending unlisted dep listed]
    exact graph.known task memberOld pending dep listed
  · obtain ⟨old, -, -, rfl⟩ | ⟨memberOld, -⟩ := mem_updateWhere_cases member
    · cases isStarted
    · have completed := graph.started task memberOld isStarted dep listed
      obtain same | ⟨other, -, -, selected, status, -⟩ := cases dep
      · exact same.trans completed
      · rw [Bool.and_eq_true, Option.mem_unique status completed] at selected
        cases selected.2
  · obtain ⟨memberOld, unlisted⟩ := pendingOld task member pending
    rw [sameDeps task memberOld pending unlisted dep listed]
    exact graph.uncancelled task memberOld outside pending dep listed
  · obtain ⟨memberOld, unlisted⟩ := pendingOld task member pending
    have same := sameDeps task memberOld pending unlisted
    obtain ⟨unbroken, dep, listed, incomplete⟩ := graph.waits task memberOld outside pending nofun
    refine ⟨fun other depends => ?_, dep, listed, ?_⟩
    · rw [same other depends]
      exact unbroken other depends
    · rw [same dep listed]
      exact incomplete

end Cancellation

end Alera.Orchestration.Tasks
