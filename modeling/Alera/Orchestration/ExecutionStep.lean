/-
# Alera.Orchestration.ExecutionStep -- what an approved run does next

The host asks again and again for the next step of a running plan
(`run_execution_step.rs`).  `choose` answers from the plan, the state of its tasks and
the approved gates: first what needs a person, then the results to integrate, then the
first task that can be prepared or launched.

* `choose_starts`: a task is prepared or launched only behind everything it waits
  for, and only while nothing needs attention or waits to be integrated.
* `choose_progress`: a run in which nothing is under way and no gate is missing always
  prepares a task.  The task is found in the order of the plan: the first one that is
  not integrated has everything before it done, and with that every stage it comes after.
-/
import Alera.Orchestration.PlanCompilation
import Mathlib.Algebra.Order.BigOperators.Group.List
import Mathlib.Algebra.Order.Group.Nat

namespace Alera.Orchestration.Recipes

open Theory List

set_option autoImplicit false

/-! ## Steps and task states -/

/-- `PrepareWorkflowWorkspace`. -/
structure PrepareWorkspace where
  requestId : Text
  runId : Text
  revision : Int
  taskId : Option Text
  retryOf : Option Text
deriving DecidableEq

/-- `LaunchWorkflowTask` and `IntegrateWorkflowResult`, which have the same fields. -/
structure TaskRequest where
  requestId : Text
  runId : Text
  revision : Int
  taskId : Text
  workspaceId : Text
deriving DecidableEq

/-- `WorkflowExecutionStep`. -/
inductive ExecutionStep where
  | prepareWorkspace (request : PrepareWorkspace)
  | launchTask (request : TaskRequest)
  | integrateResult (request : TaskRequest)
  | waiting
  | attention (reason : String)
  | complete
deriving DecidableEq

/-- `TaskState`.  The one place that builds it (`TaskState.ofRow`) takes a task for
integrated only when it is completed. -/
structure TaskState where
  id : Text
  logicalId : Text
  status : Text
  integrated : Bool
  workspace : Option Text
  phase : Option Text
  integration : Option Text
  integrationRequest : Option Text
  completed_of_integrated : integrated = true → status = "completed".toList

/-- A row of the query for the tasks of a run. -/
structure TaskStateRow where
  taskId : Text
  logicalId : Text
  status : Text
  result : Option Text
  resultDigest : Option Text
  workspace : Option Text
  phase : Option Text
  integration : Option Text
  integrationRequest : Option Text

section Model

variable {N : Type} (lib : Libraries N)

/-- The state that is read from a row: integrated means that the evidence is that of the
result as it is now. -/
def TaskState.ofRow (row : TaskStateRow) : TaskState where
  id := row.taskId
  logicalId := row.logicalId
  status := row.status
  integrated := row.status == "completed".toList && row.result.isSome &&
    row.resultDigest == some (lib.digest (optionalText row.result))
  workspace := row.workspace
  phase := row.phase
  integration := row.integration
  integrationRequest := row.integrationRequest
  completed_of_integrated := by
    intro integrated
    rw [Bool.and_eq_true, Bool.and_eq_true, beq_iff_eq] at integrated
    exact integrated.1.1

/-- The first condition of `choose`. -/
def TaskState.needsAttention (task : TaskState) : Bool :=
  task.phase == some "attention".toList ||
    (task.status == "failed".toList || task.status == "stalled".toList ||
      task.status == "cancelled".toList) ||
    (task.integration == some "conflict".toList || task.integration == some "attention".toList)

/-- Completed, and not integrated yet. -/
def TaskState.awaitsIntegration (task : TaskState) : Bool :=
  task.status == "completed".toList && !task.integrated

def TaskState.isOpen (task : TaskState) : Bool :=
  task.status == "pending".toList || task.status == "ready".toList

/-- Counted against the workers of the plan. -/
def TaskState.isActive (task : TaskState) : Bool :=
  !task.integrated && task.status != "completed".toList && task.workspace.isSome

/-- The logical ids of the integrated tasks. -/
def integratedIds (tasks : List TaskState) : List Text :=
  (tasks.filter TaskState.integrated).map TaskState.logicalId

/-- `prepare`. -/
def prepare (run : Text) (revision : Int) (taskId : Option Text) : ExecutionStep :=
  .prepareWorkspace
    { requestId := lib.digest (.arr
        [.str "prepare".toList, .str run, .num (lib.ofI64 revision), optionalText taskId])
      runId := run
      revision
      taskId
      retryOf := none }

/-- The id of a request about a task and its workspace. -/
def requestDigest (kind : String) (run : Text) (revision : Int) (task workspace : Text) : Text :=
  lib.digest (.arr
    [.str kind.toList, .str run, .num (lib.ofI64 revision), .str task, .str workspace])

def launch (run : Text) (revision : Int) (task : TaskState) (workspace : Text) : ExecutionStep :=
  .launchTask ⟨requestDigest lib "launch" run revision task.id workspace, run, revision, task.id,
    workspace⟩

/-- What follows for a completed task that is not integrated. -/
def integrate (run : Text) (revision : Int) (task : TaskState) : ExecutionStep :=
  if task.integration == some "integrated".toList then
    .attention "The integrated task evidence changed; prepare a correction revision."
  else match task.workspace with
    | none => .attention "The completed task has no managed execution workspace."
    | some workspace =>
      .integrateResult ⟨task.integrationRequest.getD
        (requestDigest lib "integrate" run revision task.id workspace), run, revision, task.id,
        workspace⟩

/-- The gate of a stage is approved. -/
def isApproved (gates : List (Text × Text)) (stage : Text) : Bool :=
  gates.lookup stage == some "approved".toList

/-- One stage on the way through what a stage depends on: the stages to look at next, or
the answer. -/
def gateStep (stages : List RecipeStage) (gates : List (Text × Text)) (id : Text) :
    Except (Except String Bool) (List Text) :=
  match stages.find? fun item => item.id == id with
  | none => .error (.error "prerequisite stage is absent from frozen plan")
  | some prior =>
    if prior.gate.isSome && !isApproved gates id then .error (.ok false)
    else .ok prior.dependsOn.reverse

/-- `gates_allow`.  Every stage pushes its dependencies at most once, so the walk ends
within the fuel (`gatesWalk_isSome`). -/
def gatesAllow (plan : PlanSnapshot N) (stage : Text) (gates : List (Text × Text)) :
    Except String Bool :=
  let stages := plan.recipe.recipe.stages
  match stages.find? fun item => item.id == stage with
  | none => .error "task stage is absent from frozen plan"
  | some first =>
    let fuel := first.dependsOn.length + (stages.map fun item => item.dependsOn.length).sum
    match Worklist.explore (gateStep stages gates) fuel first.dependsOn.reverse [] with
    | some (.error answer) => answer
    | some (.ok _) => .ok true
    | none => .ok false

/-- The loop over the tasks that are pending or ready. -/
def chooseOpen (run : Text) (revision : Int) (plan : PlanSnapshot N) (gates : List (Text × Text))
    (active : Nat) (integrated : List Text) : List TaskState → Except String ExecutionStep
  | [] => .ok .waiting
  | task :: rest =>
    match plan.tasks.find? fun item => item.id == task.logicalId with
    | none => .error "task is absent from frozen plan"
    | some frozen =>
      if !frozen.dependsOn.all (integrated.contains ·) then
        chooseOpen run revision plan gates active integrated rest
      else match gatesAllow plan frozen.task.stageId gates with
        | .error message => .error message
        | .ok false => chooseOpen run revision plan gates active integrated rest
        | .ok true =>
          match task.workspace, task.phase with
          | none, _ =>
            if active < plan.maxConcurrent.toNat then
              .ok (prepare lib run revision (some task.id))
            else chooseOpen run revision plan gates active integrated rest
          | some workspace, phase =>
            if phase == some "ready".toList then .ok (launch lib run revision task workspace)
            else chooseOpen run revision plan gates active integrated rest

/-- Every stage with a gate is approved. -/
def allGates (plan : PlanSnapshot N) (gates : List (Text × Text)) : Bool :=
  (plan.recipe.recipe.stages.filter fun stage => stage.gate.isSome).all fun stage =>
    isApproved gates stage.id

/-- `choose`. -/
def choose (run : Text) (revision : Int) (plan : PlanSnapshot N) (tasks : List TaskState)
    (gates : List (Text × Text)) : Except String ExecutionStep :=
  if tasks.any TaskState.needsAttention then
    .ok (.attention "Inspect the failed task, workspace or integration before continuing.")
  else match tasks.find? TaskState.awaitsIntegration with
    | some task => .ok (integrate lib run revision task)
    | none =>
      if tasks.all TaskState.integrated then
        .ok (if allGates plan gates then .complete else .waiting)
      else chooseOpen lib run revision plan gates (tasks.filter TaskState.isActive).length
        (integratedIds tasks) (tasks.filter TaskState.isOpen)

/-- `workflow_execution_step`, for what it has read: whether the run is running, the phase
of the integration workspace, the approved plan, the rows of the tasks and the gates. -/
def workflowExecutionStep (run : Text) (revision : Int) (running : Bool)
    (integration : Option Text) (plan : PlanSnapshot N) (rows : List TaskStateRow)
    (gates : List (Text × Text)) : Except String ExecutionStep :=
  if !running then .ok .waiting
  else match integration with
    | none => .ok (prepare lib run revision none)
    | some phase =>
      if phase == "attention".toList then
        .ok (.attention "Inspect the integration workspace before continuing.")
      else if phase == "ready".toList then
        if rows.length != plan.tasks.length || rows.length > 128 then
          .ok (.attention "The executable tasks do not match the approved plan.")
        else choose lib run revision plan (rows.map (TaskState.ofRow lib)) gates
      else .ok .waiting

end Model

open TaskState (awaitsIntegration isActive logicalId ofRow)

/-! ## The gates in front of a stage -/

section Gates

variable {N : Type} {plan : PlanSnapshot N} {gates : List (Text × Text)}

/-- The gate of every stage that the given one comes after is approved. -/
def GatesPassed (plan : PlanSnapshot N) (gates : List (Text × Text)) (stage : Text) : Prop :=
  ∀ prior ∈ plan.recipe.recipe.stages, prior.gate.isSome = true →
    Relation.TransGen plan.recipe.recipe.StageEdge stage prior.id → isApproved gates prior.id = true

/-- The dependencies of a stage, unless it has been seen. -/
def unseenLength (seen : List Text) (stage : RecipeStage) : Nat :=
  if stage.id ∈ seen then 0 else stage.dependsOn.length

/-- The dependencies of the stages that have not been seen. -/
def unseenDependencies (stages : List RecipeStage) (seen : List Text) : Nat :=
  (stages.map (unseenLength seen)).sum

theorem unseenLength_cons_le (seen : List Text) (id : Text) (stage : RecipeStage) :
    unseenLength (id :: seen) stage ≤ unseenLength seen stage := by
  rw [unseenLength, unseenLength]
  split
  · exact Nat.zero_le _
  next unseen => rw [if_neg fun old => unseen (mem_cons_of_mem _ old)]

variable {stages : List RecipeStage} {stage : RecipeStage}

/-- Seeing a stage takes at least its own dependencies away. -/
theorem unseenDependencies_cons {seen : List Text} (member : stage ∈ stages)
    (fresh : stage.id ∉ seen) :
    stage.dependsOn.length + unseenDependencies stages (stage.id :: seen) ≤
      unseenDependencies stages seen := by
  obtain ⟨front, back, rfl⟩ := append_of_mem member
  have shrinks : ∀ others : List RecipeStage,
      unseenDependencies others (stage.id :: seen) ≤ unseenDependencies others seen := fun others =>
    sum_le_sum fun item _ => unseenLength_cons_le seen stage.id item
  have own : unseenLength seen stage = stage.dependsOn.length := if_neg fresh
  have gone : unseenLength (stage.id :: seen) stage = 0 := if_pos mem_cons_self
  have inFront := shrinks front
  have inBack := shrinks back
  simp only [unseenDependencies, map_append, map_cons, sum_append, sum_cons,
    own, gone] at inFront inBack ⊢
  omega

theorem gateStep_ok {id : Text} {pushed : List Text}
    (expanded : gateStep stages gates id = .ok pushed) :
    ∃ prior ∈ stages, prior.id = id ∧ pushed = prior.dependsOn.reverse := by
  rw [gateStep] at expanded
  split at expanded
  · cases expanded
  next prior found =>
    split at expanded
    · cases expanded
    · cases expanded
      exact ⟨prior, mem_of_find?_eq_some found, by simpa using find?_some found, rfl⟩

/-- With the ids told apart, a lookup finds the stage itself. -/
theorem find_stage (valid : ValidStages stages) (member : stage ∈ stages) :
    stages.find? (fun item => item.id == stage.id) = some stage := by
  cases found : stages.find? fun item => item.id == stage.id with
  | none =>
    have differs := find?_eq_none.mp found stage member
    simp at differs
  | some other =>
    have named : other.id = stage.id := by simpa using find?_some found
    have same : other = stage :=
      inj_on_of_nodup_map valid.distinct (mem_of_find?_eq_some found) member named
    rw [same]

/-- The step at a stage of the plan. -/
theorem gateStep_stage (valid : ValidStages stages) (member : stage ∈ stages) :
    gateStep stages gates stage.id =
      if stage.gate.isSome && !isApproved gates stage.id then .error (.ok false)
      else .ok stage.dependsOn.reverse := by
  rw [gateStep, find_stage valid member]

/-- **The walk answers whether the gates are passed.** -/
theorem gatesAllow_eq (gates : List (Text × Text)) (valid : ValidStages plan.recipe.recipe.stages)
    (member : stage ∈ plan.recipe.recipe.stages) :
    ∃ answer, gatesAllow plan stage.id gates = .ok answer ∧
      (answer = true ↔ GatesPassed plan gates stage.id) := by
  have after : ∀ id ∈ stage.dependsOn.reverse,
      Relation.TransGen plan.recipe.recipe.StageEdge stage.id id := fun id depends =>
    .single ((stageEdge_iff valid member).mpr (mem_reverse.mp depends))
  have passes : ∀ id pushed, Relation.TransGen plan.recipe.recipe.StageEdge stage.id id →
      gateStep plan.recipe.recipe.stages gates id = .ok pushed →
      ∀ next ∈ pushed, Relation.TransGen plan.recipe.recipe.StageEdge stage.id next := by
    intro id pushed chain expanded next inPushed
    obtain ⟨prior, inStages, named, rfl⟩ := gateStep_ok expanded
    exact chain.tail ⟨prior, inStages, named, mem_reverse.mp inPushed⟩
  have pays : ∀ id seen pushed, id ∉ seen → gateStep plan.recipe.recipe.stages gates id = .ok pushed →
      pushed.length + unseenDependencies plan.recipe.recipe.stages (id :: seen) ≤
        unseenDependencies plan.recipe.recipe.stages seen := by
    intro id seen pushed fresh expanded
    obtain ⟨prior, member, rfl, rfl⟩ := gateStep_ok expanded
    rw [length_reverse]
    exact unseenDependencies_cons member fresh
  have enough : stage.dependsOn.reverse.length + unseenDependencies plan.recipe.recipe.stages [] ≤
      stage.dependsOn.length + (plan.recipe.recipe.stages.map fun item => item.dependsOn.length).sum := by
    have nothingSeen : unseenLength [] = fun item => item.dependsOn.length :=
      funext fun _ => if_neg nofun
    rw [unseenDependencies, nothingSeen, length_reverse]
  rw [gatesAllow]
  simp only [find_stage valid member]
  obtain ⟨seen, walked, onStack, -, closed⟩ | ⟨id, answer, walked, chain, stopped⟩ :=
    Worklist.explore_spec passes _ pays enough after nofun
  · rw [walked]
    refine ⟨true, rfl, iff_of_true rfl ?_⟩
    -- Along a chain of stages everything is seen, and what is seen let the walk go on.
    have reached : ∀ id, Relation.TransGen plan.recipe.recipe.StageEdge stage.id id →
        id ∈ seen := by
      intro id chain
      induction chain with
      | single edge =>
        exact onStack _ (mem_reverse.mpr ((stageEdge_iff valid member).mp edge))
      | tail _ edge ih =>
        obtain ⟨middle, inStages, rfl, depends⟩ := edge
        obtain ⟨pushed, expanded, inside⟩ := closed _ ih
        rw [gateStep_stage valid inStages] at expanded
        obtain ⟨_, expanded⟩ := unless_ok expanded
        cases expanded
        exact inside _ (mem_reverse.mpr depends)
    intro prior inStages gated chain
    obtain ⟨pushed, expanded, -⟩ := closed _ (reached prior.id chain)
    rw [gateStep_stage valid inStages, gated] at expanded
    obtain ⟨approved, expanded⟩ := unless_ok expanded
    simpa using approved
  · rw [walked]
    -- Every stage on the way is one of the recipe's, so it was a gate that stopped the walk.
    have known : id ∈ plan.recipe.recipe.stages.map RecipeStage.id := by
      cases chain with
      | single edge | tail _ edge =>
        obtain ⟨prior, inStages, -, depends⟩ := edge
        exact valid.known prior inStages id depends
    obtain ⟨prior, inStages, rfl⟩ := mem_map.mp known
    rw [gateStep_stage valid inStages] at stopped
    split at stopped
    next blocked =>
      cases stopped
      rw [Bool.and_eq_true] at blocked
      refine ⟨false, rfl, iff_of_false Bool.false_ne_true fun passed => ?_⟩
      rw [passed prior inStages blocked.1 chain] at blocked
      cases blocked.2
    · cases stopped

end Gates

/-! ## What a step can be -/

section Steps

variable {N : Type} {lib : Libraries N} {run : Text} {revision : Int} {plan : PlanSnapshot N}
  {tasks : List TaskState} {gates : List (Text × Text)} {step : ExecutionStep}

/-- The task is open, all its dependencies are integrated and all gates in front of its
stage are approved. -/
structure Eligible (plan : PlanSnapshot N) (gates : List (Text × Text)) (integrated : List Text)
    (task : TaskState) (frozen : FrozenTask N) : Prop where
  planned : frozen ∈ plan.tasks
  named : frozen.id = task.logicalId
  dependencies : ∀ dependency ∈ frozen.dependsOn, dependency ∈ integrated
  passed : GatesPassed plan gates frozen.task.stageId

/-- Nothing needs a person, and every completed task is integrated. -/
structure Quiet (tasks : List TaskState) : Prop where
  calm : ∀ task ∈ tasks, task.needsAttention = false
  settled : ∀ task ∈ tasks, task.awaitsIntegration = false

/-- What the loop does with a task: it is prepared, or launched in its workspace. -/
def Starts (lib : Libraries N) (run : Text) (revision : Int) (plan : PlanSnapshot N) (active : Nat)
    (task : TaskState) (step : ExecutionStep) : Prop :=
  (task.workspace = none ∧ active < plan.maxConcurrent.toNat ∧
      step = prepare lib run revision (some task.id)) ∨
    ∃ workspace, task.workspace = some workspace ∧ task.phase = some "ready".toList ∧
      step = launch lib run revision task workspace

variable {integrated : List Text}

variable {active : Nat}

/-- One round of the loop: the task is eligible and started, or passed over. -/
theorem chooseOpen_cons (lib : Libraries N) (run : Text) (revision : Int) (scheduled : Scheduled plan)
    {head : TaskState} {rest : List TaskState} {item : FrozenTask N}
    (found : plan.tasks.find? (fun other => other.id == head.logicalId) = some item) :
    (∃ step, chooseOpen lib run revision plan gates active integrated (head :: rest) = .ok step ∧
      Eligible plan gates integrated head item ∧ Starts lib run revision plan active head step) ∨
    (chooseOpen lib run revision plan gates active integrated (head :: rest) =
        chooseOpen lib run revision plan gates active integrated rest ∧
      (Eligible plan gates integrated head item → active < plan.maxConcurrent.toNat →
        head.workspace ≠ none)) := by
  have planned : item ∈ plan.tasks := mem_of_find?_eq_some found
  obtain ⟨stage, inStages, ofStage⟩ := scheduled.staged item planned
  obtain ⟨answer, answered, meaning⟩ := gatesAllow_eq gates scheduled.stages inStages
  rw [ofStage] at answered meaning
  rw [chooseOpen]
  simp only [found, answered]
  by_cases ready : item.dependsOn.all (integrated.contains ·) = true
  · rw [ready]
    cases answer with
    | false => exact .inr ⟨rfl, fun able => absurd (meaning.mpr able.passed) Bool.false_ne_true⟩
    | true =>
      have able : Eligible plan gates integrated head item :=
        ⟨planned, by simpa using find?_some found, by simpa using ready, meaning.mp rfl⟩
      cases workspace : head.workspace with
      | none =>
        by_cases free : active < plan.maxConcurrent.toNat
        · exact .inl ⟨_, if_pos free, able, .inl ⟨workspace, free, rfl⟩⟩
        · exact .inr ⟨if_neg free, fun _ isFree => absurd isFree free⟩
      | some place =>
        by_cases isReady : (head.phase == some "ready".toList) = true
        · exact .inl ⟨_, if_pos isReady, able, .inr ⟨place, workspace, by simpa using isReady, rfl⟩⟩
        · exact .inr ⟨if_neg isReady, fun _ _ => Option.some_ne_none _⟩
  · rw [Bool.not_eq_true] at ready
    rw [ready]
    refine .inr ⟨rfl, fun able => absurd ?_ (Bool.eq_false_iff.mp ready)⟩
    simpa using able.dependencies

/-- The loop waits, or starts an eligible task. -/
theorem chooseOpen_cases (scheduled : Scheduled plan) {waiting : List TaskState}
    (chosen : chooseOpen lib run revision plan gates active integrated waiting = .ok step) :
    step = .waiting ∨ ∃ task ∈ waiting, (∃ frozen, Eligible plan gates integrated task frozen) ∧
      Starts lib run revision plan active task step := by
  induction waiting with
  | nil =>
    cases chosen
    exact .inl rfl
  | cons task rest ih =>
    cases found : plan.tasks.find? fun other => other.id == task.logicalId with
    | none =>
      rw [chooseOpen, found] at chosen
      cases chosen
    | some item =>
      obtain ⟨begun, same, able, starts⟩ | ⟨same, -⟩ := chooseOpen_cons lib run revision scheduled found
      · cases same.symm.trans chosen
        exact .inr ⟨task, mem_cons_self, ⟨item, able⟩, starts⟩
      · obtain wait | ⟨other, member, later⟩ := ih (same.symm.trans chosen)
        · exact .inl wait
        · exact .inr ⟨other, mem_cons_of_mem _ member, later⟩

/-- Everything that `choose` can answer, with what led to it. -/
theorem choose_cases (chosen : choose lib run revision plan tasks gates = .ok step) :
    (∃ reason, step = .attention reason) ∨ (∃ request, step = .integrateResult request) ∨
    (Quiet tasks ∧ (∀ task ∈ tasks, task.integrated = true) ∧
      step = if allGates plan gates then .complete else .waiting) ∨
    (Quiet tasks ∧
      chooseOpen lib run revision plan gates (tasks.filter isActive).length
        (integratedIds tasks) (tasks.filter TaskState.isOpen) = .ok step) := by
  unfold choose at chosen
  split at chosen
  · cases chosen
    exact .inl ⟨_, rfl⟩
  next calm =>
    split at chosen
    next task _ =>
      cases chosen
      rw [integrate]
      split
      · exact .inl ⟨_, rfl⟩
      · split
        · exact .inl ⟨_, rfl⟩
        · exact .inr (.inl ⟨_, rfl⟩)
    next settled =>
      have quiet : Quiet tasks :=
        ⟨fun task member => by simpa using (any_eq_false.mp (by simpa using calm)) task member,
          fun task member => by simpa using find?_eq_none.mp settled task member⟩
      split at chosen
      next all =>
        cases chosen
        exact .inr (.inr (.inl ⟨quiet, all_eq_true.mp all, rfl⟩))
      · exact .inr (.inr (.inr ⟨quiet, chosen⟩))

variable {task : TaskState}

/-- Among settled tasks, the active ones are those that hold a workspace and are not
integrated. -/
theorem Quiet.isActive_eq (quiet : Quiet tasks) (member : task ∈ tasks) :
    task.isActive = (!task.integrated && task.workspace.isSome) := by
  have settled := quiet.settled task member
  rw [awaitsIntegration] at settled
  rw [isActive]
  cases integrated : task.integrated <;> simp_all

/-! ## Progress -/

/-- The loop prepares a task when one of its tasks is eligible, none has a workspace and a
worker is free. -/
theorem chooseOpen_prepares (lib : Libraries N) (run : Text) (revision : Int)
    (scheduled : Scheduled plan) {waiting : List TaskState} (free : active < plan.maxConcurrent.toNat)
    (known : ∀ task ∈ waiting, ∃ frozen ∈ plan.tasks, frozen.id = task.logicalId)
    (noWorkspace : ∀ task ∈ waiting, task.workspace = none) {frozen : FrozenTask N}
    (member : task ∈ waiting) (eligible : Eligible plan gates integrated task frozen) :
    ∃ other ∈ waiting, chooseOpen lib run revision plan gates active integrated waiting =
      .ok (prepare lib run revision (some other.id)) := by
  induction waiting with
  | nil => cases member
  | cons head rest ih =>
    obtain ⟨item, inPlan, named⟩ := known head mem_cons_self
    have unique : ∀ other ∈ plan.tasks, other.id = head.logicalId → other = item :=
      fun other inOthers same =>
        inj_on_of_nodup_map scheduled.distinct inOthers inPlan (same.trans named.symm)
    have found : plan.tasks.find? (fun other => other.id == head.logicalId) = some item := by
      cases lookup : plan.tasks.find? fun other => other.id == head.logicalId with
      | none => simpa [named] using find?_eq_none.mp lookup item inPlan
      | some other =>
        rw [unique other (mem_of_find?_eq_some lookup) (by simpa using find?_some lookup)]
    obtain ⟨begun, same, -, ⟨-, -, rfl⟩ | ⟨place, has, -⟩⟩ | ⟨same, passed⟩ :=
      chooseOpen_cons lib run revision scheduled found
    · exact ⟨head, mem_cons_self, same⟩
    · rw [noWorkspace head mem_cons_self] at has
      cases has
    · -- The loop passes over the head, so the eligible task is in the rest.
      have inRest : task ∈ rest := by
        rcases mem_cons.mp member with rfl | inRest
        · have able := unique frozen eligible.planned eligible.named ▸ eligible
          exact absurd (noWorkspace _ mem_cons_self) (passed able free)
        · exact inRest
      obtain ⟨other, inOthers, prepared⟩ := ih
        (fun other inOthers => known other (mem_cons_of_mem _ inOthers))
        (fun other inOthers => noWorkspace other (mem_cons_of_mem _ inOthers)) inRest
      exact ⟨other, mem_cons_of_mem _ inOthers, same.trans prepared⟩

/-- The first task of the plan that is not integrated is eligible, if every stage that is
done has its gate approved. -/
theorem exists_eligible (scheduled : Scheduled plan)
    (unfinished : ∃ frozen ∈ plan.tasks, frozen.id ∉ integrated)
    (approved : ∀ stage ∈ plan.recipe.recipe.stages, stage.gate.isSome = true → (∀ frozen ∈ plan.tasks, frozen.task.stageId = stage.id → frozen.id ∈ integrated) → isApproved gates stage.id = true) :
    ∃ frozen ∈ plan.tasks, frozen.id ∉ integrated ∧
      (∀ dependency ∈ frozen.dependsOn, dependency ∈ integrated) ∧
      GatesPassed plan gates frozen.task.stageId := by
  obtain ⟨some, inPlan, missing⟩ := unfinished
  have exists_first : (plan.tasks.find? fun frozen => decide (frozen.id ∉ integrated)).isSome := by
    rw [find?_isSome]
    exact ⟨some, inPlan, decide_eq_true missing⟩
  obtain ⟨frozen, found⟩ := Option.isSome_iff_exists.mp exists_first
  obtain ⟨notYet, before, after, split, earlier⟩ := find?_eq_some_iff_append.mp found
  have done : ∀ id ∈ before.map FrozenTask.id, id ∈ integrated := by
    intro id member
    obtain ⟨item, inBefore, rfl⟩ := mem_map.mp member
    simpa using earlier item inBefore
  have first : TopologicalOrder.DepsFirst FrozenTask.id FrozenTask.dependsOn
      (before ++ frozen :: after) := split ▸ scheduled.first
  have distinct : ((before ++ frozen :: after).map FrozenTask.id).Nodup :=
    split ▸ scheduled.distinct
  have inPlan : frozen ∈ plan.tasks := mem_of_find?_eq_some found
  refine ⟨frozen, inPlan, by simpa using notYet, ?_, ?_⟩
  · exact fun dependency depends => done _ (first before frozen after rfl dependency depends)
  · intro prior inStages gated chain
    refine approved prior inStages gated fun target targetIn ofPrior => ?_
    have path := scheduled.chained _ _ chain frozen inPlan rfl target targetIn ofPrior
    rw [split] at path
    exact done _ (first.reached_before distinct path)

/-- A state in which nothing is under way, nothing is missing and something is left. -/
structure Idle (plan : PlanSnapshot N) (tasks : List TaskState) (gates : List (Text × Text)) :
    Prop where
  quiet : Quiet tasks
  noWorkspace : ∀ task ∈ tasks, task.integrated = false → task.workspace = none
  isOpen : ∀ task ∈ tasks, task.integrated = false → task.isOpen = true
  unfinished : ∃ task ∈ tasks, task.integrated = false
  approved : ∀ stage ∈ plan.recipe.recipe.stages, stage.gate.isSome = true →
    (∀ frozen ∈ plan.tasks, frozen.task.stageId = stage.id → frozen.id ∈ integratedIds tasks) →
      isApproved gates stage.id = true

theorem not_integrated_of_isOpen (isOpen : task.isOpen = true) : task.integrated = false := by
  cases integrated : task.integrated with
  | false => rfl
  | true =>
    rw [TaskState.isOpen, task.completed_of_integrated integrated] at isOpen
    exact absurd isOpen (by decide)

theorem mem_integratedIds {id : Text} :
    id ∈ integratedIds tasks ↔ ∃ task ∈ tasks, task.integrated = true ∧ task.logicalId = id := by
  simp only [integratedIds, mem_map, mem_filter, and_assoc]

/-- An idle run prepares a task. -/
theorem choose_progress (scheduled : Scheduled plan)
    (planned : (tasks.map logicalId).Perm (plan.tasks.map FrozenTask.id))
    (idle : Idle plan tasks gates) :
    ∃ task ∈ tasks, choose lib run revision plan tasks gates =
      .ok (prepare lib run revision (some task.id)) := by
  have distinct : (tasks.map logicalId).Nodup := planned.nodup_iff.mpr scheduled.distinct
  have stateOf : ∀ frozen ∈ plan.tasks, ∃ task ∈ tasks, task.logicalId = frozen.id :=
    fun frozen inPlan => mem_map.mp (planned.mem_iff.mpr (mem_map_of_mem inPlan))
  have frozenOf : ∀ task ∈ tasks, ∃ frozen ∈ plan.tasks, frozen.id = task.logicalId :=
    fun task inTasks => mem_map.mp (planned.mem_iff.mp (mem_map_of_mem inTasks))
  have left : ∃ frozen ∈ plan.tasks, frozen.id ∉ integratedIds tasks := by
    obtain ⟨task, inTasks, open_⟩ := idle.unfinished
    obtain ⟨frozen, inPlan, named⟩ := frozenOf task inTasks
    refine ⟨frozen, inPlan, fun integrated => ?_⟩
    obtain ⟨other, inOthers, isIntegrated, same⟩ := mem_integratedIds.mp integrated
    have equal : other = task :=
      inj_on_of_nodup_map distinct inOthers inTasks (same.trans named)
    rw [equal, open_] at isIntegrated
    cases isIntegrated
  obtain ⟨frozen, inPlan, missing, dependencies, passed⟩ :=
    exists_eligible scheduled left idle.approved
  obtain ⟨task, inTasks, named⟩ := stateOf frozen inPlan
  have unfinished : task.integrated = false := by
    cases integrated : task.integrated with
    | false => rfl
    | true => exact absurd (mem_integratedIds.mpr ⟨task, inTasks, integrated, named⟩) missing
  have eligible : Eligible plan gates (integratedIds tasks) task frozen :=
    ⟨inPlan, named.symm, dependencies, passed⟩
  have nobody : (tasks.filter isActive).length = 0 := by
    rw [length_eq_zero_iff, filter_eq_nil_iff]
    intro other inOthers
    rw [idle.quiet.isActive_eq inOthers]
    cases integrated : other.integrated with
    | true => simp
    | false => simp [idle.noWorkspace other inOthers integrated]
  have free : (tasks.filter isActive).length < plan.maxConcurrent.toNat := by
    have workers := UInt32.le_iff_toNat_le.mp scheduled.workers
    rw [nobody]
    exact workers
  obtain ⟨other, inOpen, prepared⟩ := chooseOpen_prepares lib run revision scheduled free
    (fun other inOpen => frozenOf other (mem_filter.mp inOpen).1)
    (fun other inOpen => idle.noWorkspace other (mem_filter.mp inOpen).1
      (not_integrated_of_isOpen (mem_filter.mp inOpen).2))
    (mem_filter.mpr ⟨inTasks, idle.isOpen task inTasks unfinished⟩) eligible
  refine ⟨other, (mem_filter.mp inOpen).1, ?_⟩
  have calm : tasks.any TaskState.needsAttention = false :=
    any_eq_false.mpr fun item inItems => by simp [idle.quiet.calm item inItems]
  have settled : tasks.find? awaitsIntegration = none :=
    find?_eq_none.mpr fun item inItems => by simp [idle.quiet.settled item inItems]
  have notAll : tasks.all TaskState.integrated = false :=
    all_eq_false.mpr ⟨task, inTasks, by simp [unfinished]⟩
  rw [choose, calm, settled, notAll]
  exact prepared

/-! ## The scheduler -/

/-- What has to hold of a task that is started. -/
structure Startable (plan : PlanSnapshot N) (tasks : List TaskState) (gates : List (Text × Text))
    (task : TaskState) (frozen : FrozenTask N) : Prop where
  isOpen : task.isOpen = true
  planned : frozen ∈ plan.tasks
  named : frozen.id = task.logicalId
  dependencies : ∀ dependency ∈ frozen.dependsOn, ∃ other ∈ tasks,
    other.logicalId = dependency ∧ other.integrated = true
  passed : GatesPassed plan gates frozen.task.stageId

/-- The tasks that are not integrated and hold a workspace. -/
def holders (tasks : List TaskState) : List TaskState :=
  tasks.filter fun task => !task.integrated && task.workspace.isSome

theorem Quiet.active_eq (quiet : Quiet tasks) : tasks.filter isActive = holders tasks :=
  filter_congr fun _ member => quiet.isActive_eq member

/-- A task is started only behind everything it waits for. -/
theorem choose_starts (scheduled : Scheduled plan)
    (chosen : choose lib run revision plan tasks gates = .ok step)
    (starts : (∃ request, step = .launchTask request) ∨ ∃ request, step = .prepareWorkspace request) :
    Quiet tasks ∧ ∃ task ∈ tasks, (∃ frozen, Startable plan tasks gates task frozen) ∧
      Starts lib run revision plan (holders tasks).length task step := by
  rcases choose_cases chosen with ⟨reason, rfl⟩ | ⟨request, rfl⟩ | ⟨-, -, rfl⟩ | ⟨quiet, chosenOpen⟩
  · rcases starts with ⟨_, impossible⟩ | ⟨_, impossible⟩ <;> cases impossible
  · rcases starts with ⟨_, impossible⟩ | ⟨_, impossible⟩ <;> cases impossible
  · rcases starts with ⟨_, impossible⟩ | ⟨_, impossible⟩ <;> split at impossible <;>
      cases impossible
  · rcases chooseOpen_cases scheduled chosenOpen with rfl | ⟨task, member, ⟨frozen, eligible⟩, begun⟩
    · rcases starts with ⟨_, impossible⟩ | ⟨_, impossible⟩ <;> cases impossible
    · obtain ⟨inTasks, isOpen⟩ := mem_filter.mp member
      refine ⟨quiet, task, inTasks, ⟨frozen, isOpen, eligible.planned, eligible.named, ?_,
        eligible.passed⟩, quiet.active_eq ▸ begun⟩
      intro dependency depends
      obtain ⟨other, inOthers, integrated, named⟩ :=
        mem_integratedIds.mp (eligible.dependencies dependency depends)
      exact ⟨other, inOthers, named, integrated⟩

/-- A step of the whole function that starts a task, read from the rows, does so in a
running run whose integration workspace is ready. -/
theorem workflowExecutionStep_starts (scheduled : Scheduled plan) {running : Bool}
    {integration : Option Text} {rows : List TaskStateRow} {request : TaskRequest}
    (chosen : workflowExecutionStep lib run revision running integration plan rows gates =
      .ok (.launchTask request)) :
    running = true ∧ integration = some "ready".toList ∧
      ∃ row ∈ rows, request.taskId = row.taskId ∧
        ∃ frozen, Startable plan (rows.map (ofRow lib)) gates (.ofRow lib row) frozen := by
  unfold workflowExecutionStep at chosen
  split at chosen
  · cases chosen
  next isRunning =>
    split at chosen
    · cases chosen
    next phase =>
      split at chosen
      · cases chosen
      · split at chosen
        next ready =>
          split at chosen
          · cases chosen
          · obtain ⟨-, task, inTasks, startable, begun⟩ :=
              choose_starts scheduled chosen (.inl ⟨request, rfl⟩)
            obtain ⟨row, inRows, rfl⟩ := mem_map.mp inTasks
            refine ⟨by simpa using isRunning, by rw [beq_iff_eq.mp ready], row, inRows, ?_, startable⟩
            rcases begun with ⟨-, -, impossible⟩ | ⟨workspace, -, -, same⟩
            · cases impossible
            · cases same
              rfl
        · cases chosen

end Steps

section Scheduler

variable {N : Type} (lib : Libraries N)

/-- **The scheduler of a compiled plan is safe and does not get stuck.**  It starts a task
only behind its dependencies and gates, within the number of workers, and never while
something needs attention or waits to be integrated; it reports completion only when
everything is integrated and approved; and an idle run with something left prepares a
task. -/
theorem choose_safe_and_live (proposal : Proposal N) (recipe : RecipeSnapshot N)
    (profiles : List (Text × AgentProfile N)) (sourceWorkspace : SourceWorkspace)
    (plan : PlanSnapshot N)
    (compiled : compilePlan lib proposal recipe profiles sourceWorkspace = .ok plan)
    (tasks : List TaskState)
    (planned : (tasks.map logicalId).Perm (plan.tasks.map FrozenTask.id))
    (gates : List (Text × Text)) (run : Text) (revision : Int) :
    (∀ request, choose lib run revision plan tasks gates = .ok (.launchTask request) →
      ∃ task ∈ tasks, request.taskId = task.id ∧ ∃ frozen, Startable plan tasks gates task frozen) ∧
    (∀ request, choose lib run revision plan tasks gates = .ok (.prepareWorkspace request) →
      (∃ task ∈ tasks, request.taskId = some task.id ∧
        ∃ frozen, Startable plan tasks gates task frozen) ∧
      (holders tasks).length < plan.maxConcurrent.toNat) ∧
    (choose lib run revision plan tasks gates = .ok .complete →
      (∀ task ∈ tasks, task.integrated = true) ∧
      ∀ stage ∈ plan.recipe.recipe.stages, stage.gate.isSome = true →
        isApproved gates stage.id = true) ∧
    ((∃ task ∈ tasks, task.awaitsIntegration = true ∨ task.needsAttention = true) →
      (∀ request, choose lib run revision plan tasks gates ≠ .ok (.launchTask request)) ∧
      ∀ request, choose lib run revision plan tasks gates ≠ .ok (.prepareWorkspace request)) ∧
    (Idle plan tasks gates → ∃ task ∈ tasks,
      choose lib run revision plan tasks gates = .ok (prepare lib run revision (some task.id))) := by
  have scheduled := compilePlan_scheduled compiled
  have noisy : (∃ task ∈ tasks, task.awaitsIntegration = true ∨ task.needsAttention = true) →
      ¬ Quiet tasks := by
    rintro ⟨task, inTasks, awaits | attention⟩ quiet
    · exact Bool.false_ne_true ((quiet.settled task inTasks).symm.trans awaits)
    · exact Bool.false_ne_true ((quiet.calm task inTasks).symm.trans attention)
  refine ⟨?_, ?_, ?_, ?_, choose_progress scheduled planned⟩
  · intro request chosen
    obtain ⟨-, task, inTasks, startable, begun⟩ :=
      choose_starts scheduled chosen (.inl ⟨request, rfl⟩)
    refine ⟨task, inTasks, ?_, startable⟩
    rcases begun with ⟨-, -, impossible⟩ | ⟨workspace, -, -, same⟩
    · cases impossible
    · cases same
      rfl
  · intro request chosen
    obtain ⟨-, task, inTasks, startable, begun⟩ :=
      choose_starts scheduled chosen (.inr ⟨request, rfl⟩)
    rcases begun with ⟨-, free, same⟩ | ⟨workspace, -, -, impossible⟩
    · cases same
      exact ⟨⟨task, inTasks, rfl, startable⟩, free⟩
    · cases impossible
  · intro chosen
    rcases choose_cases chosen with ⟨_, impossible⟩ | ⟨_, impossible⟩ | ⟨-, all, outcome⟩ |
      ⟨-, chosenOpen⟩
    · cases impossible
    · cases impossible
    · split at outcome
      next approved =>
        refine ⟨all, fun stage inStages gated => ?_⟩
        rw [allGates, all_eq_true] at approved
        exact approved stage (mem_filter.mpr ⟨inStages, gated⟩)
      · cases outcome
    · rcases chooseOpen_cases scheduled chosenOpen with impossible | ⟨_, -, -, begun⟩
      · cases impossible
      · rcases begun with ⟨-, -, impossible⟩ | ⟨_, -, -, impossible⟩ <;> cases impossible
  · intro disturbed
    refine ⟨fun request chosen => ?_, fun request chosen => ?_⟩
    · exact noisy disturbed (choose_starts scheduled chosen (.inl ⟨request, rfl⟩)).1
    · exact noisy disturbed (choose_starts scheduled chosen (.inr ⟨request, rfl⟩)).1

end Scheduler

/-- A pending task without a workspace. -/
def pendingState (id : String) : TaskState where
  id := id.toList
  logicalId := id.toList
  status := "pending".toList
  integrated := false
  workspace := none
  phase := none
  integration := none
  integrationRequest := none
  completed_of_integrated := nofun

def sampleStates : List TaskState := [pendingState "a", pendingState "b"]

def sampleGates : List (Text × Text) := [("review".toList, "approved".toList)]

theorem choose_safe_and_live_two_stages :
    ∃ plan, sampleCompile 1 sampleTasks = .ok plan ∧ Idle plan sampleStates sampleGates ∧
      ∃ task ∈ sampleStates, choose sampleLibraries [] 1 plan sampleStates sampleGates =
        .ok (prepare sampleLibraries [] 1 (some task.id)) := by
  obtain ⟨plan, compiled⟩ := sampleCompile_succeeds
  have planned : (sampleStates.map logicalId).Perm (plan.tasks.map FrozenTask.id) :=
    (List.Perm.swap _ _ []).trans (compilePlan_ids compiled).symm
  obtain ⟨-, -, -, sameRecipe, -⟩ := compilePlan_ok compiled
  have idle : Idle plan sampleStates sampleGates := by
    refine ⟨⟨by decide, by decide⟩, by decide, by decide, by decide, ?_⟩
    rw [sameRecipe]
    intro stage member gated _
    have gatedStages : ∀ stage ∈ sampleRecipe.stages, stage.gate.isSome = true →
        isApproved sampleGates stage.id = true := by decide
    exact gatedStages stage member gated
  have live := choose_safe_and_live sampleLibraries (sampleProposal 1 sampleTasks) sampleSnapshot
    sampleProfiles sampleWorkspace plan compiled sampleStates planned sampleGates [] 1
  exact ⟨plan, compiled, idle, live.2.2.2.2 idle⟩

end Alera.Orchestration.Recipes
