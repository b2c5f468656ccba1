/-
# Alera.Orchestration.Integrations -- results brought into a run's branch

The integrations of isolated runs: reservation, the outcome that Git prepared,
completion and attention (`run_integration_store.rs`), the request that every one of
them captures again (`run_integration_validation.rs`), the settlement of what a
cancelled run left behind (`run_integration_cancellation.rs`), and the indexes of
`runIntegrations` (`run_integration_schema.rs`).

The store of runs knows of an integration its run, its state and whether it has a
receipt (`RunStore`); here are the whole rows.  `IntegrationStore.seen` shows them to the
operations on runs, and `writeStates` takes back what those wrote: a cancellation
returns an integration from attention.

Row ids are numbers.  Workspaces, projects and attempts change at will between two
steps (`Sources`), and so do tasks.  What JSON texts hold and what is digested are
parameters (`Texts`).  Timeline events are left out.
-/
import Alera.Orchestration.RunLifecycle

namespace Alera.Orchestration

open Theory Tables

set_option autoImplicit false

/-! ## Requests and receipts -/

/-- `WorkflowGitResource`. -/
structure GitResource where
  id : Nat
  path : Text
  baseSha : Text
  deriving DecidableEq

/-- `WorkflowIntegrationRequest`. -/
structure IntegrationRequest where
  id : Nat
  repoPath : Text
  runId : Nat
  revision : Nat
  taskId : Nat
  dispatchId : Nat
  integration : GitResource
  source : GitResource
  expectedSha : Text
  sourceSha : Text
  resultDigest : Text
  artifacts : List Text
  deriving DecidableEq

/-- `WorkflowIntegrationReceipt`. -/
structure IntegrationReceipt where
  version : Nat
  request : IntegrationRequest
  integratedSha : Text
  artifactDigest : Text
  deriving DecidableEq

/-- `WorkflowGitPreparation`. -/
inductive GitPreparation where
  | ready (receipt : IntegrationReceipt)
  | conflict (paths : List Text) (truncated : Bool)
  | refused (paths : List Text) (truncated : Bool) (reason : Text)

/-- A row of `runIntegrations`. -/
structure Integration where
  id : Nat
  requestId : Text
  requestDigest : Text
  runId : Nat
  revision : Nat
  taskId : Nat
  workspaceId : Nat
  request : IntegrationRequest
  state : IntegrationState
  receipt : Option IntegrationReceipt
  conflictPaths : List Text
  conflictsTruncated : Bool
  error : Option Text
  cancelled : Bool
  deriving DecidableEq

/-- Shown as integrated or cancelled. -/
def Integration.closed (row : Integration) : Bool := row.cancelled || row.state = .integrated

/-- What the store of runs reads of the row. -/
def Integration.seen (row : Integration) : IntegrationRow :=
  ⟨row.runId, row.state, row.receipt.isSome, row.cancelled⟩

/-- The task and the attempt whose result is integrated. -/
structure IntegrationTarget where
  runId : Nat
  revision : Nat
  taskId : Nat
  workspaceId : Nat
  deriving DecidableEq

/-- `IntegrateWorkflowResult`. -/
structure IntegrateResult extends IntegrationTarget where
  requestId : Text
  deriving DecidableEq

/-! ## What a request is captured from -/

/-- A row of `runWorkspaces`. -/
structure WorkspaceRecord where
  id : Nat
  runId : Nat
  revision : Nat
  taskId : Option Nat
  ownerWorkspaceId : Nat
  repoPath : Text
  instanceId : Nat
  projectId : Nat
  path : Text
  branch : Text
  baseSha : Text
  /-- `phase = 'ready'`. -/
  ready : Bool
  dispatchId : Option Nat
  deriving DecidableEq

def WorkspaceRecord.resource (record : WorkspaceRecord) : GitResource :=
  ⟨record.id, record.path, record.baseSha⟩

/-- A row of `workspaces`. -/
structure WorkspaceRow where
  id : Nat
  instanceId : Nat
  projectId : Nat
  path : Text
  branch : Text
  isLocal : Bool
  linked : Bool
  active : Bool
  deriving DecidableEq

structure ProjectRow where
  id : Nat
  repoPath : Text
  gitRepository : Bool
  deriving DecidableEq

/-- What is read of `orchestrationDispatchContexts`. -/
structure AttemptRow where
  id : Nat
  taskId : Nat
  runId : Option Nat
  workspaceId : Option Nat
  completed : Bool
  completionSha : Option Text
  deriving DecidableEq

structure Sources where
  records : List WorkspaceRecord
  workspaces : List WorkspaceRow
  projects : List ProjectRow
  attempts : List AttemptRow
  /-- The column `workspace_id` of tasks. -/
  taskWorkspace : Nat → Option Nat

/-- `WorkflowSourceWorkspace`. -/
structure SourceWorkspace where
  workspaceId : Nat
  instanceId : Nat
  projectId : Nat
  path : Text
  projectRepoPath : Text
  deriving DecidableEq

structure Texts where
  digests : Digests
  /-- `workflow_digest` of a request. -/
  inputDigest : IntegrateResult → Text
  sourceWorkspace : PlanSnapshot → SourceWorkspace
  contentDigest : PlanSnapshot → Text
  /-- `validate_success_result` of the frozen contract. -/
  acceptsResult : PlanTask → Text → Bool
  /-- The artifacts of a result, when they are a list of texts. -/
  artifacts : Text → Option (List Text)

/-- `require_source_workspace`. -/
def Sources.hasSource (sources : Sources) (origin : SourceWorkspace) : Bool :=
  sources.workspaces.any fun row =>
    row.id = origin.workspaceId && row.instanceId = origin.instanceId &&
      row.projectId = origin.projectId && row.path = origin.path && row.active && row.isLocal &&
      sources.projects.any fun project =>
        project.id = row.projectId && project.repoPath = origin.projectRepoPath && project.gitRepository

/-- `require_resource`. -/
def Sources.hasResource (sources : Sources) (record : WorkspaceRecord) : Bool :=
  record.ready && sources.workspaces.any fun row =>
    row.id = record.id && row.instanceId = record.instanceId && row.projectId = record.projectId &&
      row.isLocal && row.path = record.path && row.branch = record.branch && row.linked && row.active

/-- `approved_plan`: the plan, and the commit the run's branch is at. -/
def approvedPlan (texts : Texts) (store : Store) (sources : Sources) (run revision : Nat) :
    Option (PlanSnapshot × Text) := do
  let row ← store.run? run
  guard (row.planRevision = some revision && row.isolation = .isolated &&
    (row.status = .running || row.status = .paused))
  let current ← store.revision? run revision
  guard (current.plan.digest = texts.contentDigest current.plan)
  guard (sources.hasSource (texts.sourceWorkspace current.plan))
  return (current.plan, row.integrationSha.getD [])

/-- The record belongs to the run and to the plan's workspace. -/
def WorkspaceRecord.belongs (record : WorkspaceRecord) (run : Nat) (origin : SourceWorkspace) : Bool :=
  record.runId = run && record.ownerWorkspaceId = origin.workspaceId &&
    record.repoPath = origin.projectRepoPath && record.projectId = origin.projectId

/-- Forty lowercase hexadecimal digits. -/
def commitSha (sha : Text) : Bool :=
  sha.length = 40 && sha.all fun c => c.isDigit || ('a' ≤ c && c ≤ 'f')

/-- `MAX_WORKFLOW_ARTIFACTS`. -/
def maxWorkflowArtifacts : Nat := 128

/-- `capture`. -/
def capture (texts : Texts) (store : Store) (sources : Sources) (target : IntegrationTarget) (id : Nat) :
    Option IntegrationRequest := do
  let (plan, expectedSha) ← approvedPlan texts store sources target.runId target.revision
  let origin := texts.sourceWorkspace plan
  let source ← lookup WorkspaceRecord.id target.workspaceId sources.records
  let integration ← sources.records.find? fun record =>
    record.runId = target.runId && record.taskId.isNone
  guard (sources.hasResource source && source.belongs target.runId origin)
  guard (sources.hasResource integration && integration.belongs target.runId origin)
  guard (source.taskId = some target.taskId && source.revision = target.revision)
  let dispatchId ← source.dispatchId
  let task ← store.work.tasks.find? fun task =>
    task.runId = some target.runId && task.planRevision = some target.revision &&
      task.id = target.taskId && sources.taskWorkspace task.id = some origin.workspaceId &&
      task.status = .completed
  let attempt ← sources.attempts.find? fun attempt =>
    attempt.id = dispatchId && attempt.taskId = task.id && attempt.runId = some target.runId &&
      attempt.workspaceId = some target.workspaceId && attempt.completed
  let sourceSha ← attempt.completionSha
  guard (commitSha sourceSha)
  let raw ← task.result
  let planned ← plan.tasks.find? (·.id = task.logicalId)
  guard (texts.acceptsResult planned raw)
  let artifacts ← texts.artifacts raw
  guard (artifacts.length ≤ maxWorkflowArtifacts)
  return {
    id, dispatchId, expectedSha, sourceSha, artifacts
    repoPath := source.repoPath
    runId := target.runId
    revision := target.revision
    taskId := target.taskId
    integration := integration.resource
    source := source.resource
    resultDigest := texts.digests.result task.result }

/-! ## The store -/

structure IntegrationStore where
  runs : RunMachine
  rows : List Integration
  sources : Sources

namespace IntegrationStore

variable (texts : Texts)

/-- The store as the operations on runs see it. -/
def seen (s : IntegrationStore) : Store :=
  { s.runs.store with work := { s.runs.store.work with integrations := s.rows.map Integration.seen } }

def row? (s : IntegrationStore) (id : Nat) : Option Integration := lookup Integration.id id s.rows

/-- `require_current`. -/
def requireCurrent (s : IntegrationStore) (request : IntegrationRequest) : Bool :=
  capture texts s.seen s.sources
    ⟨request.runId, request.revision, request.taskId, request.source.id⟩ request.id = some request

/-- The unique indexes `runUnsettledIntegration` and `runIntegratedTask`. -/
def commitRows (s : IntegrationStore) (rows : List Integration) : Option IntegrationStore :=
  if ((rows.filter (·.state.unsettled)).map Integration.runId).Nodup ∧
      ((rows.filter (·.state = .integrated)).map Integration.taskId).Nodup then
    some { s with rows }
  else none

def updateRow (s : IntegrationStore) (id : Nat) (set : Integration → Integration) :
    Option IntegrationStore :=
  s.commitRows (updateWhere s.rows (·.id = id) set)

/-- A row of `runTaskEvidence` names the task. -/
def hasEvidence (s : IntegrationStore) (taskId : Nat) : Bool :=
  s.runs.store.work.tasks.any fun task => task.id = taskId && task.evidence.isSome

/-- `reserve_workflow_integration`. -/
def reserve (s : IntegrationStore) (input : IntegrateResult) (id : Nat) : Option IntegrationStore := do
  guard (workflowText input.requestId 160)
  match lookup Integration.requestId input.requestId s.rows with
  | some row => if row.requestDigest = texts.inputDigest input then some s else none
  | none => do
      guard (!s.hasEvidence input.taskId)
      let request ← capture texts s.seen s.sources input.toIntegrationTarget id
      guard (!s.rows.any (·.id = id))
      let row : Integration :=
        { id, request
          requestId := input.requestId
          requestDigest := texts.inputDigest input
          runId := input.runId
          revision := input.revision
          taskId := input.taskId
          workspaceId := input.workspaceId
          state := .pending
          receipt := none
          conflictPaths := []
          conflictsTruncated := false
          error := none
          cancelled := false }
      s.commitRows (s.rows ++ [row])

/-- At most 128 paths of at most 1024 characters. -/
def reportable (paths : List Text) : Bool := paths.length ≤ 128 && paths.all (·.length ≤ 1024)

/-- What a prepared outcome writes; `none` when it does not fit the reservation. -/
def prepared (row : Integration) : GitPreparation → Option (Integration → Integration)
  | .ready receipt =>
    if receipt.request = row.request && receipt.version = 1 && row.receipt.all (· = receipt) then
      some fun row =>
        { row with
          state := .prepared
          receipt := some receipt
          conflictPaths := []
          conflictsTruncated := false
          error := none }
    else none
  | .conflict paths truncated =>
    if row.receipt.isNone && reportable paths then
      some fun row =>
        { row with
          state := .conflict
          conflictPaths := paths
          conflictsTruncated := truncated
          error := none }
    else none
  | .refused paths truncated reason =>
    if row.receipt.isNone && !reason.isEmpty && Cloud.byteLength reason ≤ 1000 && reportable paths then
      some fun row =>
        { row with
          state := .conflict
          conflictPaths := paths
          conflictsTruncated := truncated
          error := some reason }
    else none

/-- `record_workflow_integration_preparation`. -/
def recordPreparation (s : IntegrationStore) (id : Nat) (outcome : GitPreparation) :
    Option IntegrationStore := do
  let row ← s.row? id
  if row.closed then return s
  else do
    guard (s.requireCurrent texts row.request)
    let set ← prepared row outcome
    s.updateRow id set

/-- The evidence of the task, and the commit the run's branch is at now. -/
def advanceRun (store : Store) (request : IntegrationRequest) (receipt : IntegrationReceipt) : Store :=
  (store.updateTasks (·.id = request.taskId) fun task =>
    { task with
      evidence := some ⟨request.resultDigest, receipt.artifactDigest, receipt.integratedSha⟩ }).updateRun
    request.runId fun run => { run with integrationSha := some receipt.integratedSha }

/-- `complete_workflow_integration`. -/
def complete (s : IntegrationStore) (receipt : IntegrationReceipt) : Option IntegrationStore := do
  let row ← s.row? receipt.request.id
  guard (row.receipt = some receipt)
  if row.closed then return s
  else do
    guard (row.state = .prepared)
    guard (s.requireCurrent texts row.request)
    guard (!s.hasEvidence row.request.taskId)
    let integrated ← s.updateRow row.id fun row => { row with state := .integrated, error := none }
    return { integrated with
      runs := { s.runs with store := advanceRun s.runs.store row.request receipt } }

/-- `workflow_integration_attention`. -/
def attention (s : IntegrationStore) (id : Nat) (error : Text) : Option IntegrationStore :=
  s.commitRows (updateWhere s.rows
    (fun row => row.id = id && row.state ≠ .integrated && row.state ≠ .conflict && !row.cancelled)
    fun row => { row with state := .attention, error := some (error.take 1000) })

/-- The recorded workspace is still the one that a request names. -/
def keepsResource (s : IntegrationStore) (request : IntegrationRequest) (expected : GitResource) : Bool :=
  (lookup WorkspaceRecord.id expected.id s.sources.records).any fun record =>
    s.sources.hasResource record && record.runId = request.runId &&
      record.repoPath = request.repoPath && record.path = expected.path &&
      record.baseSha = expected.baseSha

/-- `settle_cancelled_workflow_integration`. -/
def settleCancelled (s : IntegrationStore) (id : Nat) (receipt : Option IntegrationReceipt) :
    Option IntegrationStore := do
  let row ← s.row? id
  if row.cancelled then return s
  else do
    guard row.state.unsettled
    guard ((s.runs.store.run? row.request.runId).any fun run =>
      run.planRevision = some row.request.revision && run.status = .cancelled)
    guard (receipt.all (fun receipt => receipt.version = 1 && receipt.request = row.request) &&
      row.receipt.all (some · = receipt))
    guard (s.keepsResource row.request row.request.integration &&
      s.keepsResource row.request row.request.source)
    s.updateRow id fun row => { row with cancelled := true, receipt }

/-- The states that an operation on runs has written. -/
def writeStates (rows : List Integration) (written : List IntegrationRow) : List Integration :=
  List.zipWith (fun row now => { row with state := now.state }) rows written

/-- An operation on runs.  Whatever else happens around runs does not touch integrations. -/
def runStep (s : IntegrationStore) (event : RunEvent) : Option IntegrationStore :=
  let event := match event with
    | .work work => .work { work with integrations := s.rows.map Integration.seen }
    | event => event
  (RunMachine.step texts.digests { s.runs with store := s.seen } event).map fun runs =>
    { s with runs, rows := writeStates s.rows runs.store.work.integrations }

end IntegrationStore

/-! ## Histories -/

inductive IntegrationEvent where
  | run (event : RunEvent)
  | sources (sources : Sources)
  | reserve (input : IntegrateResult) (id : Nat)
  | prepare (id : Nat) (outcome : GitPreparation)
  | complete (receipt : IntegrationReceipt)
  | attention (id : Nat) (error : Text)
  | settleCancelled (id : Nat) (receipt : Option IntegrationReceipt)

def IntegrationStore.step (texts : Texts) (s : IntegrationStore) :
    IntegrationEvent → Option IntegrationStore
  | .run event => s.runStep texts event
  | .sources sources => some { s with sources }
  | .reserve input id => s.reserve texts input id
  | .prepare id outcome => s.recordPreparation texts id outcome
  | .complete receipt => s.complete texts receipt
  | .attention id error => s.attention id error
  | .settleCancelled id receipt => s.settleCancelled id receipt

/-! ## The integrations of a run form one line

Every completion captures its request again, and with it the commit that the run's
branch is at.  So a completed integration starts at the commit where the one completed
before it ended, whatever was reserved, prepared, repeated or settled in between, and
whatever happened to the run.

An operation on runs leaves the commit of every run alone, and returns at most the
integrations of one run from attention (`step_touched`).
`Effect` is what any operation does, and `Chained` the invariant.  `Linked` is about
lists whose elements start where the one before ended.
-/

open List
open IntegrationStore (advanceRun prepared writeStates)
open Option (guard_eq_some' isSome_iff_exists)

/-! ## Lines -/

section Lines

variable {α σ : Type} {starts : σ → α → Prop} {ends : α → σ}

/-- Each element starts where the one before it ended, the first one at the given point. -/
def Linked (starts : σ → α → Prop) (ends : α → σ) : σ → List α → σ → Prop
  | first, [], last => last = first
  | first, a :: as, last => starts first a ∧ Linked starts ends (ends a) as last

theorem Linked.concat {first last : σ} {as : List α} {a : α} (linked : Linked starts ends first as last)
    (next : starts last a) : Linked starts ends first (as ++ [a]) (ends a) := by
  induction as generalizing first with
  | nil =>
    cases linked
    exact ⟨next, rfl⟩
  | cons b as ih => exact ⟨linked.1, ih linked.2⟩

end Lines

/-! ## What a step does to integrations -/

/-- The unique indexes hold. -/
structure Indexed (rows : List Integration) : Prop where
  unsettled : ((rows.filter (·.state.unsettled)).map Integration.runId).Nodup
  integrated : ((rows.filter (·.state = .integrated)).map Integration.taskId).Nodup

/-- The columns of an integration that no operation writes. -/
structure KeepsIdentity (set : Integration → Integration) : Prop where
  id : ∀ row, (set row).id = row.id
  runId : ∀ row, (set row).runId = row.runId
  taskId : ∀ row, (set row).taskId = row.taskId
  request : ∀ row, (set row).request = row.request

inductive Effect (s t : IntegrationStore) : Prop where
  /-- Integrations that are not integrated change, and are not integrated after it. -/
  | rewrites (selects : Integration → Bool) (set : Integration → Integration)
      (rows : t.rows = updateWhere s.rows selects set) (keeps : KeepsIdentity set)
      (unintegrated : ∀ row ∈ s.rows, selects row = true →
        row.state ≠ .integrated ∧ (set row).state ≠ .integrated)
      (indexed : Indexed s.rows → Indexed t.rows) (shas : KeepsShas s.runs.store t.runs.store)
  | reserves (row : Integration) (rows : t.rows = s.rows ++ [row])
      (fresh : ∀ other ∈ s.rows, other.id ≠ row.id) (pending : row.state = .pending)
      (own : row.request.runId = row.runId) (known : (s.runs.store.run? row.runId).isSome)
      (indexed : Indexed t.rows) (runs : t.runs = s.runs)
  | integrates (row : Integration) (receipt : IntegrationReceipt) (run : RunRow)
      (found : s.row? row.id = some row) (prepared : row.state = .prepared)
      (hasReceipt : row.receipt = some receipt) (runFound : s.runs.store.run? row.request.runId = some run)
      (current : row.request.expectedSha = run.integrationSha.getD [])
      (rows : t.rows = updateWhere s.rows (·.id = row.id)
        fun row => { row with state := .integrated, error := none })
      (indexed : Indexed t.rows)
      (store : t.runs.store = advanceRun s.runs.store row.request receipt)

section Steps

variable {texts : Texts} {s t : IntegrationStore}

theorem Effect.same (rows : t.rows = s.rows) (shas : KeepsShas s.runs.store t.runs.store) : Effect s t := by
  refine .rewrites (fun _ => false) id ?_ ⟨fun _ => rfl, fun _ => rfl, fun _ => rfl, fun _ => rfl⟩ nofun
    (fun indexed => rows ▸ indexed) shas
  rw [updateWhere_false, rows]

theorem commitRows_some {rows : List Integration} (done : s.commitRows rows = some t) :
    t = { s with rows } ∧ Indexed rows := by
  obtain ⟨indexes, done⟩ := of_when done
  exact ⟨(Option.some.inj done).symm, indexes.1, indexes.2⟩

variable {id : Nat}

/-- What a captured request says of its run. -/
theorem capture_some {store : Store} {sources : Sources} {target : IntegrationTarget}
    {request : IntegrationRequest} (captured : capture texts store sources target id = some request) :
    ∃ run, store.run? target.runId = some run ∧ request.expectedSha = run.integrationSha.getD [] ∧
      request.runId = target.runId := by
  obtain ⟨⟨plan, sha⟩, approved, captured⟩ := of_bind captured
  obtain ⟨run, found, _, _, approved⟩ := of_bind₂ approved
  obtain ⟨current, _, _, _, approved⟩ := of_bind₂ approved
  obtain ⟨_, _, approved⟩ := of_bind approved
  cases approved
  obtain ⟨source, _, integration, _, captured⟩ := of_bind₂ captured
  obtain ⟨_, _, _, _, captured⟩ := of_bind₂ captured
  obtain ⟨_, _, dispatchId, _, captured⟩ := of_bind₂ captured
  obtain ⟨task, _, attempt, _, captured⟩ := of_bind₂ captured
  obtain ⟨sourceSha, _, _, _, captured⟩ := of_bind₂ captured
  obtain ⟨raw, _, planned, _, captured⟩ := of_bind₂ captured
  obtain ⟨_, _, artifacts, _, captured⟩ := of_bind₂ captured
  obtain ⟨_, _, captured⟩ := of_bind captured
  cases captured
  exact ⟨run, found, rfl, rfl⟩

theorem reserve_effect {input : IntegrateResult} (done : s.reserve texts input id = some t) :
    Effect s t := by
  obtain ⟨_, _, done⟩ := of_bind done
  split at done
  · split at done
    · cases done
      exact .same rfl fun id row found => ⟨row, found, rfl⟩
    · cases done
  · obtain ⟨_, _, request, captured, done⟩ := of_bind₂ done
    obtain ⟨_, unused, done⟩ := of_bind done
    obtain ⟨rfl, indexed⟩ := commitRows_some done
    obtain ⟨run, found, -, own⟩ := capture_some captured
    have fresh := (guard_eq_some' _).mp unused
    simp only [Bool.not_eq_true', any_eq_false, decide_eq_true_eq] at fresh
    refine .reserves _ rfl fresh rfl own ?_ indexed rfl
    exact isSome_iff_exists.mpr ⟨run, found⟩

variable {row : Integration} {outcome : GitPreparation}

/-- No outcome of Git integrates. -/
theorem prepared_some {set : Integration → Integration}
    (sets : prepared row outcome = some set) :
    KeepsIdentity set ∧ ∀ row, (set row).state ≠ .integrated := by
  cases outcome with
  | ready | conflict | refused =>
    rw [prepared] at sets
    split at sets
    · cases sets
      exact ⟨⟨fun _ => rfl, fun _ => rfl, fun _ => rfl, fun _ => rfl⟩, fun _ => nofun⟩
    · cases sets

/-- The row with an id, as the ids are unique. -/
theorem row_of_id (unique : (s.rows.map Integration.id).Nodup) {other : Integration}
    (found : s.row? id = some row) (member : other ∈ s.rows) (same : other.id = id) :
    other = row := by
  obtain ⟨memberRow, isId⟩ := lookup_some found
  exact eq_of_key unique member memberRow (same.trans isId.symm)

theorem recordPreparation_effect (unique : (s.rows.map Integration.id).Nodup)
    (done : s.recordPreparation texts id outcome = some t) :
    Effect s t := by
  obtain ⟨row, found, done⟩ := of_bind done
  split at done
  · cases done
    exact .same rfl fun id row found => ⟨row, found, rfl⟩
  · rename_i unclosed
    obtain ⟨_, _, set, sets, done⟩ := of_bind₂ done
    obtain ⟨keeps, unintegrated⟩ := prepared_some sets
    obtain ⟨rfl, indexed⟩ := commitRows_some done
    refine .rewrites _ set rfl keeps (fun other member selected => ⟨?_, unintegrated other⟩)
      (fun _ => indexed) fun id row found => ⟨row, found, rfl⟩
    rw [row_of_id unique found member (of_decide_eq_true selected)]
    intro integrated
    exact unclosed (by simp [Integration.closed, integrated])

theorem complete_effect {receipt : IntegrationReceipt} (done : s.complete texts receipt = some t) :
    Effect s t := by
  obtain ⟨row, found, _, sameReceipt, done⟩ := of_bind₂ done
  split at done
  · cases done
    exact .same rfl fun id row found => ⟨row, found, rfl⟩
  · obtain ⟨_, prepared, _, current, done⟩ := of_bind₂ done
    obtain ⟨_, _, integrated, updated, done⟩ := of_bind₂ done
    obtain ⟨rfl, indexed⟩ := commitRows_some updated
    cases done
    have captured := of_decide_eq_true ((guard_eq_some' _).mp current)
    obtain ⟨run, runFound, expected, -⟩ := capture_some captured
    have isId := (lookup_some found).2
    refine .integrates row receipt run (isId ▸ found) ((guard_eq_some' _).mp prepared)
      ((guard_eq_some' _).mp sameReceipt) runFound expected rfl indexed rfl

theorem attention_effect {error : Text} (done : s.attention id error = some t) : Effect s t := by
  obtain ⟨rfl, indexed⟩ := commitRows_some done
  refine .rewrites _ _ rfl ⟨fun _ => rfl, fun _ => rfl, fun _ => rfl, fun _ => rfl⟩
    (fun row _ selected => ⟨?_, nofun⟩) (fun _ => indexed) fun id row found => ⟨row, found, rfl⟩
  simp only [Bool.and_eq_true, decide_eq_true_eq] at selected
  exact selected.1.1.2

theorem settleCancelled_effect (unique : (s.rows.map Integration.id).Nodup)
    {receipt : Option IntegrationReceipt} (done : s.settleCancelled id receipt = some t) :
    Effect s t := by
  obtain ⟨row, found, done⟩ := of_bind done
  split at done
  · cases done
    exact .same rfl fun id row found => ⟨row, found, rfl⟩
  · obtain ⟨_, unsettled, _, _, done⟩ := of_bind₂ done
    obtain ⟨_, _, _, _, done⟩ := of_bind₂ done
    obtain ⟨rfl, indexed⟩ := commitRows_some done
    have unintegrated : row.state ≠ .integrated := by
      intro integrated
      rw [integrated] at unsettled
      cases unsettled
    refine .rewrites _ _ rfl ⟨fun _ => rfl, fun _ => rfl, fun _ => rfl, fun _ => rfl⟩
      (fun other member selected => ?_) (fun _ => indexed) fun id row found => ⟨row, found, rfl⟩
    rw [row_of_id unique found member (of_decide_eq_true selected)]
    exact ⟨unintegrated, unintegrated⟩

/-- What is written through the view of the store of runs is written to the rows. -/
theorem writeStates_updateWhere (selects : IntegrationRow → Bool) (set : IntegrationRow → IntegrationRow)
    (rows : List Integration) :
    writeStates rows (updateWhere (rows.map Integration.seen) selects set) =
      updateWhere rows (fun row => selects row.seen) fun row => { row with state := (set row.seen).state } := by
  induction rows with
  | nil => rfl
  | cons row rows ih =>
    rw [map_cons, updateWhere, map_cons, writeStates,
      updateWhere, map_cons]
    refine congrArg₂ List.cons ?_ ih
    cases selects row.seen with
    | true => rfl
    | false => rfl

def Integration.inAttention (run : Nat) (row : Integration) : Bool :=
  row.runId = run && !row.cancelled && row.state = .attention

def Integration.returned (row : Integration) : Integration :=
  { row with state := if row.receipt.isSome then .prepared else .pending }

open Integration (inAttention runId seen taskId)

/-- A cancellation leaves what is unsettled unsettled. -/
theorem returned_unsettled {run : Nat} (selected : row.inAttention run = true) :
    row.state.unsettled = true ∧ row.returned.state.unsettled = true := by
  rw [inAttention, Bool.and_eq_true, decide_eq_true_eq] at selected
  rw [selected.2, Integration.returned]
  split
  · exact ⟨rfl, rfl⟩
  · exact ⟨rfl, rfl⟩

theorem ne_integrated_of_unsettled {state : IntegrationState} (unsettled : state.unsettled = true) :
    state ≠ .integrated := by
  rintro rfl
  cases unsettled

theorem Indexed.returned {rows : List Integration} (indexed : Indexed rows) (run : Nat) :
    Indexed (updateWhere rows (inAttention run) Integration.returned) := by
  have keepsUnsettled : ∀ row ∈ rows, row.inAttention run = true →
      row.returned.state.unsettled = row.state.unsettled := by
    intro row _ selected
    have unsettled := returned_unsettled selected
    rw [unsettled.1, unsettled.2]
  have keepsIntegrated : ∀ row ∈ rows, row.inAttention run = true →
      decide (row.returned.state = .integrated) = decide (row.state = .integrated) := by
    intro row _ selected
    have unsettled := returned_unsettled selected
    rw [decide_eq_false (ne_integrated_of_unsettled unsettled.1),
      decide_eq_false (ne_integrated_of_unsettled unsettled.2)]
  let returned := updateWhere rows (inAttention run) Integration.returned
  have sameRuns : (returned.filter (·.state.unsettled)).map runId =
      (rows.filter (·.state.unsettled)).map runId :=
    map_filter_updateWhere keepsUnsettled fun _ => rfl
  have sameTasks : (returned.filter (·.state = .integrated)).map taskId =
      (rows.filter (·.state = .integrated)).map taskId :=
    map_filter_updateWhere keepsIntegrated fun _ => rfl
  constructor
  · rw [sameRuns]
    exact indexed.unsettled
  · rw [sameTasks]
    exact indexed.integrated

theorem runStep_effect {event : RunEvent} (done : s.runStep texts event = some t) : Effect s t := by
  obtain ⟨runs, stepped, rfl⟩ := of_map done
  have touched : Touched s.seen runs.store := by
    refine RunMachine.step_touched (fun work is => ?_) stepped
    split at is
    · cases is
      rfl
    · rename_i other
      exact absurd is (other work)
  cases touched with
  | spared spares =>
    refine .same ?_ spares.shas
    have seen : runs.store.work.integrations =
        updateWhere (s.rows.map seen) (fun _ => false) fun row => row := by
      rw [updateWhere_false]
      exact spares.integrations
    rw [seen, writeStates_updateWhere, updateWhere_false]
  | released run shas integrations =>
    have seen : runs.store.work.integrations = release run (s.rows.map seen) := integrations
    have rows : writeStates s.rows runs.store.work.integrations =
        updateWhere s.rows (inAttention run) Integration.returned := by
      rw [seen, release, writeStates_updateWhere]
      rfl
    refine .rewrites _ _ rows ⟨fun _ => rfl, fun _ => rfl, fun _ => rfl, fun _ => rfl⟩
      (fun row _ selected => ?_) (fun indexed => ?_) shas
    · have unsettled := returned_unsettled selected
      exact ⟨ne_integrated_of_unsettled unsettled.1, ne_integrated_of_unsettled unsettled.2⟩
    · rw [rows]
      exact indexed.returned run

/-- What any step does to the integrations and to the commits of runs. -/
theorem step_effect (unique : (s.rows.map Integration.id).Nodup) {event : IntegrationEvent}
    (stepped : s.step texts event = some t) : Effect s t := by
  cases event with
  | run event => exact runStep_effect stepped
  | sources sources =>
    cases stepped
    exact .same rfl fun id row found => ⟨row, found, rfl⟩
  | reserve input id => exact reserve_effect stepped
  | prepare id outcome => exact recordPreparation_effect unique stepped
  | complete receipt => exact complete_effect stepped
  | attention id error => exact attention_effect stepped
  | settleCancelled id receipt => exact settleCancelled_effect unique stepped

end Steps

/-! ## Histories -/

/-- The store, with what has been integrated so far in the order of completion, and the commit that
each run started at. -/
structure IntegrationHistory extends IntegrationStore where
  completed : List Integration
  initialSha : Nat → Option Text

namespace IntegrationHistory

def empty (sources : Sources) : IntegrationHistory where
  runs := .empty
  rows := []
  sources
  completed := []
  initialSha _ := none

def observe (m : IntegrationHistory) (next : IntegrationStore) : IntegrationHistory where
  toIntegrationStore := next
  completed := m.completed ++ next.rows.filter fun row =>
    row.state = .integrated && !m.rows.any fun old => old.id = row.id && old.state = .integrated
  initialSha id :=
    if (m.runs.store.run? id).isSome then m.initialSha id
    else (next.runs.store.run? id).bind RunRow.integrationSha

def step (texts : Texts) (m : IntegrationHistory) (event : IntegrationEvent) : Option IntegrationHistory :=
  (m.toIntegrationStore.step texts event).map m.observe

/-- The completed integrations of a run. -/
def ofRun (m : IntegrationHistory) (run : Nat) : List Integration := m.completed.filter (·.runId = run)

end IntegrationHistory

/-- The integration was made on top of this commit. -/
def Integration.startsAt (sha : Option Text) (row : Integration) : Prop :=
  row.request.expectedSha = sha.getD []

/-- The commit that an integration has led to. -/
def Integration.integratedSha (row : Integration) : Option Text :=
  row.receipt.map IntegrationReceipt.integratedSha

structure Chained (m : IntegrationHistory) : Prop where
  unique : (m.rows.map Integration.id).Nodup
  indexed : Indexed m.rows
  own : ∀ row ∈ m.rows, row.request.runId = row.runId
  known : ∀ row ∈ m.rows, (m.runs.store.run? row.runId).isSome
  logged : ∀ row, row ∈ m.completed ↔ row ∈ m.rows ∧ row.state = .integrated
  distinct : m.completed.Nodup
  receipts : ∀ row ∈ m.completed, row.receipt.isSome
  linked : ∀ id run, m.runs.store.run? id = some run →
    Linked Integration.startsAt Integration.integratedSha (m.initialSha id) (m.ofRun id) run.integrationSha

section Chain

variable {m : IntegrationHistory} {next : IntegrationStore}

theorem initialSha_of_known {id : Nat} {run : RunRow} (known : m.runs.store.run? id = some run) :
    (m.observe next).initialSha id = m.initialSha id := by
  simp [IntegrationHistory.observe, known]

theorem initialSha_of_new {id : Nat} (unknown : m.runs.store.run? id = none) :
    (m.observe next).initialSha id = (next.runs.store.run? id).bind RunRow.integrationSha := by
  simp [IntegrationHistory.observe, unknown]

variable {row : Integration}

section

variable (chained : Chained m)

include chained

section

variable (shas : KeepsShas m.runs.store next.runs.store)

include shas

theorem Chained.known_next (member : row ∈ m.rows) : (next.runs.store.run? row.runId).isSome := by
  obtain ⟨run, found⟩ := isSome_iff_exists.mp (chained.known row member)
  obtain ⟨run', found', -⟩ := shas row.runId run found
  exact isSome_iff_exists.mpr ⟨run', found'⟩

/-- The line of a run is not longer, and its commit is where it was; a new run has no line yet. -/
theorem Chained.linked_next
    (same : (m.observe next).completed = m.completed) (id : Nat) (run : RunRow)
    (found : next.runs.store.run? id = some run) :
    Linked Integration.startsAt Integration.integratedSha ((m.observe next).initialSha id)
      ((m.observe next).ofRun id) run.integrationSha := by
  rw [IntegrationHistory.ofRun, same]
  cases before : m.runs.store.run? id with
  | some old =>
    obtain ⟨run', found', sha⟩ := shas id old before
    cases found.symm.trans found'
    rw [initialSha_of_known before, sha]
    exact chained.linked id old before
  | none =>
    have unlinked : m.completed.filter (·.runId = id) = [] := by
      refine filter_eq_nil_iff.mpr fun row member here => ?_
      have known := chained.known row ((chained.logged row).mp member).1
      rw [of_decide_eq_true here, before] at known
      cases known
    rw [initialSha_of_new before, found, unlinked]
    rfl

/-- Nothing was integrated by the step. -/
theorem Chained.unlogged
    (stays : ∀ row, row ∈ next.rows ∧ row.state = .integrated ↔ row ∈ m.rows ∧ row.state = .integrated)
    (unique : (next.rows.map Integration.id).Nodup) (indexed : Indexed next.rows)
    (own : ∀ row ∈ next.rows, row.request.runId = row.runId)
    (known : ∀ row ∈ next.rows, (next.runs.store.run? row.runId).isSome) :
    Chained (m.observe next) := by
  have nothing : (next.rows.filter fun row => row.state = .integrated &&
      !m.rows.any fun before => before.id = row.id && before.state = .integrated) = [] := by
    refine filter_eq_nil_iff.mpr fun row member selected => ?_
    simp only [Bool.and_eq_true, decide_eq_true_eq, Bool.not_eq_true', any_eq_false] at selected
    obtain ⟨before, integrated⟩ := (stays row).mp ⟨member, selected.1⟩
    exact selected.2 row before ⟨rfl, integrated⟩
  have same : (m.observe next).completed = m.completed :=
    (congrArg (m.completed ++ ·) nothing).trans (append_nil _)
  refine ⟨unique, indexed, own, known, fun row => ?_, same ▸ chained.distinct, same ▸ chained.receipts,
    chained.linked_next shas same⟩
  rw [same]
  exact (chained.logged row).trans (stays row).symm

end

theorem chained_of_rewrites {selects : Integration → Bool}
    {set : Integration → Integration} (rows : next.rows = updateWhere m.rows selects set)
    (keeps : KeepsIdentity set)
    (unintegrated : ∀ row ∈ m.rows, selects row = true →
      row.state ≠ .integrated ∧ (set row).state ≠ .integrated)
    (indexed : Indexed next.rows) (shas : KeepsShas m.runs.store next.runs.store) :
    Chained (m.observe next) := by
  -- what is integrated is neither new nor changed
  have stays : ∀ row, row ∈ next.rows ∧ row.state = .integrated ↔ row ∈ m.rows ∧ row.state = .integrated := by
    intro row
    rw [rows]
    constructor
    · rintro ⟨member, integrated⟩
      obtain ⟨old, memberOld, selected, rfl⟩ | ⟨memberOld, -⟩ := mem_updateWhere_cases member
      · exact absurd integrated (unintegrated old memberOld selected).2
      · exact ⟨memberOld, integrated⟩
    · rintro ⟨member, integrated⟩
      refine ⟨mem_updateWhere_of_kept member fun selected => ?_, integrated⟩
      exact (unintegrated row member selected).1 integrated
  have identity : ∀ row ∈ next.rows, ∃ old ∈ m.rows, row.runId = old.runId ∧ row.request = old.request := by
    intro row member
    rw [rows] at member
    obtain ⟨old, memberOld, rfl⟩ := mem_updateWhere.mp member
    refine ⟨old, memberOld, ?_⟩
    split
    · exact ⟨keeps.runId old, keeps.request old⟩
    · exact ⟨rfl, rfl⟩
  refine chained.unlogged shas stays ?_ indexed (fun row member => ?_) fun row member => ?_
  · rw [rows, map_updateWhere keeps.id]
    exact chained.unique
  · obtain ⟨old, memberOld, run, request⟩ := identity row member
    rw [request, run]
    exact chained.own old memberOld
  · obtain ⟨old, memberOld, run, -⟩ := identity row member
    rw [run]
    exact chained.known_next shas memberOld

theorem chained_of_reserves (rows : next.rows = m.rows ++ [row])
    (fresh : ∀ other ∈ m.rows, other.id ≠ row.id) (pending : row.state = .pending)
    (own : row.request.runId = row.runId) (known : (m.runs.store.run? row.runId).isSome)
    (indexed : Indexed next.rows) (runs : next.runs = m.runs) : Chained (m.observe next) := by
  have shas : KeepsShas m.runs.store next.runs.store := by
    rw [runs]
    exact fun id run found => ⟨run, found, rfl⟩
  have stays : ∀ other, other ∈ next.rows ∧ other.state = .integrated ↔
      other ∈ m.rows ∧ other.state = .integrated := by
    intro other
    rw [rows]
    constructor
    · rintro ⟨member, integrated⟩
      obtain old | isNew := mem_append.mp member
      · exact ⟨old, integrated⟩
      · rw [mem_singleton.mp isNew, pending] at integrated
        cases integrated
    · rintro ⟨member, integrated⟩
      exact ⟨mem_append_left _ member, integrated⟩
  have cases : ∀ other ∈ next.rows, other ∈ m.rows ∨ other = row := by
    intro other member
    rw [rows] at member
    exact (mem_append.mp member).imp_right mem_singleton.mp
  refine chained.unlogged shas stays ?_ indexed (fun other member => ?_) fun other member => ?_
  · rw [rows]
    exact nodup_append_singleton chained.unique fresh
  · obtain old | rfl := cases other member
    · exact chained.own other old
    · exact own
  · obtain old | rfl := cases other member
    · exact chained.known_next shas old
    · rw [runs]
      exact known

end

/-- The row that a completion writes. -/
def Integration.integrate (row : Integration) : Integration := { row with state := .integrated, error := none }

variable (found : m.row? row.id = some row)
  (rows : next.rows = updateWhere m.rows (·.id = row.id) Integration.integrate)

include found rows

/-- The rows are those before, with the completed one integrated. -/
theorem mem_integrated (unique : (m.rows.map Integration.id).Nodup) (other : Integration) :
    other ∈ next.rows ↔ other = row.integrate ∨ other ∈ m.rows ∧ other.id ≠ row.id := by
  rw [rows]
  constructor
  · intro inside
    obtain ⟨old, memberOld, selected, rfl⟩ | ⟨memberOld, kept⟩ := mem_updateWhere_cases inside
    · rw [row_of_id unique found memberOld (of_decide_eq_true selected)]
      exact .inl rfl
    · exact .inr ⟨memberOld, fun same => kept (decide_eq_true same)⟩
  · rintro (rfl | ⟨inside, elsewhere⟩)
    · exact mem_updateWhere_of_selected (lookup_some found).1 (decide_eq_true rfl)
    · exact mem_updateWhere_of_kept inside fun same => elsewhere (of_decide_eq_true same)

/-- What a completion adds to the history is the completed row. -/
theorem observe_integrated (chained : Chained m) (prepared : row.state = .prepared)
    (unique : (next.rows.map Integration.id).Nodup) :
    (m.observe next).completed = m.completed ++ [row.integrate] := by
  have cases := mem_integrated found rows chained.unique
  refine congrArg (m.completed ++ ·) (filter_eq_singleton unique ((cases _).mpr (.inl rfl)) ?_ ?_)
  · refine Bool.and_eq_true_iff.mpr ⟨decide_eq_true rfl, ?_⟩
    rw [Bool.not_eq_true', any_eq_false]
    intro old memberOld selected
    obtain ⟨same, integrated⟩ := Bool.and_eq_true_iff.mp selected
    rw [row_of_id chained.unique found memberOld (of_decide_eq_true same), prepared] at integrated
    cases integrated
  · intro other inside selected
    simp only [Bool.and_eq_true, decide_eq_true_eq, Bool.not_eq_true', any_eq_false] at selected
    obtain rfl | ⟨old, -⟩ := (cases other).mp inside
    · rfl
    · exact absurd ⟨rfl, selected.1⟩ (selected.2 other old)

/-- An integration is completed on top of the commit its run is at, and moves the run to its own. -/
theorem chained_of_integrates (chained : Chained m) {receipt : IntegrationReceipt} {run : RunRow}
    (prepared : row.state = .prepared) (hasReceipt : row.receipt = some receipt)
    (runFound : m.runs.store.run? row.request.runId = some run)
    (current : row.request.expectedSha = run.integrationSha.getD [])
    (indexed : Indexed next.rows)
    (store : next.runs.store = advanceRun m.runs.store row.request receipt) :
    Chained (m.observe next) := by
  have member : row ∈ m.rows := (lookup_some found).1
  have own : row.request.runId = row.runId := chained.own row member
  have sameIds : next.rows.map Integration.id = m.rows.map Integration.id := by
    rw [rows]
    exact map_updateWhere fun _ => rfl
  have unique : (next.rows.map Integration.id).Nodup := by
    rw [sameIds]
    exact chained.unique
  have cases := mem_integrated found rows chained.unique
  have completed := observe_integrated found rows chained prepared unique
  let advance (run : RunRow) : RunRow := { run with integrationSha := some receipt.integratedSha }
  have rewrites : Rewrites m.runs.store next.runs.store row.request.runId advance := by
    rw [store]
    exact Rewrites.trans (.of_same rfl) (updateRun_rewrites fun _ => rfl)
  refine ⟨unique, indexed, fun other inside => ?_, fun other inside => ?_, fun other => ?_, ?_, ?_, ?_⟩
  · obtain rfl | ⟨old, -⟩ := (cases other).mp inside
    · exact own
    · exact chained.own other old
  · have known : (m.runs.store.run? other.runId).isSome := by
      obtain rfl | ⟨old, -⟩ := (cases other).mp inside
      · exact chained.known row member
      · exact chained.known other old
    show (next.runs.store.run? other.runId).isSome
    rw [rewrites]
    split
    · rw [Option.isSome_map]
      exact known
    · exact known
  · rw [completed, mem_append, mem_singleton, chained.logged]
    show _ ↔ other ∈ next.rows ∧ _
    rw [cases]
    constructor
    · rintro (⟨old, integrated⟩ | rfl)
      · refine ⟨.inr ⟨old, fun same => ?_⟩, integrated⟩
        rw [row_of_id chained.unique found old same, prepared] at integrated
        cases integrated
      · exact ⟨.inl rfl, rfl⟩
    · rintro ⟨rfl | ⟨old, -⟩, integrated⟩
      · exact .inr rfl
      · exact .inl ⟨old, integrated⟩
  · rw [completed]
    refine nodup_append.mpr ⟨chained.distinct, nodup_singleton _, ?_⟩
    rintro other logged _ isRow rfl
    obtain ⟨old, integrated⟩ := (chained.logged other).mp logged
    have isDone := mem_singleton.mp isRow
    rw [row_of_id chained.unique found old (by rw [isDone]; rfl), prepared] at integrated
    cases integrated
  · rw [completed]
    exact forall_mem_snoc chained.receipts (isSome_iff_exists.mpr ⟨receipt, hasReceipt⟩)
  · intro id after foundAfter
    have rewritten := rewrites id
    rw [show next.runs.store.run? id = some after from foundAfter] at rewritten
    rw [IntegrationHistory.ofRun, completed, filter_append]
    by_cases here : id = row.request.runId
    · -- the completed integration stands at the end of its run's line
      rw [if_pos here, here, runFound] at rewritten
      cases rewritten
      have ends : (row.integrate).integratedSha = (advance run).integrationSha := by
        show row.receipt.map _ = _
        rw [hasReceipt]
        rfl
      have selected : [row.integrate].filter (·.runId = id) = [row.integrate] := by
        refine filter_eq_self.mpr fun other isRow => decide_eq_true ?_
        rw [mem_singleton.mp isRow, here, own]
        rfl
      rw [here, initialSha_of_known runFound, ← here, selected, ← ends]
      exact (chained.linked id run (here ▸ runFound)).concat current
    · rw [if_neg here] at rewritten
      have dropped : [row.integrate].filter (·.runId = id) = [] := by
        refine filter_eq_nil_iff.mpr fun other isRow same => here ?_
        rw [own, ← of_decide_eq_true same, mem_singleton.mp isRow]
        rfl
      rw [initialSha_of_known rewritten.symm, dropped, append_nil]
      exact chained.linked id after rewritten.symm

omit found rows

theorem Chained.step {texts : Texts} {m' : IntegrationHistory} {event : IntegrationEvent}
    (chained : Chained m) (stepped : m.step texts event = some m') : Chained m' := by
  obtain ⟨next, moved, rfl⟩ := of_map stepped
  cases step_effect chained.unique moved with
  | rewrites selects set rows keeps unintegrated indexed shas =>
    exact chained_of_rewrites chained rows keeps unintegrated (indexed chained.indexed) shas
  | reserves row rows fresh pending own known indexed runs =>
    exact chained_of_reserves chained rows fresh pending own known indexed runs
  | integrates row receipt run found prepared hasReceipt runFound current rows indexed store =>
    exact chained_of_integrates found rows chained prepared hasReceipt runFound current indexed store

theorem empty_chained (sources : Sources) : Chained (.empty sources) where
  unique := nodup_nil
  indexed := ⟨nodup_nil, nodup_nil⟩
  own := nofun
  known := nofun
  logged _ := ⟨nofun, nofun⟩
  distinct := nodup_nil
  receipts := nofun
  linked id run found := by cases found

/-- Among rows whose keys are distinct, at most one has a given key. -/
theorem length_of_key {selects : Integration → Bool} {key : Integration → Nat} {rows : List Integration}
    (distinct : ((rows.filter selects).map key).Nodup) (k : Nat) :
    (rows.filter fun row => key row = k && selects row).length ≤ 1 := by
  rw [← filter_filter]
  refine length_filter_le_one distinct fun row _ row' _ here here' => ?_
  rw [of_decide_eq_true here, of_decide_eq_true here']

/-- **The integrations of a run form one line.**  After any history, the integrated records are those
that were completed, each once and with its receipt; those of a run, in the order of completion, each
expect the commit that the one before has led to, the first one the commit that the run was created
at, and the run is at the last of these commits.  No task has two integrated records, and at most one
record of a run is unsettled. -/
theorem integrations_form_line (texts : Texts) (sources : Sources) (events : List IntegrationEvent)
    (m : IntegrationHistory)
    (ran : Theory.run (IntegrationHistory.step texts) (.empty sources) events = some m) :
    (∀ row, row ∈ m.completed ↔ row ∈ m.rows ∧ row.state = .integrated) ∧ m.completed.Nodup ∧
    (∀ row ∈ m.completed, row.receipt.isSome) ∧
    (∀ id run, m.runs.store.run? id = some run →
      Linked Integration.startsAt Integration.integratedSha (m.initialSha id) (m.ofRun id)
        run.integrationSha) ∧
    (∀ task, (m.rows.filter fun row => row.taskId = task && row.state = .integrated).length ≤ 1) ∧
    (∀ run, (m.rows.filter fun row => row.runId = run && row.state.unsettled).length ≤ 1) := by
  have chained : Chained m :=
    run_invariant Chained (fun _ _ _ chained stepped => chained.step stepped) events _ m
      (empty_chained sources) ran
  exact ⟨chained.logged, chained.distinct, chained.receipts, chained.linked,
    length_of_key chained.indexed.integrated, length_of_key chained.indexed.unsettled⟩

end Chain

/-! ### A run that integrates twice -/

namespace TwoTasks

open RunMachine

def texts : Texts where
  digests := plainDigests
  inputDigest _ := []
  sourceWorkspace _ := ⟨1, 1, 1, "source".toList, "repo".toList⟩
  contentDigest plan := plan.digest
  acceptsResult _ _ := true
  artifacts _ := some []

/-- The tasks 5 and 6. -/
def plan : ProposePlan :=
  { firstPlan with
    plan := ⟨[⟨"build".toList, "Build".toList, [], false⟩],
      [⟨"one".toList, "build".toList, [], none⟩, ⟨"two".toList, "build".toList, [], none⟩],
      "plan".toList, 1⟩
    newTaskId := fun task => if task = "one".toList then 5 else 6 }

def completedTask (id : Nat) (logicalId : Text) : TaskRow :=
  ⟨id, some 1, some 1, logicalId, "build".toList, .completed, some "done".toList, none, true⟩

def work : Work := ⟨[completedTask 5 "one".toList, completedTask 6 "two".toList], [], [], []⟩

/-- The branch of the run is checked out in workspace 2, those of its tasks in 3 and 4. -/
def record (id : Nat) (task : Option Nat) : WorkspaceRecord :=
  ⟨id, 1, 1, task, 1, "repo".toList, id, 1, "tree".toList, "branch".toList, "base".toList, true, task⟩

def workspace (id : Nat) (path : Text) : WorkspaceRow :=
  ⟨id, id, 1, path, "branch".toList, true, true, true⟩

def attempt (task workspaceId : Nat) : AttemptRow :=
  ⟨task, task, some 1, some workspaceId, true, some (List.replicate 40 'a')⟩

def sources : Sources where
  records := [record 2 none, record 3 (some 5), record 4 (some 6)]
  workspaces := workspace 1 "source".toList :: [2, 3, 4].map (workspace · "tree".toList)
  projects := [⟨1, "repo".toList, true⟩]
  attempts := [attempt 5 3, attempt 6 4]
  taskWorkspace _ := some 1

def request (task workspaceId : Nat) (expectedSha : Text) : IntegrationRequest where
  id := task
  repoPath := "repo".toList
  runId := 1
  revision := 1
  taskId := task
  dispatchId := task
  integration := (record 2 none).resource
  source := (record workspaceId (some task)).resource
  expectedSha
  sourceSha := List.replicate 40 'a'
  resultDigest := []
  artifacts := []

def integrate (task workspaceId : Nat) (expectedSha integratedSha : Text) : List IntegrationEvent :=
  let receipt : IntegrationReceipt := ⟨1, request task workspaceId expectedSha, integratedSha, []⟩
  [.reserve ⟨⟨1, 1, task, workspaceId⟩, Nat.toDigits 10 task⟩ task, .prepare task (.ready receipt),
    .complete receipt]

def events : List IntegrationEvent :=
  [.run (.create { guardedRun with approvalRequired := false } 1), .run (.propose plan), .run (.work work)] ++
    integrate 5 3 "source".toList "first".toList ++ integrate 6 4 "first".toList "second".toList

end TwoTasks

theorem integrations_form_line_two :
    ∃ m run, Theory.run (IntegrationHistory.step TwoTasks.texts) (.empty TwoTasks.sources) TwoTasks.events =
        some m ∧ m.runs.store.run? 1 = some run ∧ run.integrationSha = some "second".toList ∧
      (m.ofRun 1).map Integration.integratedSha = [some "first".toList, some "second".toList] ∧
      Linked Integration.startsAt Integration.integratedSha (m.initialSha 1) (m.ofRun 1)
        run.integrationSha := by
  have runs : ((Theory.run (IntegrationHistory.step TwoTasks.texts) (.empty TwoTasks.sources)
      TwoTasks.events).bind fun m => (m.runs.store.run? 1).map fun run =>
        decide (run.integrationSha = some "second".toList ∧
          (m.ofRun 1).map Integration.integratedSha = [some "first".toList, some "second".toList])) =
      some true := by
    decide +kernel
  obtain ⟨m, ran, later⟩ := of_bind runs
  obtain ⟨run, found, holds⟩ := of_map later
  obtain ⟨sha, line⟩ := of_decide_eq_true holds
  have linked := (integrations_form_line _ _ _ m ran).2.2.2.1
  exact ⟨m, run, ran, found, sha, line, linked 1 run found⟩

end Alera.Orchestration
